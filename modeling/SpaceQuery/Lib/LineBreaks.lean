import Mathlib.Tactic

/-!
The line breaks of a byte text: LF, CR LF and a lone CR each end one line. The break of a CR LF pair
is its LF, so whether a position is a break depends on the byte there and the one behind it.
-/

namespace LineBreaks

open List

def lf : UInt8 := 10

def cr : UInt8 := 13

variable (bytes : List UInt8)

/-- A line ends at the position. -/
def isBreak (i : ℕ) : Bool :=
  bytes[i]? = some lf || (bytes[i]? = some cr && bytes[i + 1]? ≠ some lf)

/-- The positions of the line breaks. -/
def positions : List ℕ := (range bytes.length).filter (isBreak bytes)

/-- The number of line breaks. -/
def count : ℕ := (positions bytes).length

/-- The position lies between a CR and the LF of the same break. -/
def cutsCrLf (position : ℕ) : Prop :=
  0 < position ∧ bytes[position - 1]? = some cr ∧ bytes[position]? = some lf

instance (bytes : List UInt8) (position : ℕ) : Decidable (cutsCrLf bytes position) :=
  inferInstanceAs (Decidable (_ ∧ _ ∧ _))

/-- The breaks in front of a position, counted in the whole text. -/
def countBefore (position : ℕ) : ℕ :=
  (range position).countP (isBreak bytes)

lemma count_eq : count bytes = countBefore bytes bytes.length :=
  (countP_eq_length_filter).symm

lemma countBefore_add (m n : ℕ) : countBefore bytes (m + n)
      = countBefore bytes m + (range n).countP (fun i => isBreak bytes (m + i)) := by
  simp only [countBefore, range_add, countP_append, countP_map]
  rfl

variable {bytes : List UInt8} {start stop : ℕ}

/-- A position of a slice is a break as in the text, if the end of the slice does not
cut a pair. -/
lemma isBreak_slice {i : ℕ} (hi : i < stop - start) (hcut : ¬ cutsCrLf bytes stop) :
    isBreak ((bytes.take stop).drop start) i = isBreak bytes (start + i) := by
  have hbyte : ((bytes.take stop).drop start)[i]? = bytes[start + i]? := by
    rw [getElem?_drop, getElem?_take_of_lt (by omega)]
  simp only [isBreak, hbyte]
  by_cases hlast : i + 1 < stop - start
  · have hnext : ((bytes.take stop).drop start)[i + 1]? = bytes[start + i + 1]? := by
      rw [getElem?_drop, getElem?_take_of_lt (by omega), add_assoc]
    rw [hnext]
  · -- the last position: the slice ends behind it, and the text does not go on with LF
    obtain rfl : stop = start + i + 1 := by omega
    simp only [cutsCrLf, Nat.add_sub_cancel, Nat.succ_pos, true_and] at hcut
    by_cases hcr : bytes[start + i]? = some cr
    · have hlf : bytes[start + i + 1]? ≠ some lf := fun h => hcut ⟨hcr, h⟩
      simp [hcr, hlf]
    · simp [hcr]

/-- The breaks of a slice are those of the text in its range, if its end does not cut a
pair. -/
lemma count_slice (hle : start ≤ stop) (hlen : stop ≤ bytes.length) (hcut : ¬ cutsCrLf bytes stop) :
    count ((bytes.take stop).drop start) = countBefore bytes stop - countBefore bytes start := by
  have hlength : ((bytes.take stop).drop start).length = stop - start := by
    simp
    omega
  have hstop : countBefore bytes stop = countBefore bytes start
      + (range (stop - start)).countP (fun i => isBreak bytes (start + i)) := by
    rw [← countBefore_add, Nat.add_sub_cancel' hle]
  rw [count_eq, hlength, hstop, Nat.add_sub_cancel_left]
  refine countP_congr fun i hi => ?_
  rw [isBreak_slice (mem_range.1 hi) hcut]

variable {bytes' : List UInt8}

/-- The number of breaks is the sum over the parts, if no pair is cut. -/
lemma count_append (hcut : ¬ cutsCrLf (bytes ++ bytes') bytes.length) :
    count (bytes ++ bytes') = count bytes + count bytes' := by
  have hend : ¬ cutsCrLf (bytes ++ bytes') (bytes ++ bytes').length := by
    simp [cutsCrLf]
  have hleft := count_slice (Nat.zero_le bytes.length) (by simp) hcut
  have hright := count_slice (show bytes.length ≤ (bytes ++ bytes').length by simp) le_rfl hend
  rw [take_left, drop_zero] at hleft
  rw [take_length, drop_left] at hright
  have hadd := countBefore_add (bytes ++ bytes') bytes.length bytes'.length
  rw [← length_append] at hadd
  have hzero : countBefore (bytes ++ bytes') 0 = 0 := rfl
  rw [count_eq]
  omega

@[simp] lemma positions_nil : positions [] = [] := rfl

/-- Whether the first position is a break, and the breaks behind it. -/
lemma positions_cons (b : UInt8) (bytes : List UInt8) : positions (b :: bytes)
      = if isBreak (b :: bytes) 0 then 0 :: (positions bytes).map (· + 1)
        else (positions bytes).map (· + 1) := by
  have hshift : isBreak (b :: bytes) ∘ Nat.succ = isBreak bytes := by
    funext i
    simp [isBreak]
  rw [positions, length_cons, range_succ_eq_map, filter_cons, filter_map]
  rfl

/-- The breaks in front of a position are those the positions start with. -/
lemma length_takeWhile_positions {position : ℕ} (h : position ≤ bytes.length) :
    ((positions bytes).takeWhile (· < position)).length = countBefore bytes position := by
  obtain ⟨n, hn⟩ := Nat.exists_eq_add_of_le h
  have hfront : ∀ i ∈ (range position).filter (isBreak bytes), decide (i < position) := by
    intro i hi
    simpa using (mem_filter.1 hi).1
  have hnone : ∀ xs : List ℕ, (∀ i ∈ xs, position ≤ i) → xs.takeWhile (· < position) = [] := by
    intro xs hxs
    cases xs <;> simp_all
  have hback : ∀ i ∈ ((range n).map (position + ·)).filter (isBreak bytes), position ≤ i := by
    intro i hi
    obtain ⟨j, -, rfl⟩ := mem_map.1 (mem_filter.1 hi).1
    exact Nat.le_add_right position j
  rw [positions, hn, range_add, filter_append, takeWhile_append_of_pos hfront,
    hnone _ hback, append_nil, countBefore, countP_eq_length_filter]

/-! ### Positions in a range -/

variable {xs : List ℕ}

/-- Behind a number of an ascending list, there is none below it. -/
lemma filter_lt_eq_nil {x : ℕ} (h : (x :: xs).Pairwise (· < ·)) {bound : ℕ}
    (hbound : bound ≤ x) : xs.filter (· < bound) = [] := by
  refine filter_eq_nil_iff.2 fun y hy => ?_
  have hlt := (pairwise_cons.1 h).1 y hy
  rw [decide_eq_true_eq]
  omega

/-- In an ascending list, the numbers below a bound come first. -/
lemma takeWhile_lt_eq_filter (h : xs.Pairwise (· < ·)) (bound : ℕ) :
    xs.takeWhile (· < bound) = xs.filter (· < bound) := by
  induction xs with
  | nil => rfl
  | cons x xs ih =>
    by_cases hx : x < bound
    · simp [hx, ih (pairwise_cons.1 h).2]
    · simp [hx, filter_lt_eq_nil h (Nat.le_of_not_lt hx)]

/-- The first number that is not below a bound stands behind those that are. -/
lemma getElem?_length_takeWhile (xs : List ℕ) (bound : ℕ) :
    xs[(xs.takeWhile (· < bound)).length]? = xs.find? (bound ≤ ·) := by
  induction xs with
  | nil => rfl
  | cons x xs ih =>
    by_cases hx : x < bound
    · simp [hx, Nat.not_le.2 hx, ih]
    · simp [hx, Nat.le_of_not_lt hx]

/-- The last of the numbers below a bound, if there is one. -/
lemma getElem?_pred_length_takeWhile {bound : ℕ} (h : 0 < (xs.takeWhile (· < bound)).length) :
    xs[(xs.takeWhile (· < bound)).length - 1]? = (xs.takeWhile (· < bound)).getLast? := by
  rw [getLast?_eq_getElem?]
  conv_lhs => arg 1; rw [← takeWhile_append_dropWhile (p := (· < bound)) (l := xs)]
  rw [getElem?_append_left (by omega)]

/-- In an ascending list, the numbers between two bounds stand behind those below the first. -/
lemma drop_take_takeWhile (h : xs.Pairwise (· < ·)) {low high : ℕ} (hle : low ≤ high) :
    (xs.take (xs.takeWhile (· < high)).length).drop (xs.takeWhile (· < low)).length
      = xs.filter fun x => low ≤ x && x < high := by
  rw [takeWhile_lt_eq_filter h, takeWhile_lt_eq_filter h]
  induction xs with
  | nil => rfl
  | cons x xs ih =>
    have hxs := ih (pairwise_cons.1 h).2
    by_cases hlow : x < low
    · have hhigh : x < high := by omega
      simp [hlow, hhigh, Nat.not_le.2 hlow, hxs]
    · have hge : low ≤ x := Nat.le_of_not_lt hlow
      have hnone := filter_lt_eq_nil h hge
      rw [hnone, length_nil, drop_zero] at hxs
      by_cases hhigh : x < high
      · simp [hlow, hge, hhigh, hnone, hxs]
      · have hnone' := filter_lt_eq_nil h (Nat.le_of_not_lt hhigh)
        simp [hlow, hhigh, hnone, hnone', ← hxs]

lemma pairwise_positions (bytes : List UInt8) : (positions bytes).Pairwise (· < ·) :=
  pairwise_lt_range.filter _

lemma lt_length_of_mem_positions {i : ℕ} (h : i ∈ positions bytes) : i < bytes.length :=
  mem_range.1 (mem_filter.1 h).1

/-- The breaks of a slice are those of the text in its range, if its end does not cut a pair. -/
lemma positions_slice (hle : start ≤ stop)
    (hlen : stop ≤ bytes.length) (hcut : ¬ cutsCrLf bytes stop) :
    (positions ((bytes.take stop).drop start)).map (start + ·)
      = (positions bytes).filter fun i => start ≤ i && i < stop := by
  have hlength : ((bytes.take stop).drop start).length = stop - start := by
    simp
    omega
  have hslice : positions ((bytes.take stop).drop start)
      = (range (stop - start)).filter fun i => isBreak bytes (start + i) := by
    rw [positions, hlength]
    exact filter_congr fun i hi => isBreak_slice (mem_range.1 hi) hcut
  -- the range of the text falls into what is before, in and behind the slice
  obtain ⟨m, rfl⟩ := Nat.exists_eq_add_of_le hle
  obtain ⟨n, hn⟩ := Nat.exists_eq_add_of_le hlen
  have hbefore : ∀ i ∈ (range start).filter (isBreak bytes), ¬ (start ≤ i && i < start + m) := by
    intro i hi
    have := mem_range.1 (mem_filter.1 hi).1
    simp
    omega
  have hin : ∀ i ∈ ((range m).map (start + ·)).filter (isBreak bytes),
      (start ≤ i && i < start + m) := by
    intro i hi
    obtain ⟨j, hj, rfl⟩ := mem_map.1 (mem_filter.1 hi).1
    have := mem_range.1 hj
    simp
    omega
  have hbehind : ∀ i ∈ ((range n).map (start + m + ·)).filter (isBreak bytes),
      ¬ (start ≤ i && i < start + m) := by
    intro i hi
    obtain ⟨j, -, rfl⟩ := mem_map.1 (mem_filter.1 hi).1
    simp
  rw [hslice, positions, hn, range_add, range_add, filter_append,
    filter_append, filter_append, filter_append, filter_eq_nil_iff.2 hbefore,
    filter_eq_self.2 hin, filter_eq_nil_iff.2 hbehind, append_nil,
    filter_map, Nat.add_sub_cancel_left]
  rfl

/-- The breaks of a text in two parts, if no pair is cut. -/
lemma positions_append (hcut : ¬ cutsCrLf (bytes ++ bytes') bytes.length) :
    positions (bytes ++ bytes') = positions bytes ++ (positions bytes').map (bytes.length + ·) := by
  have hfirst : positions bytes = (range bytes.length).filter (isBreak (bytes ++ bytes')) := by
    refine filter_congr fun i hi => ?_
    have hlt : i < bytes.length - 0 := mem_range.1 hi
    simpa using isBreak_slice hlt hcut
  have hsecond : ∀ i, isBreak (bytes ++ bytes') (bytes.length + i) = isBreak bytes' i := by
    intro i
    simp [isBreak, getElem?_append_right, add_assoc]
  rw [positions, length_append, range_add, filter_append, ← hfirst, filter_map]
  congr 2
  exact filter_congr fun i _ => hsecond i

/-! ### Texts in parts -/

/-- No break is cut between two parts. -/
def Seamless : List (List UInt8) → Prop
  | [] => True
  | part :: parts =>
    ¬ (part.getLast? = some cr ∧ parts.flatten.head? = some lf) ∧ Seamless parts

@[simp] lemma seamless_nil : Seamless [] := trivial

@[simp] lemma seamless_cons (part : List UInt8) (parts : List (List UInt8)) :
    Seamless (part :: parts) ↔
      ¬ (part.getLast? = some cr ∧ parts.flatten.head? = some lf) ∧ Seamless parts := Iff.rfl

lemma cutsCrLf_append (bytes bytes' : List UInt8) : cutsCrLf (bytes ++ bytes') bytes.length ↔
      bytes.getLast? = some cr ∧ bytes'.head? = some lf := by
  obtain rfl | ⟨front, b, rfl⟩ := eq_nil_or_concat' bytes
  · simp [cutsCrLf]
  · have hlast : (front ++ [b] ++ bytes')[(front ++ [b]).length - 1]? = some b := by simp
    rw [cutsCrLf, getElem?_append_right le_rfl]
    simp [head?_eq_getElem?]

/-- A cut of a second part is a cut of the whole. -/
lemma cutsCrLf_append_right {position : ℕ}
    (h : cutsCrLf bytes' (position - bytes.length)) : cutsCrLf (bytes ++ bytes') position := by
  obtain ⟨hpos, hcr, hlf⟩ := h
  refine ⟨by omega, ?_, ?_⟩
  · rw [getElem?_append_right (by omega), ← hcr]
    congr 1
    omega
  · rw [getElem?_append_right (by omega), hlf]

lemma seamless_append (xs ys : List (List UInt8)) : Seamless (xs ++ ys) ↔
      Seamless xs ∧ Seamless ys ∧
        ¬ (xs.flatten.getLast? = some cr ∧ ys.flatten.head? = some lf) := by
  induction xs with
  | nil => simp
  | cons x xs ih =>
    rw [cons_append, seamless_cons, seamless_cons, ih, flatten_cons, flatten_append]
    by_cases hempty : xs.flatten = []
    · simp [hempty]
      tauto
    · rw [head?_append_of_ne_nil _ hempty, getLast?_append_of_ne_nil _ hempty]
      tauto

lemma count_flatten {parts : List (List UInt8)} (h : Seamless parts) :
    count parts.flatten = (parts.map count).sum := by
  induction parts with
  | nil => rfl
  | cons part parts ih =>
    rw [seamless_cons, ← cutsCrLf_append] at h
    rw [flatten_cons, count_append h.1, ih h.2, map_cons, sum_cons]

end LineBreaks
