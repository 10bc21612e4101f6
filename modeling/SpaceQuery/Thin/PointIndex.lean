import SpaceQuery.Thin.OracleNumberRoundTrip

/-!
The 16-bit arithmetic of `encode_oracle_number`.

The decimal point index of the source is an `i16`: the number of digits is narrowed to it, zeros
behind the point count it down, and the exponent is added to it (`i16Results`).
-/

namespace SpaceQuery.Thin

open Prod Option List RustText
open Decimal (IsDigits natValue)

/-! ### A text is a numeral in one way -/

/-- Where a first part ends is seen from the character behind it. -/
lemma append_inj_of_stop {α : Type*} (p : α → Bool) {xs xs' ys ys' : List α}
    (hxs : ∀ x ∈ xs, p x) (hxs' : ∀ x ∈ xs', p x) (hys : ∀ y ∈ ys.head?, p y = false)
    (hys' : ∀ y ∈ ys'.head?, p y = false) (h : xs ++ ys = xs' ++ ys') : xs = xs' ∧ ys = ys' := by
  have hstop : ∀ {zs : List α}, (∀ z ∈ zs.head?, p z = false) → zs.takeWhile p = [] := by
    intro zs hzs
    cases zs with
    | nil => rfl
    | cons z zs => rw [takeWhile_cons_of_neg (by simp [hzs z rfl])]
  have htake := congrArg (takeWhile p) h
  rw [takeWhile_append_of_pos hxs, takeWhile_append_of_pos hxs', hstop hys, hstop hys',
    append_nil, append_nil] at htake
  subst htake
  exact ⟨rfl, append_cancel_left h⟩

variable {digits : List ℕ}

lemma map_digitChar_inj {digits' : List ℕ} (h : IsDigits digits) (h' : IsDigits digits')
    (heq : digits.map digitChar = digits'.map digitChar) : digits = digits' := by
  have hread := congrArg asciiBytes heq
  have hmap := congrArg (mapM digitValue) hread
  rw [← digitBytes, ← digitBytes, mapM_digitValue h, mapM_digitValue h'] at hmap
  exact some.inj hmap

lemma isDigit_of_mem_map (h : IsDigits digits) : ∀ c ∈ digits.map digitChar, c.isDigit := by
  intro c hc
  obtain ⟨d, hd, rfl⟩ := mem_map.mp hc
  exact isDigit_digitChar (h d hd)

namespace DecimalText

variable (t : DecimalText)

lemma isDigits_int : IsDigits t.int := fun d hd =>
  t.isDigits d (mem_append_left _ hd)

lemma isDigits_frac : IsDigits (t.frac.getD []) := fun d hd =>
  t.isDigits d (mem_append_right _ hd)

lemma head_exponentChars : ∀ c ∈ t.exponentChars.head?, c = 'e' ∨ c = 'E' := by
  rw [exponentChars]
  cases t.exponent with
  | none => simp
  | some e =>
    rintro c ⟨⟩
    cases e.uppercase
    · exact .inl rfl
    · exact .inr rfl

lemma head_behind_int : ∀ c ∈ (t.fracChars ++ t.exponentChars).head?, c.isDigit = false := by
  rw [fracChars]
  cases t.frac with
  | none =>
    intro c hc
    obtain rfl | rfl := t.head_exponentChars c hc <;> rfl
  | some frac =>
    rintro c ⟨⟩
    rfl

end DecimalText

open Sign

/-- An exponent is read off its text. -/
lemma Exponent.chars_injective {e e' : Exponent} (h : e.chars = e'.chars) : e = e' := by
  obtain ⟨upper, sign, digits, hdig, hne⟩ := e
  obtain ⟨upper', sign', digits', hdig', hne'⟩ := e'
  obtain ⟨hmark, hrest⟩ := cons.inj h
  dsimp only at hmark hrest
  have hupper : upper = upper' := by
    cases upper <;> cases upper' <;> simp_all
  -- behind the sign there is a digit
  have hstop : ∀ {ds : List ℕ}, IsDigits ds →
      ∀ c ∈ (ds.map digitChar).head?, (!c.isDigit) = false := by
    intro ds hds c hc
    rw [isDigit_of_mem_map hds c (mem_of_mem_head? hc)]
    rfl
  have hsign : ∀ sign : Option Sign, ∀ c ∈ Sign.chars sign, (!c.isDigit) := by
    intro sign
    cases sign with
    | none => simp [Sign.chars]
    | some sign => cases sign <;> simp [Sign.chars]
  obtain ⟨hchars, hmap⟩ := append_inj_of_stop (fun c => !c.isDigit) (hsign sign) (hsign sign')
    (hstop hdig) (hstop hdig') hrest
  have hsign' : sign = sign' := by
    rcases sign with _ | _ | _ <;> rcases sign' with _ | _ | _ <;>
      first | rfl | exact absurd hchars (by decide)
  have hdigits_eq := map_digitChar_inj hdig hdig' hmap
  subst hupper hsign' hdigits_eq
  rfl

namespace DecimalText

variable {t' : DecimalText} {t : DecimalText}

lemma exponent_of_exponentChars (h : t.exponentChars = t'.exponentChars) :
    t.exponent = t'.exponent := by
  rw [exponentChars, exponentChars] at h
  cases he : t.exponent <;> cases he' : t'.exponent <;> rw [he, he'] at h
  case some.some e e' => rw [Exponent.chars_injective h]
  all_goals cases h

lemma head_ne_point (t : DecimalText) (cs : List Char) : t.exponentChars ≠ '.' :: cs := by
  intro h
  have hhead := t.head_exponentChars '.' (by rw [h]; rfl)
  exact absurd hhead (by decide)

/-- The parts of a numeral are read off its text. -/
theorem ext_of_unsigned (h : t.unsigned = t'.unsigned) :
    t.int = t'.int ∧ t.frac = t'.frac ∧ t.exponent = t'.exponent := by
  obtain ⟨hint, hrest⟩ := append_inj_of_stop Char.isDigit (isDigit_of_mem_map t.isDigits_int)
    (isDigit_of_mem_map t'.isDigits_int) t.head_behind_int t'.head_behind_int h
  refine ⟨map_digitChar_inj t.isDigits_int t'.isDigits_int hint, ?_⟩
  have hdig := t.isDigits_frac
  have hdig' := t'.isDigits_frac
  rw [fracChars, fracChars] at hrest
  cases hf : t.frac <;> cases hf' : t'.frac <;> rw [hf, hf'] at hrest
  case none.none => exact ⟨rfl, exponent_of_exponentChars hrest⟩
  case none.some frac' => exact absurd hrest (t.head_ne_point _)
  case some.none frac => exact absurd hrest.symm (t'.head_ne_point _)
  case some.some frac frac' =>
    rw [hf, getD_some] at hdig
    rw [hf'] at hdig'
    have hstop : ∀ t : DecimalText, ∀ c ∈ t.exponentChars.head?, c.isDigit = false := by
      intro t c hc
      obtain rfl | rfl := t.head_exponentChars c hc <;> rfl
    obtain ⟨hfrac, hexp⟩ := append_inj_of_stop Char.isDigit
      (isDigit_of_mem_map hdig) (isDigit_of_mem_map hdig') (hstop t) (hstop t')
      (cons.inj hrest).2
    rw [map_digitChar_inj hdig hdig' hfrac]
    exact ⟨rfl, exponent_of_exponentChars hexp⟩

lemma ascii_of_mem_unsigned (t : DecimalText) : ∀ c ∈ t.unsigned, c.toNat < 128 := fun c hc =>
  (isNumberChar_ascii (isNumberChar_of_mem t c (mem_append_right _ hc))).1

/-- The parts of a numeral are read off its bytes. -/
lemma ext_of_asciiBytes (h : asciiBytes t.unsigned = asciiBytes t'.unsigned) :
    t.int = t'.int ∧ t.frac = t'.frac ∧ t.exponent = t'.exponent := by
  rw [← asBytes_ofList_ascii t.ascii_of_mem_unsigned,
    ← asBytes_ofList_ascii t'.ascii_of_mem_unsigned] at h
  exact ext_of_unsigned (String.ofList_injective (asBytes_injective h))

lemma point_eq_of_ext (h : t.int = t'.int ∧ t.frac = t'.frac ∧ t.exponent = t'.exponent) :
    t.point = t'.point ∧ t.digits = t'.digits := by
  obtain ⟨hint, hfrac, hexp⟩ := h
  simp only [point, significant, digits, exponentValue, hint, hfrac, hexp, and_self]

end DecimalText

/-! ### Results of 16 bits -/

/-- A number that a 16-bit integer holds. -/
def InI16 (n : ℤ) : Prop := -2 ^ 15 ≤ n ∧ n < 2 ^ 15

/-- The point is counted down for each zero behind it that is not pushed. -/
def fractionResults : Bytes → List ℕ → ℤ → List ℤ
  | [], _, _ => []
  | b :: rest, digits, pointIndex =>
    match digitValue b with
    | some digit =>
      if digit = 0 ∧ digits = [] then
        (pointIndex - 1) :: fractionResults rest digits (toI16 (pointIndex - 1))
      else fractionResults rest (digits ++ [digit]) pointIndex
    | none => []

variable (value : String)

/-- The exponent, with its sign, and its sum with the point. -/
def exponentResults (pointIndex : ℤ) : Bytes → List ℤ
  | [] => []
  | b :: rest =>
    if isExponentMark b then
      match exponentOf value rest with
      | .ok exponent => [exponent, pointIndex + exponent]
      | .error _ => []
    else []

/-- The exponent byte of digits that are accepted. -/
def wireResults (digits : List ℕ) (pointIndex : ℤ) : List ℤ :=
  let digits := trimZeros digits
  if digits = [] ∨ 38 < digits.length ∨ ¬ (-129 ≤ pointIndex ∧ pointIndex ≤ 126) then []
  else
    let pointIndex := if pointIndex % 2 ≠ 0 then pointIndex + 1 else pointIndex
    [pointIndex, pointIndex / 2, pointIndex / 2 + 192]

/-- The results behind the digits in front of the point. -/
def behindResults (digits : List ℕ) (rest : Bytes) : List ℤ :=
  let pointIndex := toI16 digits.length
  if rest.head? = some 46 then
    fractionResults rest.tail digits pointIndex ++
      match fractionDigits rest.tail digits pointIndex with
      | none => []
      | some (_, pointIndex, rest) => exponentResults value pointIndex rest
  else exponentResults value pointIndex rest

/-- The exact results of the 16-bit operations of the source on a text without its sign. -/
def i16Results (text : Bytes) : List ℤ :=
  match integerDigits text [] with
  | none => []
  | some (digits, rest) =>
    (digits.length : ℤ) :: (behindResults value digits rest ++
      match parseDecimal value text with
      | .error _ => []
      | .ok (digits, pointIndex) => wireResults digits pointIndex)

/-- No operation overflows or truncates. -/
def NoOverflow (text : Bytes) : Prop := ∀ n ∈ i16Results value text, InI16 n

/-- A text whose point stays within 16 bits at every step: in front of the point, at the
zeros behind it and with the exponent. -/
structure FitsI16 (text : Bytes) : Prop where
  int : ∀ int rest, IsDigits int → (∀ b ∈ rest.head?, isStop b) → text = digitBytes int ++ rest →
    (significant int).length < 2 ^ 15
  zeros : ∀ int zeros rest, IsDigits int → significant int = [] →
    text = digitBytes int ++ 46 :: (digitBytes (replicate zeros 0) ++ rest) → zeros ≤ 2 ^ 15
  point : ∀ t : DecimalText, text = asciiBytes t.unsigned → t.exponentFits → InI16 t.point

lemma inI16_wireResults (digits : List ℕ) (pointIndex : ℤ) :
    ∀ n ∈ wireResults digits pointIndex, InI16 n := by
  rw [wireResults]
  split_ifs with hout hodd
  · simp
  all_goals
    simp only [forall_mem_cons, InI16, not_mem_nil, false_implies, implies_true, and_true]
    omega

/-- Behind a digit that was pushed the point stays. -/
lemma fractionResults_of_ne_nil (h : digits ≠ []) (text : Bytes) (point : ℤ) :
    fractionResults text digits point = [] := by
  induction text generalizing digits with
  | nil => rfl
  | cons b rest ih =>
    rw [fractionResults]
    cases digitValue b with
    | none => rfl
    | some digit =>
      dsimp only
      rw [if_neg (fun hzero => h hzero.2)]
      exact ih (append_ne_nil_of_left_ne_nil h _)

/-- Each zero behind the point counts it down by one. -/
lemma inI16_fractionResults_iff (text : Bytes) {point : ℤ} (h : InI16 point) :
    (∀ n ∈ fractionResults text [] point, InI16 n) ↔
      ∀ zeros rest, text = digitBytes (replicate zeros 0) ++ rest →
        (zeros : ℤ) ≤ point + 2 ^ 15 := by
  induction text generalizing point with
  | nil =>
    refine ⟨fun _ zeros rest htext => ?_, fun _ => by simp [fractionResults]⟩
    cases zeros with
    | zero => have := h.1; omega
    | succ zeros => cases htext
  | cons b text ih =>
    rw [fractionResults]
    by_cases hb : digitValue b = some 0
    · simp only [hb, and_self, if_true, forall_mem_cons]
      obtain rfl : b = 48 := (digitValue_eq_some hb).2
      constructor
      · rintro ⟨hfirst, hrest⟩ zeros rest htext
        rw [toI16_eq_self hfirst.1 hfirst.2] at hrest
        cases zeros with
        | zero => have := h.1; omega
        | succ zeros =>
          have hle := (ih hfirst).mp hrest zeros rest (cons.inj htext).2
          omega
      · intro hzeros
        have hone := hzeros 1 text rfl
        have hfirst : InI16 (point - 1) := by
          have := h.2
          exact ⟨by omega, by omega⟩
        refine ⟨hfirst, ?_⟩
        rw [toI16_eq_self hfirst.1 hfirst.2, ih hfirst]
        intro zeros rest htext
        have hle := hzeros (zeros + 1) rest (by rw [htext]; rfl)
        omega
    · -- the count ends at another character
      refine ⟨fun _ zeros rest htext => ?_, fun _ => ?_⟩
      · cases zeros with
        | zero => have := h.1; omega
        | succ zeros =>
          rw [(cons.inj htext).1] at hb
          exact absurd rfl hb
      · cases hdigit : digitValue b with
        | none => simp
        | some digit =>
          have hne : digit ≠ 0 := fun h0 => hb (h0 ▸ hdigit)
          simp [hne, fractionResults_of_ne_nil]

/-! ### Where the exponent is added -/

variable (value : String)

lemma exponentResults_chars (point : ℤ) (e : Exponent) :
    exponentResults value point (asciiBytes e.chars) =
      if natValue e.digits < 2 ^ 15 then [e.value, point + e.value] else [] := by
  have hmark : isExponentMark (if e.uppercase then 69 else 101) := by
    cases e.uppercase <;> rfl
  rw [asciiBytes_exponentChars, exponentResults, if_pos hmark, exponentOf_chars]
  by_cases hfits : natValue e.digits < 2 ^ 15
  · rw [if_pos hfits, if_neg (by omega)]
  · rw [if_neg hfits, if_pos (by omega)]

variable {rest : Bytes}

lemma exists_of_mem_exponentResults {value : String} {point n : ℤ}
    (h : n ∈ exponentResults value point rest) : ∃ e : Exponent, rest = asciiBytes e.chars := by
  cases rest with
  | nil => cases h
  | cons b rest =>
    rw [exponentResults] at h
    split_ifs at h with hmark
    · split at h
      · rename_i exponent hexp
        obtain ⟨e, he, hrest⟩ := exists_of_exponentOf hexp (b == 69)
        refine ⟨e, ?_⟩
        rw [asciiBytes_exponentChars, hrest, he]
        rw [isExponentMark, Bool.or_eq_true, beq_iff_eq, beq_iff_eq] at hmark
        obtain rfl | rfl := hmark <;> rfl
      · cases h
    · cases h

namespace DecimalText

variable (t : DecimalText)

/-- The decimal point index in front of the exponent, without wrapping. -/
def mantissaPoint : ℤ := t.significant.length - (t.frac.getD []).length

lemma point_eq : t.point = t.mantissaPoint + t.exponentValue := rfl

lemma significant_eq : t.significant = pushDigits (Thin.significant t.int) (t.frac.getD []) :=
  (pushDigits_significant t.int _).symm

/-- The point of a mantissa is in front of its zeros, or behind its integer digits. -/
lemma inI16_mantissaPoint (hint : (Thin.significant t.int).length < 2 ^ 15)
    (hzeros : Thin.significant t.int = [] → ∀ zeros rest,
      t.frac.getD [] = replicate zeros 0 ++ rest → zeros ≤ 2 ^ 15) : InI16 t.mantissaPoint := by
  rw [mantissaPoint, significant_eq, pushDigits]
  split_ifs with hnil
  · obtain ⟨zeros, hfrac⟩ := exists_eq_append_significant (t.frac.getD [])
    have hle := hzeros hnil zeros _ hfrac
    have hlen : (t.frac.getD []).length = zeros + (Thin.significant (t.frac.getD [])).length := by
      rw [← length_replicate (n := zeros) (a := 0), ← length_append, ← hfrac]
    constructor <;> omega
  · rw [length_append]
    constructor <;> omega

/-- What the first loop reads of a numeral. -/
lemma integerDigits_unsigned : integerDigits (asciiBytes t.unsigned) [] =
      some (Thin.significant t.int, asciiBytes (t.fracChars ++ t.exponentChars)) := by
  rw [unsigned, asciiBytes_append]
  refine integerDigits_digitBytes t.isDigits_int _ ?_ []
  rw [fracChars]
  cases t.frac with
  | none =>
    intro b hb
    rw [isStop, Thin.head_exponentChars t b hb, Bool.or_true]
  | some frac =>
    rintro b ⟨⟩
    rfl

end DecimalText

/-- What the second loop reads of a numeral: the point of its mantissa. -/
lemma DecimalText.fractionDigits_frac (t : DecimalText) {frac : List ℕ} (h : t.frac = some frac) :
    fractionDigits (digitBytes frac ++ asciiBytes t.exponentChars) (Thin.significant t.int)
        (toI16 (Thin.significant t.int).length)
      = some (t.significant, toI16 t.mantissaPoint, asciiBytes t.exponentChars) := by
  have hfrac : IsDigits frac := by
    have := t.isDigits_frac
    rwa [h] at this
  rw [fractionDigits_digitBytes hfrac (Thin.head_exponentChars t), mantissaPoint, significant_eq, h,
    getD_some]
  ring_nf

open DecimalText (fracChars unsigned exponentChars mantissaPoint digits exponentFits
  exponentValue ext_of_asciiBytes point_eq_of_ext kept)

/-- The exponent of a numeral is added to the point of its mantissa. -/
lemma behindResults_unsigned (t : DecimalText) :
    ∀ n ∈ exponentResults value (toI16 t.mantissaPoint) (asciiBytes t.exponentChars),
      n ∈ behindResults value (significant t.int)
        (asciiBytes (t.fracChars ++ t.exponentChars)) := by
  intro n hn
  rw [behindResults, fracChars]
  cases hfrac : t.frac with
  | none =>
    have hne : (asciiBytes t.exponentChars).head? ≠ some 46 := fun h =>
      absurd (head_exponentChars t 46 h) (by decide)
    have hpoint : t.mantissaPoint = (significant t.int).length := by
      rw [mantissaPoint, DecimalText.significant, digits, hfrac,
        getD_none, append_nil, length_nil, Nat.cast_zero, sub_zero]
    rw [nil_append, if_neg hne, ← hpoint]
    exact hn
  | some frac =>
    have hbytes : asciiBytes ('.' :: frac.map digitChar ++ t.exponentChars)
        = 46 :: (digitBytes frac ++ asciiBytes t.exponentChars) := asciiBytes_append _ _
    rw [hbytes, tail_cons, t.fractionDigits_frac hfrac]
    exact mem_append_right _ hn

variable {text : Bytes}

/-- The first loop reads a text in one way. -/
lemma significant_eq_of_integerDigits {rest' : Bytes} {int : List ℕ}
    (h : integerDigits text [] = some (digits, rest)) (hint : IsDigits int)
    (hstop : ∀ b ∈ rest'.head?, isStop b) (htext : text = digitBytes int ++ rest') :
    significant int = digits ∧ rest' = rest := by
  have hread := integerDigits_digitBytes hint rest' hstop []
  rw [← htext, h, some.injEq, mk.injEq] at hread
  exact ⟨hread.1.symm, hread.2.symm⟩

/-- The exponent that is added is that of a numeral. -/
lemma exists_of_mem_behindResults {value : String} {n : ℤ}
    (h : integerDigits text [] = some (digits, rest)) (hn : n ∈ behindResults value digits rest) :
    (rest.head? = some 46 ∧ n ∈ fractionResults rest.tail digits (toI16 digits.length)) ∨
      ∃ t : DecimalText, text = asciiBytes t.unsigned ∧
        n ∈ exponentResults value (toI16 t.mantissaPoint) (asciiBytes t.exponentChars) := by
  obtain ⟨int, hint, htext, hstop⟩ := exists_of_integerDigits h
  obtain ⟨rfl, -⟩ := significant_eq_of_integerDigits h hint hstop htext
  rw [behindResults] at hn
  split_ifs at hn with hpoint
  · obtain ⟨behind, rfl⟩ := head?_eq_some_iff.mp hpoint
    rw [mem_append] at hn
    obtain hn | hn := hn
    · exact .inl ⟨hpoint, hn⟩
    right
    rw [tail_cons] at hn
    cases hfrac : fractionDigits behind (significant int) (toI16 (significant int).length) with
    | none =>
      rw [hfrac] at hn
      cases hn
    | some read =>
      obtain ⟨digits', point, rest⟩ := read
      rw [hfrac] at hn
      obtain ⟨more, hmore, rfl, -⟩ := exists_of_fractionDigits hfrac
      obtain ⟨e, rfl⟩ := exists_of_mem_exponentResults hn
      let t : DecimalText := ⟨none, int, some more, some e, isDigits_append hint hmore⟩
      have hread := t.fractionDigits_frac rfl
      have hsame := hread.symm.trans hfrac
      rw [some.injEq, mk.injEq, mk.injEq] at hsame
      refine ⟨t, ?_, ?_⟩
      · rw [htext]
        simp [t, unsigned, fracChars, exponentChars, digitBytes]
      · rw [hsame.2.1]
        exact hn
  · obtain ⟨e, rfl⟩ := exists_of_mem_exponentResults hn
    let t : DecimalText := ⟨none, int, none, some e, by simpa using hint⟩
    have hmant : t.mantissaPoint = (significant int).length := by
      simp [t, mantissaPoint, DecimalText.significant, digits]
    refine .inr ⟨t, ?_, ?_⟩
    · rw [htext]
      simp [t, unsigned, fracChars, exponentChars, digitBytes]
    · rw [hmant]
      exact hn

/-! ### No overflow -/

lemma inI16_exponent {e : Exponent} (h : natValue e.digits < 2 ^ 15) : InI16 e.value := by
  rw [Exponent.value]
  cases e.sign with
  | none => exact ⟨by simp only [apply]; omega, by simp only [apply]; omega⟩
  | some sign =>
    cases sign <;> exact ⟨by simp only [apply]; omega, by simp only [apply]; omega⟩

variable {t : DecimalText}

/-- The exponent of a numeral that fits is added without overflow where its point fits. -/
lemma inI16_exponentResults_iff (h : InI16 t.mantissaPoint) :
    (∀ n ∈ exponentResults value (toI16 t.mantissaPoint) (asciiBytes t.exponentChars), InI16 n) ↔
      (t.exponentFits → InI16 t.point) := by
  rw [toI16_eq_self h.1 h.2, t.point_eq, exponentChars, exponentFits, exponentValue]
  cases t.exponent with
  | none => simp [exponentResults, h]
  | some e =>
    rw [map_some, getD_some, exponentResults_chars]
    rw [decide_eq_true_eq]
    by_cases hfits : natValue e.digits < 2 ^ 15
    · rw [if_pos hfits, forall_mem_cons, forall_mem_singleton]
      exact ⟨fun hall _ => hall.2, fun hpoint => ⟨inI16_exponent hfits, hpoint hfits⟩⟩
    · rw [if_neg hfits]
      exact ⟨fun _ hfits' => absurd hfits' hfits, fun _ n hn => absurd hn not_mem_nil⟩

/-- The zeros behind the point count it down within 16 bits. -/
lemma inI16_zeros_iff (h : integerDigits text [] = some (digits, rest)) : (rest.head? = some 46 →
        ∀ n ∈ fractionResults rest.tail digits (toI16 digits.length), InI16 n) ↔
      ∀ int zeros rest', IsDigits int → significant int = [] →
        text = digitBytes int ++ 46 :: (digitBytes (replicate zeros 0) ++ rest') →
        zeros ≤ 2 ^ 15 := by
  obtain ⟨int, hint, htext, hstop⟩ := exists_of_integerDigits h
  obtain ⟨hdig, -⟩ := significant_eq_of_integerDigits h hint hstop htext
  have hzero : InI16 0 := ⟨by norm_num, by norm_num⟩
  constructor
  · intro hresults int' zeros rest' hint' hnil htext'
    obtain ⟨rfl, rfl⟩ := significant_eq_of_integerDigits h hint' (by rintro b ⟨⟩; rfl) htext'
    have hall := hresults rfl
    rw [hnil] at hall
    have hle := (inI16_fractionResults_iff _ hzero).mp hall zeros rest' rfl
    omega
  · intro hzeros hpoint
    by_cases hnil : digits = []
    · subst hnil
      refine (inI16_fractionResults_iff _ hzero).mpr fun zeros rest' htail => ?_
      obtain ⟨frac, rfl⟩ := head?_eq_some_iff.mp hpoint
      rw [tail_cons] at htail
      have hle := hzeros int zeros rest' hint hdig (by rw [htext, htail])
      omega
    · rw [fractionResults_of_ne_nil hnil]
      exact fun n hn => absurd hn not_mem_nil

lemma inI16_mantissaPoint_of_fits (hint : ∀ int rest, IsDigits int → (∀ b ∈ rest.head?, isStop b) →
      text = digitBytes int ++ rest → (significant int).length < 2 ^ 15)
    (hzeros : ∀ int zeros rest, IsDigits int → significant int = [] →
      text = digitBytes int ++ 46 :: (digitBytes (replicate zeros 0) ++ rest) →
      zeros ≤ 2 ^ 15) (htext : text = asciiBytes t.unsigned) : InI16 t.mantissaPoint := by
  obtain ⟨int, hint', htext', hstop⟩ := exists_of_integerDigits (htext ▸ t.integerDigits_unsigned)
  obtain ⟨hdig, -⟩ := significant_eq_of_integerDigits (htext ▸ t.integerDigits_unsigned)
    hint' hstop htext'
  refine t.inI16_mantissaPoint (hdig ▸ hint int _ hint' hstop htext') ?_
  intro hnil zeros rest hfrac
  cases hf : t.frac with
  | none =>
    rw [hf, getD_none, eq_comm, append_eq_nil_iff, replicate_eq_nil_iff] at hfrac
    omega
  | some frac =>
    rw [hf, getD_some] at hfrac
    refine hzeros t.int zeros (digitBytes rest ++ asciiBytes t.exponentChars) t.isDigits_int hnil ?_
    rw [htext, unsigned, fracChars, hf, hfrac]
    simp [digitBytes]

/-- The 16-bit operations on a text do not overflow when the text fits. -/
theorem noOverflow_iff (text : Bytes) : NoOverflow value text ↔ FitsI16 text := by
  rw [NoOverflow, i16Results]
  cases h : integerDigits text [] with
  | none =>
    -- the first loop stops at a character that is no part of a number
    have hnone : ∀ int rest, IsDigits int → (∀ b ∈ rest.head?, isStop b) →
        text ≠ digitBytes int ++ rest := by
      intro int rest hint hstop htext
      rw [htext, integerDigits_digitBytes hint rest hstop] at h
      cases h
    refine ⟨fun _ => ⟨?_, ?_, ?_⟩, fun _ n hn => absurd hn not_mem_nil⟩
    · exact fun int rest hint hstop htext => absurd htext (hnone int rest hint hstop)
    · intro int zeros rest hint hnil htext
      exact absurd htext (hnone int _ hint (by rintro b ⟨⟩; rfl))
    · intro t htext
      rw [htext, t.integerDigits_unsigned] at h
      cases h
  | some read =>
    obtain ⟨digits, rest⟩ := read
    have hwire : ∀ n ∈ (match parseDecimal value text with
        | .error _ => []
        | .ok (digits, pointIndex) => wireResults digits pointIndex), InI16 n := by
      cases parseDecimal value text with
      | error err => simp
      | ok read => exact inI16_wireResults read.1 read.2
    rw [forall_mem_cons, forall_mem_append]
    constructor
    · rintro ⟨hlen, hbehind, -⟩
      have hint : ∀ int rest, IsDigits int → (∀ b ∈ rest.head?, isStop b) →
          text = digitBytes int ++ rest → (significant int).length < 2 ^ 15 := by
        intro int rest' hint hstop htext
        rw [(significant_eq_of_integerDigits h hint hstop htext).1]
        exact_mod_cast hlen.2
      have hzeros := (inI16_zeros_iff h).mp fun hpoint n hn => hbehind n (by
        rw [behindResults, if_pos hpoint]
        exact mem_append_left _ hn)
      refine ⟨hint, hzeros, fun t htext => ?_⟩
      have hmant := inI16_mantissaPoint_of_fits hint hzeros htext
      refine (inI16_exponentResults_iff value hmant).mp fun n hn => hbehind n ?_
      rw [htext, t.integerDigits_unsigned, some.injEq, mk.injEq] at h
      rw [← h.1, ← h.2]
      exact behindResults_unsigned value t n hn
    · rintro ⟨hint, hzeros, hpoint⟩
      obtain ⟨int, hint', htext, hstop⟩ := exists_of_integerDigits h
      have hlen := hint int rest hint' hstop htext
      rw [(significant_eq_of_integerDigits h hint' hstop htext).1] at hlen
      refine ⟨⟨by omega, by exact_mod_cast hlen⟩, fun n hn => ?_, hwire⟩
      obtain ⟨hhead, hn⟩ | ⟨t, htext, hn⟩ := exists_of_mem_behindResults h hn
      · exact (inI16_zeros_iff h).mpr hzeros hhead n hn
      · have hmant := inI16_mantissaPoint_of_fits hint hzeros htext
        exact (inI16_exponentResults_iff value hmant).mpr (hpoint t htext) n hn

/-! ### Which texts are accepted -/

open String (ofList)

/-- The text that is read, without its sign. -/
def unsignedBytes (text : String) : Bytes :=
  match asBytes (ofList (trim text.toList)) with
  | [] => []
  | b :: rest => if b = 45 ∨ b = 43 then rest else b :: rest

variable {text : String}

lemma unsignedBytes_text (h : ofList (trim text.toList) = t.text) :
    unsignedBytes text = asciiBytes t.unsigned := by
  rw [unsignedBytes, h, asBytes_text]
  cases t.sign with
  | some sign => cases sign <;> rfl
  | none =>
    cases hbytes : asciiBytes t.unsigned with
    | nil => rfl
    | cons b rest =>
      obtain ⟨hb, hb'⟩ := sign_ne_of_unsigned hbytes
      simp [chars, hb, hb']

/-- The 16-bit operations of the encoder do not overflow; a text without anything behind its
sign is refused before them. -/
def NoI16Overflow (text : String) : Prop :=
  unsignedBytes text = [] ∨ NoOverflow (ofList (trim text.toList)) (unsignedBytes text)

/-- A text is encoded behind its sign. -/
lemma exists_sign_of_encode {bytes : Bytes} (h : encodeOracleNumber text = .ok bytes) :
    ∃ (sign : Option Sign) (read : List ℕ × ℤ), unsignedBytes text ≠ [] ∧
      asBytes (ofList (trim text.toList)) = asciiBytes (chars sign) ++ unsignedBytes text ∧
      parseDecimal (ofList (trim text.toList)) (unsignedBytes text) = .ok read := by
  rw [encodeOracleNumber] at h
  rw [unsignedBytes]
  cases hbytes : asBytes (ofList (trim text.toList)) with
  | nil =>
    rw [hbytes] at h
    cases h
  | cons b rest =>
    rw [hbytes] at h
    dsimp only at h ⊢
    rw [encodeUnsigned] at h
    set unsigned := if b = 45 ∨ b = 43 then rest else b :: rest with hunsigned
    by_cases hnil : unsigned = []
    · rw [if_pos hnil] at h
      cases h
    rw [if_neg hnil] at h
    obtain ⟨read, hread, -⟩ := Except.exists_of_bind_eq_ok h
    have hsign : ∃ sign, b :: rest = asciiBytes (chars sign) ++ unsigned := by
      rw [hunsigned]
      split_ifs with hb
      · obtain rfl | rfl := hb
        · exact ⟨some .minus, rfl⟩
        · exact ⟨some .plus, rfl⟩
      · exact ⟨none, rfl⟩
    obtain ⟨sign, hsign⟩ := hsign
    exact ⟨sign, read, hnil, hsign, hread⟩

/-- What is accepted is a numeral, though its digits may be missing. -/
lemma exists_decimalText_of_encode {bytes : Bytes} (h : encodeOracleNumber text = .ok bytes) :
    ∃ t : DecimalText, ofList (trim text.toList) = t.text ∧ t.unsigned ≠ [] := by
  obtain ⟨sign, read, hne, hbytes, hread⟩ := exists_sign_of_encode h
  obtain ⟨t, rfl, htext⟩ := exists_decimalText_of_parseDecimal hread sign
  refine ⟨t, asBytes_injective ?_, ?_⟩
  · rw [hbytes, htext, asBytes_text]
  · rintro hnil
    rw [htext, hnil] at hne
    exact hne rfl

lemma encodeOracleNumber_trim (h : ofList (trim text.toList) = t.text) :
    encodeOracleNumber text = encodeOracleNumber t.text := by
  rw [encodeOracleNumber, encodeOracleNumber, trim_text, h]

/-- A text that is no number of Oracle is refused, and no operation on 16 bits overflows,
exactly for the texts that have a digit in front of their exponent, if they are numerals at
all, and whose point fits 16 bits at every step. -/
theorem accepts_numerals_iff (text : String) : ((∀ bytes, encodeOracleNumber text = .ok bytes →
        ∃ t : DecimalText, ofList (trim text.toList) = t.text ∧ t.digits ≠ [] ∧
          Representable t.value) ∧ NoI16Overflow text) ↔
      (∀ t : DecimalText, ofList (trim text.toList) = t.text → t.unsigned ≠ [] →
        t.exponentFits → t.digits ≠ []) ∧
      (unsignedBytes text = [] ∨ FitsI16 (unsignedBytes text)) := by
  rw [NoI16Overflow, noOverflow_iff]
  refine and_congr_left fun hfits => ⟨fun haccept t htext hne hexponent hnil => ?_,
    fun hdigits bytes hok => ?_⟩
  · -- a numeral without digits is encoded as zero
    have hkept : t.kept = [] := by rw [kept, DecimalText.significant, hnil]; rfl
    have hspec := encodeOracleNumber_text_eq t hne
    rw [if_pos hexponent, if_pos hkept, ← encodeOracleNumber_trim htext] at hspec
    obtain ⟨t', htext', hdigits', -⟩ := haccept _ hspec
    have hsame := ext_of_asciiBytes
      ((unsignedBytes_text htext').symm.trans (unsignedBytes_text htext))
    exact hdigits' ((point_eq_of_ext hsame).2.trans hnil)
  · obtain ⟨t, htext, hne⟩ := exists_decimalText_of_encode hok
    have hbytes := unsignedBytes_text htext
    have hspec := encodeOracleNumber_text_eq t hne
    rw [← encodeOracleNumber_trim htext, hok] at hspec
    have hexponent : t.exponentFits := by
      by_contra hlarge
      rw [if_neg hlarge] at hspec
      cases hspec
    have hne' : unsignedBytes text ≠ [] := by
      rw [hbytes]
      exact fun h => hne (map_eq_nil_iff.mp h)
    obtain ⟨hlow, hhigh⟩ := (hfits.resolve_left hne').point t hbytes hexponent
    refine ⟨t, htext, hdigits t htext hne hexponent, (representable_value_iff t).mpr ?_⟩
    by_cases hkept : t.kept = []
    · exact .inl hkept
    · rw [toI16_eq_self hlow hhigh] at hspec
      split_ifs at hspec with hout
      exact .inr (by omega)

/-- A point alone is accepted, as zero. -/
theorem lone_point_accepted : ¬ ((∀ bytes, encodeOracleNumber "." = .ok bytes →
      ∃ t : DecimalText, ofList (trim ".".toList) = t.text ∧ t.digits ≠ [] ∧
        Representable t.value) ∧ NoI16Overflow ".") := by
  rintro ⟨haccept, -⟩
  let point : DecimalText := ⟨none, [], some [], none, by simp [IsDigits]⟩
  have htext : ofList (trim ".".toList) = point.text := by decide +kernel
  have hspec : encodeOracleNumber "." = .ok [0x80] := by
    rfl
  obtain ⟨t, htext', hdigits, -⟩ := haccept _ hspec
  have hsame := ext_of_asciiBytes
    ((unsignedBytes_text htext').symm.trans (unsignedBytes_text htext))
  exact hdigits (point_eq_of_ext hsame).2

/-! ### Which numbers make the round trip -/

lemma exponentFits_iff (hlow : -2 ^ 15 ≤ t.exponentValue) (hhigh : t.exponentValue ≤ 2 ^ 15 - 1) :
    t.exponentFits ↔ t.exponentValue ≠ -2 ^ 15 := by
  rw [exponentValue] at *
  rw [exponentFits]
  cases he : t.exponent with
  | none => simp
  | some e =>
    rw [he, map_some, getD_some, Exponent.value] at hlow hhigh
    rw [map_some, getD_some, Exponent.value]
    rw [decide_eq_true_eq]
    cases hsign : e.sign with
    | none =>
      rw [hsign] at hlow hhigh
      simp only [apply] at *
      omega
    | some sign =>
      rw [hsign] at hlow hhigh
      cases sign <;> (simp only [apply] at *; omega)

/-- A numeral whose exponent is a 16-bit integer and whose value is a number of Oracle makes
the round trip unless the exponent is the smallest one: its sign is taken off before its digits
are read as a 16-bit integer. -/
theorem roundTrips_iff (t : DecimalText) (hdigits : t.digits ≠ [])
    (hlow : -2 ^ 15 ≤ t.exponentValue) (hhigh : t.exponentValue ≤ 2 ^ 15 - 1)
    (h : Representable t.value) : t.RoundTrips ↔ t.exponentValue ≠ -2 ^ 15 :=
  (roundTrips_iff_exponentFits hdigits h).trans (exponentFits_iff hlow hhigh)

/-- The numeral `-0012.50e-1`. -/
def exampleNumeral : DecimalText :=
  ⟨some .minus, [0, 0, 1, 2], some [5, 0], some ⟨false, some .minus, [1], by simp [IsDigits],
    by simp⟩, by simp [IsDigits]⟩

/-- The numeral `0e-32768`. -/
def smallestExponent : DecimalText :=
  ⟨none, [0], none, some ⟨false, some .minus, [3, 2, 7, 6, 8], by simp [IsDigits], by simp⟩,
    by simp [IsDigits]⟩

theorem roundTrips_exampleNumeral :
    exampleNumeral.text = "-0012.50e-1" ∧ exampleNumeral.RoundTrips :=
  ⟨by decide +kernel, (roundTrips_iff exampleNumeral (by decide) (by decide) (by decide)
    ((representable_value_iff _).mpr (.inr (by decide)))).mpr (by decide)⟩

/-- Zero with the smallest exponent is refused. -/
theorem smallestExponent_refused :
    smallestExponent.text = "0e-32768" ∧ smallestExponent.digits ≠ [] ∧
      smallestExponent.value = 0 ∧ smallestExponent.exponentValue = -2 ^ 15 ∧
      encodeOracleNumber smallestExponent.text
        = .error (.other "number too large to fit in target type") ∧
      ¬ smallestExponent.RoundTrips := by
  have hspec := encodeOracleNumber_text_eq smallestExponent (by decide)
  refine ⟨by decide +kernel, by decide, (DecimalText.value_eq_zero_iff _).mpr rfl, by decide, hspec,
    ?_⟩
  rintro ⟨bytes, decoded, hbytes, -⟩
  cases hbytes

end SpaceQuery.Thin
