import Mathlib.Data.Nat.Find
import Mathlib.Tactic

/-!
UTF-8 texts as byte lists, the character boundaries in them, and the slices between boundaries.
-/

namespace Utf8

open UInt8 List

/-- A byte `10xxxxxx` continues a character. -/
def isContinuation (b : UInt8) : Bool := b &&& 0xC0 == 0x80

open String hiding length_append

/-- The bytes of a list of characters. -/
def encode (cs : List Char) : List UInt8 := cs.flatMap utf8EncodeChar

variable (bytes : List UInt8)

/-- The bytes encode some characters. -/
def Valid : Prop := ∃ cs, encode cs = bytes

/-- `str::is_char_boundary`. -/
def isCharBoundary (index : ℕ) : Bool :=
  if index = 0 then true
  else match bytes[index]? with
    | none => index = bytes.length
    | some b => !isContinuation b

lemma isContinuation_ofFin : ∀ n : Fin 256,
    isContinuation (ofNat n) = decide (128 ≤ n.val ∧ n.val < 192) := by
  decide +kernel

lemma isContinuation_ofNat {n : ℕ} (h : n < 256) :
    isContinuation (ofNat n) = decide (128 ≤ n ∧ n < 192) :=
  isContinuation_ofFin ⟨n, h⟩

lemma isContinuation_low (n : ℕ) : isContinuation (ofNat (n % 64 + 128)) := by
  rw [isContinuation_ofNat (by omega), decide_eq_true_eq]
  omega

lemma isContinuation_high {n : ℕ} (h : 192 ≤ n) (hlt : n < 256) :
    isContinuation (ofNat n) = false ∧ ¬ (ofNat n).toNat < 128 := by
  rw [isContinuation_ofNat hlt, decide_eq_false_iff_not, toNat_ofNat']
  omega

/-- A character is a byte that starts it and its continuation bytes; an ASCII byte is a
whole character. -/
lemma exists_utf8EncodeChar_eq (c : Char) :
    ∃ lead rest, utf8EncodeChar c = lead :: rest ∧ isContinuation lead = false ∧
      (∀ b ∈ rest, isContinuation b) ∧ (lead.toNat < 128 → rest = []) := by
  rw [utf8EncodeChar]
  generalize c.val.toNat = v
  split_ifs with h₁ h₂ h₃
  · refine ⟨_, _, rfl, ?_, by simp, fun _ => rfl⟩
    rw [isContinuation_ofNat (by omega), decide_eq_false_iff_not]
    omega
  · obtain ⟨hlead, hhigh⟩ := isContinuation_high (n := v / 64 % 32 + 192) (by omega) (by omega)
    exact ⟨_, _, rfl, hlead, forall_mem_singleton.2 (isContinuation_low _),
      fun h => absurd h hhigh⟩
  · obtain ⟨hlead, hhigh⟩ := isContinuation_high (n := v / 4096 % 16 + 224) (by omega) (by omega)
    exact ⟨_, _, rfl, hlead, forall_mem_cons.2 ⟨isContinuation_low _,
      forall_mem_singleton.2 (isContinuation_low _)⟩, fun h => absurd h hhigh⟩
  · obtain ⟨hlead, hhigh⟩ := isContinuation_high (n := v / 262144 % 8 + 240) (by omega) (by omega)
    exact ⟨_, _, rfl, hlead, forall_mem_cons.2 ⟨isContinuation_low _,
      forall_mem_cons.2 ⟨isContinuation_low _,
        forall_mem_singleton.2 (isContinuation_low _)⟩⟩, fun h => absurd h hhigh⟩

/-- An ASCII character is its byte. -/
lemma utf8EncodeChar_ascii {c : Char} (h : c.toNat < 128) : utf8EncodeChar c = [ofNat c.toNat] := by
  have hle : c.val.toNat ≤ 127 := by
    change c.toNat ≤ 127
    omega
  rw [utf8EncodeChar]
  simp only [hle, if_true]
  rfl

/-! ### Boundaries -/

@[simp] lemma encode_nil : encode [] = [] := rfl

@[simp] lemma encode_cons (c : Char) (cs : List Char) :
    encode (c :: cs) = utf8EncodeChar c ++ encode cs := rfl

@[simp] lemma encode_append (cs cs' : List Char) :
    encode (cs ++ cs') = encode cs ++ encode cs' := by
  simp [encode]

@[simp] lemma isCharBoundary_zero : isCharBoundary bytes 0 := rfl

@[simp] lemma isCharBoundary_length : isCharBoundary bytes bytes.length := by
  simp [isCharBoundary]

variable {bytes} {b : UInt8} {index : ℕ}

/-- In front of a byte, the test looks at that byte. -/
lemma isCharBoundary_eq (hpos : index ≠ 0)
    (hb : bytes[index]? = some b) : isCharBoundary bytes index = !isContinuation b := by
  simp [isCharBoundary, hpos, hb]

lemma le_length_of_isCharBoundary (h : isCharBoundary bytes index) : index ≤ bytes.length := by
  by_contra hlt
  have hnone : bytes[index]? = none := getElem?_eq_none (by omega)
  have hne : index ≠ bytes.length := by omega
  have hpos : index ≠ 0 := by omega
  simp [isCharBoundary, hnone, hne, hpos] at h

/-- The boundaries of a first part. -/
lemma isCharBoundary_take {stop : ℕ} (hle : index ≤ stop)
    (h : isCharBoundary bytes index) : isCharBoundary (bytes.take stop) index := by
  have hlen := le_length_of_isCharBoundary h
  obtain hlt | heq := hle.lt_or_eq
  · rw [isCharBoundary] at h ⊢
    rw [getElem?_take_of_lt hlt]
    split_ifs at h ⊢
    · rfl
    · cases hb : bytes[index]? with
      | none =>
        have := getElem?_eq_none_iff.1 hb
        simp
        omega
      | some b => simpa [hb] using h
  · have hlength : (bytes.take stop).length = index := by
      rw [length_take]
      omega
    rw [← hlength]
    exact isCharBoundary_length _

/-- The boundaries behind another one. -/
lemma isCharBoundary_drop {start : ℕ} (hle : start ≤ index) (h : isCharBoundary bytes index) :
    isCharBoundary (bytes.drop start) (index - start) := by
  obtain heq | hlt := hle.eq_or_lt
  · simp [heq]
  · rw [isCharBoundary] at h ⊢
    rw [if_neg (by omega)] at h ⊢
    rw [getElem?_drop, Nat.add_sub_cancel' hle, length_drop]
    cases hb : bytes[index]? with
    | none =>
      rw [hb] at h
      simp only [decide_eq_true_eq] at h ⊢
      omega
    | some b => simpa [hb] using h

variable {bytes' : List UInt8}

/-- Behind a first part, the boundaries are those of the second one. -/
lemma isCharBoundary_append_right (h : bytes.length < index) :
    isCharBoundary (bytes ++ bytes') index = isCharBoundary bytes' (index - bytes.length) := by
  have hpos : index ≠ 0 := by omega
  have hpos' : index - bytes.length ≠ 0 := by omega
  have hlen : index = bytes.length + bytes'.length ↔ index - bytes.length = bytes'.length := by
    omega
  simp [isCharBoundary, hpos, hpos', getElem?_append_right h.le, hlen]

/-- A boundary of a text in two parts, clamped to each of the parts. -/
lemma isCharBoundary_append_min
    (h : isCharBoundary (bytes ++ bytes') (min index (bytes ++ bytes').length)) :
    isCharBoundary bytes (min index bytes.length) ∧
      isCharBoundary bytes' (min (index - bytes.length) bytes'.length) := by
  rw [length_append] at h
  obtain hle | hgt := le_or_gt index bytes.length
  · have hzero : index - bytes.length = 0 := by omega
    rw [min_eq_left (by omega)] at h
    have htake := isCharBoundary_take hle h
    rw [take_left] at htake
    rw [hzero, min_eq_left hle]
    exact ⟨htake, rfl⟩
  · rw [min_eq_right hgt.le]
    refine ⟨isCharBoundary_length bytes, ?_⟩
    obtain hempty | hpos := bytes'.length.eq_zero_or_pos
    · rw [hempty, Nat.min_zero]
      rfl
    · rw [isCharBoundary_append_right (by omega)] at h
      rw [← h]
      congr 1
      omega

/-- The boundaries of a valid text stand between its characters. -/
lemma exists_encode_of_isCharBoundary (cs : List Char) (h : isCharBoundary (encode cs) index) :
    ∃ front back, cs = front ++ back ∧ (encode front).length = index := by
  induction cs generalizing index with
  | nil =>
    have hle := le_length_of_isCharBoundary h
    exact ⟨[], [], rfl, (Nat.le_zero.1 hle).symm⟩
  | cons c cs ih =>
    obtain ⟨lead, rest, hc, -, hrest, -⟩ := exists_utf8EncodeChar_eq c
    rw [encode_cons] at h
    rcases Nat.lt_trichotomy index (utf8EncodeChar c).length with hlt | heq | hgt
    · -- inside a character there are only continuation bytes
      cases index with
      | zero => exact ⟨[], c :: cs, rfl, rfl⟩
      | succ i =>
        rw [hc, length_cons] at hlt
        have hbyte : (utf8EncodeChar c ++ encode cs)[i + 1]? = rest[i]? := by
          rw [hc, cons_append, getElem?_cons_succ, getElem?_append_left (by omega)]
        have hi : rest[i]? = some rest[i] := getElem?_eq_getElem (by omega)
        simp [isCharBoundary, hbyte, hi, hrest _ (getElem_mem _)] at h
    · exact ⟨[c], cs, rfl, by simp [heq]⟩
    · rw [isCharBoundary_append_right hgt] at h
      obtain ⟨front, back, rfl, hlen⟩ := ih h
      refine ⟨c :: front, back, rfl, ?_⟩
      rw [encode_cons, length_append]
      omega

/-! ### Valid texts -/

lemma valid_nil : Valid [] := ⟨[], rfl⟩

lemma Valid.append (h : Valid bytes) (h' : Valid bytes') : Valid (bytes ++ bytes') := by
  obtain ⟨cs, rfl⟩ := h
  obtain ⟨cs', rfl⟩ := h'
  exact ⟨cs ++ cs', encode_append cs cs'⟩

lemma valid_flatten {parts : List (List UInt8)} (h : ∀ part ∈ parts, Valid part) :
    Valid parts.flatten := by
  induction parts with
  | nil => exact valid_nil
  | cons part parts ih =>
    rw [forall_mem_cons] at h
    exact h.1.append (ih h.2)

/-- A valid text is cut into valid texts at a boundary. -/
lemma Valid.split (h : Valid bytes) (hidx : isCharBoundary bytes index) :
    Valid (bytes.take index) ∧ Valid (bytes.drop index) := by
  obtain ⟨cs, rfl⟩ := h
  obtain ⟨front, back, rfl, rfl⟩ := exists_encode_of_isCharBoundary cs hidx
  rw [encode_append, take_left, drop_left]
  exact ⟨⟨front, rfl⟩, ⟨back, rfl⟩⟩

/-- The first byte of a valid text starts a character. -/
lemma Valid.head (h : Valid (b :: bytes)) : isContinuation b = false := by
  obtain ⟨_ | ⟨c, cs⟩, hcs⟩ := h
  · cases hcs
  · obtain ⟨lead, rest, hc, hlead, -, -⟩ := exists_utf8EncodeChar_eq c
    rw [encode_cons, hc] at hcs
    rw [← (cons.inj hcs).1]
    exact hlead

/-- A valid text starts at a boundary, whatever stands in front of it. -/
lemma Valid.isCharBoundary_append (h : Valid bytes') (bytes : List UInt8) :
    isCharBoundary (bytes ++ bytes') bytes.length := by
  cases bytes' with
  | nil => simp
  | cons b bytes' =>
    rw [isCharBoundary]
    split_ifs
    · rfl
    · simp [h.head]

/-- Behind an ASCII byte there is a boundary. -/
lemma Valid.isCharBoundary_succ (h : Valid bytes)
    (hb : bytes[index]? = some b) (hascii : b.toNat < 128) : isCharBoundary bytes (index + 1) := by
  have hcont : isContinuation b = false := by
    rw [← UInt8.ofNat_toNat (x := b), isContinuation_ofNat (by omega), decide_eq_false_iff_not]
    omega
  have hidx : isCharBoundary bytes index := by
    rw [isCharBoundary]
    split_ifs
    · rfl
    · simp [hb, hcont]
  obtain ⟨cs, rfl⟩ := h
  obtain ⟨front, back, rfl, rfl⟩ := exists_encode_of_isCharBoundary cs hidx
  rw [encode_append] at hb ⊢
  cases back with
  | nil => simp at hb
  | cons c back =>
    obtain ⟨lead, rest, hc, -, -, hrest⟩ := exists_utf8EncodeChar_eq c
    rw [encode_cons, hc, cons_append, getElem?_append_right le_rfl, Nat.sub_self,
      getElem?_cons_zero, Option.some.injEq] at hb
    rw [hrest (hb ▸ hascii)] at hc
    have hsplit : encode front ++ encode (c :: back)
        = encode (front ++ [c]) ++ encode back := by simp
    have hlen : (encode front).length + 1 = (encode (front ++ [c])).length := by simp [hc]
    rw [hsplit, hlen]
    exact Valid.isCharBoundary_append ⟨back, rfl⟩ _

variable (bytes) (position : ℕ)

/-- The greatest boundary up to a position. -/
def floorBoundary : ℕ :=
  Nat.findGreatest (fun index => isCharBoundary bytes index = true) position

lemma isCharBoundary_floorBoundary : isCharBoundary bytes (floorBoundary bytes position) :=
  Nat.findGreatest_spec (P := fun index => isCharBoundary bytes index = true)
    (Nat.zero_le position) (isCharBoundary_zero bytes)

lemma floorBoundary_le : floorBoundary bytes position ≤ position := Nat.findGreatest_le position

lemma floorBoundary_le_length : floorBoundary bytes position ≤ bytes.length :=
  le_length_of_isCharBoundary (isCharBoundary_floorBoundary bytes position)

/-- The greatest boundary is found by stepping back. -/
lemma floorBoundary_succ : floorBoundary bytes (position + 1)
      = if isCharBoundary bytes (position + 1) = true then position + 1
        else floorBoundary bytes position :=
  Nat.findGreatest_succ position

lemma floorBoundary_min :
    floorBoundary bytes (min position bytes.length) = floorBoundary bytes position := by
  refine le_antisymm (Nat.findGreatest_mono_right _ (min_le_left _ _)) ?_
  exact Nat.le_findGreatest
    (le_min (floorBoundary_le bytes position) (floorBoundary_le_length bytes position))
    (isCharBoundary_floorBoundary bytes position)

lemma floorBoundary_mono {p q : ℕ} (h : p ≤ q) : floorBoundary bytes p ≤ floorBoundary bytes q :=
  Nat.findGreatest_mono_right _ h

variable {bytes position}

lemma floorBoundary_eq (h : isCharBoundary bytes position) :
    floorBoundary bytes position = position :=
  Nat.findGreatest_eq h

/-- A character has at most four bytes, so that a boundary is near every position. -/
lemma Valid.le_floorBoundary_add (h : Valid bytes) (hle : position ≤ bytes.length) :
    position ≤ floorBoundary bytes position + 3 := by
  obtain ⟨cs, rfl⟩ := h
  obtain ⟨near, hnear, hbound, hadd⟩ : ∃ near ≤ position,
      isCharBoundary (encode cs) near ∧ position ≤ near + 3 := by
    induction cs generalizing position with
    | nil => exact ⟨0, Nat.zero_le _, rfl, hle.trans (Nat.zero_le _)⟩
    | cons c cs ih =>
      have hsize : (utf8EncodeChar c).length ≤ 4 := by
        rw [length_utf8EncodeChar]
        exact c.utf8Size_le_four
      rw [encode_cons, length_append] at hle
      by_cases hlt : position < (utf8EncodeChar c).length
      · exact ⟨0, Nat.zero_le _, rfl, by omega⟩
      · obtain ⟨near, hnear, hbound, hadd⟩ :=
          ih (show position - (utf8EncodeChar c).length ≤ _ by omega)
        refine ⟨(utf8EncodeChar c).length + near, by omega, ?_, by omega⟩
        obtain rfl | hpos := Nat.eq_zero_or_pos near
        · exact Valid.isCharBoundary_append ⟨cs, rfl⟩ _
        · rw [encode_cons, isCharBoundary_append_right (by omega), Nat.add_sub_cancel_left]
          exact hbound
  have hfloor : near ≤ floorBoundary (encode cs) position := Nat.le_findGreatest hnear hbound
  omega

/-! ### Texts -/

/-- A text: `str`. -/
structure Str where
  bytes : List UInt8
  valid : Valid bytes
  deriving DecidableEq

namespace Str

def empty : Str := ⟨[], valid_nil⟩

def len (s : Str) : ℕ := s.bytes.length

def append (s t : Str) : Str := ⟨s.bytes ++ t.bytes, s.valid.append t.valid⟩

lemma valid_slice {bytes : List UInt8} (h : Valid bytes) {start stop : ℕ} (hle : start ≤ stop)
    (hstart : isCharBoundary bytes start) (hstop : isCharBoundary bytes stop) :
    Valid ((bytes.take stop).drop start) :=
  ((h.split hstop).1.split (isCharBoundary_take hle hstart)).2

/-- `str::get` of a range. -/
def get (s : Str) (start stop : ℕ) : Option Str :=
  if h : start ≤ stop ∧ isCharBoundary s.bytes start = true
      ∧ isCharBoundary s.bytes stop = true then
    some ⟨(s.bytes.take stop).drop start, valid_slice s.valid h.1 h.2.1 h.2.2⟩
  else none

lemma exists_get_eq (s : Str) {start stop : ℕ} (hle : start ≤ stop)
    (hstart : isCharBoundary s.bytes start) (hstop : isCharBoundary s.bytes stop) :
    ∃ part, s.get start stop = some part ∧ part.bytes = (s.bytes.take stop).drop start :=
  ⟨_, dif_pos ⟨hle, hstart, hstop⟩, rfl⟩

end Str

end Utf8
