import SpaceQuery.Lib.Decimal
import SpaceQuery.Lib.Utf8
import SpaceQuery.Thin.OracleNumber

/-!
The texts that `encode_oracle_number` reads.

A `DecimalText` is a sign, digits around an optional point and an optional exponent. The five loops
of the source read exactly these texts, and what they compute on the way is the point of their
value (`encodeOracleNumber_text`).
-/

namespace SpaceQuery.Thin

open Prod Bool Option List RustText
open Decimal (IsDigits natValue magnitude)

/-! ### Texts -/

/-- A sign, where one is written. -/
inductive Sign
  | plus | minus
  deriving DecidableEq

namespace Sign

def chars : Option Sign → List Char
  | none => []
  | some plus => ['+']
  | some minus => ['-']

/-- A number with the sign. -/
def apply {α : Type*} [Neg α] (sign : Option Sign) (a : α) : α :=
  match sign with
  | some minus => -a
  | _ => a

end Sign

/-- The exponent of a numeral. -/
structure Exponent where
  uppercase : Bool
  sign : Option Sign
  digits : List ℕ
  isDigits : IsDigits digits
  digits_ne : digits ≠ []

namespace Exponent

def chars (e : Exponent) : List Char :=
  (if e.uppercase then 'E' else 'e') :: (Sign.chars e.sign ++ e.digits.map digitChar)

def value (e : Exponent) : ℤ := Sign.apply e.sign (natValue e.digits : ℤ)

end Exponent

/-- A sign, digits around an optional point, and an optional exponent. -/
structure DecimalText where
  sign : Option Sign
  int : List ℕ
  /-- The digits behind the point, if there is one. -/
  frac : Option (List ℕ)
  exponent : Option Exponent
  isDigits : IsDigits (int ++ frac.getD [])

namespace DecimalText

variable (t : DecimalText)

/-- The digits of the mantissa. -/
def digits : List ℕ := t.int ++ t.frac.getD []

def exponentValue : ℤ := (t.exponent.map Exponent.value).getD 0

def fracChars : List Char :=
  match t.frac with
  | some frac => '.' :: frac.map digitChar
  | none => []

def exponentChars : List Char := (t.exponent.map Exponent.chars).getD []

/-- The text behind the sign. -/
def unsigned : List Char := t.int.map digitChar ++ (t.fracChars ++ t.exponentChars)

def text : String := String.ofList (Sign.chars t.sign ++ t.unsigned)

/-- The absolute value of the number. -/
def magnitude : ℚ := Decimal.magnitude t.digits (t.int.length + t.exponentValue)

/-- The number that the text spells. -/
def value : ℚ := Sign.apply t.sign t.magnitude

end DecimalText

/-! ### Digits as characters and bytes -/

/-- The bytes of a text in ASCII. -/
def asciiBytes (chars : List Char) : Bytes := chars.map fun c => UInt8.ofNat c.toNat

@[simp] lemma asciiBytes_nil : asciiBytes [] = [] := rfl

@[simp] lemma asciiBytes_cons (c : Char) (chars : List Char) :
    asciiBytes (c :: chars) = UInt8.ofNat c.toNat :: asciiBytes chars := rfl

@[simp] lemma asciiBytes_append (chars chars' : List Char) :
    asciiBytes (chars ++ chars') = asciiBytes chars ++ asciiBytes chars' := map_append

/-- In ASCII a character is its byte. -/
lemma asBytes_ofList_ascii {chars : List Char} (h : ∀ c ∈ chars, c.toNat < 128) :
    asBytes (String.ofList chars) = asciiBytes chars := by
  rw [asBytes_ofList]
  induction chars with
  | nil => rfl
  | cons c chars ih =>
    rw [forall_mem_cons] at h
    rw [flatMap_cons, Utf8.utf8EncodeChar_ascii h.1, ih h.2]
    rfl

variable (digits : List ℕ)

/-- The bytes of digits. -/
def digitBytes : Bytes := asciiBytes (digits.map digitChar)

@[simp] lemma digitBytes_nil : digitBytes [] = [] := rfl

@[simp] lemma digitBytes_cons (d : ℕ) (digits : List ℕ) :
    digitBytes (d :: digits) = UInt8.ofNat (digitChar d).toNat :: digitBytes digits := rfl

variable {d : ℕ}

lemma digitValue_digitChar (h : d < 10) :
    digitValue (UInt8.ofNat (digitChar d).toNat) = some d := by
  interval_cases d <;> rfl

variable {b : UInt8}

lemma digitValue_eq_some (h : digitValue b = some d) :
    d < 10 ∧ b = UInt8.ofNat (digitChar d).toNat := by
  rw [digitValue] at h
  split_ifs at h with hb
  cases h
  have hlt : b.toNat - 48 < 10 := by omega
  refine ⟨hlt, UInt8.toNat_inj.mp ?_⟩
  have hval := digitValue_digitChar hlt
  rw [digitValue] at hval
  split_ifs at hval with hc
  have := some.inj hval
  omega

/-- The loops stop in front of a point or an exponent. -/
def isStop (b : UInt8) : Bool := b == 46 || isExponentMark b

lemma digitValue_of_isStop (h : isStop b) : digitValue b = none := by
  rw [isStop, isExponentMark, or_eq_true, or_eq_true] at h
  obtain h | h | h := h <;> rw [beq_iff_eq.mp h] <;> rfl

/-! ### The digit loops -/

/-- Digits without their leading zeros. -/
def significant : List ℕ := digits.dropWhile (· == 0)

/-- The digits that a loop has pushed: leading zeros are not pushed. -/
def pushDigits (digits more : List ℕ) : List ℕ :=
  if digits = [] then significant more else digits ++ more

lemma pushDigits_nil : pushDigits digits [] = digits := by
  rw [pushDigits]
  split_ifs with h
  · rw [h]
    rfl
  · rw [append_nil]

lemma pushDigits_zero_cons (more : List ℕ) : pushDigits [] (0 :: more) = pushDigits [] more := rfl

variable {digits : List ℕ}

lemma pushDigits_cons (h : ¬(d = 0 ∧ digits = [])) (more : List ℕ) :
    pushDigits digits (d :: more) = pushDigits (digits ++ [d]) more := by
  rw [pushDigits, pushDigits, if_neg (append_ne_nil_of_right_ne_nil _ (cons_ne_nil d []))]
  split_ifs with hdig
  · subst hdig
    have hd : (d == 0) = false := beq_eq_false_iff_ne.mpr fun hd => h ⟨hd, rfl⟩
    rw [significant, dropWhile_cons_of_neg (by simp [hd])]
    rfl
  · rw [append_assoc]
    rfl

lemma pushDigits_significant (digits more : List ℕ) :
    pushDigits (significant digits) more = significant (digits ++ more) := by
  by_cases h : digits.dropWhile (· == 0) = []
  · simp [pushDigits, significant, dropWhile_append, h]
  · simp [pushDigits, significant, dropWhile_append, h]

/-- What the loop in front of the point reads. -/
lemma integerDigits_digitBytes {more : List ℕ} (h : IsDigits more) (rest : Bytes)
    (hrest : ∀ b ∈ rest.head?, isStop b) (digits : List ℕ) :
    integerDigits (digitBytes more ++ rest) digits = some (pushDigits digits more, rest) := by
  induction more generalizing digits with
  | nil =>
    rw [pushDigits_nil]
    cases rest with
    | nil => rfl
    | cons b rest =>
      have hb := hrest b rfl
      have hb' : b = 46 ∨ isExponentMark b := by
        rwa [isStop, or_eq_true, beq_iff_eq] at hb
      simp [integerDigits, digitValue_of_isStop hb, hb']
  | cons d more ih =>
    rw [IsDigits, forall_mem_cons] at h
    rw [digitBytes_cons, cons_append, integerDigits, digitValue_digitChar h.1]
    dsimp only
    split_ifs with hzero
    · obtain ⟨rfl, rfl⟩ := hzero
      rw [ih h.2, pushDigits_zero_cons]
    · rw [ih h.2, pushDigits_cons hzero]

variable {bytes rest : Bytes}

/-- Digits stand in front of the rest, which begins with a stop if at all. -/
def DigitsUpTo (stops : UInt8 → Bool) (bytes rest : Bytes) : Prop :=
  ∃ more, IsDigits more ∧ bytes = digitBytes more ++ rest ∧ ∀ b ∈ rest.head?, stops b

lemma digitsUpTo_self {stops : UInt8 → Bool} (h : ∀ b ∈ rest.head?, stops b) :
    DigitsUpTo stops rest rest := ⟨[], by simp [IsDigits], rfl, h⟩

lemma digitsUpTo_cons {stops : UInt8 → Bool} {b : UInt8} (hb : digitValue b = some d)
    (h : DigitsUpTo stops bytes rest) : DigitsUpTo stops (b :: bytes) rest := by
  obtain ⟨hd, rfl⟩ := digitValue_eq_some hb
  obtain ⟨more, hmore, rfl, hrest⟩ := h
  exact ⟨d :: more, forall_mem_cons.mpr ⟨hd, hmore⟩, rfl, hrest⟩

/-- The loop in front of the point reads digits up to a point or an exponent. -/
lemma exists_of_integerDigits {digits' : List ℕ}
    (h : integerDigits bytes digits = some (digits', rest)) : DigitsUpTo isStop bytes rest := by
  induction bytes generalizing digits with
  | nil =>
    cases h
    exact digitsUpTo_self nofun
  | cons b bytes ih =>
    rw [integerDigits] at h
    cases hb : digitValue b with
    | some d =>
      refine digitsUpTo_cons hb ?_
      simp only [hb] at h
      split_ifs at h with hzero
      · exact ih h
      · exact ih h
    | none =>
      simp only [hb] at h
      split_ifs at h with hstop
      cases h
      exact digitsUpTo_self (by simpa [isStop] using hstop)

lemma toI16_add_toI16 (a b : ℤ) : toI16 (toI16 a + b) = toI16 (a + b) := by
  simp only [toI16]
  omega

lemma toI16_eq_self {a : ℤ} (hlow : -2 ^ 15 ≤ a) (hhigh : a < 2 ^ 15) : toI16 a = a := by
  simp only [toI16]
  omega

/-- What the loop behind the point reads: each zero that is not pushed moves the point. -/
lemma fractionDigits_digitBytes {more : List ℕ} (h : IsDigits more)
    (hrest : ∀ b ∈ rest.head?, isExponentMark b) (digits : List ℕ) (point : ℤ) :
    fractionDigits (digitBytes more ++ rest) digits (toI16 point) = some (pushDigits digits more,
          toI16 (point + (pushDigits digits more).length - digits.length - more.length), rest) := by
  induction more generalizing digits point with
  | nil =>
    rw [pushDigits_nil, length_nil, Nat.cast_zero, sub_zero, add_sub_cancel_right]
    cases rest with
    | nil => rfl
    | cons b rest =>
      have hb := hrest b rfl
      have hstop : isStop b := by rw [isStop, hb, Bool.or_true]
      simp [fractionDigits, digitValue_of_isStop hstop, hb]
  | cons d more ih =>
    rw [IsDigits, forall_mem_cons] at h
    rw [digitBytes_cons, cons_append, fractionDigits, digitValue_digitChar h.1]
    dsimp only
    split_ifs with hzero
    · obtain ⟨rfl, rfl⟩ := hzero
      rw [sub_eq_add_neg, toI16_add_toI16, ih h.2, pushDigits_zero_cons, length_cons]
      push_cast
      ring_nf
    · rw [ih h.2, pushDigits_cons hzero, length_append, length_cons, length_cons]
      push_cast
      simp only [length_nil]
      ring_nf

/-- The loop behind the point reads digits up to an exponent. -/
lemma exists_of_fractionDigits {digits' : List ℕ} {point point' : ℤ}
    (h : fractionDigits bytes digits point = some (digits', point', rest)) :
    DigitsUpTo isExponentMark bytes rest := by
  induction bytes generalizing digits point with
  | nil =>
    cases h
    exact digitsUpTo_self nofun
  | cons b bytes ih =>
    rw [fractionDigits] at h
    cases hb : digitValue b with
    | some d =>
      refine digitsUpTo_cons hb ?_
      simp only [hb] at h
      split_ifs at h with hzero
      · exact ih h
      · exact ih h
    | none =>
      simp only [hb] at h
      split_ifs at h with hmark
      cases h
      exact digitsUpTo_self (by simpa using hmark)

/-! ### The exponent -/

lemma mapM_digitValue (h : IsDigits digits) :
    (digitBytes digits).mapM digitValue = some digits := by
  induction digits with
  | nil => rfl
  | cons d digits ih =>
    rw [IsDigits, forall_mem_cons] at h
    rw [digitBytes_cons, mapM_cons, digitValue_digitChar h.1, ih h.2]
    rfl

lemma eq_digitBytes_of_mapM
    (h : bytes.mapM digitValue = some digits) : IsDigits digits ∧ bytes = digitBytes digits := by
  induction bytes generalizing digits with
  | nil =>
    cases h
    exact ⟨by simp [IsDigits], rfl⟩
  | cons b bytes ih =>
    rw [mapM_cons] at h
    obtain ⟨d, hb, h⟩ := bind_eq_some_iff.mp h
    obtain ⟨digits', hrest, h⟩ := bind_eq_some_iff.mp h
    cases h
    obtain ⟨hdig, rfl⟩ := ih hrest
    obtain ⟨hd, rfl⟩ := digitValue_eq_some hb
    rw [IsDigits, forall_mem_cons]
    exact ⟨⟨hd, hdig⟩, rfl⟩

variable (value : String)

/-- The exponent behind its sign. -/
def exponentDigits (negative : Bool) (text : Bytes) : Except OracleThinError ℤ :=
  match text.mapM digitValue with
  | some (digit :: digits) =>
    if 2 ^ 15 ≤ natValue (digit :: digits) then
      .error (.other "number too large to fit in target type")
    else .ok (if negative then -(natValue (digit :: digits) : ℤ) else natValue (digit :: digits))
  | _ => .error (.other ("invalid Oracle NUMBER exponent in bind value: " ++ value))

lemma exponentOf_minus (text : Bytes) :
    exponentOf value (45 :: text) = exponentDigits value true text := rfl

lemma exponentOf_plus (text : Bytes) :
    exponentOf value (43 :: text) = exponentDigits value false text := rfl

lemma exponentOf_of_head_ne {text : Bytes}
    (hminus : text.head? ≠ some 45) (hplus : text.head? ≠ some 43) :
    exponentOf value text = exponentDigits value false text := by
  unfold exponentOf
  split
  rename_i negative text' heq
  split at heq
  · exact absurd rfl hminus
  · exact absurd rfl hplus
  · cases heq
    rfl

lemma head_digitBytes_ne (h : IsDigits digits)
    (hb : digitValue b = none) : (digitBytes digits).head? ≠ some b := by
  cases digits with
  | nil => simp
  | cons d digits =>
    rw [IsDigits, forall_mem_cons] at h
    rintro ⟨⟩
    rw [digitValue_digitChar h.1] at hb
    cases hb

/-- The exponent is read as its value where its digits fit 15 bits, whatever its sign. -/
lemma exponentOf_chars (e : Exponent) :
    exponentOf value (asciiBytes (Sign.chars e.sign) ++ digitBytes e.digits)
      = if 2 ^ 15 ≤ natValue e.digits then .error (.other "number too large to fit in target type")
        else .ok e.value := by
  obtain ⟨d, digits, hdig⟩ := exists_cons_of_ne_nil e.digits_ne
  have hread : ∀ negative, exponentDigits value negative (digitBytes e.digits)
      = if 2 ^ 15 ≤ natValue e.digits then .error (.other "number too large to fit in target type")
        else .ok (if negative then -(natValue e.digits : ℤ) else natValue e.digits) := by
    intro negative
    rw [exponentDigits, mapM_digitValue e.isDigits, hdig]
  rw [Exponent.value]
  cases e.sign with
  | none =>
    have hne := head_digitBytes_ne e.isDigits (b := 45) rfl
    have hne' := head_digitBytes_ne e.isDigits (b := 43) rfl
    exact (exponentOf_of_head_ne value hne hne').trans (hread false)
  | some sign =>
    cases sign with
    | plus => exact (exponentOf_plus value _).trans (hread false)
    | minus => exact (exponentOf_minus value _).trans (hread true)

variable {value : String}

lemma exists_of_exponentDigits {negative : Bool} {x : ℤ}
    (h : exponentDigits value negative bytes = .ok x) :
    ∃ digits, digits ≠ [] ∧ IsDigits digits ∧ bytes = digitBytes digits := by
  rw [exponentDigits] at h
  split at h
  · rename_i digit digits hmap
    exact ⟨_, cons_ne_nil digit digits, eq_digitBytes_of_mapM hmap⟩
  · cases h

/-- An exponent that is read has the shape of one. -/
lemma exists_of_exponentOf {x : ℤ} (h : exponentOf value bytes = .ok x) (uppercase : Bool) :
    ∃ e : Exponent, e.uppercase = uppercase ∧
      bytes = asciiBytes (Sign.chars e.sign) ++ digitBytes e.digits := by
  have hsplit : ∃ sign digits, digits ≠ [] ∧ IsDigits digits ∧
      bytes = asciiBytes (Sign.chars sign) ++ digitBytes digits := by
    by_cases hminus : bytes.head? = some 45
    · obtain ⟨rest, rfl⟩ := head?_eq_some_iff.mp hminus
      obtain ⟨digits, hne, hdig, rfl⟩ := exists_of_exponentDigits h
      exact ⟨some .minus, digits, hne, hdig, rfl⟩
    · by_cases hplus : bytes.head? = some 43
      · obtain ⟨rest, rfl⟩ := head?_eq_some_iff.mp hplus
        obtain ⟨digits, hne, hdig, rfl⟩ := exists_of_exponentDigits h
        exact ⟨some .plus, digits, hne, hdig, rfl⟩
      · rw [exponentOf_of_head_ne value hminus hplus] at h
        obtain ⟨digits, hne, hdig, rfl⟩ := exists_of_exponentDigits h
        exact ⟨none, digits, hne, hdig, rfl⟩
  obtain ⟨sign, digits, hne, hdig, rfl⟩ := hsplit
  exact ⟨⟨uppercase, sign, digits, hdig, hne⟩, rfl, rfl⟩

/-! ### A text without its sign -/

namespace DecimalText

variable (t : DecimalText)

/-- The digits that are pushed. -/
def significant : List ℕ := Thin.significant t.digits

/-- The decimal point index of the source, without wrapping. -/
def point : ℤ := t.significant.length - (t.frac.getD []).length + t.exponentValue

/-- The digits of the exponent fit 15 bits. -/
def exponentFits : Bool :=
  match t.exponent with
  | some e => natValue e.digits < 2 ^ 15
  | none => true

end DecimalText

lemma asciiBytes_exponentChars (e : Exponent) :
    asciiBytes e.chars = (if e.uppercase then 69 else 101)
      :: (asciiBytes (Sign.chars e.sign) ++ digitBytes e.digits) := by
  rw [Exponent.chars, asciiBytes_cons, asciiBytes_append]
  cases e.uppercase <;> rfl

open DecimalText

variable (t : DecimalText)

lemma head_exponentChars : ∀ b ∈ (asciiBytes t.exponentChars).head?, isExponentMark b := by
  rw [exponentChars]
  cases t.exponent with
  | none => simp
  | some e =>
    rintro b ⟨⟩
    cases e.uppercase <;> rfl

/-- What is read behind the mantissa. -/
def readExponent (value : String) (digits : List ℕ) (point : ℤ) (text : Bytes) :
    Except OracleThinError (List ℕ × ℤ) :=
  match text with
  | [] => .ok (digits, point)
  | b :: rest =>
    if isExponentMark b then do
      let exponent ← exponentOf value rest
      return (digits, toI16 (point + exponent))
    else .error (.other ("invalid Oracle NUMBER bind value: " ++ value))

lemma readExponent_chars (value : String) (digits : List ℕ) (point : ℤ) (e : Exponent) :
    readExponent value digits (toI16 point) (asciiBytes e.chars) =
      if natValue e.digits < 2 ^ 15 then .ok (digits, toI16 (point + e.value))
      else .error (.other "number too large to fit in target type") := by
  have hmark : isExponentMark (if e.uppercase then 69 else 101) := by
    cases e.uppercase <;> rfl
  rw [asciiBytes_exponentChars, readExponent, if_pos hmark, exponentOf_chars]
  split_ifs with hlarge hfits hfits
  · omega
  · rfl
  · change Except.ok (digits, toI16 (toI16 point + e.value)) = _
    rw [toI16_add_toI16]
  · omega

/-- Behind the digits in front of the point there is a point, or no point. -/
lemma parseDecimal_eq (value : String) {text : Bytes}
    (h : integerDigits text [] = some (digits, rest)) :
    parseDecimal value text =
      if rest.head? = some 46 then
        match fractionDigits rest.tail digits (toI16 digits.length) with
        | none => .error (.other ("invalid Oracle NUMBER bind value: " ++ value))
        | some (digits, point, rest) => readExponent value digits point rest
      else readExponent value digits (toI16 digits.length) rest := by
  unfold parseDecimal
  simp only [h]
  split_ifs with hpoint
  · obtain ⟨frac, rfl⟩ := head?_eq_some_iff.mp hpoint
    rw [tail_cons]
    cases hfrac : fractionDigits frac digits (toI16 digits.length) with
    | none => simp only [hfrac]
    | some read =>
      obtain ⟨digits', point, rest'⟩ := read
      cases rest' <;> simp only [hfrac, readExponent]
  · cases rest with
    | nil => rfl
    | cons b rest =>
      have hb : b ≠ 46 := fun hb => hpoint (by rw [hb]; rfl)
      simp [hb, readExponent]

/-- What the loops compute for a text: its significant digits, and the wrapped index of its
point. -/
lemma parseDecimal_unsigned (value : String) (t : DecimalText) :
    parseDecimal value (asciiBytes t.unsigned) =
      if t.exponentFits then .ok (t.significant, toI16 t.point)
      else .error (.other "number too large to fit in target type") := by
  -- the exponent, whatever was read in front of it
  have hexp : ∀ digits point, readExponent value digits (toI16 point) (asciiBytes t.exponentChars) =
        if t.exponentFits then .ok (digits, toI16 (point + t.exponentValue))
        else .error (.other "number too large to fit in target type") := by
    intro digits point
    rw [exponentChars, exponentFits, exponentValue]
    cases t.exponent with
    | none => simp [readExponent]
    | some e =>
      rw [map_some, getD_some, readExponent_chars]
      simp
  have hstop := head_exponentChars t
  have hint : IsDigits t.int := fun d hd => t.isDigits d (mem_append_left _ hd)
  rw [DecimalText.unsigned, asciiBytes_append, ← digitBytes, DecimalText.point,
    DecimalText.significant, DecimalText.digits]
  cases hfrac : t.frac with
  | none =>
    have hchars : t.fracChars = [] := by rw [fracChars, hfrac]
    rw [hchars, nil_append]
    have hread := integerDigits_digitBytes hint (asciiBytes t.exponentChars)
      (fun b hb => by rw [isStop, hstop b hb, Bool.or_true]) []
    have hne : (asciiBytes t.exponentChars).head? ≠ some 46 := fun h =>
      absurd (hstop 46 h) (by decide)
    rw [parseDecimal_eq value hread, if_neg hne, hexp]
    simp [pushDigits]
  | some frac =>
    have hdig : IsDigits frac := fun d hd => t.isDigits d
      (mem_append_right _ (by rw [hfrac]; exact hd))
    have hchars : asciiBytes (t.fracChars ++ t.exponentChars)
        = 46 :: (digitBytes frac ++ asciiBytes t.exponentChars) := by
      rw [fracChars, hfrac]
      exact asciiBytes_append _ _
    rw [hchars, getD_some]
    have hread := integerDigits_digitBytes hint
      (46 :: (digitBytes frac ++ asciiBytes t.exponentChars))
      (by rintro b ⟨⟩; rfl) []
    rw [parseDecimal_eq value hread, if_pos head?_cons, tail_cons,
      fractionDigits_digitBytes hdig hstop]
    dsimp only
    rw [hexp]
    have hpush : pushDigits (pushDigits [] t.int) frac = Thin.significant (t.int ++ frac) :=
      pushDigits_significant t.int frac
    rw [hpush]
    ring_nf

/-- Behind a mantissa that is read there is nothing, or an exponent. -/
lemma exists_of_readExponent {point : ℤ}
    {read : List ℕ × ℤ} (h : readExponent value digits point rest = .ok read) :
    ∃ exponent : Option Exponent, rest = asciiBytes ((exponent.map Exponent.chars).getD []) := by
  cases rest with
  | nil => exact ⟨none, rfl⟩
  | cons b rest =>
    rw [readExponent] at h
    split_ifs at h with hmark
    obtain ⟨x, hx, -⟩ := Except.exists_of_bind_eq_ok h
    obtain ⟨e, he, rfl⟩ := exists_of_exponentOf hx (b == 69)
    refine ⟨some e, ?_⟩
    rw [map_some, getD_some, asciiBytes_exponentChars, he]
    rw [isExponentMark, or_eq_true, beq_iff_eq, beq_iff_eq] at hmark
    obtain rfl | rfl := hmark <;> rfl

/-- The loops accept no other texts. -/
lemma exists_decimalText_of_parseDecimal {read : List ℕ × ℤ}
    (h : parseDecimal value bytes = .ok read) (sign : Option Sign) :
    ∃ t : DecimalText, t.sign = sign ∧ bytes = asciiBytes t.unsigned := by
  cases hint : integerDigits bytes [] with
  | none =>
    unfold parseDecimal at h
    rw [hint] at h
    cases h
  | some front =>
    obtain ⟨digits, rest⟩ := front
    obtain ⟨int, hintDigits, rfl, -⟩ := exists_of_integerDigits hint
    rw [parseDecimal_eq value hint] at h
    split_ifs at h with hpoint
    · obtain ⟨frac, rfl⟩ := head?_eq_some_iff.mp hpoint
      rw [tail_cons] at h
      cases hfrac : fractionDigits frac digits (toI16 digits.length) with
      | none =>
        rw [hfrac] at h
        cases h
      | some behind =>
        obtain ⟨digits', point, rest⟩ := behind
        rw [hfrac] at h
        obtain ⟨more, hmore, rfl, -⟩ := exists_of_fractionDigits hfrac
        obtain ⟨exponent, rfl⟩ := exists_of_readExponent h
        refine ⟨⟨sign, int, some more, exponent, ?_⟩, rfl, ?_⟩
        · intro d hd
          exact (mem_append.mp hd).elim (hintDigits d) (hmore d)
        · simp [unsigned, fracChars, exponentChars, digitBytes]
    · obtain ⟨exponent, rfl⟩ := exists_of_readExponent h
      refine ⟨⟨sign, int, none, exponent, by simpa using hintDigits⟩, rfl, ?_⟩
      simp [unsigned, fracChars, exponentChars, digitBytes]

/-! ### A text with its sign -/

/-- The characters of a number. -/
def isNumberChar (c : Char) : Bool :=
  c.isDigit || c == '.' || c == 'e' || c == 'E' || c == '+' || c == '-'

lemma isDigit_digitChar (h : d < 10) : (digitChar d).isDigit := by
  interval_cases d <;> rfl

lemma isNumberChar_of_mem_map (h : IsDigits digits) :
    ∀ c ∈ digits.map digitChar, isNumberChar c := by
  intro c hc
  obtain ⟨d, hd, rfl⟩ := mem_map.mp hc
  simp [isNumberChar, isDigit_digitChar (h d hd)]

lemma isNumberChar_sign (sign : Option Sign) : ∀ c ∈ Sign.chars sign, isNumberChar c := by
  cases sign with
  | none => simp [Sign.chars]
  | some sign => cases sign <;> simp [Sign.chars, isNumberChar]

lemma isNumberChar_exponent : ∀ c ∈ t.exponentChars, isNumberChar c := by
  rw [exponentChars]
  cases t.exponent with
  | none => simp
  | some e =>
    rw [map_some, getD_some, Exponent.chars]
    rw [forall_mem_cons]
    refine ⟨by cases e.uppercase <;> rfl, fun c hc => ?_⟩
    exact (mem_append.mp hc).elim (isNumberChar_sign e.sign c)
      (isNumberChar_of_mem_map e.isDigits c)

lemma isNumberChar_of_mem : ∀ c ∈ Sign.chars t.sign ++ t.unsigned, isNumberChar c := by
  have hint : IsDigits t.int := fun d hd => t.isDigits d (mem_append_left _ hd)
  have hfrac : ∀ c ∈ t.fracChars, isNumberChar c := by
    rw [fracChars]
    cases h : t.frac with
    | none => simp
    | some frac =>
      rw [forall_mem_cons]
      refine ⟨rfl, isNumberChar_of_mem_map fun d hd => t.isDigits d ?_⟩
      rw [h]
      exact mem_append_right _ hd
  simp only [unsigned, mem_append]
  rintro c (hc | hc | hc | hc)
  · exact isNumberChar_sign _ c hc
  · exact isNumberChar_of_mem_map hint c hc
  · exact hfrac c hc
  · exact isNumberChar_exponent t c hc

lemma isNumberChar_ascii {c : Char} (h : isNumberChar c) :
    c.toNat < 128 ∧ isWhitespace c = false := by
  simp only [isNumberChar, or_eq_true, beq_iff_eq] at h
  obtain ((((h | rfl) | rfl) | rfl) | rfl) | rfl := h
  · have hrange : 48 ≤ c.toNat ∧ c.toNat ≤ 57 := by
      rw [Char.isDigit, and_eq_true, decide_eq_true_eq, decide_eq_true_eq] at h
      exact ⟨UInt32.le_iff_toNat_le.mp h.1, UInt32.le_iff_toNat_le.mp h.2⟩
    simp only [isWhitespace, or_eq_false_iff, and_eq_false_iff, beq_eq_false_iff_ne,
      decide_eq_false_iff_not]
    omega
  all_goals decide

lemma asBytes_text : asBytes t.text = asciiBytes (Sign.chars t.sign) ++ asciiBytes t.unsigned := by
  rw [text, asBytes_ofList_ascii, asciiBytes_append]
  exact fun c hc => (isNumberChar_ascii (isNumberChar_of_mem t c hc)).1

lemma trim_text : String.ofList (trim t.text.toList) = t.text := by
  have hchars : t.text.toList = Sign.chars t.sign ++ t.unsigned := String.toList_ofList
  have hnone : ∀ c ∈ t.text.toList, isWhitespace c = false := by
    rw [hchars]
    exact fun c hc => (isNumberChar_ascii (isNumberChar_of_mem t c hc)).2
  rw [trim_eq_self hnone, String.ofList_toList]

/-- A text without its sign starts with a digit, a point or an exponent. -/
lemma head_unsigned_ne (hdigit : digitValue b = none)
    (hstop : isStop b = false) : (asciiBytes t.unsigned).head? ≠ some b := by
  have hint : IsDigits t.int := fun d hd => t.isDigits d (mem_append_left _ hd)
  rw [unsigned, asciiBytes_append, ← digitBytes, head?_append]
  have hrest : (asciiBytes (t.fracChars ++ t.exponentChars)).head? ≠ some b := by
    intro h
    rw [isStop, or_eq_false_iff, beq_eq_false_iff_ne] at hstop
    rw [fracChars] at h
    cases hfrac : t.frac with
    | none =>
      rw [hfrac] at h
      have hmark := head_exponentChars t b h
      rw [hstop.2] at hmark
      cases hmark
    | some frac =>
      rw [hfrac] at h
      exact hstop.1 (some.inj h).symm
  cases hhead : (digitBytes t.int).head? with
  | none => simpa using hrest
  | some b' =>
    rintro ⟨⟩
    exact head_digitBytes_ne hint hdigit hhead

lemma sign_ne_of_unsigned {t : DecimalText} {b : UInt8}
    (h : asciiBytes t.unsigned = b :: rest) : b ≠ 45 ∧ b ≠ 43 := by
  have hhead : (asciiBytes t.unsigned).head? = some b := by rw [h]; rfl
  constructor <;> rintro rfl
  · exact head_unsigned_ne t rfl rfl hhead
  · exact head_unsigned_ne t rfl rfl hhead

/-- The encoding of a text, behind its sign. -/
lemma encodeOracleNumber_text (hne : t.unsigned ≠ []) : encodeOracleNumber t.text =
      encodeUnsigned (t.sign == some .minus) t.text (asciiBytes t.unsigned) := by
  rw [encodeOracleNumber, trim_text, asBytes_text]
  cases t.sign with
  | some sign => cases sign <;> rfl
  | none =>
    cases hbytes : asciiBytes t.unsigned with
    | nil => exact absurd (map_eq_nil_iff.mp hbytes) hne
    | cons b rest =>
      obtain ⟨hb, hb'⟩ := sign_ne_of_unsigned hbytes
      simp [Sign.chars, hb, hb', beq_eq_false_iff_ne.mpr hb]

end SpaceQuery.Thin
