import SpaceQuery.Lib.Decimal
import SpaceQuery.Lib.PairOrder
import SpaceQuery.Lib.RustText

/-!
The local sort of the result grid (`ui/grid_sort.rs`): cells are compared by the value their
text spells.
-/

namespace SpaceQuery.GridSort

open Option List RustText Decimal PairOrder

inductive SqlValueKind
  | number | boolean | temporal | string | binary | unknown
  deriving DecidableEq

inductive NullOrdering
  | lastOnAscending | firstOnAscending

/-- How a column of the grid is sorted. -/
structure SortColumn where
  kind : SqlValueKind
  nulls : NullOrdering

/-- A rendered value, with the grid's own answer whether it is NULL. -/
structure Cell where
  text : List Char
  isNull : Bool

open Char

/-- The order of the bytes, which is that of the code points. -/
def compareText (left right : List Char) : Ordering :=
  compare (left.map toNat) (right.map toNat)

/-! ### Decimals -/

def digits (text : List Char) : List ℕ := text.map fun c => c.toNat - 48

/-- A plain decimal; its digits stand as their values. -/
structure PlainDecimal where
  negative : Bool
  integer : List ℕ
  fraction : List ℕ
  isDigits : IsDigits integer ∧ IsDigits fraction

/-- `str::split_once` at the first character of a class. -/
def splitOnce (p : Char → Bool) (text : List Char) : Option (List Char × List Char) :=
  match text.span (!p ·) with
  | (_, []) => none
  | (front, _ :: rest) => some (front, rest)

/-- A text without a point is its part in front of it. -/
lemma splitOnce_point (text : List Char) : text = ((splitOnce (· == '.') text).getD (text, [])).1 ∧
        ((splitOnce (· == '.') text).getD (text, [])).2 = [] ∨
      text = ((splitOnce (· == '.') text).getD (text, [])).1 ++
        '.' :: ((splitOnce (· == '.') text).getD (text, [])).2 := by
  have hsplit := takeWhile_append_dropWhile (p := fun c => !(c == '.')) (l := text)
  have hhead := head?_dropWhile_not (fun c => !(c == '.')) text
  rw [splitOnce, span_eq_takeWhile_dropWhile]
  cases hrest : text.dropWhile (fun c => !(c == '.')) with
  | nil => exact .inl ⟨rfl, rfl⟩
  | cons c rest =>
    rw [hrest] at hsplit hhead
    obtain rfl : c = '.' := by simpa using hhead
    exact .inr hsplit.symm

lemma isDigits_digits {text : List Char} (h : text.all isDigit) : IsDigits (digits text) := by
  intro d hd
  obtain ⟨c, hc, rfl⟩ := mem_map.mp hd
  have hdigit := all_eq_true.mp h c hc
  simp only [isDigit, Bool.and_eq_true, decide_eq_true_eq, UInt32.le_iff_toNat_le] at hdigit
  exact lt_of_le_of_lt (Nat.sub_le_sub_right hdigit.2 48) (by decide)

def parseDecimal (value : List Char) : Option PlainDecimal :=
  let trimmed := trim value
  if trimmed.isEmpty then none
  else
    let (negative, rest) := match trimmed with
      | '-' :: rest => (true, rest)
      | '+' :: rest => (false, rest)
      | _ => (false, trimmed)
    let (integer, fraction) := (splitOnce (· == '.') rest).getD (rest, [])
    if integer.isEmpty && fraction.isEmpty then none
    else if h : integer.all isDigit ∧ fraction.all isDigit then
      some ⟨negative, digits integer, digits fraction, isDigits_digits h.1, isDigits_digits h.2⟩
    else none

namespace PlainDecimal

variable (x : PlainDecimal)

def isZero : Bool := x.integer.all (· == 0) && x.fraction.all (· == 0)

/-- The number without its sign. -/
def size : ℚ := natValue x.integer + magnitude x.fraction 0

/-- The rational that a decimal spells. -/
def value : ℚ := if x.negative then -x.size else x.size

variable (x y : PlainDecimal)

lemma size_nonneg : 0 ≤ x.size := add_nonneg (Nat.cast_nonneg _) (magnitude_nonneg _ _)

lemma size_eq_zero_iff : x.size = 0 ↔ x.isZero := by
  rw [size, add_eq_zero_iff_of_nonneg (Nat.cast_nonneg _) (magnitude_nonneg _ _), magnitude,
    mul_eq_zero_iff_right (zpow_ne_zero _ (by norm_num)), Nat.cast_eq_zero, Nat.cast_eq_zero,
    natValue_eq_zero_iff, natValue_eq_zero_iff]
  simp [isZero]

end PlainDecimal

variable (left right : PlainDecimal)

def compareMagnitude : Ordering :=
  let leftInteger := left.integer.dropWhile (· == 0)
  let rightInteger := right.integer.dropWhile (· == 0)
  (compare leftInteger.length rightInteger.length).then
    ((compare leftInteger rightInteger).then (compareDigits left.fraction right.fraction))

def compareDecimal : Ordering :=
  if left.isZero && right.isZero then .eq
  else match left.negative, right.negative with
    | false, true => .gt
    | true, false => .lt
    | negative, _ =>
      if negative then (compareMagnitude left right).swap else compareMagnitude left right

lemma natValue_dropWhile (integer : List ℕ) :
    natValue (integer.dropWhile (· == 0)) = natValue integer := by
  induction integer with
  | nil => rfl
  | cons d integer ih =>
    by_cases hd : d = 0
    · simp [hd, ih, natValue_cons]
    · simp [hd]

open PlainDecimal

lemma compareMagnitude_eq : compareMagnitude left right = compare left.size right.size := by
  have hdrop : ∀ x : PlainDecimal, IsDigits (x.integer.dropWhile (· == 0)) ∧
      (x.integer.dropWhile (· == 0)).head? ≠ some 0 := fun x =>
    ⟨fun d hd => x.isDigits.1 d ((dropWhile_sublist _).mem hd), fun h => by
      simpa [h] using head?_dropWhile_not (· == 0) x.integer⟩
  have hlt : ∀ x : PlainDecimal, magnitude x.fraction 0 < 1 := fun x => by
    simpa using magnitude_lt x.isDigits.2 0
  have hsize := compare_digit (d := natValue left.integer) (e := natValue right.integer)
    (magnitude_nonneg _ _) (hlt left) (magnitude_nonneg _ _) (hlt right)
  rw [mul_one, mul_one] at hsize
  rw [compareMagnitude, ← Ordering.then_assoc, compare_natValue (hdrop _).1 (hdrop _).1 (hdrop _).2
    (hdrop _).2, natValue_dropWhile, natValue_dropWhile, compareDigits_eq left.isDigits.2
    right.isDigits.2 0, size, size, hsize, ← cmp_eq_compare,
    Nat.strictMono_cast.cmp_map_eq, cmp_eq_compare]

theorem compareDecimal_eq : compareDecimal left right = compare left.value right.value := by
  have hleft := left.size_nonneg
  have hright := right.size_nonneg
  rw [compareDecimal]
  split_ifs with hzero
  · rw [Bool.and_eq_true, ← size_eq_zero_iff, ← size_eq_zero_iff] at hzero
    simp [value, hzero]
  · have hpos : 0 < left.size ∨ 0 < right.size := by
      by_contra! hle
      exact hzero (by simp [← size_eq_zero_iff, le_antisymm hle.1 hleft, le_antisymm hle.2 hright])
    cases hl : left.negative <;> cases hr : right.negative <;>
      simp only [value, hl, hr, Bool.false_eq_true, if_true, if_false]
    · exact compareMagnitude_eq left right
    · exact (compare_gt_iff_gt.mpr (by grind)).symm
    · exact (compare_lt_iff_lt.mpr (by grind)).symm
    · rw [compareMagnitude_eq, ← Std.OrientedOrd.eq_swap, ← cmp_eq_compare, ← cmp_eq_compare]
      have hneg : StrictAnti fun q : ℚ => -q := fun _ _ h => neg_lt_neg h
      exact (hneg.cmp_map_eq _ _).symm

variable (text : List Char)

/-- The text, trimmed, is a sign and digits around an optional point, and the value is the number
that these are the decimal digits of. -/
def Spells (value : ℚ) : Prop :=
  ∃ sign integer fraction, integer.all isDigit ∧ fraction.all isDigit ∧
    (trim text = sign ++ integer ∧ fraction = [] ∨
      trim text = sign ++ (integer ++ '.' :: fraction)) ∧
    ∃ size : ℚ,
      size = natValue (digits integer) + natValue (digits fraction) / 10 ^ fraction.length ∧
      (sign ∈ [[], ['+']] ∧ value = size ∨ sign = ['-'] ∧ value = -size)

/-- A decimal spells its value. -/
lemma spells_value {text : List Char} {x : PlainDecimal} (h : parseDecimal text = some x) :
    Spells text x.value := by
  rw [parseDecimal] at h
  generalize htext : trim text = trimmed at h
  split_ifs at h
  split at h
  next negative rest hsigned =>
  split at h
  next integer fraction hparts =>
  split_ifs at h with hnone hall
  cases h
  have hpoint := splitOnce_point rest
  rw [hparts] at hpoint
  have hsize : ∀ h, size ⟨negative, digits integer, digits fraction, h⟩
      = natValue (digits integer) + natValue (digits fraction) / 10 ^ fraction.length := by
    intro h
    simp [size, magnitude, digits, div_eq_mul_inv]
  have hspells : ∀ sign, trimmed = sign ++ rest →
      (negative = false ∧ sign ∈ [[], ['+']] ∨ negative = true ∧ sign = ['-']) →
      Spells text (value ⟨negative, digits integer, digits fraction,
        isDigits_digits hall.1, isDigits_digits hall.2⟩) := by
    intro sign hrest hsign
    refine ⟨sign, integer, fraction, hall.1, hall.2, ?_, _, rfl, ?_⟩
    · rw [htext, hrest]
      exact hpoint.imp (And.imp_left (congrArg _)) (congrArg _)
    · rw [value, hsize]
      obtain ⟨rfl, hsign⟩ | ⟨rfl, hsign⟩ := hsign
      · exact .inl ⟨hsign, rfl⟩
      · exact .inr ⟨hsign, rfl⟩
  split at hsigned <;> cases hsigned
  · exact hspells ['-'] rfl (by simp)
  · exact hspells ['+'] rfl (by simp)
  · exact hspells [] rfl (by simp)

/-- Numbers stand in front of other texts. -/
def compareAsNumber (left right : List Char) : Ordering :=
  match parseDecimal left, parseDecimal right with
  | some leftValue, some rightValue => compareDecimal leftValue rightValue
  | some _, none => .lt
  | none, some _ => .gt
  | none, none => compareText left right

/-- **Texts that are decimals compare as the rationals they spell.** -/
theorem compareAsNumber_eq {left right : List Char} {x y : PlainDecimal}
    (hleft : parseDecimal left = some x) (hright : parseDecimal right = some y) :
    compareAsNumber left right = compare x.value y.value ∧
      Spells left x.value ∧ Spells right y.value := by
  refine ⟨?_, spells_value hleft, spells_value hright⟩
  rw [compareAsNumber, hleft, hright]
  exact compareDecimal_eq x y

theorem compareAsNumber_negative : ∃ x y : PlainDecimal,
    parseDecimal " -010.50".toList = some x ∧ parseDecimal "-.5".toList = some y ∧
      compareAsNumber " -010.50".toList "-.5".toList = compare x.value y.value ∧
      Spells " -010.50".toList x.value ∧ Spells "-.5".toList y.value :=
  ⟨⟨true, [0, 1, 0], [5, 0], by simp [IsDigits]⟩, ⟨true, [], [5], by simp [IsDigits]⟩, rfl, rfl,
    compareAsNumber_eq rfl rfl⟩

lemma transCmp_compareAsNumber : Std.TransCmp compareAsNumber where
  eq_swap {a b} := by
    cases ha : parseDecimal a <;> cases hb : parseDecimal b <;>
      simp only [compareAsNumber, ha, hb, compareDecimal_eq, compareText] <;>
        first | exact Std.OrientedOrd.eq_swap | rfl
  isLE_trans {a b c} hab hbc := by
    cases ha : parseDecimal a <;> cases hb : parseDecimal b <;> cases hc : parseDecimal c <;>
      simp only [compareAsNumber, ha, hb, hc, compareDecimal_eq, compareText] at hab hbc ⊢ <;>
        first | exact Std.TransOrd.isLE_trans hab hbc | contradiction | rfl

/-! ### Dates -/

variable (value : List Char)

/-- `parse_digits`, into a number of 32 bits. -/
def parseDigits : Option ℕ :=
  if value.isEmpty || !value.all isDigit then none
  else some (natValue (digits value)) |>.filter (· < 2 ^ 32)

def parseIsoDate : Option (List ℕ) :=
  match value.splitOn '-' with
  | [year, month, day] =>
    if byteLen year ≠ 4 then none else [year, month, day].mapM parseDigits
  | _ => none

def months : List String :=
  ["JAN", "FEB", "MAR", "APR", "MAY", "JUN", "JUL", "AUG", "SEP", "OCT", "NOV", "DEC"]

def monthFromAbbreviation : Option ℕ :=
  (months.findIdx? fun month => month.toList.isPrefixOf (value.map toUpper)).map (· + 1)

def parseDdMonDate : Option (List ℕ) :=
  match value.splitOn '-' with
  | [day, month, year] => do
    let month ← monthFromAbbreviation month
    let day ← parseDigits day
    let yearDigits ← parseDigits year
    match byteLen year with
    | 4 => some [yearDigits, month, day]
    | 2 => some [(if yearDigits < 50 then 2000 else 1900) + yearDigits, month, day]
    | _ => none
  | _ => none

/-- The date of `parse_temporal`: year, month and day. -/
def parseDate : Option (List ℕ) :=
  let value := value.map fun c => if c = '/' then '-' else c
  (parseIsoDate value).or (parseDdMonDate value)

/-- The clock of `parse_time`: hour, minute and second. -/
def parseClock (clock : List Char) : Option (List ℕ) :=
  match clock.splitOn ':' with
  | [hour, minute] => [hour, minute, ['0']].mapM parseDigits
  | [hour, minute, second] => [hour, minute, second].mapM parseDigits
  | _ => none

/-- `String::truncate`; `none` where it panics. -/
def truncate (n : ℕ) (s : List Char) : Option (List Char) :=
  if n ≤ byteLen s then getToByte n s else some s

/-- The outer `none` is a panic. -/
def parseTime : Option (Option (List ℕ)) :=
  if value.isEmpty then some (some [0, 0, 0, 0])
  else
    let (clock, fraction) := (splitOnce (· == '.') value).getD (value, ['0'])
    match parseClock clock with
    | none => some none
    | some time => (truncate 9 fraction).map fun scaled =>
        (parseDigits (scaled ++ replicate (9 - byteLen scaled) '0')).map (time ++ [·])

def splitDateAndTime : List Char × List Char :=
  match splitOnce (fun c => c = ' ' || c = 'T' || c = 't') value with
  | some (date, time) => (date, trim time)
  | none => (value, [])

/-- Year, month, day, hour, minute, second and fraction; the outer `none` is a panic. -/
def parseTemporal : Option (Option (List ℕ)) :=
  let trimmed := trim value
  if trimmed.isEmpty then some none
  else
    let (datePart, timePart) := splitDateAndTime trimmed
    match parseDate datePart with
    | none => some none
    | some date => (parseTime timePart).map fun time => time.map (date ++ ·)

def compareAsTemporal (left right : List Char) : Option Ordering := do
  match ← parseTemporal left, ← parseTemporal right with
  | some leftKey, some rightKey => some (compare leftKey rightKey)
  | _, _ => some (compareText left right)

/-- Two rendered values of a column; `none` is a panic. -/
def compareCellValues (column : SortColumn) (left right : Cell) : Option Ordering :=
  match left.isNull, right.isNull with
  | true, true => some .eq
  | true, false =>
    some (match column.nulls with | .lastOnAscending => .gt | .firstOnAscending => .lt)
  | false, true =>
    some (match column.nulls with | .lastOnAscending => .lt | .firstOnAscending => .gt)
  | false, false =>
    match column.kind with
    | .number | .boolean => some (compareAsNumber left.text right.text)
    | .temporal => compareAsTemporal left.text right.text
    | .string | .binary | .unknown => some (compareAsNumber left.text right.text)

/-! ### Which cells are compared -/

/-- A date and a clock with a fraction whose ninth byte is within a character. -/
def CutsCharacter : Prop :=
  (parseDate (splitDateAndTime (trim text)).1).isSome ∧ ∃ clock fraction,
      splitOnce (· == '.') (splitDateAndTime (trim text)).2 = some (clock, fraction) ∧
      (parseClock clock).isSome ∧ 9 ≤ byteLen fraction ∧ getToByte 9 fraction = none

lemma parseTime_eq_none_iff (time : List Char) : parseTime time = none ↔
    ∃ clock fraction, splitOnce (· == '.') time = some (clock, fraction) ∧
      (parseClock clock).isSome ∧ 9 ≤ byteLen fraction ∧ getToByte 9 fraction = none := by
  unfold parseTime truncate
  cases time with
  | nil => simp [splitOnce]
  | cons c time =>
    cases hsplit : splitOnce (· == '.') (c :: time) with
    | none =>
      have hshort : ¬ 9 ≤ byteLen ['0'] := by decide
      cases hclock : parseClock (c :: time) <;> simp [hclock, hshort]
    | some parts =>
      obtain ⟨clock, fraction⟩ := parts
      cases hclock : parseClock clock with
      | none => simp [hclock]
      | some time =>
        by_cases hlen : 9 ≤ byteLen fraction <;> simp [hclock, hlen]

lemma parseTemporal_eq_none_iff : parseTemporal text = none ↔ CutsCharacter text := by
  unfold parseTemporal CutsCharacter
  rw [← parseTime_eq_none_iff]
  cases hdate : parseDate (splitDateAndTime (trim text)).1 with
  | none => simp [hdate]
  | some date =>
    by_cases hempty : (trim text).isEmpty
    · have hnone : parseDate (splitDateAndTime []).1 = none := by decide
      simp [isEmpty_iff.mp hempty, hnone] at hdate
    · simp [hempty, hdate]

lemma parseDigits_lt {value : List Char} {n : ℕ} (h : parseDigits value = some n) :
    n < 2 ^ 32 ∧ n < 10 ^ byteLen value := by
  unfold parseDigits at h
  split_ifs at h with hdig
  obtain ⟨hn, hlt⟩ := filter_eq_some_iff.mp h
  simp only [Bool.or_eq_true, Bool.not_eq_true', not_or, Bool.not_eq_false] at hdig
  refine ⟨by simpa using hlt, ?_⟩
  have hlen : (digits value).length ≤ byteLen value := by
    rw [digits, byteLen]
    simpa using card_nsmul_le_sum (value.map utf8Size) 1
      (by simp [Nat.one_le_iff_ne_zero, Nat.pos_iff_ne_zero.mp (utf8Size_pos _)])
  rw [← some.inj hn]
  exact (natValue_lt (isDigits_digits hdig.2)).trans_le (Nat.pow_le_pow_right (by norm_num) hlen)

/-- **A comparison returns** unless both cells are dates that the grid shows and one of them has a
character across the ninth byte of its fraction. The numbers that are parsed fit, and years can be
added to a century. -/
theorem compareCellValues_isSome_iff (column : SortColumn) (left right : Cell) :
    ((compareCellValues column left right).isSome ↔
      (column.kind = .temporal → left.isNull = false → right.isNull = false →
        ¬ CutsCharacter left.text ∧ ¬ CutsCharacter right.text)) ∧
    ∀ value n, parseDigits value = some n →
      n < 2 ^ 32 ∧ (byteLen value ≤ 4 → 2000 + n < 2 ^ 31) := by
  refine ⟨?_, fun value n h => ⟨(parseDigits_lt h).1, fun hlen => ?_⟩⟩
  · rw [← parseTemporal_eq_none_iff, ← parseTemporal_eq_none_iff]
    rcases left with ⟨left, _ | _⟩ <;> rcases right with ⟨right, _ | _⟩ <;>
      rcases column with ⟨_ | _ | _ | _ | _ | _, nulls⟩ <;> simp [compareCellValues]
    unfold compareAsTemporal
    cases parseTemporal left <;> cases parseTemporal right <;> simp
    split <;> rfl
  · have hpow := Nat.pow_le_pow_right (show 0 < 10 by norm_num) hlen
    have := (parseDigits_lt h).2
    omega

/-- **A character across the ninth byte of a fraction panics.** -/
theorem cut_fraction_panics : compareCellValues ⟨.temporal, .lastOnAscending⟩
      ⟨"2024-01-01 00:00:00.12345678é".toList, false⟩ ⟨"2024-01-01".toList, false⟩ = none := by
  decide

/-! ### Which cells are ordered -/

section

variable {ι : Type*} (cell : ι → Cell)

/-- The rows of a column whose cells are compared by their texts. -/
abbrev Rendered : Type _ := {a // (cell a).isNull = false}

/-- What cells of dates have to meet: no comparison panics, and where a text that is no date stands
between two dates, the dates are in the order of their texts. -/
structure DatesInOrder : Prop where
  returns : ∀ a : Rendered cell, ¬ CutsCharacter (cell a).text
  inOrder : ∀ (x t y : Rendered cell) (i j : List ℕ), parseTemporal (cell x).text = some (some i) →
    parseTemporal (cell t).text = some none → parseTemporal (cell y).text = some (some j) →
      compareText (cell x).text (cell t).text = .lt →
        compareText (cell t).text (cell y).text = .lt → compare i j = .lt

/-- The comparison where none panics. -/
def renderedCompare : SqlValueKind → Rendered cell → Rendered cell → Ordering
  | .temporal => mixed (fun a => (parseTemporal (cell a).text).getD none)
      fun a => (cell a).text.map toNat
  | _ => fun a b => compareAsNumber (cell a).text (cell b).text

variable {cell} {column : SortColumn}

lemma temporalKey_congr (a b : Rendered cell)
    (h : compare ((cell a).text.map toNat) ((cell b).text.map toNat) = .eq) :
    (parseTemporal (cell a).text).getD none = (parseTemporal (cell b).text).getD none := by
  rw [map_injective_iff.mpr (fun _ _ => toNat_inj.mp) (Std.LawfulEqCmp.eq_of_compare h)]

lemma compareCellValues_eq (h : column.kind = .temporal → ∀ a : Rendered cell,
    parseTemporal (cell a).text ≠ none) (a b : Rendered cell) :
    compareCellValues column (cell a) (cell b) = some (renderedCompare cell column.kind a b) := by
  obtain ⟨kind, nulls⟩ := column
  cases kind <;> simp only [compareCellValues, a.2, b.2, renderedCompare]
  obtain ⟨i, hi⟩ := ne_none_iff_exists'.mp (h rfl a)
  obtain ⟨j, hj⟩ := ne_none_iff_exists'.mp (h rfl b)
  simp only [compareAsTemporal, hi, hj, mixed]
  cases i <;> cases j <;> rfl

/-- **Cells are ordered** by the comparison, as a total preorder, exactly when they are no dates or
their dates are in order. -/
theorem isPreorder_iff : (∃ cmp : ι → ι → Ordering, Std.TransCmp cmp ∧
    ∀ a b, compareCellValues column (cell a) (cell b) = some (cmp a b)) ↔
      (column.kind = .temporal → DatesInOrder cell) := by
  constructor
  · rintro ⟨cmp, hcmp, hall⟩ hkind
    have hreturns : ∀ a : Rendered cell, parseTemporal (cell a).text ≠ none := by
      intro a hnone
      have hself := hall a a
      simp [compareCellValues, a.2, hkind, compareAsTemporal, hnone] at hself
    have hmixed : Std.TransCmp (renderedCompare cell column.kind) := by
      have heq : renderedCompare cell column.kind = fun a b => cmp a.1 b.1 := by
        funext a b
        exact some.inj ((compareCellValues_eq (fun _ => hreturns) a b).symm.trans (hall a b))
      rw [heq]
      exact transCmp_comap hcmp Subtype.val
    rw [hkind] at hmixed
    refine ⟨fun a hcuts => hreturns a ((parseTemporal_eq_none_iff _).mpr hcuts), ?_⟩
    intro x t y i j hx ht hy hxt hty
    exact (transCmp_mixed_iff temporalKey_congr).mp hmixed x t y i j (by simp [hx])
      (by simp [ht]) (by simp [hy]) hxt hty
  · intro h
    have hreturns : column.kind = .temporal → ∀ a : Rendered cell,
        parseTemporal (cell a).text ≠ none := fun hkind a hnone =>
      (h hkind).returns a ((parseTemporal_eq_none_iff _).mp hnone)
    have htrans : Std.TransCmp (renderedCompare cell column.kind) := by
      rcases column with ⟨_ | _ | _ | _ | _ | _, nulls⟩
      case temporal =>
        refine (transCmp_mixed_iff temporalKey_congr).mpr fun x t y i j hx ht hy => ?_
        have hparse : ∀ (a : Rendered cell) {r}, (parseTemporal (cell a).text).getD none = r →
            parseTemporal (cell a).text = some r := fun a r hr => by
          obtain ⟨p, hp⟩ := ne_none_iff_exists'.mp (hreturns rfl a)
          rw [hp] at hr ⊢
          exact congrArg some hr
        exact (h rfl).inOrder x t y i j (hparse x hx) (hparse t ht) (hparse y hy)
      all_goals exact transCmp_comap transCmp_compareAsNumber fun a : Rendered cell =>
          (cell a).text
    refine ⟨fun a b => (compareCellValues column (cell a) (cell b)).getD .eq, ?_, fun a b => ?_⟩
    · refine transCmp_of_nulls (fun a => (cell a).isNull)
        (match column.nulls with | .lastOnAscending => .gt | .firstOnAscending => .lt)
        (by split <;> decide) (fun a b hnull => ?_) ?_
      · obtain ⟨kind, _ | _⟩ := column <;> cases ha : (cell a).isNull <;>
          cases hb : (cell b).isNull <;> simp_all [compareCellValues]
      · simpa [compareCellValues_eq hreturns] using htrans
    · cases ha : (cell a).isNull <;> cases hb : (cell b).isNull
      case false.false =>
        simp [compareCellValues_eq hreturns ⟨a, ha⟩ ⟨b, hb⟩]
      all_goals simp [compareCellValues, ha, hb]

end

/-- **A cycle** of two dates and a text that is none. -/
theorem dates_cycle :
    let compare (left right : String) := compareCellValues ⟨.temporal, .lastOnAscending⟩
      ⟨left.toList, false⟩ ⟨right.toList, false⟩
    compare "01-JAN-24" "01-FEB-24" = some .lt ∧ compare "01-FEB-24" "01-G" = some .lt ∧
      compare "01-G" "01-JAN-24" = some .lt := by
  decide

end SpaceQuery.GridSort
