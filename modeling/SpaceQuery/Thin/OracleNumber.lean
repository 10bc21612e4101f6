import SpaceQuery.Thin.PacketCursor
import SpaceQuery.Lib.RustText

/-!
Oracle NUMBER values in `tns-thin/src/session.rs`: `encode_oracle_number` and
`decode_oracle_number`.

A number is a base-100 exponent byte and base-100 digits; negative numbers are sent complemented,
with a terminator behind short ones. The decimal point index is a 16-bit integer of the source,
whose arithmetic wraps (as it does in a release build).
-/

namespace SpaceQuery.Thin

open List RustText

/-! ### Encoding -/

/-- The value of a 16-bit integer of the source. -/
def toI16 (n : ℤ) : ℤ := (n + 2 ^ 15) % 2 ^ 16 - 2 ^ 15

/-- An ASCII digit as its value. -/
def digitValue (b : UInt8) : Option ℕ :=
  if 48 ≤ b.toNat ∧ b.toNat ≤ 57 then some (b.toNat - 48) else none

/-- `e` or `E`. -/
def isExponentMark (b : UInt8) : Bool := b == 101 || b == 69

/-- The digits before the decimal point, without leading zeros, and the text behind
them; none for a character that is no part of a number. -/
def integerDigits : Bytes → List ℕ → Option (List ℕ × Bytes)
  | [], digits => some (digits, [])
  | b :: rest, digits =>
    match digitValue b with
    | some digit =>
      if digit = 0 ∧ digits = [] then integerDigits rest digits
      else integerDigits rest (digits ++ [digit])
    | none => if b = 46 ∨ isExponentMark b then some (digits, b :: rest) else none

/-- The digits behind the decimal point; zeros before the first digit move the
decimal point index. -/
def fractionDigits : Bytes → List ℕ → ℤ → Option (List ℕ × ℤ × Bytes)
  | [], digits, pointIndex => some (digits, pointIndex, [])
  | b :: rest, digits, pointIndex =>
    match digitValue b with
    | some digit =>
      if digit = 0 ∧ digits = [] then fractionDigits rest digits (toI16 (pointIndex - 1))
      else fractionDigits rest (digits ++ [digit]) pointIndex
    | none => if isExponentMark b then some (digits, pointIndex, b :: rest) else none

/-- The exponent behind its mark. -/
def exponentOf (value : String) (text : Bytes) : Except OracleThinError ℤ :=
  let (negative, text) := match text with
    | 45 :: rest => (true, rest)
    | 43 :: rest => (false, rest)
    | text => (false, text)
  match text.mapM digitValue with
  | some (digit :: digits) =>
    let exponent : ℕ := (digit :: digits).foldl (fun n d => n * 10 + d) 0
    if 2 ^ 15 ≤ exponent then .error (.other "number too large to fit in target type")
    else .ok (if negative then -(exponent : ℤ) else exponent)
  | _ => .error (.other ("invalid Oracle NUMBER exponent in bind value: " ++ value))

/-- The significant digits of a text without its sign, and the decimal point index. -/
def parseDecimal (value : String) (text : Bytes) : Except OracleThinError (List ℕ × ℤ) :=
  let invalid : OracleThinError := .other ("invalid Oracle NUMBER bind value: " ++ value)
  match integerDigits text [] with
  | none => .error invalid
  | some (digits, rest) =>
    let pointIndex := toI16 digits.length
    let fraction := match rest with
      | 46 :: rest => fractionDigits rest digits pointIndex
      | rest => some (digits, pointIndex, rest)
    match fraction with
    | none => .error invalid
    | some (digits, pointIndex, []) => .ok (digits, pointIndex)
    | some (digits, pointIndex, b :: rest) =>
      if isExponentMark b then do
        let exponent ← exponentOf value rest
        return (digits, toI16 (pointIndex + exponent))
      else .error invalid

/-- The base-100 digits: pairs of decimal digits, the first one alone when the
decimal point index was odd. -/
def digitPairs : ℕ → Bool → List ℕ → List ℕ
  | numPairs + 1, true, digit :: rest => digit :: digitPairs numPairs false rest
  | numPairs + 1, false, digit :: next :: rest =>
    (digit * 10 + next) :: digitPairs numPairs false rest
  | _, _, _ => []

variable (digits : List ℕ)

/-- A zero is appended to an odd number of digits. -/
def padEven : List ℕ := if digits.length % 2 ≠ 0 then digits ++ [0] else digits

/-- The digits that are sent: for an odd decimal point index a zero makes room for
the one that the first pair starts with. -/
def wireDigits (pointIndex : ℤ) : List ℕ :=
  padEven (if pointIndex % 2 ≠ 0 then digits ++ [0] else digits)

variable (isNegative : Bool)

/-- The bytes of a number with significant digits. -/
def encodeDigits (digits : List ℕ) (pointIndex : ℤ) : Bytes :=
  let prependZero : Bool := pointIndex % 2 ≠ 0
  let digits := wireDigits digits pointIndex
  let pointIndex := if prependZero then pointIndex + 1 else pointIndex
  let exponentOnWire := UInt8.ofNat (pointIndex / 2 + 192).toNat
  let head := if isNegative then ~~~exponentOnWire else exponentOnWire
  let pairs := (digitPairs (digits.length / 2) prependZero digits).map fun digit =>
    UInt8.ofNat (if isNegative then 101 - digit else digit + 1)
  head :: pairs ++ (if isNegative && digits.length < 38 then [102] else [])

/-- Trailing zeros are dropped. -/
def trimZeros : List ℕ := (digits.reverse.dropWhile (· == 0)).reverse

/-- The number behind its sign. -/
def encodeUnsigned (value : String) (unsigned : Bytes) :
    Except OracleThinError Bytes := do
  if unsigned = [] then .error (.other ("invalid Oracle NUMBER bind value: " ++ value))
  else
    let (digits, pointIndex) ← parseDecimal value unsigned
    let digits := trimZeros digits
    if digits = [] then return [0x80]
    else if 38 < digits.length ∨ ¬ (-129 ≤ pointIndex ∧ pointIndex ≤ 126) then
      .error (.other ("Oracle NUMBER bind value out of range: " ++ value))
    else return encodeDigits isNegative digits pointIndex

def encodeOracleNumber (text : String) : Except OracleThinError Bytes :=
  let value := String.ofList (trim text.toList)
  match asBytes value with
  | [] => .error (.other "empty Oracle NUMBER bind value")
  | b :: rest => encodeUnsigned (b == 45) value (if b = 45 ∨ b = 43 then rest else b :: rest)

/-! ### Decoding -/

/-- The character of a decimal digit. -/
def digitChar (digit : ℕ) : Char := Char.ofNat (48 + digit)

/-- The two decimal digits of a mantissa byte. -/
def mantissaDigits (negative : Bool) (byte : UInt8) : List Char :=
  let digit := byte.toNat - 1
  let digit := if negative then 100 - digit else digit
  [digitChar (digit / 10), digitChar (digit % 10)]

/-- The decimal point is put into the digits, `scale` places from their end. -/
def placePoint (digits : List Char) (scale : ℤ) : List Char :=
  if 0 < scale then digits ++ replicate scale.toNat '0'
  else if scale < 0 then
    let pointPos := digits.length + scale
    if pointPos ≤ 0 then ['0', '.'] ++ replicate pointPos.natAbs '0' ++ digits
    else digits.take pointPos.toNat ++ '.' :: digits.drop pointPos.toNat
  else digits

/-- Trailing zeros of a fraction go, and with them its point. -/
def trimFraction (digits : List Char) : List Char :=
  if '.' ∈ digits then
    let trimmed := (digits.reverse.dropWhile (· == '0')).reverse
    if trimmed.getLast? = some '.' then trimmed.dropLast else trimmed
  else digits

/-- The text of a number with a mantissa. -/
def decodeFinite (head : UInt8) (mantissa : Bytes) : String :=
  let negative := head &&& 0x80 == 0
  let exponent : ℤ := (if negative then head ^^^ 0x7f else head &&& 0x7f).toNat - 64
  let mantissa := if negative && mantissa.getLast? == some 0x66 then mantissa.dropLast
    else mantissa
  let digits := mantissa.flatMap (mantissaDigits negative)
  let scale := exponent * 2 - digits.length
  let trimmed := digits.dropWhile (· == '0')
  let digits := if 1 < digits.length then (if trimmed = [] then ['0'] else trimmed)
    else digits
  let digits := trimFraction (placePoint digits scale)
  let digits := if digits.head? = some '.' then '0' :: digits else digits
  String.ofList (if negative && digits != ['0'] then '-' :: digits else digits)

def decodeOracleNumber : Bytes → Except OracleThinError String
  | [] => .error (.other "empty Oracle NUMBER value")
  | [head] =>
    if head = 0x80 then .ok "0"
    else if head = 0x00 then .ok "-Infinity"
    else .error (.other "invalid Oracle NUMBER value")
  | head :: mantissa =>
    if head = 0xff ∧ mantissa = [0x65] then .ok "Infinity"
    else .ok (decodeFinite head mantissa)

/-! ### What is encoded is decoded -/

lemma digitPairs_length_le (numPairs : ℕ) (first : Bool) (digits : List ℕ) :
    (digitPairs numPairs first digits).length ≤ numPairs := by
  fun_induction digitPairs numPairs first digits with
  | case1 numPairs digit rest ih | case2 numPairs digit next rest ih => exact Nat.succ_le_succ ih
  | case3 => exact Nat.zero_le _

/-- Two digits give at least one pair. -/
lemma exists_digitPairs_eq_cons (numPairs : ℕ) (first : Bool) (digits : List ℕ)
    (hpairs : 0 < numPairs) (hdig : 2 ≤ digits.length) :
    ∃ pair rest, digitPairs numPairs first digits = pair :: rest := by
  obtain ⟨n, rfl⟩ := Nat.exists_eq_succ_of_ne_zero hpairs.ne'
  match first, digits, hdig with
  | true, digit :: rest, _ => exact ⟨_, _, rfl⟩
  | false, digit :: next :: rest, _ => exact ⟨_, _, rfl⟩

lemma padEven_length : (padEven digits).length = digits.length + digits.length % 2 := by
  rw [padEven]
  split <;> simp <;> omega

lemma wireDigits_length (pointIndex : ℤ) : digits.length ≤ (wireDigits digits pointIndex).length ∧
      (wireDigits digits pointIndex).length ≤ digits.length + 2 ∧
      (wireDigits digits pointIndex).length % 2 = 0 := by
  rw [wireDigits, padEven_length]
  split
  · rw [length_append, length_singleton]
    omega
  · omega

/-- A number with digits has an exponent byte and at least one pair. -/
lemma exists_encodeDigits_eq_cons_cons {digits : List ℕ} (pointIndex : ℤ) (h : digits ≠ []) :
    ∃ head pair rest, encodeDigits isNegative digits pointIndex = head :: pair :: rest := by
  have hlen : 0 < digits.length := length_pos_of_ne_nil h
  have hwire := wireDigits_length digits pointIndex
  obtain ⟨pair, rest, hpairs⟩ := exists_digitPairs_eq_cons
    ((wireDigits digits pointIndex).length / 2) (decide (pointIndex % 2 ≠ 0))
    (wireDigits digits pointIndex) (by omega) (by omega)
  rw [encodeDigits]
  simp only [hpairs]
  exact ⟨_, _, _, rfl⟩

lemma encodeDigits_length_lt {digits : List ℕ} (pointIndex : ℤ)
    (h : digits.length ≤ 38) : (encodeDigits isNegative digits pointIndex).length < 256 := by
  have hwire := wireDigits_length digits pointIndex
  have hpairs := digitPairs_length_le ((wireDigits digits pointIndex).length / 2)
    (decide (pointIndex % 2 ≠ 0)) (wireDigits digits pointIndex)
  simp only [encodeDigits, length_append, length_cons, length_map]
  split
  · rw [length_singleton]
    omega
  · rw [length_nil]
    omega

variable {bytes : Bytes}

/-- What the encoder returns: zero, or a number of at most 38 significant digits. -/
lemma encodeUnsigned_cases {isNegative : Bool} {value : String} {unsigned : Bytes}
    (h : encodeUnsigned isNegative value unsigned = .ok bytes) :
    bytes = [0x80] ∨ ∃ digits pointIndex, digits ≠ [] ∧ digits.length ≤ 38 ∧
      bytes = encodeDigits isNegative digits pointIndex := by
  rw [encodeUnsigned] at h
  split at h
  case isTrue => cases h
  case isFalse =>
    obtain ⟨parsed, -, h⟩ := Except.exists_of_bind_eq_ok h
    dsimp only at h
    split_ifs at h with hzero hrange
    · exact .inl (Except.ok.inj h).symm
    · rw [not_or, not_lt] at hrange
      exact .inr ⟨_, _, hzero, hrange.1, (Except.ok.inj h).symm⟩

lemma encodeOracleNumber_cases {text : String} (h : encodeOracleNumber text = .ok bytes) :
    bytes = [0x80] ∨ ∃ isNegative digits pointIndex, digits ≠ [] ∧ digits.length ≤ 38 ∧
      bytes = encodeDigits isNegative digits pointIndex := by
  simp only [encodeOracleNumber] at h
  split at h
  case h_1 => cases h
  case h_2 => exact (encodeUnsigned_cases h).imp_right fun hdig => ⟨_, hdig⟩

/-- A number of at least two bytes is decoded. -/
lemma exists_decodeOracleNumber_cons_cons (head b : UInt8) (rest : Bytes) :
    ∃ text, decodeOracleNumber (head :: b :: rest) = .ok text := by
  rw [decodeOracleNumber]
  · split
    · exact ⟨_, rfl⟩
    · exact ⟨_, rfl⟩
  · exact cons_ne_nil b rest

/-- The decoder decodes what the encoder returns. -/
theorem exists_decodeOracleNumber {text : String} (h : encodeOracleNumber text = .ok bytes) :
    ∃ decoded, decodeOracleNumber bytes = .ok decoded := by
  obtain rfl | ⟨isNegative, digits, pointIndex, hne, -, rfl⟩ := encodeOracleNumber_cases h
  · exact ⟨"0", rfl⟩
  · obtain ⟨head, pair, rest, heq⟩ := exists_encodeDigits_eq_cons_cons isNegative pointIndex hne
    rw [heq]
    exact exists_decodeOracleNumber_cons_cons head pair rest

/-- The length of an encoded number fits a byte. -/
lemma encodeOracleNumber_length_lt {text : String} (h : encodeOracleNumber text = .ok bytes) :
    bytes.length < 256 := by
  obtain rfl | ⟨isNegative, digits, pointIndex, -, hlen, rfl⟩ := encodeOracleNumber_cases h
  · exact Nat.lt_of_sub_eq_succ rfl
  · exact encodeDigits_length_lt isNegative pointIndex hlen

end SpaceQuery.Thin
