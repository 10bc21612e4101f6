import Mathlib.Data.List.DropRight
import Mathlib.Data.List.TakeWhile
import Mathlib.Tactic

/-!
Text as the standard library of Rust treats it: a string is a list of Unicode
scalar values, and the character classes are those of `char`.
-/

namespace RustText

open List

/-- `char::is_whitespace`: the Unicode property `White_Space`. -/
def isWhitespace (c : Char) : Bool :=
  let n := c.toNat
  (9 ≤ n && n ≤ 13) || n == 0x20 || n == 0x85 || n == 0xA0 || n == 0x1680
    || (0x2000 ≤ n && n ≤ 0x200A) || n == 0x2028 || n == 0x2029 || n == 0x202F
    || n == 0x205F || n == 0x3000

/-- `char::is_control`: the Unicode category `Cc`. -/
def isControl (c : Char) : Bool :=
  let n := c.toNat
  n ≤ 0x1F || (0x7F ≤ n && n ≤ 0x9F)

variable {c : Char}

open Char

/-- The letters and digits of ASCII. -/
lemma toNat_of_isAlphanum (h : c.isAlphanum) :
    (65 ≤ c.toNat ∧ c.toNat ≤ 90) ∨ (97 ≤ c.toNat ∧ c.toNat ≤ 122) ∨
      (48 ≤ c.toNat ∧ c.toNat ≤ 57) := by
  delta isAlphanum isAlpha isUpper isLower isDigit at h
  simp only [Bool.or_eq_true, Bool.and_eq_true, decide_eq_true_eq, UInt32.le_iff_toNat_le,
    or_assoc] at h
  exact h

/-- A letter or digit of ASCII is no white space. -/
lemma isWhitespace_of_isAlphanum (h : c.isAlphanum) : isWhitespace c = false := by
  have hbounds := toNat_of_isAlphanum h
  simp only [isWhitespace, Bool.or_eq_false_iff, Bool.and_eq_false_iff, decide_eq_false_iff_not,
    beq_eq_false_iff_ne]
  omega

/-- The Unicode properties that `char::is_alphabetic` and `char::is_numeric` read. Nothing is
said about them beyond ASCII. -/
class UnicodeClasses where
  isAlphabetic : Char → Bool
  isNumeric : Char → Bool
  isAlphabetic_ascii : ∀ c : Char, c.toNat < 128 → isAlphabetic c = c.isAlpha
  isNumeric_ascii : ∀ c : Char, c.toNat < 128 → isNumeric c = c.isDigit

export UnicodeClasses (isAlphabetic isNumeric)

/-- The classes that know nothing but ASCII. -/
@[reducible] def asciiClasses : UnicodeClasses where
  isAlphabetic c := c.isAlpha
  isNumeric c := c.isDigit
  isAlphabetic_ascii _ _ := rfl
  isNumeric_ascii _ _ := rfl

/-- `char::is_alphanumeric`. -/
def isAlphanumeric [UnicodeClasses] (c : Char) : Bool := isAlphabetic c || isNumeric c

/-- `str::trim_start`. -/
def trimStart (s : List Char) : List Char := s.dropWhile isWhitespace

/-- `str::strip_prefix`. -/
def stripPrefix (pattern s : List Char) : Option (List Char) :=
  if pattern.isPrefixOf s then some (s.drop pattern.length) else none

/-- The text behind the first occurrence that `str::find` finds. -/
def afterFind (pattern : List Char) : List Char → Option (List Char)
  | [] => stripPrefix pattern []
  | c :: s => (stripPrefix pattern (c :: s)).or (afterFind pattern s)

variable (s : List Char)

/-- `str::to_ascii_uppercase`. -/
def asciiUppercase : String := String.ofList (s.map toUpper)

/-- `str::eq_ignore_ascii_case`. -/
def eqIgnoreAsciiCase (t : String) : Bool :=
  asciiUppercase s = asciiUppercase t.toList

/-- The first word of `str::split_whitespace`. -/
def firstWord : Option (List Char) :=
  match (trimStart s).takeWhile (!isWhitespace ·) with
  | [] => none
  | word => some word

/-- `str::get` from an offset in bytes to the end. -/
def getFromByte : ℕ → List Char → Option (List Char)
  | 0, s => some s
  | _ + 1, [] => none
  | n + 1, c :: s => if c.utf8Size ≤ n + 1 then getFromByte (n + 1 - c.utf8Size) s else none

/-- `str::get` up to an offset in bytes. -/
def getToByte : ℕ → List Char → Option (List Char)
  | 0, _ => some []
  | _ + 1, [] => none
  | n + 1, c :: s =>
    if c.utf8Size ≤ n + 1 then (getToByte (n + 1 - c.utf8Size) s).map (c :: ·) else none

variable (s : List Char)

/-- `str::get` between two offsets in bytes. -/
def getBytes (start stop : ℕ) : Option (List Char) :=
  if start ≤ stop then (getFromByte start s).bind (getToByte (stop - start)) else none

/-- `str::len`. -/
def byteLen : ℕ := (s.map utf8Size).sum

/-- `str::trim_end`. -/
def trimEnd : List Char := (s.reverse.dropWhile isWhitespace).reverse

/-- `str::trim`. -/
def trim : List Char := trimEnd (s.dropWhile isWhitespace)

variable {s : List Char}

lemma trimStart_eq_self (h : ∀ c ∈ s, isWhitespace c = false) : s.dropWhile isWhitespace = s := by
  cases s with
  | nil => rfl
  | cons c s => rw [dropWhile_cons_of_neg (by simp [h c mem_cons_self])]

/-- A text without white space is its own trimmed text. -/
lemma trim_eq_self (h : ∀ c ∈ s, isWhitespace c = false) : trim s = s := by
  have hrev : ∀ c ∈ s.reverse, isWhitespace c = false := fun c hc => h c (mem_reverse.mp hc)
  rw [trim, trimEnd, trimStart_eq_self h, trimStart_eq_self hrev, reverse_reverse]

/-- A text that does not end in white space is its own trimmed end. -/
lemma trimEnd_concat (h : isWhitespace c = false) (s : List Char) :
    trimEnd (s ++ [c]) = s ++ [c] := by
  rw [trimEnd, reverse_concat, dropWhile_cons_of_neg (by simp [h]), reverse_cons, reverse_reverse]

/-- The white space that `str::trim_end` removes. -/
def trailingWhitespace (s : List Char) : List Char :=
  (s.reverse.takeWhile isWhitespace).reverse

/-- A text is its trimmed end and the white space behind it. -/
lemma trimEnd_append_trailingWhitespace (s : List Char) :
    trimEnd s ++ trailingWhitespace s = s := by
  rw [trimEnd, trailingWhitespace, ← reverse_append, takeWhile_append_dropWhile, reverse_reverse]

lemma isWhitespace_of_mem_trailingWhitespace : ∀ c ∈ trailingWhitespace s, isWhitespace c := by
  intro c hc
  exact all_eq_true.mp all_takeWhile c (mem_reverse.mp hc)

/-- A text that is not blank starts with a character behind its white space. -/
lemma exists_trimStart_cons (h : trimStart s ≠ []) :
    ∃ c rest, trimStart s = c :: rest ∧ isWhitespace c = false := by
  obtain ⟨c, rest, hrest⟩ := exists_cons_of_ne_nil h
  have := head?_dropWhile_not isWhitespace s
  rw [← trimStart, hrest] at this
  exact ⟨c, rest, hrest, by simpa using this⟩

lemma trimStart_cons_of_not (hc : isWhitespace c = false) (rest : List Char) :
    trimStart (c :: rest) = c :: rest := by
  rw [trimStart, dropWhile_cons_of_neg (by simp [hc])]

lemma trimStart_whitespace {ws : List Char} (h : ∀ c ∈ ws, isWhitespace c)
    (s : List Char) : trimStart (ws ++ s) = trimStart s := by
  rw [trimStart, dropWhile_append_of_pos h, ← trimStart]

lemma exists_whitespace (s : List Char) :
    ∃ ws, (∀ c ∈ ws, isWhitespace c) ∧ s = ws ++ trimStart s :=
  ⟨s.takeWhile isWhitespace, fun _ hc => all_eq_true.mp all_takeWhile _ hc,
    takeWhile_append_dropWhile.symm⟩

/-- The white space at the end is that of the text behind the white space at its start. -/
lemma trailingWhitespace_trimStart (h : trimStart s ≠ []) :
    trailingWhitespace (trimStart s) = trailingWhitespace s := by
  obtain ⟨ws, -, hs⟩ := exists_whitespace s
  obtain ⟨c, rest, hrest, hc⟩ := exists_trimStart_cons h
  conv_rhs => rw [hs]
  rw [trailingWhitespace, trailingWhitespace, reverse_append, takeWhile_append, if_neg]
  intro hlen
  have hall := takeWhile_eq_self_iff.mp
    ((List.takeWhile_prefix isWhitespace).eq_of_length hlen) c (by rw [hrest]; simp)
  rw [hc] at hall
  exact Bool.false_ne_true hall

lemma trim_append_trailingWhitespace (h : trimStart s ≠ []) :
    trim s ++ trailingWhitespace s = trimStart s := by
  rw [← trailingWhitespace_trimStart h]
  exact trimEnd_append_trailingWhitespace (trimStart s)

lemma trimStart_ne_nil (h : trim s ≠ []) : trimStart s ≠ [] := by
  intro hnil
  rw [trim, ← trimStart, hnil] at h
  exact h rfl

lemma trim_ne_nil (h : trimStart s ≠ []) : trim s ≠ [] := by
  intro hnil
  obtain ⟨c, rest, hrest, hc⟩ := exists_trimStart_cons h
  have hsuf := trim_append_trailingWhitespace h
  rw [hnil, nil_append] at hsuf
  have := isWhitespace_of_mem_trailingWhitespace c (by rw [hsuf, hrest]; simp)
  rw [hc] at this
  exact Bool.false_ne_true this

/-- The trimmed text starts and ends as it is. -/
lemma trim_trim (s : List Char) : trim (trim s) = trim s := by
  by_cases h : trimStart s = []
  · have hnil : trim s = [] := by
      rw [trim, ← trimStart, h]
      rfl
    rw [hnil]
    rfl
  obtain ⟨c, rest, hrest, hc⟩ := exists_trimStart_cons h
  obtain ⟨d, tail, htail⟩ := exists_cons_of_ne_nil (trim_ne_nil h)
  have hsuf := trim_append_trailingWhitespace h
  rw [hrest, htail, cons_append, cons.injEq] at hsuf
  have hstart : trimStart (trim s) = trim s := by
    rw [htail, trimStart_cons_of_not (hsuf.1 ▸ hc)]
  rw [trim, ← trimStart, hstart, trim, trimEnd, trimEnd, reverse_reverse, dropWhile_idempotent]

lemma stripPrefix_eq_some {pattern text rest : List Char}
    (h : stripPrefix pattern text = some rest) : text = pattern ++ rest := by
  unfold stripPrefix at h
  split_ifs at h with hpre
  obtain ⟨tail, rfl⟩ := List.isPrefixOf_iff_prefix.mp hpre
  simpa using h

lemma stripPrefix_append (pattern rest : List Char) :
    stripPrefix pattern (pattern ++ rest) = some rest := by
  rw [stripPrefix, if_pos (List.isPrefixOf_iff_prefix.mpr (prefix_append _ _)), drop_left]

lemma stripPrefix_singleton_of_ne {p : Char} (h : c ≠ p) (rest : List Char) :
    stripPrefix [p] (c :: rest) = none := by
  simp [stripPrefix, h.symm]

/-- What `str::find` finds is in the text. -/
lemma afterFind_eq_some {pattern text rest : List Char} (h : afterFind pattern text = some rest) :
    ∃ before, text = before ++ pattern ++ rest := by
  induction text with
  | nil => exact ⟨[], stripPrefix_eq_some h⟩
  | cons c text ih =>
    rw [afterFind, Option.or_eq_some_iff] at h
    rcases h with h | ⟨-, h⟩
    · exact ⟨[], stripPrefix_eq_some h⟩
    · obtain ⟨before, rfl⟩ := ih h
      exact ⟨c :: before, rfl⟩

/-- `str::as_bytes`. -/
def asBytes (s : String) : List UInt8 := s.toUTF8.data.toList

/-- `String::from_utf8`. -/
def fromUtf8 (bytes : List UInt8) : Option String := String.fromUTF8? ⟨bytes.toArray⟩

/-- A string is read back from its bytes. -/
lemma fromUtf8_asBytes (s : String) : fromUtf8 (asBytes s) = some s := by
  have hvalid : (ByteArray.mk s.toUTF8.data).IsValidUTF8 := s.isValidUTF8
  rw [fromUtf8, asBytes, String.fromUTF8?, dif_pos hvalid]
  rfl

lemma asBytes_ofList (s : List Char) :
    asBytes (String.ofList s) = s.flatMap String.utf8EncodeChar := by
  change (toByteArray _).data.toList = _
  rw [data_toByteArray]

lemma asBytes_injective : Function.Injective asBytes := by
  intro s t h
  have hs := fromUtf8_asBytes s
  rw [h, fromUtf8_asBytes, Option.some.injEq] at hs
  exact hs.symm

/-- The decimal digits of a number, padded with zeros to a width. -/
def padded (width n : ℕ) : String :=
  let digits := Nat.toDigits 10 n
  String.ofList (replicate (width - digits.length) '0' ++ digits)

/-! ### Offsets in bytes -/

@[simp] lemma byteLen_nil : byteLen [] = 0 := rfl

lemma byteLen_cons (c : Char) (s : List Char) : byteLen (c :: s) = c.utf8Size + byteLen s := by
  simp [byteLen]

lemma byteLen_append (s t : List Char) : byteLen (s ++ t) = byteLen s + byteLen t := by
  simp [byteLen]

lemma byteLen_pos (h : s ≠ []) : 0 < byteLen s := by
  obtain ⟨c, s, rfl⟩ := exists_cons_of_ne_nil h
  have := c.utf8Size_pos
  rw [byteLen_cons]
  omega

lemma exists_byteLen_cons (c : Char) (s : List Char) : ∃ n, c.utf8Size + byteLen s = n + 1 :=
  ⟨_, (Nat.succ_pred_eq_of_pos (byteLen_pos (cons_ne_nil c s))).symm⟩

/-- Behind a text of the length. -/
lemma getFromByte_append (s t : List Char) : getFromByte (byteLen s) (s ++ t) = some t := by
  induction s with
  | nil => simp [getFromByte]
  | cons c s ih =>
    obtain ⟨n, hn⟩ := exists_byteLen_cons c s
    rw [byteLen_cons, cons_append, hn, getFromByte, if_pos (by omega), ← hn,
      Nat.add_sub_cancel_left, ih]

lemma getToByte_append (s t : List Char) : getToByte (byteLen s) (s ++ t) = some s := by
  induction s with
  | nil => simp [getToByte]
  | cons c s ih =>
    obtain ⟨n, hn⟩ := exists_byteLen_cons c s
    rw [byteLen_cons, cons_append, hn, getToByte, if_pos (by omega), ← hn,
      Nat.add_sub_cancel_left, ih, Option.map_some]

/-- A slice between two character boundaries. -/
lemma getBytes_append (front s back : List Char) :
    getBytes (front ++ (s ++ back)) (byteLen front) (byteLen front + byteLen s) = some s := by
  rw [getBytes, if_pos (Nat.le_add_right _ _), getFromByte_append, Option.bind_some,
    Nat.add_sub_cancel_left, getToByte_append]

end RustText
