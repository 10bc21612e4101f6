import SpaceQuery.Thin.NestedObjects

/-!
The texts of row addresses in `tns-thin/src/session.rs`: the extended form of a physical
ROWID, and `*` with unpadded base 64 for a logical UROWID.
-/

namespace SpaceQuery.Thin

open List ByteFields

def tnsBase64Alphabet : List Char :=
  "ABCDEFGHIJKLMNOPQRSTUVWXYZabcdefghijklmnopqrstuvwxyz0123456789+/".toList

/-- `TNS_BASE64_ALPHABET[i]`; the index has six bits. -/
def base64Char (i : ℕ) : Char := tnsBase64Alphabet.getD i 'A'

/-- The bytes are filled from the last one, which takes the low digit. -/
def encodeRowidBase64Value (value : ℕ) : ℕ → List Char
  | 0 => []
  | size + 1 => encodeRowidBase64Value (value >>> 6) size ++ [base64Char (value &&& 0x3f)]

def encodePhysicalRowid : UInt32 × UInt16 × UInt32 × UInt16 → OracleValue
  | (rba, partitionId, blockNum, slotNum) =>
    if rba = 0 ∧ partitionId = 0 ∧ blockNum = 0 ∧ slotNum = 0 then .null
    else .text (String.ofList (encodeRowidBase64Value rba.toNat 6 ++
      encodeRowidBase64Value partitionId.toNat 3 ++ encodeRowidBase64Value blockNum.toNat 6 ++
      encodeRowidBase64Value slotNum.toNat 3))

def base64UnpaddedLen (inputLen : ℕ) : ℕ :=
  inputLen / 3 * 4 + match inputLen % 3 with
    | 0 => 0
    | 1 => 2
    | _ => 3

/-- The chunks of three bytes; nothing shifted out of a byte is lost, and a short last chunk
leaves out characters. -/
def encodeBase64Unpadded : Bytes → List Char
  | [] => []
  | [a] => [base64Char (a.toNat >>> 2), base64Char ((a.toNat &&& 0x03) <<< 4)]
  | [a, b] =>
    [base64Char (a.toNat >>> 2), base64Char ((a.toNat &&& 0x03) <<< 4 ||| b.toNat >>> 4),
      base64Char ((b.toNat &&& 0x0f) <<< 2)]
  | a :: b :: c :: input =>
    base64Char (a.toNat >>> 2) :: base64Char ((a.toNat &&& 0x03) <<< 4 ||| b.toNat >>> 4) ::
      base64Char ((b.toNat &&& 0x0f) <<< 2 ||| c.toNat >>> 6) ::
      base64Char (c.toNat &&& 0x3f) :: encodeBase64Unpadded input

/-- `read_urowid_value` behind its length test. -/
def urowidValue (bytes : Bytes) : OracleValue :=
  let field := fun start len => beValue ((bytes.drop start).take len)
  if bytes.head? = some 1 then
    encodePhysicalRowid
      (.ofNat (field 1 4), .ofNat (field 5 2), .ofNat (field 7 4), .ofNat (field 11 2))
  else .text (String.ofList ('*' :: encodeBase64Unpadded bytes.tail))

/-! ### One character -/

lemma idxOf_base64Char : ∀ i < 64, tnsBase64Alphabet.idxOf (base64Char i) = i := by decide

lemma base64Char_inj {i j : ℕ} (hi : i < 64) (hj : j < 64) :
    base64Char i = base64Char j ↔ i = j := by
  refine ⟨fun h => ?_, congrArg _⟩
  rw [← idxOf_base64Char i hi, h, idxOf_base64Char j hj]

lemma base64Char_ne_star {i : ℕ} (hi : i < 64) : '*' ≠ base64Char i := by
  intro h
  have hstar : tnsBase64Alphabet.idxOf '*' = 64 := by decide
  rw [h, idxOf_base64Char i hi] at hstar
  exact hi.ne hstar

lemma and_mask (n : ℕ) : n &&& 0x03 = n % 4 ∧ n &&& 0x0f = n % 16 ∧ n &&& 0x3f = n % 64 :=
  ⟨Nat.and_two_pow_sub_one_eq_mod n 2, Nat.and_two_pow_sub_one_eq_mod n 4,
    Nat.and_two_pow_sub_one_eq_mod n 6⟩

/-- Bits of one byte above those of the next. -/
lemma shiftLeft_or {x y k : ℕ} (h : y < 2 ^ k) : x <<< k ||| y = x * 2 ^ k + y := by
  rw [← Nat.shiftLeft_add_eq_or_of_lt h, Nat.shiftLeft_eq]

/-! ### Whole texts -/

@[simp]
lemma encodeRowidBase64Value_length (value size : ℕ) :
    (encodeRowidBase64Value value size).length = size := by
  induction size generalizing value with
  | zero => rfl
  | succ size ih => rw [encodeRowidBase64Value, length_append, ih, length_singleton]

lemma encodeRowidBase64Value_inj {size v w : ℕ} (hv : v < 64 ^ size) (hw : w < 64 ^ size)
    (h : encodeRowidBase64Value v size = encodeRowidBase64Value w size) : v = w := by
  induction size generalizing v w with
  | zero => omega
  | succ size ih =>
    obtain ⟨hhigh, hlow⟩ := append_inj' h rfl
    have hdiv := @ih (v >>> 6) (w >>> 6) (by omega) (by omega) hhigh
    rw [cons.injEq, (and_mask v).2.2, (and_mask w).2.2, base64Char_inj (by omega) (by omega)]
      at hlow
    omega

lemma base64UnpaddedLen_eq (n : ℕ) : base64UnpaddedLen n = (4 * n + 2) / 3 := by
  have hmod : n % 3 = 0 ∨ n % 3 = 1 ∨ n % 3 = 2 := by omega
  rcases hmod with h | h | h <;> simp only [base64UnpaddedLen, h] <;> omega

lemma encodeBase64Unpadded_length (input : Bytes) :
    (encodeBase64Unpadded input).length = base64UnpaddedLen input.length := by
  rw [base64UnpaddedLen_eq]
  fun_induction encodeBase64Unpadded input with
  | case4 a b c input ih =>
    simp only [length_cons, ih]
    omega
  | _ => simp

lemma encodeChunk_inj {a b c a' b' c' : UInt8}
    (h : encodeBase64Unpadded [a, b, c] = encodeBase64Unpadded [a', b', c']) :
    [a, b, c] = [a', b', c'] := by
  have := a.toNat_lt
  have := b.toNat_lt
  have := c.toNat_lt
  have := a'.toNat_lt
  have := b'.toNat_lt
  have := c'.toNat_lt
  simp (disch := omega) only [encodeBase64Unpadded, cons.injEq, and_mask,
    Nat.shiftRight_eq_div_pow, shiftLeft_or, base64Char_inj] at h
  have ha : a.toNat = a'.toNat := by omega
  have hb : b.toNat = b'.toNat := by omega
  have hc : c.toNat = c'.toNat := by omega
  rw [UInt8.toNat_inj.mp ha, UInt8.toNat_inj.mp hb, UInt8.toNat_inj.mp hc]

/-- The texts are compared chunk by chunk; a short last chunk is one with zero bytes behind
it whose text is cut off. -/
lemma encodeBase64Unpadded_inj {x y : Bytes}
    (h : encodeBase64Unpadded x = encodeBase64Unpadded y) : x = y := by
  have hlen := congrArg length h
  simp only [encodeBase64Unpadded_length, base64UnpaddedLen_eq] at hlen
  replace hlen : y.length = x.length := by omega
  fun_induction encodeBase64Unpadded x generalizing y with
  | case1 => exact (length_eq_zero_iff.mp hlen).symm
  | case2 a =>
    obtain ⟨a', rfl⟩ := length_eq_one_iff.mp hlen
    have := @encodeChunk_inj a 0 0 a' 0 0
    simp_all [encodeBase64Unpadded]
  | case3 a b =>
    obtain ⟨a', b', rfl⟩ := length_eq_two.mp hlen
    have := @encodeChunk_inj a b 0 a' b' 0
    simp_all [encodeBase64Unpadded]
  | case4 a b c x ih =>
    obtain _ | ⟨a', _ | ⟨b', _ | ⟨c', y⟩⟩⟩ := y <;> try cases hlen
    obtain ⟨hchunk, hrest⟩ := @append_inj _ (encodeBase64Unpadded [a, b, c])
      (encodeBase64Unpadded [a', b', c']) _ _ h rfl
    exact congrArg₂ (· ++ ·) (encodeChunk_inj hchunk) (ih hrest (by simpa using hlen))

/-- No character of a physical ROWID's text is the `*` that marks a logical UROWID. -/
lemma star_notMem (value size : ℕ) : '*' ∉ encodeRowidBase64Value value size := by
  induction size generalizing value with
  | zero => exact not_mem_nil
  | succ size ih =>
    rw [encodeRowidBase64Value, mem_append, mem_singleton, (and_mask value).2.2]
    exact not_or.mpr ⟨ih _, base64Char_ne_star (Nat.mod_lt _ (by decide))⟩

/-- **Row addresses are unambiguous**: physical texts have 18 characters and determine the
row, unpadded base 64 determines the bytes, and a logical text is never a physical one. -/
theorem rowidTexts_unambiguous : Set.InjOn encodePhysicalRowid {(0, 0, 0, 0)}ᶜ ∧
      (∀ row ≠ (0, 0, 0, 0), ∃ text, encodePhysicalRowid row = .text text ∧ text.length = 18) ∧
      Function.Injective encodeBase64Unpadded ∧
      (∀ input, (encodeBase64Unpadded input).length = base64UnpaddedLen input.length) ∧
      ∀ row bytes, bytes.head? ≠ some 1 → encodePhysicalRowid row ≠ urowidValue bytes := by
  have hneg {r p b s} (h : ((r, p, b, s) : UInt32 × UInt16 × UInt32 × UInt16) ≠ (0, 0, 0, 0)) :
      ¬(r = 0 ∧ p = 0 ∧ b = 0 ∧ s = 0) := by simpa using h
  refine ⟨?_, ?_, fun _ _ => encodeBase64Unpadded_inj, encodeBase64Unpadded_length, ?_⟩
  · rintro ⟨r, p, b, s⟩ hrow ⟨r', p', b', s'⟩ hrow' h
    rw [encodePhysicalRowid, if_neg (hneg hrow), encodePhysicalRowid, if_neg (hneg hrow'),
      OracleValue.text.injEq, String.ofList_inj] at h
    obtain ⟨h, hs⟩ := append_inj' h (by simp)
    obtain ⟨h, hb⟩ := append_inj' h (by simp)
    obtain ⟨hr, hp⟩ := append_inj' h (by simp)
    have h32 (v : UInt32) : v.toNat < 64 ^ 6 := v.toNat_lt.trans (by decide)
    have h16 (v : UInt16) : v.toNat < 64 ^ 3 := v.toNat_lt.trans (by decide)
    rw [UInt32.toNat_inj.mp (encodeRowidBase64Value_inj (h32 _) (h32 _) hr),
      UInt16.toNat_inj.mp (encodeRowidBase64Value_inj (h16 _) (h16 _) hp),
      UInt32.toNat_inj.mp (encodeRowidBase64Value_inj (h32 _) (h32 _) hb),
      UInt16.toNat_inj.mp (encodeRowidBase64Value_inj (h16 _) (h16 _) hs)]
  · rintro ⟨r, p, b, s⟩ hrow
    exact ⟨_, if_neg (hneg hrow), by simp⟩
  · rintro ⟨r, p, b, s⟩ bytes hbytes h
    rw [urowidValue, if_neg hbytes, encodePhysicalRowid] at h
    split_ifs at h
    rw [OracleValue.text.injEq, String.ofList_inj] at h
    have hstar : '*' ∈ '*' :: encodeBase64Unpadded bytes.tail := mem_cons_self
    simp only [← h, mem_append, star_notMem, or_self] at hstar

end SpaceQuery.Thin
