import Mathlib.Tactic

/-!
Fields in byte sequences: big-endian integers (`beValue_beBytes`), the bytes found at a position
(`At`), and tables that are patched in place (`patch_entry`).
-/

namespace ByteFields

open List

/-! ### Big-endian integers -/

/-- The value of big-endian bytes. -/
def beValue (bytes : List UInt8) : ℕ :=
  bytes.foldl (fun value byte => value * 256 + byte.toNat) 0

/-- The low `width` bytes of a number, the most significant first. -/
def beBytes : ℕ → ℕ → List UInt8
  | 0, _ => []
  | width + 1, n => beBytes width (n / 256) ++ [UInt8.ofNat n]

@[simp]
lemma beBytes_length (width n : ℕ) : (beBytes width n).length = width := by
  induction width generalizing n with
  | zero => rfl
  | succ width ih => rw [beBytes, length_append, ih, length_singleton]

/-- The length of a table of integers. -/
lemma flatMap_beBytes_length {α : Type*} (width : ℕ) (f : α → ℕ) (entries : List α) :
    (entries.flatMap fun e => beBytes width (f e)).length = entries.length * width := by
  induction entries with
  | nil => rw [flatMap_nil, length_nil, length_nil, zero_mul]
  | cons e entries ih =>
    rw [flatMap_cons, length_append, ih, beBytes_length, length_cons, Nat.succ_mul, add_comm]

lemma beValue_beBytes {width n : ℕ} (h : n < 256 ^ width) : beValue (beBytes width n) = n := by
  induction width generalizing n with
  | zero =>
    rw [pow_zero, Nat.lt_one_iff] at h
    rw [h]
    rfl
  | succ width ih =>
    have hdiv : n / 256 < 256 ^ width := by
      rw [Nat.div_lt_iff_lt_mul (by norm_num)]
      exact h
    have hih := ih hdiv
    rw [beValue] at hih ⊢
    rw [beBytes, foldl_append, foldl_cons, foldl_nil, UInt8.toNat_ofNat']
    omega

/-! ### Bytes at a position -/

/-- The bytes stand at a position of the data. -/
def At (data : List UInt8) (pos : ℕ) (bytes : List UInt8) : Prop :=
  ∃ front back, data = front ++ bytes ++ back ∧ front.length = pos

variable {data bytes : List UInt8} {pos : ℕ}

lemma At.left {a b : List UInt8} (h : At data pos (a ++ b)) : At data pos a := by
  obtain ⟨front, back, rfl, rfl⟩ := h
  exact ⟨front, b ++ back, by simp only [append_assoc], rfl⟩

lemma At.right {a b : List UInt8} (h : At data pos (a ++ b)) : At data (pos + a.length) b := by
  obtain ⟨front, back, rfl, rfl⟩ := h
  exact ⟨front ++ a, back, by simp only [append_assoc], length_append⟩

lemma At.take_eq (h : At data pos bytes) : (data.drop pos).take bytes.length = bytes := by
  obtain ⟨front, back, rfl, rfl⟩ := h
  rw [append_assoc, drop_left, take_left]

lemma At.length_le (h : At data pos bytes) : pos + bytes.length ≤ data.length := by
  obtain ⟨front, back, rfl, rfl⟩ := h
  simp only [length_append]
  omega

lemma At.getElem?_eq {b : UInt8} (h : At data pos [b]) : data[pos]? = some b := by
  obtain ⟨front, back, rfl, rfl⟩ := h
  rw [append_assoc, getElem?_append_right le_rfl, Nat.sub_self]
  rfl

/-! ### Tables patched in place -/

/-- The bytes at a position are overwritten. -/
def patch (out : List UInt8) (pos : ℕ) (bytes : List UInt8) : List UInt8 :=
  out.take pos ++ bytes ++ out.drop (pos + bytes.length)

/-- The first entry of a table that is not yet filled in. -/
lemma patch_entry (pre hole rest bytes : List UInt8) (h : hole.length = bytes.length) :
    patch (pre ++ hole ++ rest) pre.length bytes = pre ++ bytes ++ rest := by
  rw [patch, append_assoc pre hole, take_left, ← drop_drop, drop_left, ← h, drop_left]

end ByteFields
