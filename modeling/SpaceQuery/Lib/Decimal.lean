import Mathlib.Algebra.Order.Field.Power
import Mathlib.Data.Rat.Lemmas
import Mathlib.Tactic

/-!
Decimal digits with a decimal point.

Digits are written most significant first; `magnitude digits point` is the rational
`0.d₁d₂… · 10 ^ point`.
-/

namespace Decimal

open List

variable (digits : List ℕ)

/-- The digits are decimal ones. -/
def IsDigits : Prop := ∀ d ∈ digits, d < 10

/-- The value of digits. -/
def natValue : ℕ := digits.foldl (fun n d => n * 10 + d) 0

@[simp] lemma natValue_nil : natValue [] = 0 := rfl

lemma foldl_digits (n : ℕ) :
    digits.foldl (fun n d => n * 10 + d) n = n * 10 ^ digits.length + natValue digits := by
  induction digits generalizing n with
  | nil => simp
  | cons d digits ih =>
    rw [natValue, foldl_cons, foldl_cons, ih, ih (0 * 10 + d), length_cons]
    ring

lemma natValue_cons (d : ℕ) (digits : List ℕ) :
    natValue (d :: digits) = d * 10 ^ digits.length + natValue digits := by
  rw [natValue, foldl_cons, foldl_digits, zero_mul, zero_add]

lemma natValue_append (digits digits' : List ℕ) :
    natValue (digits ++ digits') = natValue digits * 10 ^ digits'.length + natValue digits' := by
  rw [natValue, foldl_append, foldl_digits]
  rfl

lemma natValue_lt {digits : List ℕ} (h : IsDigits digits) :
    natValue digits < 10 ^ digits.length := by
  induction digits with
  | nil => simp
  | cons d digits ih =>
    rw [IsDigits, forall_mem_cons] at h
    have hrest := ih h.2
    have hd : d * 10 ^ digits.length ≤ 9 * 10 ^ digits.length :=
      Nat.mul_le_mul_right _ (by omega)
    rw [natValue_cons, length_cons]
    omega

lemma pow_le_natValue {d : ℕ} (hd : d ≠ 0) (digits : List ℕ) :
    10 ^ digits.length ≤ natValue (d :: digits) := by
  rw [natValue_cons]
  exact (Nat.le_mul_of_pos_left _ (Nat.pos_of_ne_zero hd)).trans (Nat.le_add_right _ _)

/-! ### Digits with a point -/

variable (point : ℤ)

/-- The rational `0.d₁d₂… · 10 ^ point`. -/
def magnitude : ℚ :=
  natValue digits * (10 : ℚ) ^ (point - digits.length)

@[simp] lemma magnitude_nil : magnitude [] point = 0 := by simp [magnitude]

lemma magnitude_nonneg : 0 ≤ magnitude digits point := by
  unfold magnitude
  positivity

lemma magnitude_zero_cons : magnitude (0 :: digits) point = magnitude digits (point - 1) := by
  rw [magnitude, magnitude, natValue_cons, length_cons]
  push_cast
  rw [zero_mul, zero_add, sub_add_eq_sub_sub, sub_right_comm]

lemma magnitude_append_zero : magnitude (digits ++ [0]) point = magnitude digits point := by
  have hpow : (10 : ℚ) ^ (point - digits.length) = 10 * 10 ^ (point - (digits.length + 1)) := by
    rw [← zpow_one_add₀ (by norm_num)]
    ring_nf
  have hzero : natValue [0] = 0 := rfl
  rw [magnitude, magnitude, natValue_append, length_append, length_singleton, hpow, hzero]
  push_cast
  ring

lemma magnitude_replicate_zero (n : ℕ) (digits : List ℕ) (point : ℤ) :
    magnitude (replicate n 0 ++ digits) point = magnitude digits (point - n) := by
  induction n generalizing point with
  | zero => simp
  | succ n ih =>
    rw [replicate_succ, cons_append, magnitude_zero_cons, ih]
    push_cast
    ring_nf

lemma magnitude_append_replicate_zero (n : ℕ) (point : ℤ) :
    magnitude (digits ++ replicate n 0) point = magnitude digits point := by
  induction n with
  | zero => simp
  | succ n ih =>
    rw [replicate_succ', ← append_assoc, magnitude_append_zero, ih]

lemma magnitude_lt {digits : List ℕ} (h : IsDigits digits) (point : ℤ) :
    magnitude digits point < 10 ^ point := by
  have hlt : (natValue digits : ℚ) < 10 ^ (digits.length : ℤ) := by
    exact_mod_cast natValue_lt h
  calc magnitude digits point
      < 10 ^ (digits.length : ℤ) * 10 ^ (point - digits.length) :=
        mul_lt_mul_of_pos_right hlt (by positivity)
    _ = 10 ^ point := by
        rw [← zpow_add₀ (by norm_num)]
        ring_nf

lemma pow_le_magnitude {d : ℕ} (hd : d ≠ 0) (digits : List ℕ) (point : ℤ) :
    10 ^ (point - 1) ≤ magnitude (d :: digits) point := by
  have hle : (10 : ℚ) ^ (digits.length : ℤ) ≤ natValue (d :: digits) := by
    exact_mod_cast pow_le_natValue hd digits
  calc (10 : ℚ) ^ (point - 1)
      = 10 ^ (digits.length : ℤ) * 10 ^ (point - (d :: digits).length) := by
        rw [← zpow_add₀ (by norm_num), length_cons]
        push_cast
        ring_nf
    _ ≤ magnitude (d :: digits) point := mul_le_mul_of_nonneg_right hle (by positivity)

/-- A value between two powers of ten has one point only. -/
lemma point_eq_of_bounds {q : ℚ} {i j : ℤ} (hi : 10 ^ (i - 1) ≤ q) (hi' : q < 10 ^ i)
    (hj : 10 ^ (j - 1) ≤ q) (hj' : q < 10 ^ j) : i = j := by
  have hij : i - 1 < j := (zpow_lt_zpow_iff_right₀ (by norm_num : (1 : ℚ) < 10)).mp
    (hi.trans_lt hj')
  have hji : j - 1 < i := (zpow_lt_zpow_iff_right₀ (by norm_num : (1 : ℚ) < 10)).mp
    (hj.trans_lt hi')
  omega

/-- Digits that do not end in zero are no more than the significant digits of their value. -/
theorem length_le_of_magnitude_eq {d last m j : ℕ} {digits front : List ℕ} {point k : ℤ}
    (hd : d ≠ 0) (hlast : last % 10 ≠ 0) (hfront : d :: digits = front ++ [last])
    (heq : magnitude (d :: digits) point = m * 10 ^ k) (hm : m < 10 ^ j) :
    (d :: digits).length ≤ j := by
  set n := natValue (d :: digits) with hn
  have hmod : n % 10 ≠ 0 := by
    rw [hn, hfront, natValue_append, natValue_cons]
    simpa [Nat.mul_add_mod_self_right] using hlast
  have hpow : 10 ^ digits.length ≤ n := pow_le_natValue hd digits
  rw [magnitude] at heq
  set a : ℤ := point - (d :: digits).length with ha
  obtain hak | hak := le_or_gt k a
  · -- the digits, and more zeros behind them, are the significant digits
    obtain ⟨e, he⟩ := Int.eq_ofNat_of_zero_le (sub_nonneg.mpr hak)
    have hmul : (n : ℚ) * 10 ^ e = m := by
      have hsplit : (10 : ℚ) ^ a = 10 ^ e * 10 ^ k := by
        rw [← zpow_natCast, ← zpow_add₀ (by norm_num)]
        congr 1
        omega
      rw [hsplit, ← mul_assoc] at heq
      exact mul_right_cancel₀ (zpow_ne_zero k (by norm_num)) heq
    have hnat : n * 10 ^ e = m := by exact_mod_cast hmul
    have hle : 10 ^ digits.length < 10 ^ j := calc 10 ^ digits.length ≤ n := hpow
      _ ≤ n * 10 ^ e := Nat.le_mul_of_pos_right n (by positivity)
      _ = m := hnat
      _ < 10 ^ j := hm
    exact (Nat.pow_lt_pow_iff_right (by norm_num)).mp hle
  · -- otherwise the digits would end in zero
    obtain ⟨e, he⟩ := Int.eq_ofNat_of_zero_le (sub_nonneg.mpr hak.le)
    have hmul : (n : ℚ) = m * 10 ^ e := by
      have hsplit : (10 : ℚ) ^ k = 10 ^ e * 10 ^ a := by
        rw [← zpow_natCast, ← zpow_add₀ (by norm_num)]
        congr 1
        omega
      rw [hsplit, ← mul_assoc] at heq
      exact mul_right_cancel₀ (zpow_ne_zero a (by norm_num)) heq
    have hnat : n = m * 10 ^ e := by exact_mod_cast hmul
    obtain ⟨e', rfl⟩ : ∃ e', e = e' + 1 := ⟨e - 1, by omega⟩
    exact absurd (by rw [hnat, pow_succ, ← mul_assoc]; exact Nat.mul_mod_left _ _) hmod

/-! ### Comparing digit by digit -/

lemma natValue_eq_zero_iff {digits : List ℕ} : natValue digits = 0 ↔ ∀ d ∈ digits, d = 0 := by
  induction digits with
  | nil => simp
  | cons d digits ih => simp [natValue_cons, ih]

lemma magnitude_cons (d : ℕ) (digits : List ℕ) (point : ℤ) :
    magnitude (d :: digits) point = d * 10 ^ (point - 1) + magnitude digits (point - 1) := by
  have hpow : (10 : ℚ) ^ (point - 1) = 10 ^ digits.length * 10 ^ (point - 1 - digits.length) := by
    rw [← zpow_natCast, ← zpow_add₀ (by norm_num)]
    ring_nf
  rw [magnitude, magnitude, natValue_cons, length_cons, hpow]
  push_cast
  ring_nf

/-- A higher digit decides, and the rest does where the higher digits are equal. -/
lemma compare_digit {d e : ℕ} {unit m m' : ℚ} (hm : 0 ≤ m) (hlt : m < unit) (hm' : 0 ≤ m')
    (hlt' : m' < unit) :
    compare (d * unit + m) (e * unit + m') = (compare d e).then (compare m m') := by
  have hstep : ∀ {a b : ℕ} {p q : ℚ}, p < unit → 0 ≤ q → a < b →
      a * unit + p < b * unit + q := fun {a b p q} hp hq hab => by
    have hle : ((a : ℚ) + 1) * unit ≤ b * unit :=
      mul_le_mul_of_nonneg_right (by exact_mod_cast hab) (hm.trans hlt.le)
    linarith
  rcases lt_trichotomy d e with h | rfl | h
  · rw [compare_lt_iff_lt.mpr h, compare_lt_iff_lt.mpr (hstep hlt hm' h)]
    rfl
  · rw [← cmp_eq_compare, cmp_add_left, cmp_eq_compare, compare_eq_iff_eq.mpr rfl]
    rfl
  · rw [compare_gt_iff_gt.mpr h, compare_gt_iff_gt.mpr (hstep hlt' hm h)]
    rfl

/-- The comparison digit by digit, with zeros behind the shorter digits. -/
def compareDigits : List ℕ → List ℕ → Ordering
  | [], [] => .eq
  | d :: digits, [] => (compare d 0).then (compareDigits digits [])
  | [], e :: digits' => (compare 0 e).then (compareDigits [] digits')
  | d :: digits, e :: digits' => (compare d e).then (compareDigits digits digits')

variable {digits digits' : List ℕ}

theorem compareDigits_eq (h : IsDigits digits) (h' : IsDigits digits') (point : ℤ) :
    compareDigits digits digits' = compare (magnitude digits point) (magnitude digits' point) := by
  have hnil : ∀ point, magnitude [] point = (0 : ℕ) * 10 ^ (point - 1) + magnitude [] (point - 1) :=
    fun point => by simp
  fun_induction compareDigits digits digits' generalizing point with
  | case1 => simp
  | case2 d digits ih =>
    rw [IsDigits, forall_mem_cons] at h
    rw [ih h.2 h' (point - 1), magnitude_cons, hnil point, compare_digit (magnitude_nonneg _ _)
      (magnitude_lt h.2 _) (magnitude_nonneg _ _) (magnitude_lt h' _)]
  | case3 e digits' ih =>
    rw [IsDigits, forall_mem_cons] at h'
    rw [ih h h'.2 (point - 1), magnitude_cons, hnil point, compare_digit (magnitude_nonneg _ _)
      (magnitude_lt h _) (magnitude_nonneg _ _) (magnitude_lt h'.2 _)]
  | case4 d digits e digits' ih =>
    rw [IsDigits, forall_mem_cons] at h h'
    rw [ih h.2 h'.2 (point - 1), magnitude_cons, magnitude_cons, compare_digit
      (magnitude_nonneg _ _) (magnitude_lt h.2 _) (magnitude_nonneg _ _) (magnitude_lt h'.2 _)]

/-- Digits of one length compare digit by digit. -/
lemma compareDigits_of_length_eq (h : digits.length = digits'.length) :
    compareDigits digits digits' = compare digits digits' := by
  fun_induction compareDigits digits digits' with
  | case4 d digits e digits' ih => rw [List.compare_cons_cons, ih (by simpa using h)]
  | case1 => rfl
  | case2 => simp at h
  | case3 => simp at h

/-- Without leading zeros the length of digits decides, and then the digits do. -/
theorem compare_natValue (h : IsDigits digits) (h' : IsDigits digits')
    (hzero : digits.head? ≠ some 0) (hzero' : digits'.head? ≠ some 0) :
    (compare digits.length digits'.length).then (compare digits digits')
      = compare (natValue digits : ℚ) (natValue digits') := by
  have hshort : ∀ {short long : List ℕ}, IsDigits short → long.head? ≠ some 0 →
      short.length < long.length → (natValue short : ℚ) < natValue long := by
    rintro short (_ | ⟨d, long⟩) hd hne hlen
    · simp at hlen
    · have hpow := pow_le_natValue (by simpa using hne : d ≠ 0) long
      exact_mod_cast (natValue_lt hd).trans_le ((Nat.pow_le_pow_right (by norm_num)
        (Nat.le_of_lt_succ hlen)).trans hpow)
  rcases lt_trichotomy digits.length digits'.length with hlt | heq | hgt
  · rw [compare_lt_iff_lt.mpr hlt, compare_lt_iff_lt.mpr (hshort h hzero' hlt)]
    rfl
  · have hval := compareDigits_eq h h' digits.length
    rw [compareDigits_of_length_eq heq, magnitude, magnitude, ← heq, sub_self, zpow_zero, mul_one,
      mul_one] at hval
    rw [compare_eq_iff_eq.mpr heq, ← hval]
    rfl
  · rw [compare_gt_iff_gt.mpr hgt, compare_gt_iff_gt.mpr (hshort h' hzero hgt)]
    rfl

end Decimal
