import SpaceQuery.Thin.OracleNumberText

/-!
`encode_oracle_number` and `decode_oracle_number` on the numbers that Oracle has.
-/

namespace SpaceQuery.Thin

open Option List RustText DecimalText
open Decimal (IsDigits natValue)

/-! ### Digits that count -/

variable (digits : List ℕ)

lemma exists_eq_append_significant : ∃ zeros, digits = replicate zeros 0 ++ significant digits := by
  induction digits with
  | nil => exact ⟨0, rfl⟩
  | cons d digits ih =>
    by_cases hd : d = 0
    · obtain ⟨zeros, hzeros⟩ := ih
      refine ⟨zeros + 1, ?_⟩
      have hsig : significant (d :: digits) = significant digits := by
        rw [significant, dropWhile_cons_of_pos (by simpa using hd), significant]
      rw [hsig, replicate_succ, cons_append, ← hzeros, hd]
    · refine ⟨0, ?_⟩
      rw [significant, dropWhile_cons_of_neg (by simpa using hd)]
      rfl

lemma exists_eq_trimZeros_append : ∃ zeros, digits = trimZeros digits ++ replicate zeros 0 := by
  obtain ⟨zeros, hzeros⟩ := exists_eq_append_significant digits.reverse
  refine ⟨zeros, ?_⟩
  rw [trimZeros, ← significant, ← reverse_replicate, ← reverse_append, ← hzeros, reverse_reverse]

lemma head_significant_ne : (significant digits).head? ≠ some 0 := by
  intro h
  obtain ⟨rest, hrest⟩ := head?_eq_some_iff.mp h
  have hne : digits.dropWhile (· == 0) ≠ [] := by
    rw [← significant, hrest]
    exact cons_ne_nil _ _
  have hhead := head_dropWhile_not (· == 0) hne
  simp [significant] at hrest
  simp [hrest] at hhead

variable {digits : List ℕ}

/-- The digits that are encoded have no zero at either end. -/
lemma trimmed_trimZeros (h : IsDigits digits) (hne : trimZeros (significant digits) ≠ []) :
    Trimmed (trimZeros (significant digits)) := by
  obtain ⟨lead, hlead⟩ := exists_eq_append_significant digits
  obtain ⟨zeros, hzeros⟩ := exists_eq_trimZeros_append (significant digits)
  have hsub : ∀ d ∈ trimZeros (significant digits), d ∈ digits := by
    intro d hd
    rw [hlead, hzeros]
    exact mem_append_right _ (mem_append_left _ hd)
  refine ⟨fun d hd => h d (hsub d hd), ?_, ?_⟩
  · obtain ⟨d, rest, hcons⟩ := exists_cons_of_ne_nil hne
    refine ⟨d, rest, hcons, fun hd => head_significant_ne digits ?_⟩
    rw [hzeros, hcons, hd]
    rfl
  · obtain ⟨d, rest, hcons⟩ := exists_cons_of_ne_nil
      (reverse_ne_nil_iff.mpr hne)
    refine ⟨rest.reverse, d, ?_, fun hd => head_significant_ne (significant digits).reverse ?_⟩
    · rw [← reverse_cons, ← hcons, reverse_reverse]
    · rw [trimZeros, reverse_reverse] at hcons
      rw [significant, hcons, hd]
      rfl

namespace DecimalText

variable (t : DecimalText)

/-- The digits that are encoded. -/
def kept : List ℕ := trimZeros t.significant

lemma magnitude_eq_kept : t.magnitude = Decimal.magnitude t.kept t.point := by
  obtain ⟨lead, hlead⟩ := exists_eq_append_significant t.digits
  obtain ⟨zeros, hzeros⟩ := exists_eq_trimZeros_append t.significant
  have hlen : t.int.length + (t.frac.getD []).length = lead + t.significant.length := by
    rw [← length_append, ← digits, hlead, length_append, length_replicate, significant]
  have hpoint : (t.int.length : ℤ) + t.exponentValue - lead = t.point := by
    rw [point]
    omega
  calc t.magnitude
      = Decimal.magnitude t.significant t.point := by
        rw [magnitude, hlead, Decimal.magnitude_replicate_zero, hpoint, significant]
    _ = Decimal.magnitude t.kept t.point := by
        rw [hzeros, Decimal.magnitude_append_replicate_zero, kept]

lemma magnitude_nonneg : 0 ≤ t.magnitude := Decimal.magnitude_nonneg _ _

lemma abs_value : |t.value| = t.magnitude := by
  rw [value]
  cases t.sign with
  | none => exact abs_of_nonneg t.magnitude_nonneg
  | some sign =>
    cases sign with
    | plus => exact abs_of_nonneg t.magnitude_nonneg
    | minus => exact (abs_neg _).trans (abs_of_nonneg t.magnitude_nonneg)

lemma trimmed_kept (h : t.kept ≠ []) : Trimmed t.kept := trimmed_trimZeros t.isDigits h

/-- The number has digits to encode unless it is zero. -/
lemma value_eq_zero_iff : t.value = 0 ↔ t.kept = [] := by
  rw [← abs_eq_zero, abs_value, magnitude_eq_kept]
  constructor
  · intro hzero
    by_contra hne
    obtain ⟨d, rest, hcons, hd⟩ := (t.trimmed_kept hne).head
    have hle := Decimal.pow_le_magnitude hd rest t.point
    rw [← hcons, hzero] at hle
    exact absurd hle (not_le.mpr (by positivity))
  · intro hkept
    rw [hkept, Decimal.magnitude_nil]

end DecimalText

/-- The numbers of Oracle: zero, and those with at most 38 significant digits and a decimal
point index between -129 and 126. -/
def Representable (q : ℚ) : Prop :=
  q = 0 ∨ (∃ m : ℕ, ∃ k : ℤ, m < 10 ^ 38 ∧ |q| = m * 10 ^ k) ∧
    ∃ i : ℤ, -129 ≤ i ∧ i ≤ 126 ∧ 10 ^ (i - 1) ≤ |q| ∧ |q| < 10 ^ i

variable (t : DecimalText)

/-- What the encoder tests is whether the value is a number of Oracle. -/
theorem representable_value_iff : Representable t.value ↔
      t.kept = [] ∨ t.kept.length ≤ 38 ∧ -129 ≤ t.point ∧ t.point ≤ 126 := by
  rw [Representable, t.value_eq_zero_iff, t.abs_value, t.magnitude_eq_kept]
  by_cases hne : t.kept = []
  · simp [hne]
  have htrimmed := t.trimmed_kept hne
  obtain ⟨d, rest, hcons, hd⟩ := htrimmed.head
  obtain ⟨front, last, hlast, hlast'⟩ := htrimmed.last
  have hlow := Decimal.pow_le_magnitude hd rest t.point
  have hhigh := Decimal.magnitude_lt htrimmed.isDigits t.point
  rw [← hcons] at hlow
  simp only [hne, false_or]
  constructor
  · rintro ⟨⟨m, k, hm, heq⟩, i, hi, hi', hle, hlt⟩
    obtain rfl : i = t.point := Decimal.point_eq_of_bounds hle hlt hlow hhigh
    have hmod : last % 10 ≠ 0 := by
      have := htrimmed.isDigits last (by simp [hlast])
      omega
    rw [hcons] at heq hlast ⊢
    exact ⟨Decimal.length_le_of_magnitude_eq hd hmod hlast heq hm, hi, hi'⟩
  · rintro ⟨hlen, hi, hi'⟩
    refine ⟨⟨natValue t.kept, t.point - t.kept.length, ?_, rfl⟩, t.point, hi, hi', hlow, hhigh⟩
    exact (Decimal.natValue_lt htrimmed.isDigits).trans_le (Nat.pow_le_pow_right (by norm_num) hlen)

/-! ### What the encoder does -/

/-- What the encoder does with a text that is a numeral. -/
lemma encodeOracleNumber_text_eq (hne : t.unsigned ≠ []) : encodeOracleNumber t.text =
      if t.exponentFits then
        if t.kept = [] then .ok [0x80]
        else if 38 < t.kept.length ∨ ¬ (-129 ≤ toI16 t.point ∧ toI16 t.point ≤ 126) then
          .error (.other ("Oracle NUMBER bind value out of range: " ++ t.text))
        else .ok (encodeDigits (t.sign == some .minus) t.kept (toI16 t.point))
      else .error (.other "number too large to fit in target type") := by
  have hbytes : asciiBytes t.unsigned ≠ [] := fun h => hne (map_eq_nil_iff.mp h)
  rw [encodeOracleNumber_text t hne, encodeUnsigned, if_neg hbytes, parseDecimal_unsigned]
  by_cases hfits : t.exponentFits
  · rw [if_pos hfits, if_pos hfits]
    rfl
  · rw [if_neg hfits, if_neg hfits]
    rfl

/-! ### Canonical texts -/

/-- A plain text without an exponent and without superfluous zeros or signs. -/
structure DecimalText.Canonical (t : DecimalText) : Prop where
  exponent : t.exponent = none
  sign : t.sign = none ∨ t.sign = some .minus ∧ t.value ≠ 0
  int : t.int = [0] ∨ ∃ d rest, t.int = d :: rest ∧ d ≠ 0
  frac : t.frac = none ∨ ∃ front d, t.frac = some (front ++ [d]) ∧ d ≠ 0

lemma isDigits_append {digits' : List ℕ} (h : IsDigits digits) (h' : IsDigits digits') :
    IsDigits (digits ++ digits') := fun d hd => (mem_append.mp hd).elim (h d) (h' d)

lemma isDigits_replicate_zero (n : ℕ) : IsDigits (replicate n 0) := fun d hd => by
  rw [eq_of_mem_replicate hd]
  norm_num

/-- The digits of a plain text around its point. -/
structure PlainParts (digits : List ℕ) (point : ℤ) (int : List ℕ) (frac : Option (List ℕ)) :
    Prop where
  isDigits : IsDigits (int ++ frac.getD [])
  text : int.map digitChar ++ (frac.map fun frac => '.' :: frac.map digitChar).getD []
    = plainText digits point
  magnitude : Decimal.magnitude (int ++ frac.getD []) int.length = Decimal.magnitude digits point
  int : int = [0] ∨ ∃ d rest, int = d :: rest ∧ d ≠ 0
  frac : frac = none ∨ ∃ front d, frac = some (front ++ [d]) ∧ d ≠ 0

lemma exists_plainParts (h : Trimmed digits) (point : ℤ) :
    ∃ int frac, PlainParts digits point int frac := by
  obtain ⟨d, rest, hcons, hd⟩ := h.head
  obtain ⟨front, last, hlast, hlast'⟩ := h.last
  have hzero : digitChar 0 = '0' := rfl
  by_cases hleft : point ≤ 0
  · have hdig := isDigits_append (isDigits_replicate_zero point.natAbs) h.isDigits
    refine ⟨[0], some (replicate point.natAbs 0 ++ digits),
      isDigits_append (isDigits_replicate_zero 1) hdig, ?_, ?_, .inl rfl, .inr ?_⟩
    · rw [plainText, if_pos hleft]
      simp [hzero]
    · rw [getD_some, singleton_append, Decimal.magnitude_zero_cons,
        Decimal.magnitude_replicate_zero, length_singleton]
      congr 1
      omega
    · exact ⟨replicate point.natAbs 0 ++ front, last, by rw [hlast, append_assoc], hlast'⟩
  by_cases hin : point < digits.length
  · obtain ⟨n, rfl⟩ : ∃ n : ℕ, point = n + 1 := ⟨(point - 1).toNat, by omega⟩
    have htoNat : ((n : ℤ) + 1).toNat = n + 1 := by omega
    refine ⟨digits.take (n + 1), some (digits.drop (n + 1)), ?_, ?_, ?_, .inr ?_, .inr ?_⟩
    · rw [getD_some, take_append_drop]
      exact h.isDigits
    · rw [plainText, if_pos hin]
      simp
    · rw [getD_some, take_append_drop, length_take]
      congr 1
      omega
    · exact ⟨d, rest.take n, by rw [hcons, take_succ_cons], hd⟩
    · have hle : n + 1 ≤ front.length := by
        rw [hlast, length_append, length_singleton] at hin
        omega
      exact ⟨front.drop (n + 1), last, by rw [hlast, drop_append_of_le_length hle], hlast'⟩
  · obtain ⟨n, rfl⟩ : ∃ n : ℕ, point = digits.length + n :=
      ⟨(point - digits.length).toNat, by omega⟩
    refine ⟨digits ++ replicate n 0, none, ?_, ?_, ?_, .inr ?_, .inl rfl⟩
    · rw [getD_none, append_nil]
      exact isDigits_append h.isDigits (isDigits_replicate_zero n)
    · rw [plainText, if_neg hleft]
      simp [hzero]
    · rw [getD_none, append_nil, Decimal.magnitude_append_replicate_zero,
        length_append, length_replicate]
      congr 1
    · exact ⟨d, rest ++ replicate n 0, by rw [hcons]; rfl, hd⟩

/-- A plain text, with its sign, is canonical. -/
lemma exists_canonical_plainText (h : Trimmed digits) (point : ℤ) (negative : Bool) :
    ∃ t : DecimalText, t.Canonical ∧
      t.text = String.ofList ((if negative then ['-'] else []) ++ plainText digits point) ∧
      t.value = if negative then -Decimal.magnitude digits point
        else Decimal.magnitude digits point := by
  obtain ⟨int, frac, hparts⟩ := exists_plainParts h point
  obtain ⟨d, rest, hcons, hd⟩ := h.head
  have hpos : 0 < Decimal.magnitude digits point := by
    rw [hcons]
    exact lt_of_lt_of_le (by positivity) (Decimal.pow_le_magnitude hd rest point)
  let t : DecimalText :=
    ⟨if negative then some .minus else none, int, frac, none, hparts.isDigits⟩
  have hmagnitude : t.magnitude = Decimal.magnitude digits point := by
    rw [← hparts.magnitude]
    exact congrArg (Decimal.magnitude _) (add_zero _)
  have hval : t.value = if negative then -Decimal.magnitude digits point
      else Decimal.magnitude digits point := by
    rw [value, hmagnitude]
    cases negative <;> rfl
  refine ⟨t, ⟨rfl, ?_, hparts.int, hparts.frac⟩, ?_, hval⟩
  · cases negative with
    | false => exact .inl rfl
    | true =>
      refine .inr ⟨rfl, ?_⟩
      rw [hval]
      exact neg_ne_zero.mpr hpos.ne'
  · have hunsigned : t.unsigned = plainText digits point := by
      rw [← hparts.text, unsigned]
      have hexp : t.exponentChars = [] := rfl
      rw [hexp, append_nil]
      cases frac <;> rfl
    rw [text, hunsigned]
    cases negative <;> rfl

/-! ### Round trips -/

/-- The text is encoded, and decoded as the canonical text of the same value. -/
def DecimalText.RoundTrips : Prop :=
  ∃ bytes decoded, encodeOracleNumber t.text = .ok bytes ∧ decodeOracleNumber bytes = .ok decoded ∧
    ∃ plain : DecimalText, plain.Canonical ∧ plain.text = decoded ∧ plain.value = t.value ∧
      (t.value = 0 → decoded = "0")

lemma unsigned_ne_nil {t : DecimalText} (h : t.digits ≠ []) : t.unsigned ≠ [] := by
  intro hnil
  rw [unsigned, append_eq_nil_iff, append_eq_nil_iff, map_eq_nil_iff] at hnil
  refine h ?_
  rw [digits, hnil.1]
  have hfrac := hnil.2.1
  rw [fracChars] at hfrac
  cases hf : t.frac with
  | none => rfl
  | some frac =>
    rw [hf] at hfrac
    cases hfrac

/-- A numeral in range makes the round trip when its exponent is read. -/
lemma roundTrips_iff_exponentFits {t : DecimalText} (hdig : t.digits ≠ [])
    (h : Representable t.value) : t.RoundTrips ↔ t.exponentFits := by
  have hspec := encodeOracleNumber_text_eq t (unsigned_ne_nil hdig)
  constructor
  · rintro ⟨bytes, decoded, hbytes, -⟩
    by_contra hfits
    rw [hspec, if_neg hfits] at hbytes
    cases hbytes
  · intro hfits
    rw [if_pos hfits] at hspec
    by_cases hkept : t.kept = []
    · rw [if_pos hkept] at hspec
      refine ⟨_, _, hspec, rfl, ⟨none, [0], none, none, isDigits_replicate_zero 1⟩,
        ⟨rfl, .inl rfl, .inl rfl, .inl rfl⟩, rfl, ?_, fun _ => rfl⟩
      rw [t.value_eq_zero_iff.mpr hkept]
      exact (value_eq_zero_iff _).mpr rfl
    · obtain ⟨hlen, hlow, hhigh⟩ := ((representable_value_iff t).mp h).resolve_left hkept
      have hpoint : toI16 t.point = t.point := toI16_eq_self (by omega) (by omega)
      rw [if_neg hkept, hpoint, if_neg (by omega)] at hspec
      obtain ⟨plain, hcanonical, htext, hval⟩ := exists_canonical_plainText
        (t.trimmed_kept hkept) t.point (t.sign == some .minus)
      refine ⟨_, _, hspec, decode_encodeDigits _ (t.trimmed_kept hkept) hlow hhigh, plain,
        hcanonical, htext, ?_, fun hzero => absurd (t.value_eq_zero_iff.mp hzero) hkept⟩
      rw [hval, value, t.magnitude_eq_kept]
      cases t.sign with
      | none => rfl
      | some sign => cases sign <;> rfl

end SpaceQuery.Thin
