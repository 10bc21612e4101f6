import SpaceQuery.Thin.OracleNumeral

/-!
The text that `decode_oracle_number` gives for digits that were encoded.

The encoder packs digits two to a byte, aligned to an even point; the decoder unpacks them, drops
the zeros of the alignment and puts the point back where it was (`decode_encodeDigits`).
-/

namespace SpaceQuery.Thin

open UInt8 List

open Decimal (IsDigits)

/-! ### Plain texts -/

/-- The plain text of the number `0.d₁d₂… · 10 ^ point`. -/
def plainText (digits : List ℕ) (point : ℤ) : List Char :=
  let chars := digits.map digitChar
  if point ≤ 0 then '0' :: '.' :: (replicate point.natAbs '0' ++ chars)
  else if point < digits.length then chars.take point.toNat ++ '.' :: chars.drop point.toNat
  else chars ++ replicate (point - digits.length).toNat '0'

/-- Digits that neither start nor end with a zero. -/
structure Trimmed (digits : List ℕ) : Prop where
  isDigits : IsDigits digits
  head : ∃ d rest, digits = d :: rest ∧ d ≠ 0
  last : ∃ front d, digits = front ++ [d] ∧ d ≠ 0

/-! ### Pairs -/

/-- The decimal digits of base-100 digits. -/
def expand (pairs : List ℕ) : List ℕ := pairs.flatMap fun pair => [pair / 10, pair % 10]

variable {digits : List ℕ}

/-- Pairs hold the digits they are made of. -/
lemma expand_digitPairs (h : IsDigits digits) (numPairs : ℕ) (hlen : 2 * numPairs ≤ digits.length) :
    expand (digitPairs numPairs false digits) = digits.take (2 * numPairs) ∧
      ∀ pair ∈ digitPairs numPairs false digits, pair < 100 := by
  induction numPairs generalizing digits with
  | zero => simp [digitPairs, expand]
  | succ n ih =>
    match digits, hlen with
    | d :: d' :: rest, hlen =>
      simp only [IsDigits, forall_mem_cons] at h
      obtain ⟨hd, hd', hrest⟩ := h
      obtain ⟨hexpand, hlt⟩ := ih hrest (by simp at hlen; omega)
      have hpair : (d * 10 + d') / 10 = d ∧ (d * 10 + d') % 10 = d' := by omega
      refine ⟨?_, ?_⟩
      · rw [digitPairs, expand, flatMap_cons, ← expand, hexpand, hpair.1, hpair.2]
        rfl
      · rw [digitPairs, forall_mem_cons]
        exact ⟨by omega, hlt⟩

/-- The digits as they are aligned in pairs: a zero in front for an odd point, and one behind
where a digit is left alone. -/
def aligned (digits : List ℕ) (point : ℤ) : List ℕ :=
  padEven (if point % 2 ≠ 0 then 0 :: digits else digits)

lemma isDigits_padEven (h : IsDigits digits) : IsDigits (padEven digits) := by
  rw [padEven]
  split_ifs
  · intro d hd
    rw [mem_append, mem_singleton] at hd
    exact hd.elim (h d) (fun hd => hd ▸ by norm_num)
  · exact h

lemma isDigits_append_zero (h : IsDigits digits) : IsDigits (digits ++ [0]) := by
  intro d hd
  rw [mem_append, mem_singleton] at hd
  exact hd.elim (h d) (fun hd => hd ▸ by norm_num)

/-- For an odd point the first digit is alone, and the zero that was appended is not sent. -/
lemma cons_dropLast_padEven (digits : List ℕ) :
    0 :: (padEven (digits ++ [0])).dropLast = padEven (0 :: digits) := by
  rw [padEven, padEven, length_append, length_singleton, length_cons]
  split_ifs with h
  · rw [dropLast_concat]
    rfl
  · rw [dropLast_concat]

/-- The pairs of a number with an odd or an even point hold the aligned digits. -/
lemma expand_wireDigits (h : IsDigits digits) (point : ℤ) :
    let wire := wireDigits digits point
    let pairs := digitPairs (wire.length / 2) (decide (point % 2 ≠ 0)) wire
    expand pairs = aligned digits point ∧ ∀ pair ∈ pairs, pair < 100 := by
  obtain ⟨-, -, heven⟩ := wireDigits_length digits point
  dsimp only
  by_cases hodd : point % 2 ≠ 0
  · have hwire : wireDigits digits point = padEven (digits ++ [0]) := by
      rw [wireDigits, if_pos hodd]
    have hdig : IsDigits (padEven (digits ++ [0])) := isDigits_padEven (isDigits_append_zero h)
    rw [hwire] at heven ⊢
    rw [aligned, if_pos hodd, ← cons_dropLast_padEven, decide_eq_true hodd]
    obtain ⟨d, rest, hcons⟩ : ∃ d rest, padEven (digits ++ [0]) = d :: rest := by
      rw [padEven]
      cases digits <;> split_ifs <;> exact ⟨_, _, rfl⟩
    rw [hcons] at heven hdig ⊢
    obtain ⟨n, hn⟩ : ∃ n, (d :: rest).length / 2 = n + 1 := ⟨(d :: rest).length / 2 - 1, by
      rw [length_cons] at heven ⊢; omega⟩
    rw [length_cons] at heven hn
    rw [IsDigits, forall_mem_cons] at hdig
    obtain ⟨hexpand, hlt⟩ := expand_digitPairs hdig.2 n (by omega)
    have hd : d / 10 = 0 ∧ d % 10 = d := by omega
    rw [length_cons, hn, digitPairs]
    refine ⟨?_, ?_⟩
    · rw [expand, flatMap_cons, ← expand, hexpand, hd.1, hd.2, dropLast_eq_take, length_cons]
      have hlen : rest.length + 1 - 1 = 2 * n + 1 := by omega
      rw [hlen]
      rfl
    · rw [forall_mem_cons]
      exact ⟨by omega, hlt⟩
  · have hwire : wireDigits digits point = padEven digits := by rw [wireDigits, if_neg hodd]
    rw [hwire] at heven ⊢
    rw [aligned, if_neg hodd, decide_eq_false hodd]
    obtain ⟨hexpand, hlt⟩ := expand_digitPairs (isDigits_padEven h)
      ((padEven digits).length / 2) (by omega)
    refine ⟨?_, hlt⟩
    rw [hexpand, take_of_length_le (by omega)]

/-! ### The point -/

lemma digitChar_ne_zero {d : ℕ} (hd : d < 10) (h : d ≠ 0) : digitChar d ≠ '0' := by
  interval_cases d <;> simp_all [digitChar]

lemma digitChar_ne_point {d : ℕ} (hd : d < 10) : digitChar d ≠ '.' := by
  interval_cases d <;> decide

lemma point_notMem_digits (h : IsDigits digits) : '.' ∉ digits.map digitChar := by
  rw [mem_map]
  rintro ⟨d, hd, heq⟩
  exact digitChar_ne_point (h d hd) heq

variable (front : List Char)

/-- Zeros at the end go, up to a character that is none. -/
lemma dropZeros_append {c : Char} (hc : c ≠ '0') (zeros : ℕ) :
    (((front ++ [c]) ++ replicate zeros '0').reverse.dropWhile (· == '0')).reverse
      = front ++ [c] := by
  rw [reverse_append, reverse_replicate, reverse_append, reverse_singleton,
    dropWhile_append_of_pos (fun a ha => by
      rw [eq_of_mem_replicate ha]; rfl), singleton_append, dropWhile_cons_of_neg
      (by simpa using hc), reverse_cons, reverse_reverse]

/-- A fraction that ends with a digit other than zero keeps its point. -/
lemma trimFraction_append (hpoint : '.' ∈ front) {c : Char} (hc : c ≠ '0')
    (hc' : c ≠ '.') (zeros : ℕ) :
    trimFraction ((front ++ [c]) ++ replicate zeros '0') = front ++ [c] := by
  have hmem : '.' ∈ (front ++ [c]) ++ replicate zeros '0' :=
    mem_append_left _ (mem_append_left _ hpoint)
  rw [trimFraction, if_pos hmem]
  dsimp only
  rw [dropZeros_append front hc, if_neg (by simpa using hc')]

/-- A fraction of zeros goes with its point. -/
lemma trimFraction_zeros (zeros : ℕ) :
    trimFraction ((front ++ ['.']) ++ replicate zeros '0') = front := by
  have hmem : '.' ∈ (front ++ ['.']) ++ replicate zeros '0' := by simp
  rw [trimFraction, if_pos hmem]
  dsimp only
  rw [dropZeros_append front (by decide), getLast?_concat, if_pos rfl, dropLast_concat]

/-- A point behind the digits is none. -/
lemma placePoint_of_nonneg (digits : List Char) {scale : ℤ} (h : 0 ≤ scale) :
    placePoint digits scale = digits ++ replicate scale.toNat '0' := by
  rw [placePoint]
  split_ifs with hpos hneg
  · rfl
  · omega
  · rw [Int.toNat_of_nonpos (by omega)]
    simp

variable {point : ℤ}

lemma placePoint_of_neg (digits : List Char) (h : point < digits.length) :
    placePoint digits (point - digits.length) =
      if point ≤ 0 then ['0', '.'] ++ replicate point.natAbs '0' ++ digits
      else digits.take point.toNat ++ '.' :: digits.drop point.toNat := by
  rw [placePoint, if_neg (by omega), if_pos (by omega)]
  rw [add_sub_cancel]

/-- The point is put back behind the digits it stood behind; the zeros of the alignment
go. -/
theorem trimFraction_placePoint (h : Trimmed digits) (point : ℤ) (zeros : ℕ) :
    trimFraction (placePoint (digits.map digitChar ++ replicate zeros '0')
      (point - (digits.length + zeros : ℕ))) = plainText digits point := by
  obtain ⟨front, last, hlast, hne⟩ := h.last
  have hdigit : last < 10 := h.isDigits last (by simp [hlast])
  have hc := digitChar_ne_zero hdigit hne
  have hc' := digitChar_ne_point hdigit
  have hpos : 0 < digits.length := by simp [hlast]
  have hlen : (digits.map digitChar ++ replicate zeros '0').length
      = digits.length + zeros := by simp
  rw [plainText]
  by_cases hright : ((digits.length + zeros : ℕ) : ℤ) ≤ point
  · have hnopoint : '.' ∉ digits.map digitChar ++ replicate (point - digits.length).toNat '0' := by
      rw [mem_append, not_or]
      exact ⟨point_notMem_digits h.isDigits, fun hmem => by
        simpa using eq_of_mem_replicate hmem⟩
    have hzeros : zeros + (point - ((digits.length + zeros : ℕ) : ℤ)).toNat
        = (point - digits.length).toNat := by omega
    rw [placePoint_of_nonneg _ (by omega), append_assoc, replicate_append_replicate,
      hzeros, trimFraction, if_neg hnopoint, if_neg (by omega), if_neg (by omega)]
  rw [← hlen, placePoint_of_neg _ (by omega)]
  by_cases hleft : point ≤ 0
  · rw [if_pos hleft, if_pos hleft, hlast]
    have happ := trimFraction_append (['0', '.'] ++ replicate point.natAbs '0'
      ++ front.map digitChar) (by simp) hc hc' zeros
    simpa using happ
  rw [if_neg hleft, if_neg hleft]
  by_cases hin : point < digits.length
  · -- the last digit is behind the point
    obtain ⟨n, rfl⟩ : ∃ n : ℕ, point = n := ⟨point.toNat, by omega⟩
    rw [if_pos hin]
    have hle : n ≤ front.length := by
      rw [hlast, length_append, length_singleton] at hin
      omega
    rw [hlast, map_append, append_assoc, take_append_of_le_length (by simpa using hle),
      drop_append_of_le_length (by simpa using hle),
      take_append_of_le_length (by simpa using hle),
      drop_append_of_le_length (by simpa using hle)]
    have happ := trimFraction_append ((front.map digitChar).take n ++ '.' ::
      (front.map digitChar).drop n) (by simp) hc hc' zeros
    simpa using happ
  · -- only zeros are behind the point
    obtain ⟨n, rfl⟩ : ∃ n : ℕ, point = digits.length + n :=
      ⟨(point - digits.length).toNat, by omega⟩
    have hle : n ≤ zeros := by omega
    have htoNat : ((digits.length + n : ℤ)).toNat = (digits.map digitChar).length + n := by
      rw [length_map]; omega
    rw [if_neg hin, htoNat, take_length_add_append, drop_length_add_append,
      take_replicate, min_eq_left hle]
    have happ := trimFraction_zeros (digits.map digitChar ++ replicate n '0') (zeros - n)
    simpa using happ

/-! ### Unpacking -/

/-- The zeros that the alignment puts in front and behind. -/
lemma exists_aligned (digits : List ℕ) (point : ℤ) : ∃ lead zeros : ℕ, aligned digits point
        = replicate lead 0 ++ digits ++ replicate zeros 0 ∧
      (lead + digits.length + zeros) % 2 = 0 ∧
      (if point % 2 ≠ 0 then point + 1 else point) = point + lead := by
  rw [aligned, padEven]
  split_ifs with hodd heven heven
  · exact ⟨1, 1, by simp, by rw [length_cons] at heven; omega, rfl⟩
  · exact ⟨1, 0, by simp, by rw [length_cons] at heven; omega, rfl⟩
  · exact ⟨0, 1, by simp, by omega, by simp⟩
  · exact ⟨0, 0, by simp, by omega, by simp⟩

/-- The byte of a pair. -/
def pairByte (isNegative : Bool) (pair : ℕ) : UInt8 :=
  ofNat (if isNegative then 101 - pair else pair + 1)

variable (isNegative : Bool)

lemma toNat_pairByte {pair : ℕ} (h : pair < 100) :
    (pairByte isNegative pair).toNat = if isNegative then 101 - pair else pair + 1 := by
  rw [pairByte, toNat_ofNat']
  split_ifs <;> omega

/-- A pair is read back from its byte. -/
lemma mantissaDigits_pairByte {pair : ℕ} (h : pair < 100) :
    mantissaDigits isNegative (pairByte isNegative pair)
      = [digitChar (pair / 10), digitChar (pair % 10)] := by
  rw [mantissaDigits, toNat_pairByte isNegative h]
  have hpair : (if isNegative then 100 - ((if isNegative then 101 - pair else pair + 1) - 1)
      else (if isNegative then 101 - pair else pair + 1) - 1) = pair := by
    cases isNegative
    · simp
    · simp only [if_true]
      omega
  rw [hpair]

variable {pairs : List ℕ}

lemma flatMap_mantissaDigits (h : ∀ pair ∈ pairs, pair < 100) :
    (pairs.map (pairByte isNegative)).flatMap (mantissaDigits isNegative)
      = (expand pairs).map digitChar := by
  induction pairs with
  | nil => rfl
  | cons pair pairs ih =>
    rw [forall_mem_cons] at h
    rw [map_cons, flatMap_cons, mantissaDigits_pairByte isNegative h.1, ih h.2]
    rfl

/-- The terminator of a negative number is no pair, so exactly the terminator is dropped. -/
lemma dropTerminator (isNegative : Bool) (h : ∀ pair ∈ pairs, pair < 100) (short : Bool) :
    let mantissa := pairs.map (pairByte isNegative) ++ if isNegative && short then [102] else []
    (if isNegative && mantissa.getLast? == some 0x66 then mantissa.dropLast else mantissa)
      = pairs.map (pairByte isNegative) := by
  have hlast : isNegative → (pairs.map (pairByte isNegative)).getLast? ≠ some 0x66 := by
    intro hneg hlast
    obtain ⟨pair, hmem, heq⟩ := mem_map.mp (mem_of_getLast? hlast)
    have hbyte := toNat_pairByte isNegative (h pair hmem)
    rw [heq, hneg, if_pos rfl] at hbyte
    have : (0x66 : UInt8).toNat = 102 := rfl
    omega
  cases isNegative with
  | false => simp
  | true =>
    cases short with
    | false => simp [beq_eq_false_iff_ne.mpr (hlast rfl), -getLast?_map]
    | true => simp

/-- The exponent byte holds the sign and the exponent. -/
lemma exponentByte (isNegative : Bool) {exponent : ℕ} (h : exponent < 128) :
    let byte := ofNat (128 + exponent)
    let head := if isNegative then ~~~byte else byte
    (head &&& 0x80 == 0) = isNegative ∧
      (if isNegative then head ^^^ 0x7f else head &&& 0x7f).toNat = exponent ∧
      (isNegative → head ≠ 0xff) := by
  have hall : ∀ exponent : Fin 128, ∀ isNegative : Bool,
      let byte := ofNat (128 + exponent.val)
      let head := if isNegative then ~~~byte else byte
      (head &&& 0x80 == 0) = isNegative ∧
        (if isNegative then head ^^^ 0x7f else head &&& 0x7f).toNat = exponent.val ∧
        (isNegative → head ≠ 0xff) := by
    decide +kernel
  exact hall ⟨exponent, h⟩ isNegative

/-- Without its leading zeros the aligned text starts with the first digit. -/
lemma dropWhile_aligned (h : Trimmed digits) (lead zeros : ℕ) :
    ((replicate lead 0 ++ digits ++ replicate zeros 0).map digitChar).dropWhile (· == '0')
      = digits.map digitChar ++ replicate zeros '0' := by
  obtain ⟨d, rest, rfl, hne⟩ := h.head
  have hd : digitChar d ≠ '0' := digitChar_ne_zero (h.isDigits d mem_cons_self) hne
  rw [append_assoc, map_append, map_append, map_replicate, map_replicate,
    dropWhile_append_of_pos (fun a ha => by rw [eq_of_mem_replicate ha]; rfl),
    map_cons, cons_append, dropWhile_cons_of_neg (by simpa using hd)]
  rfl

/-- A plain text starts with a digit, and is not that of zero. -/
lemma head_plainText (h : Trimmed digits) (point : ℤ) :
    (plainText digits point).head? ≠ some '.' ∧ plainText digits point ≠ ['0'] := by
  obtain ⟨d, rest, rfl, hne⟩ := h.head
  have hd : d < 10 := h.isDigits d mem_cons_self
  rw [plainText]
  split_ifs with hleft hin
  · simp
  · obtain ⟨n, hn⟩ : ∃ n, point.toNat = n + 1 := ⟨point.toNat - 1, by omega⟩
    rw [hn]
    simp [digitChar_ne_point hd]
  · simp [digitChar_ne_point hd, digitChar_ne_zero hd hne]

/-- What the decoder makes of a mantissa that holds aligned digits. -/
lemma decodeFinite_eq {head : UInt8} {mantissa : Bytes} {isNegative : Bool} {exponent : ℕ}
    {lead zeros : ℕ} (hsign : (head &&& 0x80 == 0) = isNegative)
    (hread : (if isNegative then head ^^^ 0x7f else head &&& 0x7f).toNat = exponent)
    (hmant : (if isNegative && mantissa.getLast? == some 0x66 then mantissa.dropLast
      else mantissa) = pairs.map (pairByte isNegative)) (hlt : ∀ pair ∈ pairs, pair < 100)
    (hexpand : expand pairs = replicate lead 0 ++ digits ++ replicate zeros 0)
    (h : Trimmed digits) (hlen : 1 < lead + digits.length + zeros)
    (hpoint : point + lead = 2 * (exponent : ℤ) - 128) :
    decodeFinite head mantissa = String.ofList
      ((if isNegative then ['-'] else []) ++ plainText digits point) := by
  have hdig : ((expand pairs).map digitChar).length = lead + digits.length + zeros := by
    simp [hexpand, add_assoc]
  have hchars : digits.map digitChar ++ replicate zeros '0' ≠ [] := by
    obtain ⟨d, rest, rfl, -⟩ := h.head
    exact cons_ne_nil _ _
  have hscale : ((exponent : ℤ) - 64) * 2 - (lead + digits.length + zeros : ℕ)
      = point - (digits.length + zeros : ℕ) := by
    push_cast
    linarith
  obtain ⟨hhead, hzero⟩ := head_plainText h point
  rw [decodeFinite, hsign, hread, hmant, flatMap_mantissaDigits isNegative hlt, hdig, if_pos hlen,
    hexpand, dropWhile_aligned h, if_neg hchars, hscale, trimFraction_placePoint h, if_neg hhead]
  cases isNegative
  · simp
  · simp [hzero]

/-- The digits that are encoded are decoded as their plain text. -/
theorem decode_encodeDigits (h : Trimmed digits) (hlow : -129 ≤ point) (hhigh : point ≤ 126) :
    decodeOracleNumber (encodeDigits isNegative digits point) = .ok (String.ofList
      ((if isNegative then ['-'] else []) ++ plainText digits point)) := by
  have hne : digits ≠ [] := by
    obtain ⟨d, rest, rfl, -⟩ := h.head
    exact cons_ne_nil d rest
  obtain ⟨hexpand, hlt⟩ := expand_wireDigits h.isDigits point
  obtain ⟨lead, zeros, haligned, hlen, hpoint⟩ := exists_aligned digits point
  rw [haligned] at hexpand
  -- the point that is sent is even
  obtain ⟨exponent, hexp, hwire⟩ : ∃ exponent : ℕ, exponent < 128 ∧
      (if point % 2 ≠ 0 then point + 1 else point) = 2 * (exponent : ℤ) - 128 := by
    split_ifs
    · exact ⟨((point + 129) / 2).toNat, by omega, by omega⟩
    · exact ⟨((point + 128) / 2).toNat, by omega, by omega⟩
  obtain ⟨hsign, hread, hinfinity⟩ := exponentByte isNegative hexp
  have hbyte : ((2 * (exponent : ℤ) - 128) / 2 + 192).toNat = 128 + exponent := by omega
  have hmant := dropTerminator isNegative hlt ((wireDigits digits point).length < 38)
  obtain ⟨first, pair, rest, heq⟩ := exists_encodeDigits_eq_cons_cons isNegative point hne
  have hbytes := heq
  rw [encodeDigits] at hbytes
  simp only [decide_eq_true_eq, hwire, hbyte] at hbytes
  obtain ⟨hfirst, hrest⟩ := cons.inj hbytes
  change map (pairByte isNegative) _ ++ _ = pair :: rest at hrest
  rw [hfirst] at hsign hread hinfinity
  rw [hrest] at hmant
  have hfinite : ¬ (first = 0xff ∧ pair :: rest = [0x65]) := by
    rintro ⟨rfl, hone⟩
    cases isNegative with
    | true => exact hinfinity rfl rfl
    | false =>
      -- the one byte would be the pair 100
      rw [hone, Bool.false_and, if_neg Bool.false_ne_true, append_nil] at hrest
      obtain ⟨p, hp, hpair⟩ := mem_map.mp (hrest ▸ mem_singleton_self (0x65 : UInt8))
      have hval := toNat_pairByte false (hlt p hp)
      have hp' := hlt p hp
      rw [hpair, if_neg Bool.false_ne_true] at hval
      have : (0x65 : UInt8).toNat = 101 := rfl
      omega
  have hpos : 0 < digits.length := length_pos_of_ne_nil hne
  rw [heq, decodeOracleNumber, if_neg hfinite, decodeFinite_eq hsign hread hmant hlt hexpand h
    (by omega) (hpoint ▸ hwire)]
  exact cons_ne_nil pair rest

end SpaceQuery.Thin
