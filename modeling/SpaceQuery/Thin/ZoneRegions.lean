import SpaceQuery.Thin.OracleZones
import SpaceQuery.Thin.UnixSeconds

/-!
Values in a time zone region in `tns-thin/src/session.rs`: `timezone_region_local_offset_minutes`
and `timezone_region_offset_minutes` over a zone table. The local time of a value is at an offset of
its zone if the zone has that offset at the UTC instant.
-/

namespace SpaceQuery.Thin

open UInt8 List Calendar OracleDateTime

open Option hiding or_self
open ByteFields (beBytes beValue)

/-! ### Zone tables -/

/-- A zone table; `partition_point` needs its transitions sorted. -/
structure ZoneInfo where
  transitions : List (ℤ × ℕ)
  offsets : List ℤ
  sorted : transitions.Pairwise fun first second => first.1 ≤ second.1

namespace ZoneInfo

variable (zone : ZoneInfo)

def offsetAt (unixSeconds : ℤ) : Option ℤ :=
  let before := zone.transitions.takeWhile (·.1 ≤ unixSeconds)
  let typeIndex := (before.getLast?.map Prod.snd).getD 0
  zone.offsets[typeIndex]?

/-- The zone has an offset at the UTC instant of a local time at that offset. -/
def IsLocalOffset (localSeconds offset : ℤ) : Prop :=
  zone.offsetAt (localSeconds - offset) = some offset

instance (zone : ZoneInfo) (localSeconds : ℤ) : DecidablePred (zone.IsLocalOffset localSeconds) :=
  fun _ => inferInstanceAs (Decidable (_ = _))

/-- The first offset of a local time. -/
def localOffset (localSeconds : ℤ) : Option ℤ :=
  zone.offsets.find? fun offset => zone.IsLocalOffset localSeconds offset

/-- Every offset of the zone is a number of minutes. -/
def WholeMinutes : Prop := ∀ offset ∈ zone.offsets, (60 : ℤ) ∣ offset

end ZoneInfo

/-- `i16::try_from` of an offset in minutes. -/
def offsetMinutes (offsetSeconds : ℤ) : Option ℤ :=
  let minutes := offsetSeconds.tdiv 60
  if -2 ^ 15 ≤ minutes ∧ minutes < 2 ^ 15 then some minutes else none

section

variable (loadZoneInfo : String → Option ZoneInfo)

def timezoneRegionOffsetMinutes (regionId : ℕ) (value : OracleDateTime) : Option ℤ := do
  let zoneName ← oracleZoneName regionId
  let unixSeconds ← oracleDatetimeToUnixSeconds value
  let zoneInfo ← loadZoneInfo zoneName
  let offsetSeconds ← zoneInfo.offsetAt unixSeconds
  offsetMinutes offsetSeconds

def timezoneRegionLocalOffsetMinutes (regionId : ℕ) (value : OracleDateTime) : Option ℤ := do
  let zoneName ← oracleZoneName regionId
  let localSeconds ← oracleDatetimeToUnixSeconds value
  let zoneInfo ← loadZoneInfo zoneName
  match zoneInfo.localOffset localSeconds with
  | some offsetSeconds => offsetMinutes offsetSeconds
  | none => (zoneInfo.offsetAt localSeconds).bind offsetMinutes

/-- The answers of the zone files. -/
def zoneOffsets : ZoneOffsets :=
  ⟨timezoneRegionLocalOffsetMinutes loadZoneInfo, timezoneRegionOffsetMinutes loadZoneInfo⟩

end

/-! ### The bytes of a region -/

/-- The first byte of a region: its upper bits and the mark of a region. -/
lemma regionByte₁ {high : ℕ} (h : high < 128) :
    ofNat high ||| 0x80 ≠ 0 ∧ (ofNat high ||| 0x80) &&& 0x80 ≠ 0 ∧
      ((ofNat high ||| 0x80) &&& 0x7f).toNat = high := by
  have hall : ∀ high : Fin 128, ofNat high ||| 0x80 ≠ 0 ∧ (ofNat high ||| 0x80) &&& 0x80 ≠ 0 ∧
        ((ofNat high ||| 0x80) &&& 0x7f).toNat = high := by decide +kernel
  exact hall ⟨high, h⟩

/-- The second byte: its lower bits, without the mark of a local time. -/
lemma regionByte₂ {low : ℕ} (h : low < 64) : (ofNat (low <<< 2) = 0 ↔ low = 0) ∧
      (ofNat (low <<< 2) &&& 0xfc).toNat >>> 2 = low ∧
      ofNat (low <<< 2) &&& 0x01 = 0 := by
  have hall : ∀ low : Fin 64, (ofNat ((low : ℕ) <<< 2) = 0 ↔ (low : ℕ) = 0) ∧
      (ofNat ((low : ℕ) <<< 2) &&& 0xfc).toNat >>> 2 = low ∧
      ofNat ((low : ℕ) <<< 2) &&& 0x01 = 0 := by decide +kernel
  exact hall ⟨low, h⟩

variable {v : OracleDateTime}

/-- A region is read back from its two bytes, unless the second one is zero. -/
lemma decodeTimezone_region {regionId : ℕ} (hoff : v.timezoneOffsetMinutes = none)
    (hregion : v.timezoneRegionId = some regionId) (hlt : regionId < 2 ^ 13) :
    ∃ zone₁ zone₂, oracleTimestampTimezoneBytes v = some (zone₁, zone₂) ∧
      decodeTimezone [zone₁, zone₂]
        = (none, if regionId % 64 = 0 then none else some regionId, false) := by
  have hhigh : (regionId &&& 0x1fc0) >>> 6 = regionId / 64 := by
    rw [Nat.shiftRight_and_distrib, Nat.shiftRight_eq_div_pow]
    exact (Nat.and_two_pow_sub_one_eq_mod _ 7).trans (Nat.mod_eq_of_lt (by omega))
  have hlow : regionId &&& 0x003f = regionId % 64 := Nat.and_two_pow_sub_one_eq_mod _ 6
  refine ⟨_, _, by rw [oracleTimestampTimezoneBytes, hoff, hregion]; rfl, ?_⟩
  rw [hhigh, hlow]
  obtain ⟨hne, hbit, hval₁⟩ := regionByte₁ (show regionId / 64 < 128 by omega)
  obtain ⟨hzero, hval₂, hmark⟩ := regionByte₂ (Nat.mod_lt regionId (show 0 < 64 by norm_num))
  by_cases hregion : regionId % 64 = 0
  · rw [decodeTimezone, if_pos (.inr (hzero.mpr hregion)), if_pos hregion]
  · have hsum : ((regionId / 64) <<< 6) ||| (regionId % 64) = regionId := by
      rw [← Nat.shiftLeft_add_eq_or_of_lt (Nat.mod_lt regionId (by norm_num))]
      omega
    have hsecond := hzero.not.mpr hregion
    rw [decodeTimezone, if_neg (by simp only [hne, hsecond, or_self, not_false_eq_true]),
      if_pos hbit, if_neg hregion, hval₁, hval₂, hsum, hmark]
    rfl

/-! ### Shifts that leave the calendar -/

/-- A shift to a day in the year 1 or later is that many minutes; any other one ends in the year
0. -/
lemma applyTimezoneOffset_cases (hv : v.Valid) (hyear : 1 ≤ v.year) {seconds : ℤ}
    (hsecs : oracleDatetimeToUnixSeconds v = some seconds) (offset : ℤ) :
    ((applyTimezoneOffset v offset).Valid ∧ 1 ≤ (applyTimezoneOffset v offset).year ∧
      oracleDatetimeToUnixSeconds (applyTimezoneOffset v offset)
        = some (seconds + 60 * offset)) ∨ (applyTimezoneOffset v offset).year = 0 := by
  by_cases hpos : 0 < v.utcDayNumber (-offset)
  · obtain ⟨hvalid, hnum⟩ := valid_applyTimezoneOffset hv hpos
    obtain ⟨seconds', hsecs', hshifted⟩ :=
      oracleDatetimeToUnixSeconds_applyTimezoneOffset hv hpos
    rw [neg_neg] at hvalid hnum
    obtain rfl : seconds = seconds' := some.inj (hsecs.symm.trans hsecs')
    exact .inl ⟨hvalid, Date.one_le_year hvalid.date (by rw [hnum]; exact hpos), hshifted⟩
  · right
    rw [← dayNumber_add_eq_utcDayNumber] at hpos
    have hday : 0 < v.date.dayNumber := (Date.lt_dayNumber_iff hv.date 1).mpr hyear
    rw [applyTimezoneOffset_eq]
    rw [shiftedDate, if_neg (by omega)]
    exact Date.year_prev_iterate hv.date hyear (by omega)

/-- An earlier value is not in a later year. -/
lemma year_le_of_seconds_le {w : OracleDateTime} (hv : v.Valid) (hw : w.Valid) {s t : ℤ}
    (hs : oracleDatetimeToUnixSeconds v = some s) (ht : oracleDatetimeToUnixSeconds w = some t)
    (hle : t ≤ s) : w.year ≤ v.year := by
  rw [oracleDatetimeToUnixSeconds_eq hv, some.injEq] at hs
  rw [oracleDatetimeToUnixSeconds_eq hw, some.injEq] at ht
  obtain ⟨hdate, hhour, hminute, hsecond, -⟩ := hv
  have hlow := (Date.lt_dayNumber_iff hw.date w.date.year).mpr le_rfl
  exact (Date.lt_dayNumber_iff hdate w.date.year).mp (by omega)

lemma applyTimezoneOffset_zero (hv : v.Valid) : applyTimezoneOffset v 0 = v := by
  obtain ⟨-, hhour, hminute, -, -⟩ := hv
  have hday : ((v.hour : ℤ) * 60 + v.minute + 0) / (24 * 60) = 0 := by omega
  have hrem : (((v.hour : ℤ) * 60 + v.minute + 0) % (24 * 60)).toNat = v.hour * 60 + v.minute := by
    omega
  have hdiv : (v.hour * 60 + v.minute) / 60 = v.hour := by omega
  have hmod : (v.hour * 60 + v.minute) % 60 = v.minute := by omega
  rw [applyTimezoneOffset_eq, hday, hrem, hdiv, hmod]
  rfl

variable {offset : ℤ}

/-- A value is not shifted to itself. -/
lemma eq_zero_of_applyTimezoneOffset (hv : v.Valid) (hyear : 1 ≤ v.year)
    (h : applyTimezoneOffset v offset = v) : offset = 0 := by
  have hsecs := oracleDatetimeToUnixSeconds_eq hv
  obtain ⟨-, -, hshifted⟩ | hzero := applyTimezoneOffset_cases hv hyear hsecs offset
  · rw [h, hsecs, some.injEq] at hshifted
    omega
  · rw [h] at hzero
    omega

/-! ### A value in a region -/

/-- A value in a region of a loaded zone, in the supported years and not in a gap of the zone, at
a UTC instant in the supported years. -/
structure InZone (loadZoneInfo : String → Option ZoneInfo) (v : OracleDateTime) (regionId : ℕ)
    (zone : ZoneInfo) (localSeconds : ℤ) : Prop where
  valid : v.Valid
  year : 1 ≤ v.year ∧ v.year ≤ 9999
  offset : v.timezoneOffsetMinutes = none
  region : v.timezoneRegionId = some regionId
  loaded : (oracleZoneName regionId).bind loadZoneInfo = some zone
  wholeMinutes : zone.WholeMinutes
  seconds : oracleDatetimeToUnixSeconds v = some localSeconds
  noGap : ∃ offset ∈ zone.offsets, zone.IsLocalOffset localSeconds offset
  utcYear : ∀ offset ∈ zone.offsets, zone.IsLocalOffset localSeconds offset →
    daysBeforeYear 1 < v.utcDayNumber (offset / 60) ∧
      v.utcDayNumber (offset / 60) ≤ daysBeforeYear 10000

section

variable {loadZoneInfo : String → Option ZoneInfo} {regionId : ℕ}
  {zone : ZoneInfo} {localSeconds : ℤ}
  {u : OracleDateTime}

lemma timezoneRegionOffsetMinutes_eq {unixSeconds : ℤ}
    (hloaded : (oracleZoneName regionId).bind loadZoneInfo = some zone)
    (hsecs : oracleDatetimeToUnixSeconds u = some unixSeconds) :
    timezoneRegionOffsetMinutes loadZoneInfo regionId u
      = (zone.offsetAt unixSeconds).bind offsetMinutes := by
  obtain ⟨name, hname, hload⟩ := bind_eq_some_iff.mp hloaded
  simp [timezoneRegionOffsetMinutes, hname, hsecs, hload]

lemma timezoneRegionLocalOffsetMinutes_eq
    (hloaded : (oracleZoneName regionId).bind loadZoneInfo = some zone)
    (hsecs : oracleDatetimeToUnixSeconds v = some localSeconds)
    (hoff : zone.localOffset localSeconds = some offset) :
    timezoneRegionLocalOffsetMinutes loadZoneInfo regionId v = offsetMinutes offset := by
  obtain ⟨name, hname, hload⟩ := bind_eq_some_iff.mp hloaded
  simp [timezoneRegionLocalOffsetMinutes, hname, hsecs, hload, hoff]

lemma offsetMinutes_eq_some {minutes : ℤ} (h : offsetMinutes offset = some minutes) :
    minutes = offset.tdiv 60 ∧ -2 ^ 15 ≤ minutes ∧ minutes < 2 ^ 15 := by
  unfold offsetMinutes at h
  dsimp only at h
  split_ifs at h with hrange
  cases h
  exact ⟨rfl, hrange⟩

/-- The first offset of a value that is not in a gap. -/
lemma InZone.exists_localOffset (h : InZone loadZoneInfo v regionId zone localSeconds) :
    ∃ offset, zone.localOffset localSeconds = some offset ∧ offset ∈ zone.offsets ∧
      zone.IsLocalOffset localSeconds offset := by
  obtain ⟨offset, hmem, hlocal⟩ := h.noGap
  have hsome : (zone.localOffset localSeconds).isSome := by
    rw [ZoneInfo.localOffset, find?_isSome]
    exact ⟨offset, hmem, by simpa using hlocal⟩
  obtain ⟨first, hfirst⟩ := isSome_iff_exists.mp hsome
  exact ⟨first, hfirst, mem_of_find?_eq_some hfirst, by simpa using find?_some hfirst⟩

/-- What is decoded of a value that is sent with a region. -/
lemma decode_region (hoff : v.timezoneOffsetMinutes = none)
    (hregion : v.timezoneRegionId = some regionId) (hlt : regionId < 2 ^ 13)
    (hne : regionId % 64 ≠ 0) (hu : u.Valid) (hyear : 1 ≤ u.year ∧ u.year ≤ 9999)
    (hfields : u.timezoneOffsetMinutes = none ∧ u.timezoneRegionId = some regionId)
    (hvyear : 1 ≤ v.year ∧ v.year ≤ 9999) {zones : ZoneOffsets} (hutc : utcValue zones v = u) :
    decodeOracleDatetime zones (encodeOracleTimestampBind zones v) = .ok v
      ↔ localValue zones u false = v := by
  obtain ⟨zone₁, zone₂, hbytes, hzone⟩ := decodeTimezone_region hoff hregion hlt
  have hsame : { u with timezoneOffsetMinutes := none, timezoneRegionId := some regionId } = u := by
    rw [← hfields.1, ← hfields.2]
  have henc : encodeOracleTimestampBind zones v
      = dateBytes u ++ (beBytes 4 u.nanosecond ++ [zone₁, zone₂]) := by
    simp [encodeOracleTimestampBind, oracleDatetimeHasTimezone, hregion, encodeOracleDate, hbytes,
      hutc]
  rw [henc, decodeOracleDatetime_zoneBytes zones hu hyear, hzone, if_neg hne]
  simp only [hsame]
  constructor
  · intro h
    cases hyear' : validateOracleDatetimeYear (if (localValue zones u false).year < 2 ^ 15
        then (localValue zones u false).year else 2 ^ 15 - 1) with
    | error e =>
      rw [hyear'] at h
      exact absurd h (by simp [Except.bind])
    | ok year =>
      rw [hyear'] at h
      simpa [Except.bind] using h
  · intro h
    rw [h, if_pos (by omega), validateOracleDatetimeYear_ok hvyear]
    rfl

/-- A decoded value has the region behind it, and the year 0 is not decoded. -/
lemma of_decode_dateBytes {zones : ZoneOffsets} {w : OracleDateTime} {rest : Bytes}
    (h : decodeOracleDatetime zones (dateBytes u ++ rest) = .ok w) :
    w.timezoneRegionId = (decodeTimezone (rest.drop 4)).2.1 ∧ u.year ≠ 0 := by
  have hregion : ∀ (value : OracleDateTime) (timeInZone : Bool),
      (localValue zones value timeInZone).timezoneRegionId = value.timezoneRegionId := by
    intro value timeInZone
    unfold localValue
    split
    · rw [applyTimezoneOffset_eq]
      rfl
    · split_ifs
      · rfl
      · split
        · rw [applyTimezoneOffset_eq]
          rfl
        · rfl
  rw [dateBytes, cons_append, cons_append, cons_append, cons_append,
    cons_append, cons_append, cons_append, nil_append] at h
  obtain ⟨year, hyear, h⟩ := Except.exists_of_bind_eq_ok h
  obtain ⟨year', -, h⟩ := Except.exists_of_bind_eq_ok h
  constructor
  · rw [← Except.ok.inj h, hregion]
  · intro hzero
    rw [hzero, validateOracleDatetimeYear] at hyear
    exact absurd hyear (by simp)

/-- The offset that is sent is the one that is found at the instant: it is one of 16 bits, and can
be negated. If it is not one of 16 bits, the local time is sent, and no other offset may be found
at it. -/
def KeepsOffset (zone : ZoneInfo) (localSeconds : ℤ) : Prop :=
  ∃ offset, zone.localOffset localSeconds = some offset ∧
    match offsetMinutes offset with
    | some minutes => minutes ≠ -2 ^ 15
    | none => ∀ minutes ∈ (zone.offsetAt localSeconds).bind offsetMinutes, minutes = 0

lemma localValue_region {unixSeconds : ℤ}
    (hloaded : (oracleZoneName regionId).bind loadZoneInfo = some zone)
    (hfields : u.timezoneOffsetMinutes = none ∧ u.timezoneRegionId = some regionId)
    (hsecs : oracleDatetimeToUnixSeconds u = some unixSeconds) :
    localValue (zoneOffsets loadZoneInfo) u false
      = ((zone.offsetAt unixSeconds).bind offsetMinutes).elim u (applyTimezoneOffset u) := by
  rw [localValue, hfields.1, hfields.2, bind_some]
  dsimp only [zoneOffsets]
  rw [timezoneRegionOffsetMinutes_eq hloaded hsecs]
  cases (zone.offsetAt unixSeconds).bind offsetMinutes <;> rfl

namespace InZone

variable (h : InZone loadZoneInfo v regionId zone localSeconds)

include h

lemma utcValue_eq (hoff : zone.localOffset localSeconds = some offset) :
    utcValue (zoneOffsets loadZoneInfo) v
      = (offsetMinutes offset).elim v fun minutes => applyTimezoneOffset v (negOffset minutes) := by
  rw [utcValue, h.offset, h.region, bind_some]
  dsimp only [zoneOffsets]
  rw [timezoneRegionLocalOffsetMinutes_eq h.loaded h.seconds hoff]
  cases offsetMinutes offset <;> rfl

lemma regionId_lt : regionId < 2 ^ 13 := by
  obtain ⟨name, hname, -⟩ := bind_eq_some_iff.mp h.loaded
  exact oracleZoneName_lt hname

lemma shifted_fields (offset : ℤ) : (applyTimezoneOffset v offset).timezoneOffsetMinutes = none ∧
      (applyTimezoneOffset v offset).timezoneRegionId = some regionId := by
  rw [applyTimezoneOffset_eq]
  exact ⟨h.offset, h.region⟩

/-- A region whose second byte is zero is lost. -/
lemma lost_region (hzero : regionId % 64 = 0) : decodeOracleDatetime (zoneOffsets loadZoneInfo)
      (encodeOracleTimestampBind (zoneOffsets loadZoneInfo) v) ≠ .ok v := by
  intro hok
  obtain ⟨zone₁, zone₂, hbytes, hzone⟩ := decodeTimezone_region h.offset h.region h.regionId_lt
  have hlen := ByteFields.beBytes_length 4 (utcValue (zoneOffsets loadZoneInfo) v).nanosecond
  have henc : encodeOracleTimestampBind (zoneOffsets loadZoneInfo) v
      = dateBytes (utcValue (zoneOffsets loadZoneInfo) v)
        ++ (beBytes 4 (utcValue (zoneOffsets loadZoneInfo) v).nanosecond ++ [zone₁, zone₂]) := by
    simp [encodeOracleTimestampBind, oracleDatetimeHasTimezone, h.region, encodeOracleDate, hbytes]
  rw [henc] at hok
  have hregion := (of_decode_dateBytes hok).1
  rw [drop_left' hlen, hzone, if_pos hzero, h.region] at hregion
  exact absurd hregion (by simp)

/-- An offset of 16 bits is found again at the instant that is sent. -/
lemma kept_of_minutes (hne : regionId % 64 ≠ 0) {minutes : ℤ}
    (hoff : zone.localOffset localSeconds = some offset)
    (hmins : offsetMinutes offset = some minutes) (hmin : minutes ≠ -2 ^ 15) :
    decodeOracleDatetime (zoneOffsets loadZoneInfo)
      (encodeOracleTimestampBind (zoneOffsets loadZoneInfo) v) = .ok v := by
  obtain ⟨hdiv, hlow, hhigh⟩ := offsetMinutes_eq_some hmins
  have hmem := mem_of_find?_eq_some hoff
  have hlocal : zone.IsLocalOffset localSeconds offset := by
    simpa using find?_some hoff
  obtain ⟨k, rfl⟩ := h.wholeMinutes offset hmem
  obtain ⟨hutcLow, hutcHigh⟩ := h.utcYear _ hmem hlocal
  rw [Int.mul_tdiv_cancel_left _ (by norm_num)] at hdiv
  subst hdiv
  rw [Int.mul_ediv_cancel_left _ (by norm_num)] at hutcLow hutcHigh
  obtain ⟨hvalid, hnum⟩ := valid_applyTimezoneOffset h.valid hutcLow
  have hneg : negOffset minutes = -minutes := negOffset_eq (by omega) (by omega)
  have hutc := h.utcValue_eq hoff
  rw [hmins, elim_some, hneg] at hutc
  have hyear := year_of_dayNumber hvalid.date (hnum ▸ hutcLow) (hnum ▸ hutcHigh)
  obtain ⟨seconds, hsecs, hshifted⟩ := oracleDatetimeToUnixSeconds_applyTimezoneOffset h.valid
    (show 0 < v.utcDayNumber (- -minutes) by rwa [neg_neg])
  obtain rfl : localSeconds = seconds := some.inj (h.seconds.symm.trans hsecs)
  have hinstant : zone.offsetAt (localSeconds + 60 * -minutes) = some (60 * minutes) := by
    rw [mul_neg]
    exact hlocal
  rw [decode_region h.offset h.region h.regionId_lt hne hvalid hyear (h.shifted_fields _) h.year
    hutc, localValue_region h.loaded (h.shifted_fields _) hshifted, hinstant, bind_some,
    hmins]
  exact applyTimezoneOffset_neg h.valid hutcLow

/-- The least offset of 16 bits is sent in the wrong direction. -/
lemma lost_of_min (hne : regionId % 64 ≠ 0) (hoff : zone.localOffset localSeconds = some offset)
    (hmins : offsetMinutes offset = some (-2 ^ 15)) :
    decodeOracleDatetime (zoneOffsets loadZoneInfo)
      (encodeOracleTimestampBind (zoneOffsets loadZoneInfo) v) ≠ .ok v := by
  intro hok
  have hutc := h.utcValue_eq hoff
  have hneg : negOffset (-2 ^ 15) = -2 ^ 15 := by decide
  rw [hmins, elim_some, hneg] at hutc
  obtain ⟨hvalid, hyear, hshifted⟩ | hzero :=
    applyTimezoneOffset_cases h.valid h.year.1 h.seconds (-2 ^ 15)
  · -- no offset of 16 bits leads back from there
    have hu : 1 ≤ (applyTimezoneOffset v (-2 ^ 15)).year ∧
        (applyTimezoneOffset v (-2 ^ 15)).year ≤ 9999 :=
      ⟨hyear, (year_le_of_seconds_le h.valid hvalid h.seconds hshifted (by omega)).trans h.year.2⟩
    rw [decode_region h.offset h.region h.regionId_lt hne hvalid hu (h.shifted_fields _) h.year
      hutc, localValue_region h.loaded (h.shifted_fields _) hshifted] at hok
    cases hfound : (zone.offsetAt (localSeconds + 60 * -2 ^ 15)).bind offsetMinutes with
    | none =>
      rw [hfound, elim_none] at hok
      rw [hok, h.seconds] at hshifted
      simp at hshifted
    | some minutes =>
      obtain ⟨offset', -, hmins'⟩ := bind_eq_some_iff.mp hfound
      obtain ⟨-, hlow, hhigh⟩ := offsetMinutes_eq_some hmins'
      rw [hfound, elim_some] at hok
      obtain ⟨-, -, hback⟩ | hzero := applyTimezoneOffset_cases hvalid hyear hshifted minutes
      · rw [hok, h.seconds, some.injEq] at hback
        omega
      · have := h.year
        rw [hok] at hzero
        omega
  · obtain ⟨zone₁, zone₂, hbytes, hzone⟩ := decodeTimezone_region h.offset h.region h.regionId_lt
    have henc : encodeOracleTimestampBind (zoneOffsets loadZoneInfo) v
        = dateBytes (applyTimezoneOffset v (-2 ^ 15)) ++ (beBytes 4
          (applyTimezoneOffset v (-2 ^ 15)).nanosecond ++ [zone₁, zone₂]) := by
      simp [encodeOracleTimestampBind, oracleDatetimeHasTimezone, h.region, encodeOracleDate,
        hbytes, hutc]
    rw [henc] at hok
    exact (of_decode_dateBytes hok).2 hzero

end InZone

/-- **A value in a region is decoded as it was encoded** exactly if the number of its region is no
multiple of 64 and its offset is sent. -/
theorem decode_encode_region_iff (loadZoneInfo : String → Option ZoneInfo) (v : OracleDateTime)
    (regionId : ℕ) (zone : ZoneInfo) (localSeconds : ℤ)
    (h : InZone loadZoneInfo v regionId zone localSeconds) :
    decodeOracleDatetime (zoneOffsets loadZoneInfo)
        (encodeOracleTimestampBind (zoneOffsets loadZoneInfo) v) = .ok v
      ↔ regionId % 64 ≠ 0 ∧ KeepsOffset zone localSeconds := by
  by_cases hne : regionId % 64 = 0
  · exact iff_of_false (h.lost_region hne) fun hkeeps => hkeeps.1 hne
  obtain ⟨offset, hoffset, -, -⟩ := h.exists_localOffset
  have hkeeps : KeepsOffset zone localSeconds ↔
      match offsetMinutes offset with
      | some minutes => minutes ≠ -2 ^ 15
      | none => ∀ minutes ∈ (zone.offsetAt localSeconds).bind offsetMinutes, minutes = 0 := by
    simp [KeepsOffset, hoffset]
  simp only [hkeeps, ne_eq, hne, not_false_eq_true, true_and]
  cases hminutes : offsetMinutes offset with
  | some minutes =>
    by_cases hmin : minutes = -2 ^ 15
    · exact iff_of_false (h.lost_of_min hne hoffset (hmin ▸ hminutes)) fun hne => hne hmin
    · exact iff_of_true (h.kept_of_minutes hne hoffset hminutes hmin) hmin
  | none =>
    have hutc := h.utcValue_eq hoffset
    rw [hminutes] at hutc
    rw [decode_region h.offset h.region h.regionId_lt hne h.valid h.year ⟨h.offset, h.region⟩
      h.year hutc, localValue_region h.loaded ⟨h.offset, h.region⟩ h.seconds]
    cases hfound : (zone.offsetAt localSeconds).bind offsetMinutes with
    | none => simp
    | some minutes =>
      simp only [mem_def, some.injEq, forall_eq']
      refine ⟨eq_zero_of_applyTimezoneOffset h.valid h.year.1, ?_⟩
      rintro rfl
      exact applyTimezoneOffset_zero h.valid

end

/-- A zone an hour ahead of UTC, and two hours in the summer of 2024. -/
def summerZone : ZoneInfo := ⟨[(1711846800, 1), (1729990800, 0)], [3600, 7200], by decide⟩

/-- Half past two in the night in which the summer time ends. -/
def summerEnd (regionId : ℕ) : OracleDateTime := ⟨2024, 10, 27, 2, 30, 0, 0, none, some regionId⟩

lemma valid_summerEnd : (summerEnd 0).Valid :=
  ⟨⟨by decide, by decide, by decide, by decide⟩, by decide, by decide, by decide,
    by norm_num [summerEnd]⟩

lemma utcYear_summerEnd : ∀ offset ∈ [3600, 7200],
    daysBeforeYear 1 < (summerEnd 0).utcDayNumber (offset / 60) ∧
      (summerEnd 0).utcDayNumber (offset / 60) ≤ daysBeforeYear 10000 := by
  decide

lemma inZone_summerEnd {regionId : ℕ} (h : (oracleZoneName regionId).isSome) :
    InZone (fun _ => some summerZone) (summerEnd regionId) regionId summerZone 1729996200 where
  valid := ⟨valid_summerEnd.date, valid_summerEnd.hour, valid_summerEnd.minute,
    valid_summerEnd.second, valid_summerEnd.nanosecond⟩
  year := (by decide : 1 ≤ 2024 ∧ 2024 ≤ 9999)
  offset := rfl
  region := rfl
  loaded := by
    obtain ⟨name, hname⟩ := isSome_iff_exists.mp h
    rw [hname]
    rfl
  wholeMinutes := by unfold ZoneInfo.WholeMinutes; decide
  seconds := oracleDatetimeToUnixSeconds_eq valid_summerEnd
  noGap := by decide
  utcYear offset hoff _ := utcYear_summerEnd offset hoff

/-- The night in which the summer time ends, in a region that is no multiple of 64. -/
theorem decode_encode_region_summerEnd : decodeOracleDatetime (zoneOffsets fun _ => some summerZone)
        (encodeOracleTimestampBind (zoneOffsets fun _ => some summerZone) (summerEnd 42))
      = .ok (summerEnd 42) := by
  have hminutes : offsetMinutes 3600 = some 60 := by decide
  refine (decode_encode_region_iff _ _ 42 summerZone 1729996200
    (inZone_summerEnd (by decide +kernel))).mpr ⟨by decide, 3600, by decide, ?_⟩
  rw [hminutes]
  decide

/-- A value in the region 64, Africa/Windhoek, is decoded as its UTC instant without a region. -/
theorem region_lost : InZone (fun _ => some summerZone) (summerEnd 64) 64 summerZone 1729996200 ∧
      decodeOracleDatetime (zoneOffsets fun _ => some summerZone)
          (encodeOracleTimestampBind (zoneOffsets fun _ => some summerZone) (summerEnd 64))
        = .ok ⟨2024, 10, 27, 1, 30, 0, 0, none, none⟩ :=
  ⟨inZone_summerEnd (by decide +kernel), by decide +kernel⟩

end SpaceQuery.Thin
