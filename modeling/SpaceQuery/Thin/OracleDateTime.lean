import SpaceQuery.Lib.Calendar
import SpaceQuery.Thin.PacketCursor

/-!
Dates and timestamps in `tns-thin/src/session.rs`: `encode_oracle_timestamp_bind` and
`decode_oracle_datetime`.

A value with a time zone is sent as its UTC instant with the zone behind it, and shifted back when
it is decoded. `days_in_month` and `is_leap_year` of the source are those of `Calendar`; the offsets
of named zones are read from the zone files of the system and are a parameter here.
-/

namespace SpaceQuery.Thin

open UInt8 List

open ByteFields (beBytes beValue)

/-! ### Values -/

/-- A date with its time and zone. -/
structure OracleDateTime where
  year : ℕ
  month : ℕ
  day : ℕ
  hour : ℕ
  minute : ℕ
  second : ℕ
  nanosecond : ℕ := 0
  timezoneOffsetMinutes : Option ℤ := none
  timezoneRegionId : Option ℕ := none
  deriving DecidableEq

/-- What the zone files answer for a region and a local or a UTC time. -/
structure ZoneOffsets where
  timezoneRegionLocalOffsetMinutes : ℕ → OracleDateTime → Option ℤ
  timezoneRegionOffsetMinutes : ℕ → OracleDateTime → Option ℤ

namespace OracleDateTime

variable (v : OracleDateTime)

def date : Calendar.Date := ⟨v.year, v.month, v.day⟩

def withDate (d : Calendar.Date) : OracleDateTime :=
  { v with year := d.year, month := d.month, day := d.day }

/-- One round of the loop of `shift_date_by_days` into the future. -/
def nextDay : OracleDateTime := v.withDate v.date.next

/-- One round of the loop of `shift_date_by_days` into the past. -/
def prevDay : OracleDateTime := v.withDate v.date.prev

end OracleDateTime

open OracleDateTime

variable (value : OracleDateTime)

def shiftDateByDays (dayDelta : ℤ) : OracleDateTime :=
  if 0 < dayDelta then nextDay^[dayDelta.toNat] value else prevDay^[dayDelta.natAbs] value

def applyTimezoneOffset (offsetMinutes : ℤ) : OracleDateTime :=
  let totalMinutes : ℤ := value.hour * 60 + value.minute + offsetMinutes
  let minuteOfDay := (totalMinutes % (24 * 60)).toNat
  shiftDateByDays { value with hour := minuteOfDay / 60, minute := minuteOfDay % 60 }
    (totalMinutes / (24 * 60))

/-! ### Encoding -/

def oracleDatetimeHasTimezone : Bool :=
  value.timezoneOffsetMinutes.isSome || value.timezoneRegionId.isSome

def oracleTimestampTimezoneBytes : Option (UInt8 × UInt8) :=
  match value.timezoneOffsetMinutes with
  | some offset => some (ofInt (offset.tdiv 60 + 20), ofInt (offset.tmod 60 + 60))
  | none =>
    value.timezoneRegionId.map fun regionId =>
      (ofNat ((regionId &&& 0x1fc0) >>> 6) ||| 0x80, ofNat ((regionId &&& 0x003f) <<< 2))

/-- The negation of `i16`, which wraps. -/
def negOffset (offset : ℤ) : ℤ := (-offset).bmod (2 ^ 16)

variable {offset : ℤ}

lemma negOffset_eq (hlow : -2 ^ 15 < offset) (hhigh : offset < 2 ^ 15) :
    negOffset offset = -offset := by
  rw [negOffset, Int.bmod_eq_of_le (by omega) (by omega)]

variable (zones : ZoneOffsets) (value : OracleDateTime)

/-- The value that is sent for a value with a zone: its UTC instant. -/
def utcValue : OracleDateTime :=
  match value.timezoneOffsetMinutes with
  | some offset => applyTimezoneOffset value (negOffset offset)
  | none =>
    match value.timezoneRegionId.bind (zones.timezoneRegionLocalOffsetMinutes · value) with
    | some offset => applyTimezoneOffset value (negOffset offset)
    | none => value

/-- The first seven bytes: a date and a time of day. -/
def dateBytes (encoded : OracleDateTime) : Bytes :=
  [ofNat (encoded.year / 100) + 100, ofNat (encoded.year % 100) + 100,
    ofNat encoded.month, ofNat encoded.day, ofNat encoded.hour + 1,
    ofNat encoded.minute + 1, ofNat encoded.second + 1]

def encodeOracleDate (length : ℕ) : Bytes :=
  let timezoneBytes := if 11 < length then oracleTimestampTimezoneBytes value else none
  let encoded := if timezoneBytes.isSome then utcValue zones value else value
  dateBytes encoded
  ++ ((if 7 < length then beBytes 4 encoded.nanosecond else [])
  ++ (match timezoneBytes with
      | some (zone₁, zone₂) => [zone₁, zone₂]
      | none => []))

def encodeOracleTimestampBind : Bytes :=
  if oracleDatetimeHasTimezone value then encodeOracleDate zones value 13
  else if value.nanosecond = 0 then encodeOracleDate zones value 7
  else encodeOracleDate zones value 11

/-! ### Decoding -/

def validateOracleDatetimeYear (year : ℤ) : Except OracleThinError ℕ :=
  if 1 ≤ year ∧ year ≤ 9999 then .ok year.toNat
  else .error (.other ("Oracle date/time year " ++ toString year
    ++ " is outside supported range 1..=9999"))

/-- The zone behind a value: its offset, and its region with the mark that the time is local. -/
def decodeTimezone : Bytes → Option ℤ × Option ℕ × Bool
  | zone₁ :: zone₂ :: _ =>
    if zone₁ = 0 ∨ zone₂ = 0 then (none, none, false)
    else if zone₁ &&& 0x80 ≠ 0 then
      (none, some (((zone₁ &&& 0x7f).toNat <<< 6) ||| ((zone₂ &&& 0xfc).toNat >>> 2)),
        zone₂ &&& 0x01 ≠ 0)
    else (some ((zone₁.toNat - 20 : ℤ) * 60 + (zone₂.toNat - 60)), none, false)
  | _ => (none, none, false)

/-- The value of its fields, shifted from UTC to its zone. -/
def localValue (timeInZone : Bool) :
    OracleDateTime :=
  match value.timezoneOffsetMinutes with
  | some offset => applyTimezoneOffset value offset
  | none =>
    if timeInZone then value
    else
      match value.timezoneRegionId.bind (zones.timezoneRegionOffsetMinutes · value) with
      | some offset => applyTimezoneOffset value offset
      | none => value

def decodeOracleDatetime : Bytes → Except OracleThinError OracleDateTime
  | century :: year :: month :: day :: hour :: minute :: second :: rest => do
      let year ← validateOracleDatetimeYear
        ((century.toNat - 100 : ℤ) * 100 + year.toNat - 100)
      let nanosecond := if 4 ≤ rest.length then beValue (rest.take 4) else 0
      let zone := decodeTimezone (rest.drop 4)
      let value := localValue zones
        { year, month := month.toNat, day := day.toNat, hour := hour.toNat - 1,
          minute := minute.toNat - 1, second := second.toNat - 1, nanosecond,
          timezoneOffsetMinutes := zone.1, timezoneRegionId := zone.2.1 } zone.2.2
      let _ ← validateOracleDatetimeYear (if value.year < 2 ^ 15 then value.year else 2 ^ 15 - 1)
      return value
  | _ => .error (.other "short Oracle date/time value")

/-! ### Shifting a value and back -/

namespace OracleDateTime

/-- The fields of a value are those of a time of day on a day of the calendar. -/
structure Valid (v : OracleDateTime) : Prop where
  date : v.date.Valid
  hour : v.hour < 24
  minute : v.minute < 60
  second : v.second < 60
  nanosecond : v.nanosecond < 10 ^ 9

variable (v : OracleDateTime)

/-- The day of the UTC instant of a local time at an offset. -/
def utcDayNumber (offset : ℤ) : ℤ :=
  (v.date.dayNumber * (24 * 60) + v.hour * 60 + v.minute - offset) / (24 * 60)

lemma nextDay_iterate (n : ℕ) : nextDay^[n] v = v.withDate (Calendar.Date.next^[n] v.date) := by
  induction n generalizing v with
  | zero => rfl
  | succ n ih =>
    rw [Function.iterate_succ_apply, ih]
    rfl

lemma prevDay_iterate (n : ℕ) : prevDay^[n] v = v.withDate (Calendar.Date.prev^[n] v.date) := by
  induction n generalizing v with
  | zero => rfl
  | succ n ih =>
    rw [Function.iterate_succ_apply, ih]
    rfl

end OracleDateTime

/-- The date after a shift. -/
def shiftedDate (d : Calendar.Date) (dayDelta : ℤ) : Calendar.Date :=
  if 0 < dayDelta then Calendar.Date.next^[dayDelta.toNat] d
  else Calendar.Date.prev^[dayDelta.natAbs] d

lemma shiftDateByDays_eq (v : OracleDateTime) (dayDelta : ℤ) :
    shiftDateByDays v dayDelta = v.withDate (shiftedDate v.date dayDelta) := by
  rw [shiftDateByDays, shiftedDate]
  split
  · exact nextDay_iterate v _
  · exact prevDay_iterate v _

section
variable {d : Calendar.Date} {dayDelta : ℤ}

lemma valid_shiftedDate (hd : d.Valid) (hpos : 0 < d.dayNumber + dayDelta) :
    (shiftedDate d dayDelta).Valid ∧
      (shiftedDate d dayDelta).dayNumber = d.dayNumber + dayDelta := by
  rw [shiftedDate]
  split_ifs with hdelta
  · have h := Calendar.Date.valid_next_iterate hd dayDelta.toNat
    rwa [Int.toNat_of_nonneg hdelta.le] at h
  · have hneg : ((dayDelta.natAbs : ℕ) : ℤ) = -dayDelta := by omega
    have h := Calendar.Date.valid_prev_iterate hd (n := dayDelta.natAbs) (by omega)
    rwa [hneg, sub_neg_eq_add] at h

/-- A shift by some days is undone by the shift by as many days the other way. -/
lemma shiftedDate_neg (hd : d.Valid) (hpos : 0 < d.dayNumber + dayDelta) :
    shiftedDate (shiftedDate d dayDelta) (-dayDelta) = d := by
  obtain hlt | rfl | hgt := lt_trichotomy dayDelta 0
  · rw [shiftedDate, if_pos (by omega), shiftedDate, if_neg (by omega)]
    have heq : (-dayDelta).toNat = dayDelta.natAbs := by omega
    rw [heq]
    exact Calendar.Date.next_iterate_prev_iterate hd (by omega)
  · rfl
  · rw [shiftedDate, if_neg (by omega), shiftedDate, if_pos hgt]
    have heq : (-dayDelta).natAbs = dayDelta.toNat := by omega
    rw [heq]
    exact Calendar.Date.prev_iterate_next_iterate hd _

end

section
variable {v : OracleDateTime}

/-- The time of day that an offset shifts to, and the days it shifts by. -/
lemma applyTimezoneOffset_eq (v : OracleDateTime) (offset : ℤ) : applyTimezoneOffset v offset =
      { v.withDate (shiftedDate v.date ((v.hour * 60 + v.minute + offset) / (24 * 60))) with
        hour := ((v.hour * 60 + v.minute + offset) % (24 * 60)).toNat / 60
        minute := ((v.hour * 60 + v.minute + offset) % (24 * 60)).toNat % 60 } := by
  rw [applyTimezoneOffset, shiftDateByDays_eq]
  rfl

lemma dayNumber_add_eq_utcDayNumber (v : OracleDateTime) (offset : ℤ) :
    v.date.dayNumber + (v.hour * 60 + v.minute + -offset) / (24 * 60) = v.utcDayNumber offset := by
  rw [utcDayNumber]
  omega

/-- A value shifted from its zone to UTC lies on the day of its UTC instant. -/
lemma valid_applyTimezoneOffset (hv : v.Valid) (hpos : 0 < v.utcDayNumber offset) :
    (applyTimezoneOffset v (-offset)).Valid ∧
      (applyTimezoneOffset v (-offset)).date.dayNumber = v.utcDayNumber offset := by
  have hday := dayNumber_add_eq_utcDayNumber v offset
  obtain ⟨hvalid, hnum⟩ := valid_shiftedDate hv.date (by rw [hday]; exact hpos)
  rw [applyTimezoneOffset_eq]
  refine ⟨⟨hvalid, ?_, ?_, hv.second, hv.nanosecond⟩, hnum.trans hday⟩
  · dsimp only
    omega
  · exact Nat.mod_lt _ (by norm_num)

/-- A value shifted from its zone to UTC and back. -/
theorem applyTimezoneOffset_neg (hv : v.Valid) (hpos : 0 < v.utcDayNumber offset) :
    applyTimezoneOffset (applyTimezoneOffset v (-offset)) offset = v := by
  rw [← dayNumber_add_eq_utcDayNumber] at hpos
  have hhour := hv.hour
  have hminute := hv.minute
  have hdate := shiftedDate_neg hv.date hpos
  rw [applyTimezoneOffset_eq v, applyTimezoneOffset_eq]
  set total : ℤ := v.hour * 60 + v.minute + -offset with htotal
  -- the minutes of the day add up to what was shifted, and the days cancel
  have hback : ((((total % (24 * 60)).toNat / 60 : ℕ) : ℤ) * 60
        + (((total % (24 * 60)).toNat % 60 : ℕ) : ℤ) + offset)
      = v.hour * 60 + v.minute + -(total / (24 * 60)) * (24 * 60) := by omega
  rw [hback, Int.add_mul_ediv_right _ _ (by norm_num), Int.add_mul_emod_self_right]
  have hquot : ((v.hour : ℤ) * 60 + v.minute) / (24 * 60) = 0 := by omega
  have hrem : (((v.hour : ℤ) * 60 + v.minute) % (24 * 60)).toNat = v.hour * 60 + v.minute := by
    omega
  have hdiv : (v.hour * 60 + v.minute) / 60 = v.hour := by omega
  have hmod : (v.hour * 60 + v.minute) % 60 = v.minute := by omega
  rw [hquot, zero_add, hrem, hdiv, hmod]
  exact congrArg v.withDate hdate

end

/-! ### The round trip -/

open Calendar

/-- A value that the wire form holds: a date in the supported years at a time of day, without
a zone or at a fixed offset of less than 16 hours with its UTC instant in the supported years
as well. -/
structure OracleDateTime.Encodable (v : OracleDateTime) : Prop where
  valid : v.Valid
  year : 1 ≤ v.year ∧ v.year ≤ 9999
  region : v.timezoneRegionId = none
  offset : ∀ offset ∈ v.timezoneOffsetMinutes, |offset| < 16 * 60 ∧
    daysBeforeYear 1 < v.utcDayNumber offset ∧ v.utcDayNumber offset ≤ daysBeforeYear 10000

lemma toNat_ofNat_add {n k : ℕ} {byte : UInt8} (hbyte : byte.toNat = k) (h : n + k < 256) :
    (UInt8.ofNat n + byte).toNat = n + k := by
  rw [UInt8.toNat_add, UInt8.toNat_ofNat']
  omega

lemma toNat_ofInt {n : ℤ} (hpos : 0 ≤ n) (hlt : n < 256) : ((ofInt n).toNat : ℤ) = n := by
  rw [ofInt, toNat_ofNat']
  omega

lemma validateOracleDatetimeYear_ok {year : ℕ} (h : 1 ≤ year ∧ year ≤ 9999) :
    validateOracleDatetimeYear year = .ok year := by
  rw [validateOracleDatetimeYear, if_pos (by omega), Int.toNat_natCast]

/-- The date and the time of day are read back, whatever stands behind them. -/
lemma decodeOracleDatetime_dateBytes {u : OracleDateTime} (hu : u.Valid)
    (hyear : 1 ≤ u.year ∧ u.year ≤ 9999) (rest : Bytes) :
    decodeOracleDatetime zones (dateBytes u ++ rest) = (let zone := decodeTimezone (rest.drop 4)
      let value := localValue zones
        { u with
          nanosecond := if 4 ≤ rest.length then beValue (rest.take 4) else 0
          timezoneOffsetMinutes := zone.1, timezoneRegionId := zone.2.1 } zone.2.2
      (validateOracleDatetimeYear (if value.year < 2 ^ 15 then value.year else 2 ^ 15 - 1)).bind
        fun _ => .ok value) := by
  obtain ⟨⟨hmonth, hmonth', hday, hday'⟩, hhour, hminute, hsecond, -⟩ := hu
  have hdays : u.day ≤ 31 := hday'.trans (daysInMonth_le u.year u.month)
  have hmonths : u.month ≤ 12 := hmonth'
  have hcentury : (ofNat (u.year / 100) + 100).toNat = u.year / 100 + 100 :=
    toNat_ofNat_add rfl (by omega)
  have hrest : (ofNat (u.year % 100) + 100).toNat = u.year % 100 + 100 :=
    toNat_ofNat_add rfl (by omega)
  have hm : (ofNat u.month).toNat = u.month :=
    toNat_ofNat_of_lt (hmonths.trans_lt (by decide))
  have hd : (ofNat u.day).toNat = u.day :=
    toNat_ofNat_of_lt (hdays.trans_lt (by decide))
  have hh : (ofNat u.hour + 1).toNat - 1 = u.hour :=
    Nat.sub_eq_of_eq_add (toNat_ofNat_add rfl (by omega))
  have hmin : (ofNat u.minute + 1).toNat - 1 = u.minute :=
    Nat.sub_eq_of_eq_add (toNat_ofNat_add rfl (by omega))
  have hsec : (ofNat u.second + 1).toNat - 1 = u.second :=
    Nat.sub_eq_of_eq_add (toNat_ofNat_add rfl (by omega))
  have hsum : ((ofNat (u.year / 100) + 100).toNat - 100 : ℤ) * 100
      + (ofNat (u.year % 100) + 100).toNat - 100 = u.year := by
    omega
  simp only [dateBytes, cons_append, nil_append, decodeOracleDatetime, hsum, hm, hd, hh,
    hmin, hsec, validateOracleDatetimeYear_ok hyear]
  rfl

variable {v : OracleDateTime}

/-- The offset of a zone is read back. -/
lemma decodeTimezone_offset (hv : v.timezoneOffsetMinutes = some offset)
    (hoff : |offset| < 16 * 60) :
    ∃ zone₁ zone₂, oracleTimestampTimezoneBytes v = some (zone₁, zone₂) ∧
      decodeTimezone [zone₁, zone₂] = (some offset, none, false) := by
  rw [abs_lt] at hoff
  refine ⟨_, _, by rw [oracleTimestampTimezoneBytes, hv], ?_⟩
  have hsum : 60 * offset.tdiv 60 + offset.tmod 60 = offset := Int.mul_tdiv_add_tmod offset 60
  have hrem : (offset.tmod 60).natAbs = offset.natAbs % 60 := Int.natAbs_tmod offset 60
  have hhour : ((ofInt (offset.tdiv 60 + 20)).toNat : ℤ) = offset.tdiv 60 + 20 :=
    toNat_ofInt (by omega) (by omega)
  have hminute : ((ofInt (offset.tmod 60 + 60)).toNat : ℤ) = offset.tmod 60 + 60 :=
    toNat_ofInt (by omega) (by omega)
  generalize ofInt (offset.tdiv 60 + 20) = zone₁ at hhour ⊢
  generalize ofInt (offset.tmod 60 + 60) = zone₂ at hminute ⊢
  have hne₁ : zone₁ ≠ 0 := by
    rintro rfl
    simp at hhour
    omega
  have hne₂ : zone₂ ≠ 0 := by
    rintro rfl
    simp at hminute
    omega
  -- an hour of at most 35 has no region bit
  have hbit : zone₁ &&& 0x80 = 0 := by
    have hhigh : zone₁.toNat.testBit 7 = false := Nat.testBit_lt_two_pow (by omega)
    have hand : zone₁.toNat &&& 2 ^ 7 = 0 := by
      refine Nat.eq_of_testBit_eq fun i => ?_
      rw [Nat.testBit_and, Nat.testBit_two_pow, Nat.zero_testBit]
      by_cases hi : 7 = i
      · rw [← hi, hhigh, Bool.false_and]
      · rw [decide_eq_false hi, Bool.and_false]
    exact UInt8.toNat_inj.mp ((UInt8.toNat_and zone₁ 0x80).trans hand)
  rw [decodeTimezone, if_neg (by simp [hne₁, hne₂]), if_neg (by simp [hbit])]
  simp only [Prod.mk.injEq, Option.some.injEq, and_true]
  omega

/-- A value without a zone. -/
lemma decode_encodeOracleDate_of_none (hv : v.Valid)
    (hyear : 1 ≤ v.year ∧ v.year ≤ 9999) (hoff : v.timezoneOffsetMinutes = none)
    (hregion : v.timezoneRegionId = none) (rest : Bytes)
    (hrest : (if 4 ≤ rest.length then beValue (rest.take 4) else 0) = v.nanosecond)
    (hzone : rest.drop 4 = []) : decodeOracleDatetime zones (dateBytes v ++ rest) = .ok v := by
  have hsame : { v with timezoneOffsetMinutes := none, timezoneRegionId := none } = v := by
    rw [← hoff, ← hregion]
  rw [decodeOracleDatetime_dateBytes zones hv hyear, hrest, hzone]
  simp only [decodeTimezone, hsame, localValue, Option.bind_none]
  rw [if_neg Bool.false_ne_true, if_pos (by omega), validateOracleDatetimeYear_ok hyear]
  rfl

/-- A value and the two bytes of a zone behind it. -/
lemma decodeOracleDatetime_zoneBytes {u : OracleDateTime} (hu : u.Valid)
    (hyear : 1 ≤ u.year ∧ u.year ≤ 9999) (zone₁ zone₂ : UInt8) :
    decodeOracleDatetime zones (dateBytes u ++ (beBytes 4 u.nanosecond ++ [zone₁, zone₂])) =
      (let zone := decodeTimezone [zone₁, zone₂]
      let value := localValue zones
        { u with timezoneOffsetMinutes := zone.1, timezoneRegionId := zone.2.1 } zone.2.2
      (validateOracleDatetimeYear (if value.year < 2 ^ 15 then value.year else 2 ^ 15 - 1)).bind
        fun _ => .ok value) := by
  have hnano : beValue (beBytes 4 u.nanosecond) = u.nanosecond :=
    ByteFields.beValue_beBytes (hu.nanosecond.trans (by norm_num))
  have hlen := ByteFields.beBytes_length 4 u.nanosecond
  rw [decodeOracleDatetime_dateBytes zones hu hyear, drop_left' hlen, take_left' hlen,
    length_append, hlen, if_pos (Nat.le_add_right _ _), hnano]

/-- The year of a day is one of the supported years. -/
lemma year_of_dayNumber {d : Calendar.Date} (hd : d.Valid) (hlow : daysBeforeYear 1 < d.dayNumber)
    (hhigh : d.dayNumber ≤ daysBeforeYear 10000) : 1 ≤ d.year ∧ d.year ≤ 9999 := by
  refine ⟨(Calendar.Date.lt_dayNumber_iff hd 1).mp hlow, ?_⟩
  have hlt := (Calendar.Date.lt_dayNumber_iff hd 10000).not.mp (by omega)
  exact Nat.lt_succ_iff.mp (Nat.lt_of_not_le hlt)

/-- A value at a fixed offset is sent as its UTC instant with the offset behind it. -/
lemma decode_encodeOracleDate_of_offset
    (hv : v.Encodable) (hoff : v.timezoneOffsetMinutes = some offset) :
    decodeOracleDatetime zones (encodeOracleDate zones v 13) = .ok v := by
  obtain ⟨hsmall, hlow, hhigh⟩ := hv.offset offset hoff
  obtain ⟨zone₁, zone₂, hbytes, hzone⟩ := decodeTimezone_offset hoff hsmall
  obtain ⟨hutc, hnum⟩ := valid_applyTimezoneOffset hv.valid hlow
  have hback := applyTimezoneOffset_neg hv.valid hlow
  have hneg : negOffset offset = -offset := by
    rw [abs_lt] at hsmall
    exact negOffset_eq (by omega) (by omega)
  set u := applyTimezoneOffset v (-offset) with hu
  have hyear : 1 ≤ u.year ∧ u.year ≤ 9999 :=
    year_of_dayNumber hutc.date (hnum ▸ hlow) (hnum ▸ hhigh)
  have hfields : u.timezoneOffsetMinutes = some offset ∧ u.timezoneRegionId = none := by
    rw [hu, applyTimezoneOffset_eq]
    exact ⟨hoff, hv.region⟩
  have hsame : { u with timezoneOffsetMinutes := some offset, timezoneRegionId := none } = u := by
    rw [← hfields.1, ← hfields.2]
  have henc : encodeOracleDate zones v 13
      = dateBytes u ++ (beBytes 4 u.nanosecond ++ [zone₁, zone₂]) := by
    simp [encodeOracleDate, hbytes, utcValue, hoff, hu, hneg]
  rw [henc, decodeOracleDatetime_zoneBytes zones hutc hyear, hzone]
  simp only [hsame, localValue, hback]
  rw [if_pos (by have := hv.year; omega), validateOracleDatetimeYear_ok hv.year]
  rfl

/-- **A value is decoded as it was encoded.** -/
theorem decode_encodeOracleTimestampBind (zones : ZoneOffsets) (v : OracleDateTime)
    (hv : v.Encodable) :
    decodeOracleDatetime zones (encodeOracleTimestampBind zones v) = .ok v := by
  cases hoffset : v.timezoneOffsetMinutes with
  | some offset =>
    rw [encodeOracleTimestampBind, if_pos (by simp [oracleDatetimeHasTimezone, hoffset])]
    exact decode_encodeOracleDate_of_offset zones hv hoffset
  | none =>
    have hnone := decode_encodeOracleDate_of_none zones hv.valid hv.year hoffset hv.region
    rw [encodeOracleTimestampBind, if_neg (by simp [oracleDatetimeHasTimezone, hoffset, hv.region])]
    split_ifs with hnano
    · exact hnone [] hnano.symm rfl
    · have hlen := ByteFields.beBytes_length 4 v.nanosecond
      have hvalue : beValue (beBytes 4 v.nanosecond) = v.nanosecond :=
        ByteFields.beValue_beBytes (hv.valid.nanosecond.trans (by norm_num))
      have henc : encodeOracleDate zones v 11 = dateBytes v ++ beBytes 4 v.nanosecond := by
        simp [encodeOracleDate]
      rw [henc]
      exact hnone _ (by rw [take_of_length_le hlen.le, hvalue]; rfl) (drop_eq_nil_of_le hlen.le)

/-- Half past midnight on the first of March at half past five hours ahead of UTC: the
instant lies on the 29th of February. -/
theorem decode_encodeOracleTimestampBind_leap_day :
    decodeOracleDatetime ⟨fun _ _ => none, fun _ _ => none⟩
        (encodeOracleTimestampBind ⟨fun _ _ => none, fun _ _ => none⟩
          ⟨2024, 3, 1, 0, 30, 15, 500000000, some 330, none⟩)
      = .ok ⟨2024, 3, 1, 0, 30, 15, 500000000, some 330, none⟩ :=
  decode_encodeOracleTimestampBind _ _
    { valid := ⟨⟨by decide, by decide, by decide, by decide⟩, by decide, by decide, by decide,
        by norm_num⟩
      year := by decide
      region := rfl
      offset := by
        rintro offset ⟨⟩
        decide }

end SpaceQuery.Thin
