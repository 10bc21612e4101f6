import SpaceQuery.Thin.OracleDateTime

/-!
`oracle_datetime_to_unix_seconds` of `tns-thin/src/session.rs`: the seconds since 1970, with the
days counted by eras of 400 years that start in March.
-/

namespace SpaceQuery.Thin

open Option Calendar OracleDateTime

/-- The days between the first day of 1970 and a day, by the eras of 400 years. -/
def daysFromCivil (year month day : ℤ) : Option ℤ :=
  if 1 ≤ month ∧ month ≤ 12 ∧ 1 ≤ day ∧ day ≤ 31 then
    let year := year - if month ≤ 2 then 1 else 0
    let era := year / 400
    let yoe := year - era * 400
    let doy := (153 * (month + if 2 < month then -3 else 9) + 2).tdiv 5 + day - 1
    let doe := yoe * 365 + yoe.tdiv 4 - yoe.tdiv 100 + doy
    some (era * 146097 + doe - 719468)
  else none

def oracleDatetimeToUnixSeconds (value : OracleDateTime) : Option ℤ :=
  (daysFromCivil value.year value.month value.day).map fun days =>
    days * 86400 + value.hour * 3600 + value.minute * 60 + value.second

/-- The number of the first day of 1970. -/
def unixDayNumber : ℤ := 719163

/-- The months before a month, in a year that starts in March. -/
lemma daysOfMonths_eq (year : ℕ) {month : ℕ} (hpos : 1 ≤ month) (hle : month ≤ 12) :
    daysOfMonths year (month - 1) =
      if 2 < month then 59 + (if isLeapYear year then 1 else 0) + (153 * (month - 3) + 2) / 5
      else 31 * (month - 1) := by
  interval_cases month <;> simp [daysOfMonths, daysInMonth] <;> split_ifs <;> rfl

/-- The closed form agrees with the number of the day. -/
theorem daysFromCivil_eq {d : Date} (hd : d.Valid) :
    daysFromCivil d.year d.month d.day = some (d.dayNumber - unixDayNumber) := by
  obtain ⟨hpos, hle, hday, hdays⟩ := hd
  have hdays' := hdays.trans (daysInMonth_le d.year d.month)
  have hmonths := daysOfMonths_eq d.year hpos hle
  rw [daysFromCivil, if_pos (by omega)]
  rw [some.injEq, Date.dayNumber, hmonths, daysBeforeYear, unixDayNumber]
  rw [Int.tdiv_eq_ediv_of_nonneg (by split_ifs <;> omega),
    Int.tdiv_eq_ediv_of_nonneg (by split_ifs <;> omega),
    Int.tdiv_eq_ediv_of_nonneg (by split_ifs <;> omega)]
  -- a day of January or February belongs to the year before
  have hleap : ((if isLeapYear d.year then 1 else 0 : ℕ) : ℤ)
      = (d.year / 4 - (d.year - 1) / 4) - (d.year / 100 - (d.year - 1) / 100)
        + (d.year / 400 - (d.year - 1) / 400) := by
    rw [isLeapYear]
    split_ifs with h <;> rw [decide_eq_true_eq] at h <;> omega
  by_cases hfeb : 2 < d.month
  · rw [if_pos hfeb]
    omega
  · rw [if_neg hfeb]
    omega

lemma oracleDatetimeToUnixSeconds_eq {v : OracleDateTime} (hv : v.Valid) :
    oracleDatetimeToUnixSeconds v = some ((v.date.dayNumber - unixDayNumber) * 86400
      + v.hour * 3600 + v.minute * 60 + v.second) := by
  exact congrArg (Option.map _) (daysFromCivil_eq hv.date)

/-- A shifted value is that many minutes later. -/
theorem oracleDatetimeToUnixSeconds_applyTimezoneOffset {v : OracleDateTime} (hv : v.Valid)
    {offset : ℤ} (hpos : 0 < v.utcDayNumber (-offset)) :
    ∃ seconds, oracleDatetimeToUnixSeconds v = some seconds ∧
      oracleDatetimeToUnixSeconds (applyTimezoneOffset v offset)
        = some (seconds + 60 * offset) := by
  obtain ⟨hvalid, hnum⟩ := valid_applyTimezoneOffset hv hpos
  rw [neg_neg] at hvalid hnum
  refine ⟨_, oracleDatetimeToUnixSeconds_eq hv, ?_⟩
  rw [oracleDatetimeToUnixSeconds_eq hvalid, hnum, applyTimezoneOffset_eq, utcDayNumber]
  simp only [some.injEq, withDate]
  omega

/-- A value is shifted by some minutes a day at a time, and its seconds by the closed form. -/
theorem unixSeconds_applyTimezoneOffset (v : OracleDateTime) (hv : v.Valid)
    (hyear : 2 ≤ v.year ∧ v.year ≤ 9998) (offset : ℤ)
    (hoffset : -2 ^ 15 ≤ offset ∧ offset < 2 ^ 15) :
    (applyTimezoneOffset v offset).Valid ∧
      1 ≤ (applyTimezoneOffset v offset).year ∧ (applyTimezoneOffset v offset).year ≤ 9999 ∧
      (applyTimezoneOffset v offset).second = v.second ∧
      (applyTimezoneOffset v offset).nanosecond = v.nanosecond ∧
      ∃ seconds, oracleDatetimeToUnixSeconds v = some seconds ∧
        oracleDatetimeToUnixSeconds (applyTimezoneOffset v offset)
          = some (seconds + 60 * offset) := by
  obtain ⟨hlow, hhigh⟩ := hv.date.dayNumber_mem
  have hhour := hv.hour
  have hminute := hv.minute
  -- the shift is less than 24 days, and the years 1 and 9999 are longer
  have hfirst : daysBeforeYear 2 ≤ daysBeforeYear v.date.year := daysBeforeYear_mono hyear.1
  have hlast : daysBeforeYear (v.date.year + 1) ≤ daysBeforeYear 9999 :=
    daysBeforeYear_mono (Nat.succ_le_succ hyear.2)
  have htwo : daysBeforeYear 2 = 365 := by decide
  have hspan : daysBeforeYear 10000 = daysBeforeYear 9999 + 365 := by decide
  have hday : v.utcDayNumber (-offset)
      = v.date.dayNumber + (v.hour * 60 + v.minute + offset) / (24 * 60) := by
    rw [utcDayNumber]
    omega
  have hpos : daysBeforeYear 1 < v.utcDayNumber (-offset) := by
    have hone : daysBeforeYear 1 = 0 := by decide
    omega
  obtain ⟨hvalid, hnumber⟩ := valid_applyTimezoneOffset hv hpos
  rw [neg_neg] at hvalid hnumber
  have hfields : (applyTimezoneOffset v offset).second = v.second ∧
      (applyTimezoneOffset v offset).nanosecond = v.nanosecond := by
    rw [applyTimezoneOffset_eq]
    exact ⟨rfl, rfl⟩
  have hyears := year_of_dayNumber hvalid.date (hnumber ▸ hpos) (by omega)
  exact ⟨hvalid, hyears.1, hyears.2, hfields.1, hfields.2,
    oracleDatetimeToUnixSeconds_applyTimezoneOffset hv hpos⟩

/-- Half an hour after a quarter to midnight on the last day of February: 1900 was no leap year. -/
theorem unixSeconds_applyTimezoneOffset_march :
    oracleDatetimeToUnixSeconds ⟨1900, 2, 28, 23, 45, 7, 0, none, none⟩ = some (-2203892093) ∧
      oracleDatetimeToUnixSeconds (applyTimezoneOffset ⟨1900, 2, 28, 23, 45, 7, 0, none, none⟩ 30)
        = some (-2203892093 + 60 * 30) := by
  have hvalid : OracleDateTime.Valid ⟨1900, 2, 28, 23, 45, 7, 0, none, none⟩ :=
    ⟨⟨by decide, by decide, by decide, by decide⟩, by decide, by decide, by decide, by norm_num⟩
  obtain ⟨-, -, -, -, -, seconds, hseconds, hshifted⟩ :=
    unixSeconds_applyTimezoneOffset _ hvalid (by decide) 30 (by decide)
  have hvalue : oracleDatetimeToUnixSeconds ⟨1900, 2, 28, 23, 45, 7, 0, none, none⟩
      = some (-2203892093) := by decide
  obtain rfl := some.inj (hvalue.symm.trans hseconds)
  exact ⟨hvalue, hshifted⟩

end SpaceQuery.Thin
