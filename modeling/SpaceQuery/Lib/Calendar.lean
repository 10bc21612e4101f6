import Mathlib.Tactic

/-!
The proleptic Gregorian calendar.

Dates are stepped a day at a time; the number of a day places it on one line, on which a step is one
(`Date.dayNumber_next`).
-/

namespace Calendar

open Function

variable (year : ℕ)

def isLeapYear : Bool := year % 4 = 0 ∧ year % 100 ≠ 0 ∨ year % 400 = 0

/-- The number of days of a month; a number that is no month has 31. -/
def daysInMonth (year month : ℕ) : ℕ :=
  match month with
  | 4 | 6 | 9 | 11 => 30
  | 2 => if isLeapYear year then 29 else 28
  | _ => 31

/-- A day, by its numbers. -/
structure Date where
  year : ℕ
  month : ℕ
  day : ℕ
  deriving DecidableEq

namespace Date

/-- The month is one, and the day is one of its days. -/
structure Valid (d : Date) : Prop where
  month_pos : 1 ≤ d.month
  month_le : d.month ≤ 12
  day_pos : 1 ≤ d.day
  day_le : d.day ≤ daysInMonth d.year d.month

/-- The next day. -/
def next (d : Date) : Date :=
  if d.day < daysInMonth d.year d.month then { d with day := d.day + 1 }
  else if d.month < 12 then { d with month := d.month + 1, day := 1 }
  else { year := d.year + 1, month := 1, day := 1 }

/-- The day before; nothing is before the year 0. -/
def prev (d : Date) : Date :=
  if 1 < d.day then { d with day := d.day - 1 }
  else if 1 < d.month then
    { d with month := d.month - 1, day := daysInMonth d.year (d.month - 1) }
  else { year := d.year - 1, month := 12, day := daysInMonth (d.year - 1) 12 }

end Date

lemma daysInMonth_pos (year month : ℕ) : 1 ≤ daysInMonth year month := by
  unfold daysInMonth
  split <;> (try split) <;> omega

lemma daysInMonth_le (year month : ℕ) : daysInMonth year month ≤ 31 := by
  unfold daysInMonth
  split <;> (try split) <;> omega

/-! ### The number of a day -/

/-- The days of the first months of a year. -/
def daysOfMonths (year : ℕ) : ℕ → ℕ
  | 0 => 0
  | months + 1 => daysOfMonths year months + daysInMonth year (months + 1)

/-- The days between the first day of the year 1 and the first day of a year. -/
def daysBeforeYear : ℤ :=
  365 * (year - 1 : ℤ) + (year - 1 : ℤ) / 4 - (year - 1 : ℤ) / 100 + (year - 1 : ℤ) / 400

/-- The number of a day; the first day of the year 1 has the number 1. -/
def Date.dayNumber (d : Date) : ℤ :=
  daysBeforeYear d.year + daysOfMonths d.year (d.month - 1) + d.day

lemma daysOfMonths_twelve : daysOfMonths year 12 = if isLeapYear year then 366 else 365 := by
  simp only [daysOfMonths, daysInMonth]
  split <;> rfl

lemma daysBeforeYear_succ :
    daysBeforeYear (year + 1) = daysBeforeYear year + daysOfMonths year 12 := by
  rw [daysOfMonths_twelve, daysBeforeYear, daysBeforeYear, isLeapYear]
  split
  case isTrue h =>
    rw [decide_eq_true_eq] at h
    omega
  case isFalse h =>
    rw [decide_eq_true_eq] at h
    omega

lemma daysOfMonths_mono : Monotone (daysOfMonths year) :=
  monotone_nat_of_le_succ fun _ => Nat.le_add_right _ _

lemma daysBeforeYear_mono : Monotone daysBeforeYear :=
  monotone_nat_of_le_succ fun year => by
    rw [daysBeforeYear_succ]
    omega

namespace Date

variable {d : Date}

section

variable (hd : d.Valid)

include hd

/-- A valid date lies in its year. -/
lemma Valid.dayNumber_mem :
    daysBeforeYear d.year < d.dayNumber ∧ d.dayNumber ≤ daysBeforeYear (d.year + 1) := by
  obtain ⟨hpos, hle, hday, hdays⟩ := hd
  have hmonths : daysOfMonths d.year (d.month - 1) + daysInMonth d.year d.month
      ≤ daysOfMonths d.year 12 := by
    obtain ⟨m, hm⟩ := Nat.exists_eq_add_of_le' hpos
    rw [hm]
    exact daysOfMonths_mono d.year (by omega : m + 1 ≤ 12)
  rw [daysBeforeYear_succ, dayNumber]
  omega

/-- The year of a date from the number of its day. -/
theorem lt_dayNumber_iff (year : ℕ) : daysBeforeYear year < d.dayNumber ↔ year ≤ d.year := by
  obtain ⟨hlow, hhigh⟩ := hd.dayNumber_mem
  constructor
  · intro h
    by_contra hlt
    have := daysBeforeYear_mono (by omega : d.year + 1 ≤ year)
    omega
  · intro h
    exact (daysBeforeYear_mono h).trans_lt hlow

lemma valid_next : d.next.Valid := by
  obtain ⟨hpos, hle, hday, hdays⟩ := hd
  rw [next]
  split_ifs with h₁ h₂
  · exact ⟨hpos, hle, Nat.le_add_left 1 _, h₁⟩
  · exact ⟨Nat.le_add_left 1 _, h₂, le_rfl, daysInMonth_pos _ _⟩
  · exact ⟨le_rfl, by norm_num, le_rfl, daysInMonth_pos _ _⟩

lemma valid_prev : d.prev.Valid := by
  obtain ⟨hpos, hle, hday, hdays⟩ := hd
  rw [prev]
  split_ifs with h₁ h₂
  · exact ⟨hpos, hle, by dsimp only; omega, by dsimp only; omega⟩
  · exact ⟨by dsimp only; omega, by dsimp only; omega, daysInMonth_pos _ _, le_rfl⟩
  · exact ⟨by norm_num, le_rfl, daysInMonth_pos (d.year - 1) 12, le_rfl⟩

theorem dayNumber_next : d.next.dayNumber = d.dayNumber + 1 := by
  obtain ⟨hpos, hle, hday, hdays⟩ := hd
  obtain ⟨m, hm⟩ := Nat.exists_eq_add_of_le' hpos
  rw [next]
  split_ifs with h₁ h₂
  · rw [dayNumber, dayNumber]
    push_cast
    ring
  · -- the last day of a month
    have heq : d.day = daysInMonth d.year d.month := by omega
    simp only [dayNumber, heq, hm, Nat.add_sub_cancel, daysOfMonths]
    push_cast
    ring
  · -- the last day of a year
    have hmonth : d.month = 12 := by omega
    rw [hmonth] at h₁ hdays
    have heq : d.day = daysInMonth d.year 12 := by omega
    simp only [dayNumber, heq, hmonth, Nat.sub_self, daysBeforeYear_succ, daysOfMonths]
    push_cast
    ring

/-- The step back undoes the step forward. -/
theorem prev_next : d.next.prev = d := by
  obtain ⟨year, month, day⟩ := d
  obtain ⟨hpos, hle, hday, hdays⟩ := hd
  rw [next]
  split_ifs with h₁ h₂ <;> dsimp only at *
  · rw [prev, if_pos (by dsimp only; omega)]
    simp
  · rw [prev, if_neg (by simp), if_pos (by dsimp only; omega)]
    simp only [Nat.add_sub_cancel, Date.mk.injEq, true_and]
    omega
  · obtain rfl : month = 12 := by omega
    rw [prev, if_neg (by simp), if_neg (by simp)]
    simp only [Nat.add_sub_cancel, Date.mk.injEq, true_and]
    omega

/-- The step forward undoes the step back, behind the first day of the year 0. -/
theorem next_prev (hyear : 1 ≤ d.year) : d.prev.next = d := by
  obtain ⟨year, month, day⟩ := d
  obtain ⟨hpos, hle, hday, hdays⟩ := hd
  rw [prev]
  split_ifs with h₁ h₂ <;> dsimp only at *
  · rw [next, if_pos (by dsimp only; omega)]
    simp only [Date.mk.injEq, true_and]
    omega
  · rw [next, if_neg (by simp), if_pos (by dsimp only; omega)]
    simp only [Date.mk.injEq, true_and]
    omega
  · rw [next, if_neg (by simp), if_neg (by simp)]
    simp only [Date.mk.injEq]
    omega

lemma dayNumber_prev (hyear : 1 ≤ d.year) : d.prev.dayNumber = d.dayNumber - 1 := by
  have h := dayNumber_next (valid_prev hd)
  rw [next_prev hd hyear] at h
  omega

/-! ### Several steps -/

/-- Where the number of a day is positive, its year is 1 or later. -/
lemma one_le_year (hpos : 0 < d.dayNumber) : 1 ≤ d.year :=
  (lt_dayNumber_iff hd 1).mp hpos

lemma valid_next_iterate (n : ℕ) :
    (next^[n] d).Valid ∧ (next^[n] d).dayNumber = d.dayNumber + n := by
  induction n generalizing d with
  | zero => simpa using hd
  | succ n ih =>
    obtain ⟨hvalid, hnum⟩ := ih (valid_next hd)
    rw [dayNumber_next hd] at hnum
    rw [iterate_succ_apply]
    exact ⟨hvalid, by omega⟩

theorem prev_iterate_next_iterate (n : ℕ) : prev^[n] (next^[n] d) = d := by
  induction n with
  | zero => rfl
  | succ n ih =>
    rw [iterate_succ_apply, iterate_succ_apply', prev_next (valid_next_iterate hd n).1, ih]

lemma valid_prev_iterate {n : ℕ} (hpos : 0 < d.dayNumber - n) :
    (prev^[n] d).Valid ∧ (prev^[n] d).dayNumber = d.dayNumber - n := by
  induction n generalizing d with
  | zero => simpa using hd
  | succ n ih =>
    have hprev := dayNumber_prev hd (one_le_year hd (by omega))
    obtain ⟨hvalid, hnum⟩ := ih (valid_prev hd) (by omega)
    rw [iterate_succ_apply]
    exact ⟨hvalid, by omega⟩

/-- The steps back that pass the first day of the year 1 end in the year 0. -/
lemma year_prev_iterate (hyear : 1 ≤ d.year) {n : ℕ} (h : d.dayNumber - n ≤ 0) :
    (prev^[n] d).year = 0 := by
  induction n with
  | zero =>
    have := (lt_dayNumber_iff hd 1).mpr hyear
    rw [daysBeforeYear] at this
    omega
  | succ n ih =>
    rw [iterate_succ_apply']
    by_cases hpos : 0 < d.dayNumber - n
    · -- this is the step back from the first day
      obtain ⟨hvalid, hnum⟩ := valid_prev_iterate hd hpos
      have hprev := dayNumber_prev hvalid (one_le_year hvalid (by omega))
      have hlt := (lt_dayNumber_iff (valid_prev hvalid) 1).not.mp (by
        rw [daysBeforeYear]
        omega)
      omega
    · have hzero := ih (by omega)
      rw [prev]
      split_ifs
      · exact hzero
      · exact hzero
      · exact (congrArg (· - 1) hzero)

theorem next_iterate_prev_iterate {n : ℕ} (hpos : 0 < d.dayNumber - n) :
    next^[n] (prev^[n] d) = d := by
  induction n with
  | zero => rfl
  | succ n ih =>
    obtain ⟨hvalid, hnum⟩ := valid_prev_iterate hd (n := n) (by omega)
    rw [iterate_succ_apply, iterate_succ_apply',
      next_prev hvalid (one_le_year hvalid (by omega)), ih (by omega)]

end

end Date

end Calendar
