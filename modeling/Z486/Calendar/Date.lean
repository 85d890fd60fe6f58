/-
A calendar with a leap day in every fourth year: dates, the time of day, and their successors. A value of these types is
valid, as its fields say.
-/
import Mathlib.Tactic.Common
import Mathlib.Tactic.IntervalCases

namespace Calendar

/-! ## Dates -/

/-- The days of a month. -/
def daysIn (year month : Nat) : Nat :=
  if month = 2 then if year % 4 = 0 then 29 else 28
  else if month = 4 ∨ month = 6 ∨ month = 9 ∨ month = 11 then 30
  else 31

theorem daysIn_le (year month : Nat) : 28 ≤ daysIn year month ∧ daysIn year month ≤ 31 := by
  unfold daysIn
  split
  · split <;> omega
  · split <;> omega

/-- A date, with its year in two parts. -/
@[ext]
structure Date where
  dayofweek : Nat
  day : Nat
  month : Nat
  year : Nat
  century : Nat
  dayofweek_valid : 1 ≤ dayofweek ∧ dayofweek ≤ 7
  day_valid : 1 ≤ day ∧ day ≤ daysIn year month
  month_valid : 1 ≤ month ∧ month ≤ 12
  year_valid : year < 100
  century_valid : century < 100
deriving DecidableEq

/-- A time of day on a date. -/
@[ext]
structure DateTime extends Date where
  second : Nat
  minute : Nat
  hour : Nat
  second_valid : second < 60
  minute_valid : minute < 60
  hour_valid : hour < 24
deriving DecidableEq

namespace Date

variable (d : Date)

def lastDay : Prop := d.day = daysIn d.year d.month

instance : Decidable d.lastDay := inferInstanceAs (Decidable (_ = _))

theorem day_le : d.day ≤ 31 := d.day_valid.2.trans (daysIn_le _ _).2

/-- The date of the next day. -/
def next : Date where
  dayofweek := if d.dayofweek = 7 then 1 else d.dayofweek + 1
  day := if d.lastDay then 1 else d.day + 1
  month := if d.lastDay then if d.month = 12 then 1 else d.month + 1 else d.month
  year := if d.lastDay ∧ d.month = 12 then if d.year = 99 then 0 else d.year + 1 else d.year
  century :=
    if d.lastDay ∧ d.month = 12 ∧ d.year = 99 then if d.century = 99 then 0 else d.century + 1 else d.century
  dayofweek_valid := by
    have h := d.dayofweek_valid
    split <;> omega
  day_valid := by
    by_cases h : d.lastDay
    · simp only [h, if_true, le_refl, true_and]
      exact Nat.le_trans (by omega) (daysIn_le _ _).1
    · have hle := d.day_valid.2
      simp only [h, if_false, false_and]
      unfold lastDay at h
      omega
  month_valid := by
    have h := d.month_valid
    split <;> [split <;> omega; omega]
  year_valid := by
    have h := d.year_valid
    split <;> [split <;> omega; omega]
  century_valid := by
    have h := d.century_valid
    split <;> [split <;> omega; omega]

end Date

/-! ## The time of day -/

namespace DateTime

variable (d : DateTime)

/-- The seconds since midnight. -/
def seconds : Nat := 3600 * d.hour + 60 * d.minute + d.second

def endOfMinute : Prop := d.second = 59

def endOfHour : Prop := d.second = 59 ∧ d.minute = 59

def endOfDay : Prop := d.second = 59 ∧ d.minute = 59 ∧ d.hour = 23

instance : Decidable d.endOfMinute := inferInstanceAs (Decidable (_ = _))
instance : Decidable d.endOfHour := inferInstanceAs (Decidable (_ ∧ _))
instance : Decidable d.endOfDay := inferInstanceAs (Decidable (_ ∧ _))

/-- The date of the next second. -/
def nextDate : Date := if d.endOfDay then d.toDate.next else d.toDate

/-- The next second. -/
def next : DateTime where
  toDate := d.nextDate
  second := if d.endOfMinute then 0 else d.second + 1
  minute := if d.endOfMinute then if d.minute = 59 then 0 else d.minute + 1 else d.minute
  hour := if d.endOfHour then if d.hour = 23 then 0 else d.hour + 1 else d.hour
  second_valid := by
    have h := d.second_valid
    split
    · omega
    · rename_i hend
      unfold endOfMinute at hend
      omega
  minute_valid := by
    have h := d.minute_valid
    split <;> [split <;> omega; omega]
  hour_valid := by
    have h := d.hour_valid
    split <;> [split <;> omega; omega]

end DateTime

end Calendar
