import Mathlib.Tactic.Common

/-!
# The days of the Gregorian calendar

A `Date` is a day of the years 1970 to 9999 and `Date.weekday` is its `weekday()`, computed from
the number of days up to it as `date.toordinal` does: 0 is a Monday. In the leap years from 2004
to 2028 each day of the year falls on each weekday once, so no condition on the month and the day
of the month says anything about the weekday (`forall_date_iff`).
-/

namespace Calendar

def isLeap (year : Nat) : Bool := year % 4 = 0 && (year % 100 ≠ 0 || year % 400 = 0)

/-- The days of the month in a leap year or another one. -/
def daysInMonth (leap : Bool) (month : Nat) : Nat :=
  if month = 2 then if leap then 29 else 28
  else if month = 4 ∨ month = 6 ∨ month = 9 ∨ month = 11 then 30
  else 31

def daysBeforeYear (year : Nat) : Nat :=
  let y := year - 1
  y * 365 + y / 4 - y / 100 + y / 400

def daysBeforeMonth (leap : Bool) (month : Nat) : Nat :=
  (List.range' 1 (month - 1)).foldl (fun n m => n + daysInMonth leap m) 0

structure Date where
  year : Nat
  month : Nat
  day : Nat
  year_ge : 1970 ≤ year
  year_le : year ≤ 9999
  month_pos : 1 ≤ month
  month_le : month ≤ 12
  day_pos : 1 ≤ day
  day_le : day ≤ daysInMonth (isLeap year) month
  deriving DecidableEq, Repr

/-- `toordinal()`: January 1 of the year 1 is day 1. -/
def Date.toOrdinal (date : Date) : Nat :=
  daysBeforeYear date.year + daysBeforeMonth (isLeap date.year) date.month + date.day

/-- `weekday()`: 0 is a Monday. -/
def Date.weekday (date : Date) : Nat := (date.toOrdinal + 6) % 7

/-- The day exists, at least in a leap year. -/
structure IsDay (month day : Nat) : Prop where
  month_pos : 1 ≤ month
  month_le : month ≤ 12
  day_pos : 1 ≤ day
  day_le : day ≤ daysInMonth true month

theorem daysInMonth_le (leap : Bool) (month : Nat) :
    daysInMonth leap month ≤ daysInMonth true month := by
  unfold daysInMonth
  cases leap <;> split <;> simp

theorem Date.isDay (date : Date) : IsDay date.month date.day :=
  ⟨date.month_pos, date.month_le, date.day_pos, Nat.le_trans date.day_le (daysInMonth_le _ _)⟩

theorem Date.weekday_lt (date : Date) : date.weekday < 7 := Nat.mod_lt _ (by omega)

theorem isDay_first {month : Nat} (hpos : 1 ≤ month) (hle : month ≤ 12) : IsDay month 1 := by
  refine ⟨hpos, hle, Nat.le_refl 1, ?_⟩
  unfold daysInMonth
  split
  · simp
  · split <;> omega

/-! ## The weekdays of one day of the year -/

theorem isLeap_2004_add {i : Nat} (hi : i < 7) : isLeap (2004 + 4 * i) = true := by
  simp only [isLeap, Bool.and_eq_true, Bool.or_eq_true, decide_eq_true_eq]
  omega

/-- Four years have 1461 days. -/
theorem daysBeforeYear_2004_add {i : Nat} (hi : i < 7) :
    daysBeforeYear (2004 + 4 * i) = daysBeforeYear 2004 + 1461 * i := by
  simp only [daysBeforeYear]
  omega

/-- **Each day of the year falls on each weekday** in one of seven leap years. -/
theorem exists_date {month day w : Nat} (hday : IsDay month day) (hw : w < 7) :
    ∃ date : Date, date.month = month ∧ date.day = day ∧ date.weekday = w := by
  -- four years are five days more than whole weeks, and three is the inverse of five
  let c := daysBeforeYear 2004 + daysBeforeMonth true month + day + 6
  let i := 3 * (w + 7 - c % 7) % 7
  have hi : i < 7 := Nat.mod_lt _ (by omega)
  have hleap := isLeap_2004_add hi
  have hle : day ≤ daysInMonth (isLeap (2004 + 4 * i)) month := by
    rw [hleap]
    exact hday.day_le
  refine ⟨⟨2004 + 4 * i, month, day, by omega, by omega, hday.month_pos, hday.month_le,
    hday.day_pos, hle⟩, rfl, rfl, ?_⟩
  have hordinal : daysBeforeYear (2004 + 4 * i) + daysBeforeMonth true month + day + 6 =
      c + 1461 * i := by
    rw [daysBeforeYear_2004_add hi]
    omega
  simp only [Date.weekday, Date.toOrdinal, hleap, hordinal]
  omega

/-- The month and the day of the month do not determine the weekday. -/
theorem forall_date_iff {P : Nat → Nat → Nat → Prop} :
    (∀ date : Date, P date.month date.day date.weekday) ↔
      ∀ month day, IsDay month day → ∀ w < 7, P month day w := by
  constructor
  · intro h month day hday w hw
    obtain ⟨date, rfl, rfl, rfl⟩ := exists_date hday hw
    exact h date
  · intro h date
    exact h date.month date.day date.isDay date.weekday date.weekday_lt

/-- January 1, 2024 was a Monday. -/
example : (⟨2024, 1, 1, by omega, by omega, by omega, by omega, by omega, by decide⟩ :
    Date).weekday = 0 := by decide

end Calendar
