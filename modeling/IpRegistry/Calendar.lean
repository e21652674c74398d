/-!
Dates of the proleptic Gregorian calendar and moments to the second, with the step to the next and to
the previous day and the shift by whole hours.
-/

namespace IpRegistry

namespace Calendar

def isLeapYear (year : Int) : Bool :=
  year % 4 == 0 && (year % 100 != 0 || year % 400 == 0)

/-- The number of days of a month, the months counted from one. -/
def daysInMonth (year : Int) : (month : Nat) → Nat
  | 2 => if isLeapYear year then 29 else 28
  | 4 | 6 | 9 | 11 => 30
  | _ => 31

theorem daysInMonth_pos (year : Int) (month : Nat) : 28 ≤ daysInMonth year month := by
  unfold daysInMonth
  split
  · split <;> decide
  all_goals decide

/-- A date of the calendar. -/
structure Date where
  year : Int
  month : Nat
  day : Nat
  month_pos : 1 ≤ month
  month_le : month ≤ 12
  day_pos : 1 ≤ day
  day_le : day ≤ daysInMonth year month
  deriving DecidableEq, Repr

namespace Date

/-- The date with these parts, if the calendar has it. -/
def of? (year : Int) (month day : Nat) : Option Date :=
  if h : (1 ≤ month ∧ month ≤ 12) ∧ 1 ≤ day ∧ day ≤ daysInMonth year month then
    some ⟨year, month, day, h.1.1, h.1.2, h.2.1, h.2.2⟩
  else none

def next (d : Date) : Date :=
  if hd : d.day + 1 ≤ daysInMonth d.year d.month then
    { d with day := d.day + 1, day_pos := by omega, day_le := hd }
  else if hm : d.month + 1 ≤ 12 then
    { year := d.year
      month := d.month + 1
      day := 1
      month_pos := by omega
      month_le := hm
      day_pos := Nat.le_refl 1
      day_le := Nat.le_trans (by decide) (daysInMonth_pos ..) }
  else
    { year := d.year + 1
      month := 1
      day := 1
      month_pos := Nat.le_refl 1
      month_le := by decide
      day_pos := Nat.le_refl 1
      day_le := Nat.le_trans (by decide) (daysInMonth_pos ..) }

def previous (d : Date) : Date :=
  if hd : 1 < d.day then
    { d with
      day := d.day - 1
      day_pos := by omega
      day_le := by
        have := d.day_le
        omega }
  else if hm : 1 < d.month then
    { year := d.year
      month := d.month - 1
      day := daysInMonth d.year (d.month - 1)
      month_pos := by omega
      month_le := by
        have := d.month_le
        omega
      day_pos := Nat.le_trans (by decide) (daysInMonth_pos ..)
      day_le := Nat.le_refl _ }
  else
    { year := d.year - 1
      month := 12
      day := daysInMonth (d.year - 1) 12
      month_pos := by decide
      month_le := Nat.le_refl 12
      day_pos := Nat.le_trans (by decide) (daysInMonth_pos ..)
      day_le := Nat.le_refl _ }

def later (d : Date) : Nat → Date
  | 0 => d
  | n + 1 => (d.later n).next

def earlier (d : Date) : Nat → Date
  | 0 => d
  | n + 1 => (d.earlier n).previous

/-- The date a number of days later, or earlier if the number is negative. -/
def shift (d : Date) : Int → Date
  | .ofNat n => d.later n
  | .negSucc n => d.earlier (n + 1)

end Date

/-- The first year of the calendar. -/
def firstYear : Int := -262143

/-- The last year of the calendar. -/
def lastYear : Int := 262142

def hasYear (year : Int) : Bool :=
  firstYear ≤ year && year ≤ lastYear

/-- A moment: a date, the seconds since midnight, and whether it is the second inserted after the
one it names. -/
structure Moment where
  date : Date
  second : Nat
  inserted : Bool
  second_lt : second < 86400
  deriving DecidableEq, Repr

namespace Moment

/-- The first moment of a date. -/
def midnight (date : Date) : Moment :=
  ⟨date, 0, false, by decide⟩

/-- The moment a number of hours earlier, or nothing if its year is beyond the calendar. From an
inserted second, earlier moments are counted from its end and later ones from its start. -/
def hoursEarlier? (m : Moment) (hours : Int) : Option Moment :=
  if hours = 0 then some m
  else
    let start : Int := if m.inserted ∧ 0 < hours then m.second + 1 else m.second
    let total := start - hours * 3600
    let date := m.date.shift (total / 86400)
    if hasYear date.year then
      some ⟨date, (total % 86400).toNat, false, by omega⟩
    else none

end Moment

end Calendar

end IpRegistry
