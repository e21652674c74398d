import IpRegistry.Proofs.Calendar.DayNumber

namespace IpRegistry.Calendar

/-- The first second of the calendar. -/
def firstSecond : Int :=
  (daysBeforeYear firstYear + 1) * 86400

/-- The second behind the last one of the calendar. -/
def endSecond : Int :=
  (daysBeforeYear (lastYear + 1) + 1) * 86400

def firstDate : Date :=
  (Date.of? firstYear 1 1).get (by decide)

def lastDate : Date :=
  (Date.of? lastYear 12 31).get (by decide)

namespace Moment

/-- The number of the second of a moment. An inserted second has the number of the one before it. -/
def seconds (m : Moment) : Int :=
  m.date.number * 86400 + m.second

/-- The second from which a shift counts: the one behind an inserted second if it goes back. -/
def origin (m : Moment) (hours : Int) : Int :=
  m.seconds + if m.inserted = true ∧ 0 < hours then 1 else 0

variable {m m' : Moment} {hours : Int}

theorem origin_of_not_inserted (h : m.inserted = false) (hours : Int) :
    m.origin hours = m.seconds := by
  rw [origin, if_neg, Int.add_zero]
  rw [h]
  exact fun hinserted => Bool.false_ne_true hinserted.1

theorem eq_of_seconds_eq (hinserted : m.inserted = m'.inserted) (h : m.seconds = m'.seconds) :
    m = m' := by
  obtain ⟨date, second, inserted, hsecond⟩ := m
  obtain ⟨date', second', inserted', hsecond'⟩ := m'
  simp only [seconds] at h hinserted
  have hnumber : date.number = date'.number := by omega
  rw [Date.number_injective hnumber] at h ⊢
  congr
  omega

theorem hasYear_iff (m : Moment) :
    hasYear m.date.year = true ↔ firstSecond ≤ m.seconds ∧ m.seconds < endSecond := by
  have hyears := m.date.year_mem_iff firstYear lastYear
  have hlt := m.second_lt
  rw [hasYear, Bool.and_eq_true, decide_eq_true_eq, decide_eq_true_eq, hyears, firstSecond,
    endSecond, seconds]
  omega

/-- The shifted moment, whether or not the calendar has it. -/
def shifted (m : Moment) (hours : Int) : Moment :=
  ⟨m.date.shift ((m.second + (m.origin hours - m.seconds) - hours * 3600) / 86400),
    ((m.second + (m.origin hours - m.seconds) - hours * 3600) % 86400).toNat, false, by omega⟩

theorem seconds_shifted (m : Moment) (hours : Int) :
    (m.shifted hours).seconds = m.origin hours - hours * 3600 := by
  simp only [seconds, shifted, Date.number_shift]
  omega

theorem hoursEarlier?_eq (m : Moment) (h : hours ≠ 0) :
    m.hoursEarlier? hours =
      if hasYear (m.shifted hours).date.year then some (m.shifted hours) else none := by
  have hstart : (if m.inserted = true ∧ 0 < hours then (m.second : Int) + 1 else m.second) =
      m.second + (m.origin hours - m.seconds) := by
    rw [origin]
    split <;> omega
  rw [hoursEarlier?, if_neg h]
  simp only [hstart]
  rfl

@[simp] theorem hoursEarlier?_zero (m : Moment) : m.hoursEarlier? 0 = some m :=
  if_pos rfl

/-- A shift takes the seconds of its hours off. -/
theorem hoursEarlier?_spec (hyear : hasYear m.date.year = true)
    (hshift : m.hoursEarlier? hours = some m') :
    hasYear m'.date.year = true ∧ (m.inserted = false → m'.inserted = false) ∧
      m'.seconds = m.origin hours - hours * 3600 := by
  by_cases hzero : hours = 0
  · subst hzero
    rw [hoursEarlier?_zero] at hshift
    cases hshift
    exact ⟨hyear, id, by simp [origin]⟩
  · rw [hoursEarlier?_eq m hzero] at hshift
    split at hshift
    · rename_i hin
      cases hshift
      exact ⟨hin, fun _ => rfl, m.seconds_shifted hours⟩
    · cases hshift

/-- A shift fails exactly if the second that it leads to is none of the calendar. -/
theorem hoursEarlier?_eq_none_iff (h : hours ≠ 0) :
    m.hoursEarlier? hours = none ↔
      m.origin hours - hours * 3600 < firstSecond ∨ endSecond ≤ m.origin hours - hours * 3600 := by
  have hyear := (m.shifted hours).hasYear_iff
  rw [seconds_shifted] at hyear
  rw [hoursEarlier?_eq m h]
  split
  · rename_i hin
    have := hyear.1 hin
    simp only [reduceCtorEq, false_iff]
    omega
  · rename_i hout
    have := mt hyear.2 hout
    simp only [true_iff]
    omega

/-- A shift inside the calendar succeeds. -/
theorem exists_hoursEarlier? (hinserted : m.inserted = false)
    (hyear : hasYear m.date.year = true) (hlow : firstSecond ≤ m.seconds - hours * 3600)
    (hhigh : m.seconds - hours * 3600 < endSecond) :
    ∃ m', m.hoursEarlier? hours = some m' ∧ m'.inserted = false ∧
      m'.seconds = m.seconds - hours * 3600 := by
  rw [← origin_of_not_inserted hinserted hours] at hlow hhigh ⊢
  cases hshift : m.hoursEarlier? hours with
  | none =>
      by_cases hzero : hours = 0
      · subst hzero
        rw [hoursEarlier?_zero] at hshift
        cases hshift
      · have := (hoursEarlier?_eq_none_iff hzero).1 hshift
        omega
  | some m' =>
      obtain ⟨-, hplain, hseconds⟩ := hoursEarlier?_spec hyear hshift
      exact ⟨m', rfl, hplain hinserted, hseconds⟩

theorem date_eq_firstDate_iff (hyear : hasYear m.date.year = true) :
    m.date = firstDate ↔ m.seconds < firstSecond + 86400 := by
  have hlow := (m.hasYear_iff.1 hyear).1
  have hnumber : firstDate.number = daysBeforeYear firstYear + 1 := by decide
  have hlt := m.second_lt
  rw [← Date.number_injective.eq_iff, hnumber]
  rw [firstSecond, seconds] at hlow ⊢
  omega

theorem date_eq_lastDate_iff (hyear : hasYear m.date.year = true) :
    m.date = lastDate ↔ endSecond - 86400 ≤ m.seconds := by
  have hhigh := (m.hasYear_iff.1 hyear).2
  have hnumber : lastDate.number = daysBeforeYear (lastYear + 1) := by decide
  have hlt := m.second_lt
  rw [← Date.number_injective.eq_iff, hnumber]
  rw [endSecond, seconds] at hhigh ⊢
  omega

/-- The shift goes further back than the calendar on its first day, or further on than the calendar
on its last day. -/
def LeavesCalendar (m : Moment) (hours : Int) : Prop :=
  m.date = firstDate ∧ m.second + (if m.inserted then 1 else 0) < hours * 3600 ∨
    m.date = lastDate ∧ 86400 ≤ m.second - hours * 3600

/-- A shift by at most a day fails exactly if it goes back from the first hours of the calendar, or on
from its last hours. -/
theorem hoursEarlier?_eq_none_iff_leavesCalendar (hyear : hasYear m.date.year = true)
    (hlow : -24 ≤ hours) (hhigh : hours ≤ 24) :
    m.hoursEarlier? hours = none ↔ m.LeavesCalendar hours := by
  have hrange := m.hasYear_iff.1 hyear
  have hlt := m.second_lt
  by_cases hzero : hours = 0
  · subst hzero
    rw [hoursEarlier?_zero, LeavesCalendar]
    simp only [reduceCtorEq, false_iff]
    omega
  · rw [hoursEarlier?_eq_none_iff hzero, LeavesCalendar, date_eq_firstDate_iff hyear,
      date_eq_lastDate_iff hyear, origin]
    rw [firstSecond, endSecond, seconds] at hrange ⊢
    cases m.inserted <;> simp only [Bool.false_eq_true, false_and, true_and, if_true, if_false]
    · omega
    · split <;> omega

end Moment

end IpRegistry.Calendar
