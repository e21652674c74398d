import IpRegistry.Calendar
import Mathlib.Logic.Function.Basic

namespace IpRegistry.Calendar

def daysInYear (year : Int) : Nat :=
  if isLeapYear year then 366 else 365

/-- The days from the beginning of the year one to the beginning of a year; they are negative for a
year before that. Every fourth year is longer by a day, but of the years that end a century every
fourth one only. -/
def daysBeforeYear (year : Int) : Int :=
  365 * (year - 1) + (year - 1) / 4 - (year - 1) / 100 + (year - 1) / 400

/-- The days of the first months of a year. -/
def daysThrough (year : Int) : (month : Nat) → Nat
  | 0 => 0
  | month + 1 => daysThrough year month + daysInMonth year (month + 1)

theorem daysBeforeYear_succ (year : Int) :
    daysBeforeYear (year + 1) = daysBeforeYear year + daysInYear year := by
  unfold daysBeforeYear daysInYear isLeapYear
  simp only [Bool.and_eq_true, Bool.or_eq_true, beq_iff_eq, bne_iff_ne, ne_eq]
  split <;> omega

@[simp] theorem daysThrough_zero (year : Int) : daysThrough year 0 = 0 :=
  rfl

theorem daysThrough_twelve (year : Int) : daysThrough year 12 = daysInYear year := by
  simp only [daysThrough, daysInMonth, daysInYear]
  split <;> rfl

theorem daysThrough_mono (year : Int) {m n : Nat} (h : m ≤ n) :
    daysThrough year m ≤ daysThrough year n := by
  induction h with
  | refl => exact Nat.le_refl _
  | step _ ih => exact Nat.le_trans ih (Nat.le_add_right _ _)

theorem daysBeforeYear_add (year : Int) (n : Nat) :
    daysBeforeYear year + n ≤ daysBeforeYear (year + n) := by
  induction n with
  | zero => simp
  | succ n ih =>
      have hstep := daysBeforeYear_succ (year + n)
      have hpos : 1 ≤ daysInYear (year + n) := by
        unfold daysInYear
        split <;> decide
      rw [show year + ((n + 1 : Nat) : Int) = year + n + 1 by omega]
      omega

theorem daysBeforeYear_mono {year later : Int} (h : year ≤ later) :
    daysBeforeYear year ≤ daysBeforeYear later := by
  obtain ⟨n, rfl⟩ := Int.le.dest h
  have := daysBeforeYear_add year n
  omega

namespace Date

/-- The number of a date; the first day of the year one has the number one. -/
def number (d : Date) : Int :=
  daysBeforeYear d.year + daysThrough d.year (d.month - 1) + d.day

theorem day_le_31 (d : Date) : d.day ≤ 31 := by
  have hday := d.day_le
  unfold daysInMonth at hday
  split at hday
  · split at hday <;> omega
  all_goals omega

theorem eq_iff {d e : Date} : d = e ↔ d.year = e.year ∧ d.month = e.month ∧ d.day = e.day := by
  cases d
  cases e
  simp

theorem month_eq (d : Date) : d.month = d.month - 1 + 1 := by
  have := d.month_pos
  omega

/-- The days of a year up to the end of the month of a date. -/
theorem daysThrough_month (d : Date) :
    daysThrough d.year d.month =
      daysThrough d.year (d.month - 1) + daysInMonth d.year d.month := by
  rw [d.month_eq]
  rfl

theorem daysThrough_month_le (d : Date) : daysThrough d.year d.month ≤ daysInYear d.year := by
  rw [← daysThrough_twelve]
  exact daysThrough_mono d.year d.month_le

/-- The numbers of the dates of a year lie between those of the years around it. -/
theorem number_bounds (d : Date) :
    daysBeforeYear d.year < d.number ∧ d.number ≤ daysBeforeYear (d.year + 1) := by
  have hthrough := d.daysThrough_month
  have hle := d.daysThrough_month_le
  have hday := d.day_le
  have hpos := d.day_pos
  rw [daysBeforeYear_succ, number]
  omega

theorem number_next (d : Date) : d.next.number = d.number + 1 := by
  have hthrough := d.daysThrough_month
  have hday := d.day_le
  unfold next
  split
  · simp only [number]
    omega
  · split
    · rename_i hd hm
      simp only [number, Nat.add_sub_cancel]
      omega
    · rename_i hd hm
      have hmonth : d.month = 12 := by
        have := d.month_le
        omega
      rw [hmonth, daysThrough_twelve] at hthrough
      simp only [number, Nat.sub_self, daysThrough_zero, daysBeforeYear_succ, hmonth]
      rw [hmonth] at hd hday
      omega

theorem number_previous (d : Date) : d.previous.number = d.number - 1 := by
  have hpos := d.day_pos
  unfold previous
  split
  · simp only [number]
    omega
  · split
    · rename_i hd hm
      have hthrough : daysThrough d.year (d.month - 1) =
          daysThrough d.year (d.month - 1 - 1) + daysInMonth d.year (d.month - 1) := by
        rw [show d.month - 1 = d.month - 1 - 1 + 1 by omega]
        rfl
      simp only [number]
      omega
    · rename_i hd hm
      have hmonth : d.month = 1 := by
        have := d.month_pos
        omega
      have hyear := daysBeforeYear_succ (d.year - 1)
      rw [Int.sub_add_cancel, ← daysThrough_twelve] at hyear
      have hdecember : daysThrough (d.year - 1) 12 =
          daysThrough (d.year - 1) (12 - 1) + daysInMonth (d.year - 1) 12 := rfl
      simp only [number, hmonth, Nat.sub_self, daysThrough_zero]
      omega

theorem number_later (d : Date) (n : Nat) : (d.later n).number = d.number + n := by
  induction n with
  | zero => exact (Int.add_zero _).symm
  | succ n ih =>
      rw [later, number_next, ih]
      omega

theorem number_earlier (d : Date) (n : Nat) : (d.earlier n).number = d.number - n := by
  induction n with
  | zero => exact (Int.sub_zero _).symm
  | succ n ih =>
      rw [earlier, number_previous, ih]
      omega

theorem number_shift (d : Date) (days : Int) : (d.shift days).number = d.number + days := by
  cases days with
  | ofNat n => exact d.number_later n
  | negSucc n =>
      rw [shift, number_earlier]
      omega

/-- The date comes before the other one in the calendar. -/
def Before (d e : Date) : Prop :=
  d.year < e.year ∨
    d.year = e.year ∧ (d.month < e.month ∨ d.month = e.month ∧ d.day < e.day)

variable {d e : Date}

theorem Before.number_lt (h : Before d e) : d.number < e.number := by
  rcases h with hyear | ⟨hyear, hmonth | ⟨hmonth, hday⟩⟩
  · have hd := d.number_bounds.2
    have he := e.number_bounds.1
    have hle := daysBeforeYear_mono (show d.year + 1 ≤ e.year by omega)
    omega
  · have hd := d.daysThrough_month
    have hday := d.day_le
    have hpos := e.day_pos
    have hle := daysThrough_mono e.year (show d.month ≤ e.month - 1 by omega)
    rw [number, number, hyear]
    rw [hyear] at hd hday
    omega
  · rw [number, number, hyear, hmonth]
    omega

theorem before_or_eq_or_before (d e : Date) : Before d e ∨ d = e ∨ Before e d := by
  obtain ⟨year, month, day, _, _, _, _⟩ := d
  obtain ⟨year', month', day', _, _, _, _⟩ := e
  simp only [Before, Date.mk.injEq]
  omega

theorem number_lt_iff : d.number < e.number ↔ Before d e := by
  constructor
  · intro h
    rcases before_or_eq_or_before d e with hbefore | rfl | hafter
    · exact hbefore
    · exact absurd h (Int.lt_irrefl _)
    · exact absurd hafter.number_lt (Int.lt_asymm h)
  · exact Before.number_lt

theorem number_injective : Function.Injective number := by
  intro d e h
  rcases before_or_eq_or_before d e with hbefore | heq | hafter
  · exact absurd hbefore.number_lt (h ▸ Int.lt_irrefl _)
  · exact heq
  · exact absurd hafter.number_lt (h ▸ Int.lt_irrefl _)

/-- A date is one of the years from one year to another exactly if its number is. -/
theorem year_mem_iff (d : Date) (first last : Int) :
    first ≤ d.year ∧ d.year ≤ last ↔
      daysBeforeYear first < d.number ∧ d.number ≤ daysBeforeYear (last + 1) := by
  obtain ⟨hlow, hhigh⟩ := d.number_bounds
  constructor
  · rintro ⟨hfirst, hlast⟩
    have := daysBeforeYear_mono hfirst
    have := daysBeforeYear_mono (show d.year + 1 ≤ last + 1 by omega)
    omega
  · rintro ⟨hfirst, hlast⟩
    refine ⟨?_, ?_⟩
    · by_contra hless
      have := daysBeforeYear_mono (show d.year + 1 ≤ first by omega)
      omega
    · by_contra hmore
      have := daysBeforeYear_mono (show last + 1 ≤ d.year by omega)
      omega

end Date

end IpRegistry.Calendar
