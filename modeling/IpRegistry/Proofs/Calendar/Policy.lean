import IpRegistry.National.Tables
import IpRegistry.Proofs.Calendar.Format
import IpRegistry.Proofs.Calendar.Shift

namespace IpRegistry.Calendar

theorem hasYear_of_readMoment {format : Format} {s : String} {m : Moment}
    (h : readMoment format s = some m) : hasYear m.date.year = true := by
  obtain ⟨parts, -, hnames⟩ := readMoment_eq_some_iff.1 h
  exact hnames.hasYear

namespace Reading

variable {hours : Int} {main fallback : Option Moment} {m m' : Moment}

theorem ofMoments_of_shifted (hshift : m.hoursEarlier? hours = some m') :
    ofMoments hours (some m) fallback = .moment m' := by
  simp only [ofMoments, hshift]

theorem ofMoments_of_not_shifted (hshift : m.hoursEarlier? hours = none) :
    ofMoments hours (some m) fallback = .beyondCalendar := by
  simp only [ofMoments, hshift]

theorem ofMoments_none_ne_beyondCalendar : ofMoments hours none fallback ≠ .beyondCalendar := by
  cases fallback <;> nofun

/-- Reading leaves the calendar exactly when the shift of a moment in the main format does. -/
theorem ofMoments_eq_beyondCalendar_iff :
    ofMoments hours main fallback = .beyondCalendar ↔
      ∃ m ∈ main, m.hoursEarlier? hours = none := by
  cases main with
  | none => simp [ofMoments_none_ne_beyondCalendar]
  | some m =>
      cases hshift : m.hoursEarlier? hours with
      | none => simp [ofMoments_of_not_shifted hshift, hshift]
      | some m' => simp [ofMoments_of_shifted hshift, hshift]

/-- A shift of at most fourteen hours leads a moment of the calendar out of it exactly from the first
hours of its first day or from the last hours of its last day, and else to the moment so many hours
earlier. -/
theorem ofMoments_spec (hlow : -14 ≤ hours) (hhigh : hours ≤ 14)
    (hyears : ∀ m ∈ main, hasYear m.date.year = true) :
    (ofMoments hours main fallback = .beyondCalendar ↔ ∃ m ∈ main, m.LeavesCalendar hours) ∧
    ∀ m ∈ main, ¬m.LeavesCalendar hours →
      ∃ m', ofMoments hours main fallback = .moment m' ∧ hasYear m'.date.year = true ∧
        m'.seconds = m.origin hours - hours * 3600 := by
  have hleaves : ∀ m ∈ main, (m.hoursEarlier? hours = none ↔ m.LeavesCalendar hours) :=
    fun m hm => Moment.hoursEarlier?_eq_none_iff_leavesCalendar (hyears m hm) (by omega) (by omega)
  constructor
  · rw [ofMoments_eq_beyondCalendar_iff]
    exact exists_congr fun m => and_congr_right (hleaves m)
  · rintro m rfl hstays
    cases hshift : m.hoursEarlier? hours with
    | none => exact absurd ((hleaves m rfl).1 hshift) hstays
    | some m' =>
        obtain ⟨hyear, -, hseconds⟩ := Moment.hoursEarlier?_spec (hyears m rfl) hshift
        exact ⟨m', ofMoments_of_shifted hshift, hyear, hseconds⟩

end Reading

namespace DatePolicy

variable {policy : DatePolicy} {s : String} {m m' : Moment}

theorem read_of_shifted (h : readMoment policy.format s = some m)
    (hshift : m.hoursEarlier? policy.hourOffset = some m') : policy.read s = .moment m' := by
  rw [read, h]
  exact Reading.ofMoments_of_shifted hshift

theorem read_of_fallback (h : readMoment policy.format s = none)
    (hfallback : (policy.fallback.bind fun format => readMoment format s) = some m) :
    policy.read s = .moment m := by
  rw [read, h, hfallback]
  rfl

theorem read_of_no_fallback (h : readMoment policy.format s = none)
    (hfallback : (policy.fallback.bind fun format => readMoment format s) = none) :
    policy.read s = .unreadable := by
  rw [read, h, hfallback]
  rfl

theorem normalize_of_moment (h : policy.read s = .moment m) : policy.normalize s = some m.text := by
  rw [normalize, h]

theorem normalize_of_unreadable (h : policy.read s = .unreadable) : policy.normalize s = none := by
  rw [normalize, h]

/-- Dates in the main format are read as the moment so many hours earlier, unless that is none of the
calendar. For shifts of at most fourteen hours this happens exactly if the date is in the first hours
of the first day of the calendar, or in the last hours of its last day. This depends on the format
only through the moment that is read in it. -/
theorem read_leaves_calendar_iff (hlow : -14 ≤ policy.hourOffset) (hhigh : policy.hourOffset ≤ 14) :
    (∀ main fallback : Option Moment, (∀ m ∈ main, hasYear m.date.year = true) →
      (Reading.ofMoments policy.hourOffset main fallback = .beyondCalendar ↔
        ∃ m ∈ main, m.LeavesCalendar policy.hourOffset) ∧
      ∀ m ∈ main, ¬m.LeavesCalendar policy.hourOffset →
        ∃ m', Reading.ofMoments policy.hourOffset main fallback = .moment m' ∧
          hasYear m'.date.year = true ∧
          m'.seconds = m.origin policy.hourOffset - policy.hourOffset * 3600) ∧
    ∀ s : String,
      (policy.read s = .beyondCalendar ↔
        ∃ m, Writes policy.format s m ∧ m.LeavesCalendar policy.hourOffset) ∧
      ∀ m, Writes policy.format s m → ¬m.LeavesCalendar policy.hourOffset →
        ∃ m', policy.read s = .moment m' ∧ policy.normalize s = some m'.text ∧
          hasYear m'.date.year = true ∧
          m'.seconds = m.origin policy.hourOffset - policy.hourOffset * 3600 := by
  refine ⟨fun main fallback hyears => Reading.ofMoments_spec hlow hhigh hyears, fun s => ?_⟩
  have hyears : ∀ m ∈ readMoment policy.format s, hasYear m.date.year = true :=
    fun m hm => hasYear_of_readMoment hm
  obtain ⟨hiff, hstays⟩ := @Reading.ofMoments_spec _ _
    (policy.fallback.bind fun format => readMoment format s) hlow hhigh hyears
  constructor
  · refine hiff.trans (exists_congr fun m => ?_)
    rw [Option.mem_def, readMoment_eq_some_iff]
  · intro m hm hnot
    obtain ⟨m', hread, hyear, hseconds⟩ := hstays m (readMoment_eq_some_iff.2 hm) hnot
    exact ⟨m', hread, normalize_of_moment hread, hyear, hseconds⟩

/-- Nine hours after its beginning the calendar has a moment nine hours earlier. -/
theorem read_leaves_calendar_iff_jpnic :
    -14 ≤ National.jpnicDates.hourOffset ∧ National.jpnicDates.hourOffset ≤ 14 ∧
    Writes National.jpnicDates.format "-262143/01/01 09:00:00(JST)"
      ⟨firstDate, 32400, false, by decide⟩ ∧
    ∃ m', National.jpnicDates.read "-262143/01/01 09:00:00(JST)" = .moment m' ∧
      m'.seconds = firstSecond := by
  have hwrites : Writes National.jpnicDates.format "-262143/01/01 09:00:00(JST)"
      ⟨firstDate, 32400, false, by decide⟩ :=
    readMoment_eq_some_iff.1 (by decide +kernel)
  obtain ⟨-, hread⟩ := (@read_leaves_calendar_iff National.jpnicDates (by decide) (by decide)).2
    "-262143/01/01 09:00:00(JST)"
  obtain ⟨m', hmoment, -, -, hseconds⟩ := hread _ hwrites (by simp [Moment.LeavesCalendar]; decide)
  exact ⟨by decide, by decide, hwrites, m', hmoment, hseconds.trans (by decide +kernel)⟩

/-- Nine hours before the first moment of the calendar there is no moment. -/
theorem jpnicDates_leave_calendar :
    -14 ≤ National.jpnicDates.hourOffset ∧ National.jpnicDates.hourOffset ≤ 14 ∧
    readMoment National.jpnicDates.format "-262143/01/01 00:00:00(JST)" = some (.midnight firstDate) ∧
    National.jpnicDates.read "-262143/01/01 00:00:00(JST)" = .beyondCalendar := by
  exact ⟨by decide, by decide, by decide +kernel, by decide +kernel⟩

/-- A time without minutes is none, so that the date is read as its midnight. -/
example : DatePolicy.read ⟨[.year, .literal "-", .month, .literal "-", .day, .blank, .hour], none, 9⟩
    "-262143-01-01 12" = .beyondCalendar := by
  decide +kernel

/-- A part that is written twice has one value. -/
example : readMoment [.year, .blank, .month, .blank, .day, .blank, .day] "2001 02 03 04" = none := by
  decide +kernel

end DatePolicy

end IpRegistry.Calendar
