import IpRegistry.Proofs.Calendar.Policy
import IpRegistry.Proofs.Calendar.Text

namespace IpRegistry

namespace National

open Calendar

/-- A moment of a year from 1 to 9999 as a clock shows it. -/
structure OnClock (m : Moment) : Prop where
  year_pos : 1 ≤ m.date.year
  year_le : m.date.year ≤ 9999
  plain : m.inserted = false

def dateText (d : Date) : String :=
  padded 4 d.year.toNat ++ "/" ++ padded 2 d.month ++ "/" ++ padded 2 d.day

def clockText (second : Nat) : String :=
  padded 2 (second / 3600) ++ ":" ++ padded 2 (second / 60 % 60) ++ ":" ++ padded 2 (second % 60)

/-- The text of a moment in Japan standard time. -/
def jstText (m : Moment) : String :=
  dateText m.date ++ " " ++ clockText m.second ++ "(JST)"

variable {m n : Moment} {d : Date}

theorem OnClock.hasPlainYear (h : OnClock m) : m.HasPlainYear :=
  ⟨by have := h.year_pos; omega, h.year_le⟩

theorem jstText_eq (h : OnClock m) :
    jstText m = String.ofList (written m jpnicDates.format) := by
  simp [String.ext_iff, jstText, dateText, clockText, written, jpnicDates, slashed,
    FormatItem.write, FormatItem.value, h.plain]

theorem dateText_eq (d : Date) : dateText d = String.ofList (written (.midnight d) slashed) := by
  simp [String.ext_iff, dateText, written, slashed, FormatItem.write, FormatItem.value,
    Moment.midnight]

theorem readMoment_jstText (h : OnClock m) : readMoment jpnicDates.format (jstText m) = some m := by
  have hyear := h.hasPlainYear
  rw [jstText_eq h]
  have hlast : m.second % 60 ≠ 60 := by omega
  refine readMoment_written hyear rfl rfl ⟨rfl, rfl, rfl, hyear.hasYear, .inl ⟨?_, ?_⟩⟩
  · refine ⟨_, rfl, _, rfl, ?_⟩
    simp only [FormatItem.value, h.plain, Bool.false_eq_true, if_false, Nat.add_zero,
      Option.some.injEq, hlast, Option.getD_some]
    omega
  · simp [FormatItem.value, h.plain, hlast]

theorem readMoment_dateText (h : OnClock (.midnight d)) :
    readMoment slashed (dateText d) = some (.midnight d) := by
  have hyear := h.hasPlainYear
  rw [dateText_eq]
  refine readMoment_written hyear rfl rfl ⟨rfl, rfl, rfl, hyear.hasYear, .inr ⟨?_, rfl⟩⟩
  rintro n ⟨⟨hour, hhour, -⟩, -⟩
  cases hhour

/-- A date alone is not in the main format of JPNIC, in which the clock is marked. -/
theorem readMoment_jpnicDates_dateText (h : OnClock (.midnight d)) :
    readMoment jpnicDates.format (dateText d) = none := by
  rw [Option.eq_none_iff_forall_ne_some]
  intro m hm
  obtain ⟨parts, hfits, -⟩ := readMoment_eq_some_iff.1 hm
  have hmark : '(' ∈ (dateText d).toList :=
    (hfits.isInfix_literal (s := "(JST)") (by decide)).subset (by decide)
  have hdigits {w a : Nat} (ha : a < 10 ^ w) (hw : 0 < w) : '(' ∉ (padded w a).toList := by
    intro hmem
    cases (leads_padded ha hw []).isDigit _ hmem
  have hyear : d.year.toNat < 10 ^ 4 := h.hasPlainYear.toNat_lt
  have hmonth : d.month < 10 ^ 2 := d.month_le.trans_lt (by decide)
  have hday : d.day < 10 ^ 2 := d.day_le_31.trans_lt (by decide)
  simp [dateText, hdigits hyear, hdigits hmonth, hdigits hday] at hmark

/-- Nine hours before a moment on the clock there is a moment of a year that has four digits. -/
theorem exists_nineHoursEarlier (h : OnClock m) :
    ∃ m', m.hoursEarlier? 9 = some m' ∧ m'.HasPlainYear ∧ m'.inserted = false ∧
      m'.seconds = m.seconds - 9 * 3600 := by
  have hrange := (m.date.year_mem_iff 1 9999).1 ⟨h.year_pos, h.year_le⟩
  rw [show daysBeforeYear 1 = 0 from rfl, show daysBeforeYear (9999 + 1) = 3652059 from rfl] at hrange
  have hsecond := m.second_lt
  have hfirst : firstSecond = -8272465545600 := rfl
  have hend : endSecond = 8272402560000 := rfl
  have hseconds : m.seconds = m.date.number * 86400 + m.second := rfl
  obtain ⟨m', hshift, hplain, hseconds'⟩ :=
    @Moment.exists_hoursEarlier? m 9 h.plain h.hasPlainYear.hasYear (by omega) (by omega)
  have hsecond' := m'.second_lt
  rw [Moment.seconds] at hseconds'
  refine ⟨m', hshift, (m'.date.year_mem_iff 0 9999).2 ?_, hplain, hseconds'⟩
  rw [show daysBeforeYear 0 = -366 from rfl, show daysBeforeYear (9999 + 1) = 3652059 from rfl]
  omega

theorem normalize_jstText (h : OnClock m) :
    ∃ m' : Moment, jpnicDates.normalize (jstText m) = some m'.text ∧ m'.HasPlainYear ∧
      m'.inserted = false ∧ m'.seconds = m.seconds - 9 * 3600 := by
  obtain ⟨m', hshift, hm'⟩ := exists_nineHoursEarlier h
  have hread : jpnicDates.read (jstText m) = .moment m' :=
    DatePolicy.read_of_shifted (readMoment_jstText h) hshift
  exact ⟨m', DatePolicy.normalize_of_moment hread, hm'⟩

theorem readMoment_fallback (s : String) :
    (jpnicDates.fallback.bind fun format => readMoment format s) = readMoment slashed s :=
  rfl

theorem normalize_dateText (h : OnClock (.midnight d)) :
    jpnicDates.normalize (dateText d) = some (Moment.midnight d).text := by
  apply DatePolicy.normalize_of_moment
  apply DatePolicy.read_of_fallback (readMoment_jpnicDates_dateText h)
  rw [readMoment_fallback, readMoment_dateText h]

theorem read_eq_unreadable (s : String) (hmain : ∀ m, ¬Writes jpnicDates.format s m)
    (hfallback : ∀ m, ¬Writes slashed s m) : jpnicDates.read s = .unreadable := by
  have hnone {format : Format} (h : ∀ m, ¬Writes format s m) : readMoment format s = none :=
    Option.eq_none_iff_forall_ne_some.2 fun m hm => h m (readMoment_eq_some_iff.1 hm)
  apply DatePolicy.read_of_no_fallback (hnone hmain)
  rw [readMoment_fallback, hnone hfallback]

/-- The dates of JPNIC. A moment in Japan standard time becomes the text of the moment nine hours
earlier, so that different moments have different texts in the order of time; a date alone becomes its
midnight; and a text that fits neither format is not read. -/
theorem normalize_jpnicDates :
    (∀ m, OnClock m → ∃ m' : Moment, jpnicDates.normalize (jstText m) = some m'.text ∧
      m'.HasPlainYear ∧ m'.inserted = false ∧ m'.seconds = m.seconds - 9 * 3600) ∧
    (∀ d, OnClock (.midnight d) →
      jpnicDates.normalize (dateText d) = some (Moment.midnight d).text) ∧
    (∀ m n, OnClock m → OnClock n → ∃ s t, jpnicDates.normalize (jstText m) = some s ∧
      jpnicDates.normalize (jstText n) = some t ∧ (s = t ↔ m = n) ∧
      (s < t ↔ m.seconds < n.seconds)) ∧
    ∀ s, (∀ m, ¬Writes jpnicDates.format s m) → (∀ m, ¬Writes slashed s m) →
      jpnicDates.read s = .unreadable ∧ jpnicDates.normalize s = none := by
  refine ⟨fun m => normalize_jstText, fun d => normalize_dateText, ?_, ?_⟩
  · intro m n hm hn
    obtain ⟨m', hmtext, hmyear, hmplain, hmseconds⟩ := normalize_jstText hm
    obtain ⟨n', hntext, hnyear, hnplain, hnseconds⟩ := normalize_jstText hn
    have hlt : m'.text < n'.text ↔ m'.seconds < n'.seconds :=
      Moment.text_lt_text_iff hmyear hmplain hnyear hnplain
    have hgt : n'.text < m'.text ↔ n'.seconds < m'.seconds :=
      Moment.text_lt_text_iff hnyear hnplain hmyear hmplain
    refine ⟨m'.text, n'.text, hmtext, hntext, ?_, hlt.trans (by omega)⟩
    constructor
    · intro heq
      rw [heq] at hlt hgt
      have hirrefl : ¬n'.text < n'.text := String.lt_irrefl _
      apply Moment.eq_of_seconds_eq (hm.plain.trans hn.plain.symm)
      simp only [hirrefl, false_iff] at hlt hgt
      omega
    · rintro rfl
      exact Option.some.inj (hmtext.symm.trans hntext)
  · intro s hmain hfallback
    have hread := read_eq_unreadable s hmain hfallback
    exact ⟨hread, DatePolicy.normalize_of_unreadable hread⟩

def newYear : Date :=
  (Date.of? 2001 1 1).get (by decide)

/-- The year begins in Japan at three in the afternoon of the last day of the year before. -/
theorem normalize_jpnicDates_newYear :
    OnClock (.midnight newYear) ∧
    jpnicDates.normalize "2001/01/01 00:00:00(JST)" = some "2000-12-31T15:00:00" ∧
    jpnicDates.normalize "2001/01/01" = some "2001-01-01T00:00:00" ∧
    jpnicDates.normalize "January 2001" = none := by
  have hclock : OnClock (.midnight newYear) := ⟨by decide, by decide, rfl⟩
  obtain ⟨hjst, hdate, -, hnone⟩ := normalize_jpnicDates
  refine ⟨hclock, ?_, ?_, ?_⟩
  · obtain ⟨m', htext, -, hplain, hseconds⟩ := hjst _ hclock
    have heq : m' = ⟨newYear.previous, 54000, false, by decide⟩ :=
      Moment.eq_of_seconds_eq hplain (hseconds.trans (by decide))
    have hjapan : jstText (.midnight newYear) = "2001/01/01 00:00:00(JST)" := by decide +kernel
    rw [← hjapan, htext, heq]
    decide +kernel
  · have htext : dateText newYear = "2001/01/01" := by decide +kernel
    rw [← htext, hdate _ hclock]
    decide +kernel
  · have hwrites {format : Format} (h : readMoment format "January 2001" = none) (m : Moment) :
        ¬Writes format "January 2001" m := by
      rw [← readMoment_eq_some_iff, h]
      exact nofun
    exact (hnone _ (hwrites (by decide +kernel)) (hwrites (by decide +kernel))).2

end National

end IpRegistry
