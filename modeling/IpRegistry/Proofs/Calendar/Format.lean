import IpRegistry.Calendar.Format
import Mathlib.Data.List.Infix
import Mathlib.Data.List.TakeWhile

namespace IpRegistry.Calendar

variable {width : Option Nat} {digits rest cs : List Char} {n least greatest : Nat}

/-- The digits that are read as a number in front of a text: as many as there are, or as many as the
width allows. -/
structure Leads (width : Option Nat) (digits rest : List Char) : Prop where
  ne_nil : digits ≠ []
  isDigit : ∀ c ∈ digits, c.isDigit = true
  length_le : ∀ w ∈ width, digits.length ≤ w
  maximal : width = some digits.length ∨ ∀ c ∈ rest.head?, c.isDigit = false

def leadingDigits (width : Option Nat) (cs : List Char) : List Char :=
  match width with
  | some w => (cs.takeWhile Char.isDigit).take w
  | none => cs.takeWhile Char.isDigit

theorem readNumber_eq (width : Option Nat) (cs : List Char) :
    readNumber width cs =
      if leadingDigits width cs = [] then none
      else some (digitsValue (leadingDigits width cs), cs.drop (leadingDigits width cs).length) := by
  cases width <;> rfl

theorem head?_dropWhile (p : Char → Bool) (cs : List Char) :
    ∀ c ∈ (cs.dropWhile p).head?, p c = false := by
  intro c hc
  have hnot := List.head?_dropWhile_not p cs
  rw [hc] at hnot
  simpa using hnot

theorem isPrefix_leadingDigits (width : Option Nat) (cs : List Char) :
    leadingDigits width cs <+: cs := by
  cases width with
  | none => exact List.takeWhile_prefix _
  | some w =>
      have htake := List.take_prefix w (cs.takeWhile Char.isDigit)
      have hdigits : cs.takeWhile Char.isDigit <+: cs := List.takeWhile_prefix _
      exact htake.trans hdigits

theorem leads_leadingDigits (h : leadingDigits width cs ≠ []) :
    Leads width (leadingDigits width cs) (cs.drop (leadingDigits width cs).length) := by
  have hall : ∀ c ∈ cs.takeWhile Char.isDigit, c.isDigit = true :=
    fun c hc => List.mem_takeWhile_imp hc
  have hdrop : cs.drop (cs.takeWhile Char.isDigit).length = cs.dropWhile Char.isDigit := calc
    _ = (cs.takeWhile Char.isDigit ++ cs.dropWhile Char.isDigit).drop
        (cs.takeWhile Char.isDigit).length := by rw [List.takeWhile_append_dropWhile]
    _ = _ := List.drop_left
  cases width with
  | none =>
      refine ⟨h, hall, by simp, .inr ?_⟩
      rw [leadingDigits, hdrop]
      exact head?_dropWhile _ _
  | some w =>
      refine ⟨h, fun c hc => hall c (List.mem_of_mem_take hc), ?_, ?_⟩
      · simp only [leadingDigits, List.length_take, Option.mem_some_iff]
        omega
      by_cases hw : w ≤ (cs.takeWhile Char.isDigit).length
      · left
        simp [leadingDigits, hw]
      · right
        rw [leadingDigits, List.take_of_length_le (by omega), hdrop]
        exact head?_dropWhile _ _

theorem Leads.leadingDigits_append (h : Leads width digits rest) :
    leadingDigits width (digits ++ rest) = digits := by
  have hall : (digits ++ rest).takeWhile Char.isDigit = digits ++ rest.takeWhile Char.isDigit :=
    List.takeWhile_append_of_pos h.isDigit
  rcases h.maximal with rfl | hrest
  · simp [leadingDigits, hall]
  · have hnone : rest.takeWhile Char.isDigit = [] := by
      cases rest with
      | nil => rfl
      | cons c rest => simpa using hrest
    rw [hnone, List.append_nil] at hall
    cases width with
    | none => exact hall
    | some w =>
        rw [leadingDigits, hall]
        exact List.take_of_length_le (h.length_le w rfl)

theorem readNumber_eq_some_iff :
    readNumber width cs = some (n, rest) ↔
      ∃ digits, Leads width digits rest ∧ cs = digits ++ rest ∧ n = digitsValue digits := by
  rw [readNumber_eq]
  constructor
  · intro h
    split at h
    · cases h
    · rename_i hne
      cases h
      refine ⟨_, leads_leadingDigits hne, ?_, rfl⟩
      exact List.prefix_append_drop (isPrefix_leadingDigits width cs)
  · rintro ⟨digits, hdigits, rfl, rfl⟩
    rw [hdigits.leadingDigits_append, if_neg hdigits.ne_nil, List.drop_left]

theorem readTwoDigits_eq_some_iff :
    readTwoDigits least greatest cs = some (n, rest) ↔
      ∃ digits, Leads (some 2) digits rest ∧ cs = digits ++ rest ∧ n = digitsValue digits ∧
        least ≤ n ∧ n ≤ greatest := by
  rw [readTwoDigits]
  constructor
  · intro h
    split at h
    · rename_i m more hread
      split at h
      · rename_i hrange
        cases h
        obtain ⟨digits, hdigits, rfl, rfl⟩ := readNumber_eq_some_iff.1 hread
        exact ⟨digits, hdigits, rfl, rfl, hrange⟩
      · cases h
    · cases h
  · rintro ⟨digits, hdigits, rfl, rfl, hrange⟩
    rw [readNumber_eq_some_iff.2 ⟨digits, hdigits, rfl, rfl⟩]
    exact if_pos hrange

/-- The text of a year in front of another text: at most four digits, or any number of digits behind
a sign. -/
inductive LeadsYear (rest : List Char) : List Char → Int → Prop
  | plain {digits : List Char} : Leads (some 4) digits rest →
    LeadsYear rest digits (digitsValue digits)
  | plus {digits : List Char} : Leads none digits rest →
    LeadsYear rest ('+' :: digits) (digitsValue digits)
  | minus {digits : List Char} : Leads none digits rest →
    LeadsYear rest ('-' :: digits) (-digitsValue digits)

theorem readYear_eq_some_iff {year : Int} :
    readYear cs = some (year, rest) ↔ ∃ text, LeadsYear rest text year ∧ cs = text ++ rest := by
  constructor
  · intro h
    unfold readYear at h
    split at h
    all_goals
      obtain ⟨⟨n, more⟩, hread, heq⟩ := Option.map_eq_some_iff.1 h
      cases heq
      obtain ⟨digits, hdigits, rfl, rfl⟩ := readNumber_eq_some_iff.1 hread
    · exact ⟨_, .minus hdigits, rfl⟩
    · exact ⟨_, .plus hdigits, rfl⟩
    · exact ⟨_, .plain hdigits, rfl⟩
  · rintro ⟨text, htext, rfl⟩
    cases htext with
    | minus hdigits =>
        rw [List.cons_append, readYear, readNumber_eq_some_iff.2 ⟨_, hdigits, rfl, rfl⟩]
        rfl
    | plus hdigits =>
        rw [List.cons_append, readYear, readNumber_eq_some_iff.2 ⟨_, hdigits, rfl, rfl⟩]
        rfl
    | @plain digits hdigits =>
        have hread := readNumber_eq_some_iff.2 ⟨_, hdigits, rfl, rfl⟩
        obtain ⟨c, more, rfl⟩ := List.exists_cons_of_ne_nil hdigits.ne_nil
        have hc := hdigits.isDigit c List.mem_cons_self
        unfold readYear
        split
        · rename_i heq
          cases heq
          cases hc
        · rename_i heq
          cases heq
          cases hc
        · rw [hread]
          rfl

/-- What a part of a format reads in front of a text: a number behind white space, all the white space
there is, or a given text. -/
inductive FormatItem.Reads (parts : Parts) (rest : List Char) :
    FormatItem → List Char → Parts → Prop
  | year {blanks text : List Char} {n : Int} {parts' : Parts}
    (hblanks : ∀ c ∈ blanks, Text.isBlank c = true) (htext : LeadsYear rest text n)
    (hput : parts.putYear? n = some parts') : Reads parts rest year (blanks ++ text) parts'
  | number {item : FormatItem} {least greatest : Nat} {blanks digits : List Char} {parts' : Parts}
    (hrange : item.range? = some (least, greatest)) (hblanks : ∀ c ∈ blanks, Text.isBlank c = true)
    (hdigits : Leads (some 2) digits rest) (hleast : least ≤ digitsValue digits)
    (hgreatest : digitsValue digits ≤ greatest)
    (hput : item.put? (digitsValue digits) parts = some parts') :
    Reads parts rest item (blanks ++ digits) parts'
  | blank {blanks : List Char} (hblanks : ∀ c ∈ blanks, Text.isBlank c = true)
    (hrest : ∀ c ∈ rest.head?, Text.isBlank c = false) : Reads parts rest blank blanks parts
  | literal (s : String) : Reads parts rest (literal s) s.toList parts

section

variable {item : FormatItem} {parts parts' : Parts}

theorem FormatItem.read_of_range? (h : item.range? = some (least, greatest)) :
    item.read parts cs = (readTwoDigits least greatest (cs.dropWhile Text.isBlank)).bind
      fun r => (item.put? r.1 parts).map (·, r.2) := by
  cases item <;> cases h <;> rfl

theorem FormatItem.read_year :
    year.read parts cs = (readYear (cs.dropWhile Text.isBlank)).bind
      fun r => (parts.putYear? r.1).map (·, r.2) :=
  rfl

theorem readLiteral_eq_some_iff {expected : List Char} :
    readLiteral expected cs = some rest ↔ cs = expected ++ rest := by
  induction expected generalizing cs with
  | nil => simp [readLiteral, eq_comm]
  | cons e expected ih =>
      cases cs with
      | nil => simp [readLiteral]
      | cons c cs =>
          rw [readLiteral, List.cons_append, List.cons.injEq, ← ih]
          split <;> simp_all

theorem not_isBlank_of_isDigit {c : Char} (h : c.isDigit = true) : Text.isBlank c = false := by
  have hrange : 48 ≤ c.toNat ∧ c.toNat ≤ 57 := Char.isDigit_iff_toNat.1 h
  simp only [Text.isBlank, Bool.or_eq_false_iff, Bool.and_eq_false_iff, decide_eq_false_iff_not,
    beq_eq_false_iff_ne]
  omega

theorem dropWhile_blanks {blanks : List Char} (hblanks : ∀ c ∈ blanks, Text.isBlank c = true)
    (hcs : ∀ c ∈ cs.head?, Text.isBlank c = false) :
    (blanks ++ cs).dropWhile Text.isBlank = cs := by
  rw [List.dropWhile_append_of_pos hblanks]
  cases cs with
  | nil => rfl
  | cons c cs => exact List.dropWhile_cons_of_neg (by simpa using hcs)

theorem Leads.head?_append (h : Leads width digits rest) :
    ∀ c ∈ (digits ++ rest).head?, Text.isBlank c = false := by
  obtain ⟨d, digits, rfl⟩ := List.exists_cons_of_ne_nil h.ne_nil
  intro c hc
  cases hc
  exact not_isBlank_of_isDigit (h.isDigit d List.mem_cons_self)

theorem LeadsYear.head?_append {text : List Char} {year : Int} (h : LeadsYear rest text year) :
    ∀ c ∈ (text ++ rest).head?, Text.isBlank c = false := by
  cases h with
  | plain hdigits => exact hdigits.head?_append
  | plus hdigits | minus hdigits =>
      rintro c hc
      cases hc
      rfl

/-- Text in front of which white space was dropped is the text behind some white space. -/
theorem eq_blanks_append {text : List Char} (h : cs.dropWhile Text.isBlank = text) :
    ∃ blanks, (∀ c ∈ blanks, Text.isBlank c = true) ∧ cs = blanks ++ text :=
  ⟨cs.takeWhile Text.isBlank, fun _ hc => List.mem_takeWhile_imp hc, by
    rw [← h, List.takeWhile_append_dropWhile]⟩

/-- A part of a format reads what it may read, and nothing else. -/
theorem FormatItem.read_eq_some_iff :
    item.read parts cs = some (parts', rest) ↔
      ∃ text, item.Reads parts rest text parts' ∧ cs = text ++ rest := by
  constructor
  · intro h
    cases hrange : item.range? with
    | some range =>
        obtain ⟨least, greatest⟩ := range
        rw [read_of_range? hrange] at h
        obtain ⟨⟨n, more⟩, hread, hparts⟩ := Option.bind_eq_some_iff.1 h
        obtain ⟨_, hput, heq⟩ := Option.map_eq_some_iff.1 hparts
        cases heq
        obtain ⟨digits, hdigits, htext, rfl, hleast, hgreatest⟩ := readTwoDigits_eq_some_iff.1 hread
        obtain ⟨blanks, hblanks, rfl⟩ := eq_blanks_append htext
        exact ⟨blanks ++ digits, .number hrange hblanks hdigits hleast hgreatest hput, by simp⟩
    | none =>
        cases item with
        | year =>
            rw [read_year] at h
            obtain ⟨⟨n, more⟩, hread, hparts⟩ := Option.bind_eq_some_iff.1 h
            obtain ⟨_, hput, heq⟩ := Option.map_eq_some_iff.1 hparts
            cases heq
            obtain ⟨text, htext, hcs⟩ := readYear_eq_some_iff.1 hread
            obtain ⟨blanks, hblanks, rfl⟩ := eq_blanks_append hcs
            exact ⟨blanks ++ text, .year hblanks htext hput, by simp⟩
        | blank =>
            cases h
            obtain ⟨blanks, hblanks, hcs⟩ := @eq_blanks_append cs _ rfl
            exact ⟨blanks, .blank hblanks (head?_dropWhile _ _), hcs⟩
        | literal s =>
            obtain ⟨more, hread, heq⟩ := Option.map_eq_some_iff.1 h
            cases heq
            exact ⟨s.toList, .literal s, readLiteral_eq_some_iff.1 hread⟩
        | month | day | hour | minute | second => cases hrange
  · rintro ⟨text, htext, rfl⟩
    cases htext with
    | year hblanks htext hput =>
        rw [List.append_assoc, read_year, dropWhile_blanks hblanks htext.head?_append,
          readYear_eq_some_iff.2 ⟨_, htext, rfl⟩, Option.bind_some, hput]
        rfl
    | number hrange hblanks hdigits hleast hgreatest hput =>
        rw [read_of_range? hrange, List.append_assoc, dropWhile_blanks hblanks hdigits.head?_append,
          readTwoDigits_eq_some_iff.2 ⟨_, hdigits, rfl, rfl, hleast, hgreatest⟩, Option.bind_some,
          hput]
        rfl
    | blank hblanks hrest =>
        rw [read, dropWhile_blanks hblanks hrest]
    | literal s =>
        rw [read, readLiteral_eq_some_iff.2 rfl]
        rfl

end

/-- A text fits a format when it falls into pieces, one for each part of the format. -/
inductive Fits : Format → Parts → List Char → Parts → Prop
  | nil (parts : Parts) : Fits [] parts [] parts
  | cons {item : FormatItem} {format : Format} {parts parts' parts'' : Parts}
    {text rest : List Char} (hitem : item.Reads parts rest text parts')
    (hrest : Fits format parts' rest parts'') : Fits (item :: format) parts (text ++ rest) parts''

theorem readParts_eq_some_iff {format : Format} {parts parts' : Parts} :
    readParts format parts cs = some parts' ↔ Fits format parts cs parts' := by
  induction format generalizing parts cs with
  | nil =>
      constructor
      · intro h
        cases cs with
        | nil =>
            cases h
            exact .nil _
        | cons c cs => cases h
      · rintro ⟨⟩
        rfl
  | cons item format ih =>
      rw [readParts]
      constructor
      · intro h
        split at h
        · cases h
        · rename_i hread
          obtain ⟨text, htext, rfl⟩ := FormatItem.read_eq_some_iff.1 hread
          exact .cons htext (ih.1 h)
      · rintro ⟨⟩
        rename_i hitem hrest
        rw [FormatItem.read_eq_some_iff.2 ⟨_, hitem, rfl⟩]
        exact ih.2 hrest

/-- The literal texts of a format stand in each text that fits it. -/
theorem Fits.isInfix_literal {format : Format} {parts parts' : Parts} {s : String}
    (h : Fits format parts cs parts') (hs : FormatItem.literal s ∈ format) : s.toList <:+: cs := by
  induction h with
  | nil => cases hs
  | cons hitem _ ih =>
      rcases List.mem_cons.1 hs with rfl | hs
      · cases hitem with
        | number hrange => cases hrange
        | literal s => exact (List.prefix_append _ _).isInfix
      · exact (ih hs).trans (List.suffix_append _ _).isInfix

/-- The parts name the time of a moment: its hour, its minute and, unless it is zero, its second. -/
structure Parts.NamesTime (parts : Parts) (m : Moment) : Prop where
  second : ∃ hour ∈ parts.hour, ∃ minute ∈ parts.minute, m.second =
    hour * 3600 + minute * 60 + if parts.second = some 60 then 59 else parts.second.getD 0
  inserted : m.inserted = true ↔ parts.second = some 60

/-- The parts name a moment of the calendar: its date, and its time unless they name no time and the
moment is a midnight. -/
structure Parts.Names (parts : Parts) (m : Moment) : Prop where
  year : parts.year = some m.date.year
  month : parts.month = some m.date.month
  day : parts.day = some m.date.day
  hasYear : hasYear m.date.year = true
  time : parts.NamesTime m ∨ (∀ n, ¬parts.NamesTime n) ∧ m = .midnight m.date

theorem Date.of?_eq_some_iff {year : Int} {month day : Nat} {d : Date} :
    of? year month day = some d ↔ d.year = year ∧ d.month = month ∧ d.day = day := by
  unfold of?
  constructor
  · intro h
    split at h
    · cases h
      exact ⟨rfl, rfl, rfl⟩
    · cases h
  · rintro ⟨rfl, rfl, rfl⟩
    exact dif_pos ⟨⟨d.month_pos, d.month_le⟩, d.day_pos, d.day_le⟩

theorem Parts.date?_eq_some_iff {parts : Parts} {d : Date} :
    parts.date? = some d ↔ parts.year = some d.year ∧ parts.month = some d.month ∧
      parts.day = some d.day ∧ hasYear d.year = true := by
  unfold date?
  constructor
  · intro h
    obtain ⟨year, hyear, h⟩ := Option.bind_eq_some_iff.1 h
    obtain ⟨hin, h⟩ := Option.ite_none_right_eq_some.1 h
    obtain ⟨month, hmonth, h⟩ := Option.bind_eq_some_iff.1 h
    obtain ⟨day, hday, h⟩ := Option.bind_eq_some_iff.1 h
    obtain ⟨rfl, rfl, rfl⟩ := Date.of?_eq_some_iff.1 h
    exact ⟨hyear, hmonth, hday, hin⟩
  · rintro ⟨hyear, hmonth, hday, hin⟩
    have hdate : Date.of? d.year d.month d.day = some d := Date.of?_eq_some_iff.2 ⟨rfl, rfl, rfl⟩
    simp [hyear, hmonth, hday, hin, hdate]

theorem Parts.timed?_eq_some_iff {parts : Parts} {d : Date} {m : Moment} :
    parts.timed? d = some m ↔ m.date = d ∧ parts.NamesTime m := by
  have hlast : (parts.second.getD 0 == 60) = true ↔ parts.second = some 60 := by
    cases parts.second <;> simp
  unfold timed?
  constructor
  · intro h
    obtain ⟨hour, hhour, h⟩ := Option.bind_eq_some_iff.1 h
    obtain ⟨minute, hminute, h⟩ := Option.bind_eq_some_iff.1 h
    obtain ⟨hlt, h⟩ := Option.dite_none_right_eq_some.1 h
    cases h
    refine ⟨rfl, ⟨hour, hhour, minute, hminute, ?_⟩, hlast⟩
    simp only [hlast]
  · rintro ⟨rfl, htime⟩
    obtain ⟨hour, hhour, minute, hminute, hsecond⟩ := htime.second
    obtain ⟨date, second, inserted, hlt⟩ := m
    obtain rfl : inserted = (parts.second.getD 0 == 60) :=
      Bool.eq_iff_iff.2 (htime.inserted.trans hlast.symm)
    simp only at hsecond
    simp only [Option.mem_def.1 hhour, Option.mem_def.1 hminute, Option.bind_eq_bind,
      Option.bind_some, hlast, ← hsecond]
    exact dif_pos hlt

theorem Parts.moment?_eq_some_iff {parts : Parts} {m : Moment} :
    parts.moment? = some m ↔ parts.Names m := by
  rw [moment?, Option.map_eq_some_iff]
  constructor
  · rintro ⟨d, hdate, hm⟩
    cases htimed : parts.timed? d with
    | some n =>
        obtain ⟨rfl, htime⟩ := timed?_eq_some_iff.1 htimed
        rw [htimed] at hm
        obtain rfl : n = m := hm
        obtain ⟨hyear, hmonth, hday, hin⟩ := date?_eq_some_iff.1 hdate
        exact ⟨hyear, hmonth, hday, hin, .inl htime⟩
    | none =>
        rw [htimed] at hm
        obtain rfl : Moment.midnight d = m := hm
        obtain ⟨hyear, hmonth, hday, hin⟩ := date?_eq_some_iff.1 hdate
        refine ⟨hyear, hmonth, hday, hin, .inr ⟨fun n hn => ?_, rfl⟩⟩
        have hsome := (timed?_eq_some_iff (d := d) (m := { n with date := d })).2
          ⟨rfl, hn.second, hn.inserted⟩
        rw [htimed] at hsome
        cases hsome
  · intro h
    refine ⟨m.date, date?_eq_some_iff.2 ⟨h.year, h.month, h.day, h.hasYear⟩, ?_⟩
    rcases h.time with htime | ⟨hnone, hmidnight⟩
    · rw [timed?_eq_some_iff.2 ⟨rfl, htime⟩]
      rfl
    · have hnot : parts.timed? m.date = none :=
        Option.eq_none_iff_forall_ne_some.2 fun n hn => hnone n (timed?_eq_some_iff.1 hn).2
      rw [hnot]
      exact hmidnight.symm

/-- A text writes a moment under a format. -/
def Writes (format : Format) (s : String) (m : Moment) : Prop :=
  ∃ parts, Fits format {} s.toList parts ∧ parts.Names m

theorem readMoment_eq_some_iff {format : Format} {s : String} {m : Moment} :
    readMoment format s = some m ↔ Writes format s m := by
  rw [readMoment, Option.bind_eq_some_iff]
  exact exists_congr fun parts =>
    and_congr readParts_eq_some_iff Parts.moment?_eq_some_iff

end IpRegistry.Calendar
