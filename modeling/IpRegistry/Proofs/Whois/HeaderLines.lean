import IpRegistry.Proofs.Pattern.Greedy
import IpRegistry.Proofs.Pattern.Pieces
import IpRegistry.Proofs.Pattern.Reads
import IpRegistry.Whois.Header

namespace IpRegistry

namespace Pattern

/-- In a text of one line, a pattern that begins a line matches only at the start. -/
theorem start_eq_zero_of_find {p : Pattern} {line : List Char} {pos : Nat} {m : Match}
    (hline : '\n' ∉ line) (hpos : pos ≤ Text.byteLength line)
    (h : (seq lineStart p).find line pos = some m) : pos = 0 ∧ m.whole.start = 0 := by
  obtain ⟨c, t, hon, hle, ht, rfl⟩ := exists_of_find hpos h
  have hstart : (Thread.begin c).atLineStart = true := by
    by_contra hno
    rw [outcomes, outcomes, if_neg hno] at ht
    cases ht
  have horigin : t.origin = c.pos := ((Thread.Sound.begin hon).outcomes _ t ht).2
  obtain ⟨front, rfl, hfront, hbefore⟩ := hon
  have hnil : front = [] := by
    rcases List.eq_nil_or_concat front with rfl | ⟨front, d, rfl⟩
    · rfl
    · have hd : d = '\n' := by simpa [Thread.atLineStart, Thread.begin, hbefore] using hstart
      exact absurd (by simp [hd]) hline
  subst hnil
  have hzero : c.pos = 0 := hfront
  exact ⟨by omega, horigin.trans hzero⟩

theorem findAll_line {p : Pattern} (hc : p.consumes = true) {line : List Char} (hline : '\n' ∉ line) :
    (seq lineStart p).findAll line = ((seq lineStart p).find line 0).toList := by
  have hc : (seq lineStart p).consumes = true := by rw [consumes, hc, Bool.or_true]
  cases hm : (seq lineStart p).find line 0 with
  | none => exact findAllFrom_of_eq_none hm
  | some m =>
      have hlt := lt_of_find hc (Nat.zero_le _) hm
      have hstop := (within_of_find (Nat.zero_le _) hm).whole.le_latest
      have hlast : (seq lineStart p).find line m.whole.stop = none := by
        cases hn : (seq lineStart p).find line m.whole.stop with
        | none => rfl
        | some n =>
            have hzero := (start_eq_zero_of_find hline hstop hn).1
            omega
      rw [findAll, findAllFrom_of_eq_some (Nat.zero_le _) hm hlt, findAllFrom_of_eq_none hlast]
      rfl

end Pattern

namespace Whois

open Pattern
open Text (byteLength)

/-- A line with a key, a colon, a gap and a value, and the offset at which it stands in a text. -/
structure KeyedLine where
  start : Nat
  key : String
  gap : List Char
  value : List Char

namespace KeyedLine

variable (l : KeyedLine)

/-- What stands before the value. -/
def lead : List Char :=
  l.key.toList ++ ':' :: l.gap

def text : List Char :=
  l.lead ++ l.value

def span : Span :=
  ⟨l.start, l.start + byteLength l.text⟩

def toMatch : Match :=
  ⟨l.span, [("val", ⟨l.start + byteLength l.lead, l.span.stop⟩)]⟩

/-- The gap takes all blanks behind the colon, at least one; if nothing else follows the colon, the
last of the blanks is the value. -/
structure WellFormed (keys : List String) : Prop where
  key_mem : l.key ∈ keys
  gap_ne : l.gap ≠ []
  gap_blank : ∀ c ∈ l.gap, inlineBlank c = true
  value_ne : l.value ≠ []
  value_begins : (∀ c ∈ l.value.head?, inlineBlank c = false) ∨ ∃ b, l.value = [b]
  value_line : '\n' ∉ l.value

/-- The line is one of the lines of a text. -/
structure In (keys : List String) (cs : List Char) : Prop extends l.WellFormed keys where
  placed : ∃ before after, IsPart '\n' cs before l.text after ∧ l.start = byteLength before

end KeyedLine

/-- Keys that are told apart by the colon behind them and do not reach over a line. -/
structure Distinct (keys : List String) : Prop where
  apart : ∀ key ∈ keys, ∀ other ∈ keys,
    key.toList ++ [':'] <+: other.toList ++ [':'] → key = other
  line : ∀ key ∈ keys, '\n' ∉ key.toList

variable {keys : List String} {l : KeyedLine}

theorem KeyedLine.WellFormed.newline_not_mem (hkeys : Distinct keys) (hl : l.WellFormed keys) :
    '\n' ∉ l.text := by
  intro h
  rcases List.mem_append.1 h with h | h
  · rcases List.mem_append.1 h with h | h
    · exact hkeys.line _ hl.key_mem h
    · rcases List.mem_cons.1 h with h | h
      · cases h
      · cases hl.gap_blank _ h
  · exact hl.value_line h

theorem KeyedLine.toMatch_placed (l : KeyedLine) (offset : Nat) :
    { l with start := offset }.toMatch = { l with start := 0 }.toMatch.shift offset := by
  simp [toMatch, span, Match.shift, Span.shift, text, lead]

def behindColon : Pattern :=
  seq Field.blanks (seq wholeValue lineEnd)

theorem headerLine_eq (keys : List String) :
    headerLine keys wholeValue = seq lineStart (behindKey keys behindColon) :=
  rfl

theorem consumes_behindKey (keys : List String) : (behindKey keys behindColon).consumes = true := by
  simp [behindKey, behindColon, consumes, ofText]

theorem consumes_headerLine (keys : List String) :
    (headerLine keys wholeValue).consumes = true := by
  rw [headerLine_eq, consumes, consumes_behindKey, Bool.or_true]

theorem confined_headerLine (h : Distinct keys) :
    (headerLine keys wholeValue).confined '\n' = true := by
  have hkeys : (oneOf (keys.map ofText)).confined '\n' = true := by
    rw [confined_oneOf, List.all_map, List.all_eq_true]
    intro key hkey
    simpa [ofText, confined] using h.line key hkey
  rw [headerLine_eq, behindKey, confined, confined, confined, hkeys]
  decide

theorem first?_value {t : Thread} {value : List Char} (hne : value ≠ []) (hline : '\n' ∉ value)
    (h : t.cursor.rest = value) :
    (seq wholeValue lineEnd).first? t = some (t.capture "val" value []) := by
  have hall : ∀ c ∈ value, notNewline c = true := by
    intro c hc
    simpa [notNewline] using fun heq : c = '\n' => hline (heq ▸ hc)
  have hvalue : (atLeastOne true notNewline).first? t.openGroup = some (t.openGroup.skip value []) :=
    first?_greedy hall hne nofun (h.trans (List.append_nil _).symm)
  refine first?_seq (first?_group "val" hvalue) ?_
  rfl

/-- The gap takes all blanks but for one that has to be the value. -/
theorem first?_behindColon {t : Thread} (hl : l.WellFormed keys)
    (h : t.cursor.rest = l.gap ++ l.value) :
    behindColon.first? t = some ((t.skip l.gap l.value).capture "val" l.value []) := by
  have hvalue : (seq wholeValue lineEnd).first? (t.skip l.gap l.value) =
      some ((t.skip l.gap l.value).capture "val" l.value []) :=
    first?_value hl.value_ne hl.value_line rfl
  obtain ⟨b, gap, hgap⟩ := List.exists_cons_of_ne_nil hl.gap_ne
  have hblank := hl.gap_blank
  rw [hgap, List.forall_mem_cons] at hblank
  have hone : (one inlineBlank).first? t = some (t.skip [b] (gap ++ l.value)) :=
    first?_one hblank.1 (by rw [h, hgap]; rfl)
  have hmany : (((many true inlineBlank).outcomes (t.skip [b] (gap ++ l.value))).flatMap
      (seq wholeValue lineEnd).outcomes).head? =
        some ((t.skip l.gap l.value).capture "val" l.value []) := by
    refine head?_flatMap_greedy hblank.2 ?_ ?_ rfl
    · rintro front back hne hback hfront
      rcases hl.value_begins with hbegins | ⟨c, hc⟩
      · obtain ⟨c, more, rfl⟩ := List.exists_cons_of_ne_nil hne
        have hno := hbegins c (by rw [hback]; rfl)
        rw [hfront c List.mem_cons_self] at hno
        cases hno
      · have hnil : back = [] := by
          have hlength := congrArg List.length (hc.symm.trans hback)
          have hpos := List.length_pos_iff.2 hne
          rw [List.length_append, List.length_singleton] at hlength
          exact List.eq_nil_of_length_eq_zero (by omega)
        subst hnil
        rfl
    · rw [Thread.skip_skip, List.singleton_append, ← hgap]
      exact hvalue
  rw [first?, behindColon, Field.blanks, atLeastOne, outcomes, outcomes, List.flatMap_assoc]
  exact head?_flatMap hone hmany

theorem find_text (hkeys : Distinct keys) (hl : l.WellFormed keys) :
    (headerLine keys wholeValue).find l.text 0 = some { l with start := 0 }.toMatch := by
  let t := Thread.begin ⟨none, 0, l.text⟩
  have hrest : t.cursor.rest = l.key.toList ++ ':' :: (l.gap ++ l.value) := by
    show l.text = _
    simp [KeyedLine.text, KeyedLine.lead]
  have hcolon := first?_behindColon (t := t.skip (l.key.toList ++ [':']) (l.gap ++ l.value)) hl rfl
  have hkey := first?_behindKey hkeys.apart hl.key_mem hrest hcolon
  have hfirst : (headerLine keys wholeValue).first? t =
      some ((t.skip l.lead l.value).capture "val" l.value []) := by
    rw [Thread.skip_skip, List.append_assoc, List.singleton_append] at hkey
    exact first?_seq (show lineStart.first? t = some t from rfl) hkey
  rw [find_of_first? hfirst]
  simp [Thread.toMatch, Thread.capture, Thread.skip, Cursor.skip, Thread.begin, t, KeyedLine.toMatch,
    KeyedLine.span, KeyedLine.text, Text.byteLength_append]
  rfl

/-- A text with blanks at its start and something behind the first one is a gap and a value. -/
theorem exists_gap {cs : List Char} {b c : Char} {more : List Char} (hcs : cs = b :: c :: more)
    (hb : inlineBlank b = true) :
    ∃ gap value, cs = gap ++ value ∧ gap ≠ [] ∧ (∀ c ∈ gap, inlineBlank c = true) ∧ value ≠ [] ∧
      ((∀ c ∈ value.head?, inlineBlank c = false) ∨ ∃ b, value = [b]) := by
  by_cases hall : ∀ c ∈ cs, inlineBlank c = true
  · obtain ⟨front, last, hlast⟩ := (List.eq_nil_or_concat (c :: more)).resolve_left
      (List.cons_ne_nil _ _)
    rw [List.concat_eq_append] at hlast
    rw [hcs, hlast] at hall ⊢
    refine ⟨b :: front, [last], rfl, List.cons_ne_nil _ _, fun d hd => hall d ?_,
      List.cons_ne_nil _ _, .inr ⟨last, rfl⟩⟩
    rw [← List.cons_append]
    exact List.mem_append_left _ hd
  · refine ⟨cs.takeWhile inlineBlank, cs.dropWhile inlineBlank,
      List.takeWhile_append_dropWhile.symm, ?_, fun d hd => List.mem_takeWhile_imp hd, ?_, .inl ?_⟩
    · rw [hcs, List.takeWhile_cons_of_pos hb]
      exact List.cons_ne_nil _ _
    · exact fun hnil => hall (List.dropWhile_eq_nil_iff.1 hnil)
    · intro d hd
      have hhead := List.head?_dropWhile_not inlineBlank cs
      rw [hd] at hhead
      exact hhead

theorem exists_wellFormed {line : List Char} {m : Match} (hline : '\n' ∉ line)
    (h : (headerLine keys wholeValue).find line 0 = some m) :
    ∃ l : KeyedLine, l.WellFormed keys ∧ l.text = line := by
  obtain ⟨c, t, hon, -, ht, rfl⟩ := exists_of_find (Nat.zero_le _) h
  have hstart : c.pos = 0 := by
    have hzero := (start_eq_zero_of_find hline (Nat.zero_le _) h).2
    rwa [Thread.toMatch, ((Thread.Sound.begin hon).outcomes _ t ht).2] at hzero
  obtain rfl : c = ⟨none, 0, line⟩ := hon.eq_of_pos (Cursor.On.start line) hstart
  obtain ⟨seen, found, hreads, hadvances⟩ := exists_reads _ (.begin hon) ht
  obtain ⟨_, _, _, _, ⟨rfl, rfl⟩, ⟨_, _, _, _, hkey, ⟨_, _, _, _, ⟨rfl, rfl⟩,
    ⟨blanks, _, _, _, hblanks, ⟨value, _, _, _, ⟨_, hvalue, -⟩, ⟨rfl, -⟩, rfl, -⟩, rfl, -⟩,
    rfl, -⟩, rfl, -⟩, rfl, -⟩ := hreads
  obtain ⟨⟨key, hmem, rfl⟩, -⟩ := reads_oneOf_texts hkey
  obtain ⟨hblanks, hall, -⟩ := reads_atLeastOne hblanks
  obtain ⟨hvalue, -, -⟩ := reads_atLeastOne hvalue
  have htext : line = key.toList ++ ':' :: (blanks ++ (value ++ t.cursor.rest)) := by
    have hrest := hadvances.rest
    simpa using hrest
  obtain ⟨b, blanks, rfl⟩ := List.exists_cons_of_ne_nil hblanks
  obtain ⟨c, more, hmore⟩ := List.exists_cons_of_ne_nil
    (List.append_ne_nil_of_right_ne_nil blanks (List.append_ne_nil_of_left_ne_nil hvalue t.cursor.rest))
  obtain ⟨gap, value, hcs, hgap, hblank, hvalue, hbegins⟩ := exists_gap (congrArg (b :: ·) hmore)
    (hall b List.mem_cons_self)
  have htext' : line = key.toList ++ ':' :: (gap ++ value) := by
    rw [htext, List.cons_append, ← hcs]
  refine ⟨⟨0, key, gap, value⟩, ⟨hmem, hgap, hblank, hvalue, hbegins, fun hnew => hline ?_⟩, ?_⟩
  · rw [htext']
    exact List.mem_append_right _ (List.mem_cons_of_mem _ (List.mem_append_right _ hnew))
  · rw [htext', KeyedLine.text, KeyedLine.lead, List.append_assoc, List.cons_append]

/-- A line with a key has one match, and a line without a key has none. -/
theorem findAll_text (hkeys : Distinct keys) (hl : l.WellFormed keys) :
    (headerLine keys wholeValue).findAll l.text = [{ l with start := 0 }.toMatch] := by
  rw [headerLine_eq, findAll_line (consumes_behindKey keys) (hl.newline_not_mem hkeys),
    ← headerLine_eq, find_text hkeys hl]
  rfl

theorem mem_findAll_line_iff (hkeys : Distinct keys) {line : List Char} (hline : '\n' ∉ line)
    {m : Match} :
    m ∈ (headerLine keys wholeValue).findAll line ↔
      ∃ l : KeyedLine, l.WellFormed keys ∧ l.text = line ∧ m = { l with start := 0 }.toMatch := by
  constructor
  · intro hm
    rw [headerLine_eq, findAll_line (consumes_behindKey keys) hline, ← headerLine_eq,
      Option.mem_toList] at hm
    obtain ⟨l, hl, rfl⟩ := exists_wellFormed hline hm
    exact ⟨l, hl, rfl, Option.some.inj (hm.symm.trans (find_text hkeys hl))⟩
  · rintro ⟨l, hl, rfl, rfl⟩
    rw [findAll_text hkeys hl]
    exact List.mem_singleton_self _

/-- The matches of a header line are the lines of a text with one of its keys. -/
theorem mem_findAll_iff_in (hkeys : Distinct keys) {cs : List Char} {m : Match} :
    m ∈ (headerLine keys wholeValue).findAll cs ↔ ∃ l : KeyedLine, l.In keys cs ∧ m = l.toMatch := by
  rw [mem_findAll_iff (confined_headerLine hkeys) (consumes_headerLine keys)]
  constructor
  · rintro ⟨before, part, after, hpart, n, hn, rfl⟩
    obtain ⟨l, hl, rfl, rfl⟩ := (mem_findAll_line_iff hkeys hpart.not_mem).1 hn
    exact ⟨{ l with start := byteLength before },
      { hl with placed := ⟨before, after, hpart, rfl⟩ }, (l.toMatch_placed _).symm⟩
  · rintro ⟨l, hl, rfl⟩
    obtain ⟨before, after, hpart, hstart⟩ := hl.placed
    refine ⟨before, l.text, after, hpart, { l with start := 0 }.toMatch,
      (mem_findAll_line_iff hkeys hpart.not_mem).2 ⟨l, hl.toWellFormed, rfl, rfl⟩, ?_⟩
    rw [← l.toMatch_placed, ← hstart]

theorem KeyedLine.In.value_toMatch {cs : List Char} (hl : l.In keys cs) :
    Whois.value l.toMatch cs = String.ofList l.value := by
  obtain ⟨before, after, hpart, hstart⟩ := hl.placed
  have hfront : l.start + byteLength l.lead = byteLength (before ++ l.lead) := by
    rw [hstart, Text.byteLength_append]
  have hstop : l.span.stop = byteLength (before ++ l.lead) + byteLength l.value := by
    rw [← hfront, Nat.add_assoc, ← Text.byteLength_append]
    rfl
  have htext : l.toMatch.text? cs "val" = some l.value := by
    show some (Text.slice cs (l.start + byteLength l.lead) l.span.stop) = _
    have hcs : cs = before ++ l.lead ++ l.value ++ after := by
      rw [hpart.eq, text, ← List.append_assoc]
    rw [hfront, hstop, hcs, Text.slice_byteLength]
  rw [Whois.value, htext]
  rfl

end Whois

end IpRegistry
