import IpRegistry.Proofs.Cidr.RoundTrip
import IpRegistry.Proofs.Networks
import IpRegistry.Proofs.Traverse
import IpRegistry.Proofs.Whois.HeaderLines
import Mathlib.Data.List.Nodup

namespace IpRegistry.Whois

open List (Forall₂)
open Pattern

theorem rangeBetween_eq_none_iff {ranges : List (Nat × String)} {earliest before : Nat} :
    rangeBetween ranges earliest before = none ↔
      ∀ r ∈ ranges, earliest ≤ r.1 → before ≤ r.1 := by
  rw [rangeBetween, Option.map_eq_none_iff, List.find?_eq_none]
  constructor
  · intro h r hr hle
    have hno := h r (List.mem_reverse.2 hr)
    simp only [Bool.and_eq_true, decide_eq_true_eq] at hno
    omega
  · intro h r hr hyes
    have hle := h r (List.mem_reverse.1 hr)
    simp only [Bool.and_eq_true, decide_eq_true_eq] at hyes
    omega

theorem exists_of_rangeBetween {ranges : List (Nat × String)} {earliest before : Nat} {text : String}
    (hsorted : ranges.Pairwise fun r next => r.1 < next.1)
    (h : rangeBetween ranges earliest before = some text) :
    ∃ r ∈ ranges, earliest ≤ r.1 ∧ r.1 < before ∧ text = displayRange r.2 ∧
      ∀ other ∈ ranges, other.1 < before → other.1 ≤ r.1 := by
  obtain ⟨r, hfind, rfl⟩ := Option.map_eq_some_iff.1 h
  obtain ⟨hr, later, earlier, hreverse, hlater⟩ := List.find?_eq_some_iff_append.1 hfind
  simp only [Bool.and_eq_true, decide_eq_true_eq] at hr
  have hmem : r ∈ ranges := by
    rw [← List.mem_reverse, hreverse]
    simp
  have horder := List.pairwise_reverse.2 hsorted
  rw [hreverse, List.pairwise_append, List.pairwise_cons] at horder
  refine ⟨r, hmem, hr.2, hr.1, rfl, ?_⟩
  intro other hother hbefore
  rw [← List.mem_reverse, hreverse, List.mem_append, List.mem_cons] at hother
  rcases hother with hother | rfl | hother
  · have hgt := horder.2.2 other hother r List.mem_cons_self
    have hno := hlater other hother
    simp only [Bool.not_eq_true', Bool.and_eq_false_iff, decide_eq_false_iff_not] at hno
    omega
  · exact le_refl _
  · exact (horder.2.1.1 other hother).le

/-- Where the search for a range starts behind lines of blocks. -/
def lastStop (previousEnd : Nat) (passed : List Match) : Nat :=
  passed.getLast?.elim previousEnd fun m => m.whole.stop

theorem lastStop_cons (previousEnd : Nat) (m : Match) (passed : List Match) :
    lastStop previousEnd (m :: passed) = lastStop m.whole.stop passed := by
  rw [lastStop, lastStop, List.getLast?_cons]
  cases passed.getLast? <;> rfl

/-- The search starts behind all lines of blocks that start before a line of blocks. -/
theorem lastStop_le_iff {cs : List Char} {passed later : List Match} {m : Match} {x : Nat}
    (hmarks : Marks cs ((passed ++ m :: later).map Match.whole)) :
    lastStop 0 passed ≤ x ↔
      ∀ n ∈ passed ++ m :: later, n.whole.start < m.whole.start → n.whole.stop ≤ x := by
  have hnonempty : ∀ n ∈ passed ++ m :: later, n.whole.start < n.whole.stop :=
    fun n hn => hmarks.nonempty _ (List.mem_map_of_mem hn)
  have hapart := List.pairwise_map.1 hmarks.apart
  rw [List.pairwise_append, List.pairwise_cons] at hapart
  obtain ⟨hpassed, ⟨hlater, -⟩, hbefore⟩ := hapart
  constructor
  · intro hle n hn hstart
    rcases List.mem_append.1 hn with hn | hn
    · obtain ⟨front, k, rfl⟩ := (List.eq_nil_or_concat passed).resolve_left (List.ne_nil_of_mem hn)
      rw [List.concat_eq_append] at hn hpassed hle
      have hlast : k.whole.stop ≤ x := by simpa [lastStop] using hle
      rcases List.mem_append.1 hn with hn' | hn'
      · have hnext := (List.pairwise_append.1 hpassed).2.2 n hn' k List.mem_cons_self
        have hlt := hnonempty k (by simp)
        omega
      · rwa [List.mem_singleton.1 hn']
    · rcases List.mem_cons.1 hn with rfl | hn'
      · omega
      · have hnext := hlater n hn'
        have hlt := hnonempty m (by simp)
        omega
  · intro h
    cases hlast : passed.getLast? with
    | none =>
        rw [lastStop, hlast]
        exact Nat.zero_le _
    | some n =>
        have hn : n ∈ passed := List.mem_of_getLast? hlast
        have hmem : n ∈ passed ++ m :: later := List.mem_append_left _ hn
        have hnext := hbefore n hn m List.mem_cons_self
        rw [lastStop, hlast]
        exact h n hmem ((hnonempty n hmem).trans_le hnext)

/-- The header of a line of blocks, with the lines of blocks before it. -/
def arinHeader? (cs : List Char) (ranges : List (Nat × String)) (previousEnd : Nat)
    (passed : List Match) (m : Match) : Option Header :=
  match (listPieces (value m cs)).mapM Cidr.parse with
  | .ok blocks =>
    some ⟨blocks, rangeBetween ranges (lastStop previousEnd passed) m.whole.start, m.whole⟩
  | .error _ => none

theorem mem_arinHeadersFrom_iff {cs : List Char} {ranges : List (Nat × String)} {previousEnd : Nat}
    {found : List Match} {h : Header} :
    h ∈ arinHeadersFrom cs ranges previousEnd found ↔ ∃ passed m later,
      found = passed ++ m :: later ∧ arinHeader? cs ranges previousEnd passed m = some h := by
  induction found generalizing previousEnd with
  | nil => simp [arinHeadersFrom]
  | cons n found ih =>
      have hsteps : h ∈ arinHeadersFrom cs ranges previousEnd (n :: found) ↔
          arinHeader? cs ranges previousEnd [] n = some h ∨
            h ∈ arinHeadersFrom cs ranges n.whole.stop found := by
        rw [arinHeadersFrom, arinHeader?]
        cases (listPieces (value n cs)).mapM Cidr.parse with
        | ok blocks => simp [lastStop, eq_comm]
        | error e => simp
      rw [hsteps, ih]
      constructor
      · rintro (hfirst | ⟨passed, m, later, rfl, hm⟩)
        · exact ⟨[], n, found, rfl, hfirst⟩
        · refine ⟨n :: passed, m, later, rfl, ?_⟩
          rwa [arinHeader?, lastStop_cons]
      · rintro ⟨passed, m, later, heq, hm⟩
        cases passed with
        | nil =>
            cases heq
            exact .inl hm
        | cons k passed =>
            cases heq
            refine .inr ⟨passed, m, later, rfl, ?_⟩
            rwa [arinHeader?, lastStop_cons] at hm

theorem arinHeader?_eq_some_iff {cs : List Char} {ranges : List (Nat × String)} {previousEnd : Nat}
    {passed : List Match} {m : Match} {h : Header} :
    arinHeader? cs ranges previousEnd passed m = some h ↔
      Forall₂ (fun piece block => Cidr.parse (Text.trim piece) = .ok block)
          (listPieces (value m cs)) h.blocks ∧
        h.range = rangeBetween ranges (lastStop previousEnd passed) m.whole.start ∧
        h.span = m.whole := by
  have htrim : (fun (piece : String) block => Cidr.parse (Text.trim piece) = .ok block) =
      fun piece block => Cidr.parse piece = .ok block := by
    funext piece block
    rw [Cidr.parse_trim]
  rw [htrim, ← mapM_eq_ok_iff, arinHeader?]
  cases (listPieces (value m cs)).mapM Cidr.parse with
  | error e => simp
  | ok blocks =>
      cases h
      simp [eq_comm]

/-- A line with the key of a range. -/
def RangeLine (cs : List Char) (l : KeyedLine) : Prop :=
  l.In ["NetRange"] cs

/-- A line with the key of a list of blocks. -/
def BlockLine (cs : List Char) (l : KeyedLine) : Prop :=
  l.In ["CIDR"] cs

/-- A line of a range between a line of blocks and the line of blocks before it. -/
structure Above (cs : List Char) (l r : KeyedLine) : Prop where
  line : RangeLine cs r
  before : r.start < l.start
  behind : ∀ other, BlockLine cs other → other.start < l.start → other.span.stop ≤ r.start

/-- The last one of the lines of a range above a line of blocks. -/
structure LastAbove (cs : List Char) (l r : KeyedLine) : Prop extends Above cs l r where
  last : ∀ other, Above cs l other → other.start ≤ r.start

/-- The header that a line of blocks begins. -/
structure Begins (cs : List Char) (l : KeyedLine) (h : Header) : Prop where
  span : h.span = l.span
  blocks : Forall₂ (fun piece block => Cidr.parse (Text.trim piece) = .ok block)
    (listPieces (String.ofList l.value)) h.blocks
  cidr : blockList h.blocks = ", ".intercalate (h.blocks.map Cidr.text)
  range_eq_none : h.range = none ↔ ∀ r, ¬ Above cs l r
  range_eq_some : ∀ text, h.range = some text ↔
    ∃ r, LastAbove cs l r ∧ text = displayRange (Text.trim (String.ofList r.value))

theorem distinct_singleton {key : String} (h : '\n' ∉ key.toList) : Distinct [key] where
  apart := by simp
  line := by simpa using h

theorem distinct_range : Distinct ["NetRange"] :=
  distinct_singleton (by decide)

theorem distinct_blocks : Distinct ["CIDR"] :=
  distinct_singleton (by decide)

variable {cs : List Char} {l r : KeyedLine} {h : Header}

theorem mem_arinBlocks_iff {m : Match} :
    m ∈ arinBlocks.findAll cs ↔ ∃ l, BlockLine cs l ∧ m = l.toMatch :=
  mem_findAll_iff_in distinct_blocks

theorem BlockLine.eq_of_start_eq {other : KeyedLine} (hl : BlockLine cs l)
    (hother : BlockLine cs other) (h : l.start = other.start) : l.toMatch = other.toMatch :=
  Pattern.eq_of_start_eq (consumes_headerLine _) (mem_arinBlocks_iff.2 ⟨l, hl, rfl⟩)
    (mem_arinBlocks_iff.2 ⟨other, hother, rfl⟩) h

theorem marks_arinBlocks (cs : List Char) : Marks cs ((arinBlocks.findAll cs).map Match.whole) :=
  marks_findAll (consumes_headerLine ["CIDR"]) cs

theorem BlockLine.start_lt_stop (hl : BlockLine cs l) : l.span.start < l.span.stop :=
  (marks_arinBlocks cs).nonempty _ (List.mem_map_of_mem (mem_arinBlocks_iff.2 ⟨l, hl, rfl⟩))

/-- The offsets of the lines of ranges and the texts behind their keys. -/
def arinRanges (cs : List Char) : List (Nat × String) :=
  (arinRange.findAll cs).map fun m => (m.whole.start, trimmedValue m cs)

theorem mem_arinRanges_iff {entry : Nat × String} :
    entry ∈ arinRanges cs ↔
      ∃ r, RangeLine cs r ∧ entry = (r.start, Text.trim (String.ofList r.value)) := by
  rw [arinRanges, List.mem_map]
  constructor
  · rintro ⟨m, hm, rfl⟩
    obtain ⟨r, hr, rfl⟩ := (mem_findAll_iff_in distinct_range).1 hm
    refine ⟨r, hr, ?_⟩
    rw [trimmedValue, hr.value_toMatch]
    rfl
  · rintro ⟨r, hr, rfl⟩
    refine ⟨r.toMatch, (mem_findAll_iff_in distinct_range).2 ⟨r, hr, rfl⟩, ?_⟩
    rw [trimmedValue, KeyedLine.In.value_toMatch hr]
    rfl

theorem sorted_arinRanges (cs : List Char) :
    (arinRanges cs).Pairwise fun entry next => entry.1 < next.1 := by
  obtain ⟨hnonempty, hapart⟩ := findAllFrom_apart (consumes_headerLine ["NetRange"]) cs 0
  refine List.pairwise_map.2 (List.Pairwise.imp_of_mem ?_ hapart)
  intro m next hm _ hnext
  exact (hnonempty m hm).2.trans_le hnext

/-- A line of a range has one text. -/
theorem RangeLine.value_eq {other : KeyedLine} (hr : RangeLine cs r) (hother : RangeLine cs other)
    (h : r.start = other.start) : r.value = other.value := by
  have heq : r.toMatch = other.toMatch :=
    Pattern.eq_of_start_eq (consumes_headerLine _) ((mem_findAll_iff_in distinct_range).2 ⟨r, hr, rfl⟩)
      ((mem_findAll_iff_in distinct_range).2 ⟨other, hother, rfl⟩) h
  have hvalue := KeyedLine.In.value_toMatch hr
  rw [heq, KeyedLine.In.value_toMatch hother] at hvalue
  exact (String.ofList_injective hvalue).symm

theorem LastAbove.value_eq {other : KeyedLine} (hr : LastAbove cs l r)
    (hother : LastAbove cs l other) : r.value = other.value :=
  hr.line.value_eq hother.line
    (Nat.le_antisymm (hother.last r hr.toAbove) (hr.last other hother.toAbove))

/-- What the search for a range finds if it starts behind the lines of blocks before a line. -/
theorem rangeBetween_arinRanges {earliest : Nat}
    (hearliest : ∀ x, earliest ≤ x ↔
      ∀ other, BlockLine cs other → other.start < l.start → other.span.stop ≤ x) :
    (rangeBetween (arinRanges cs) earliest l.start = none ↔ ∀ r, ¬ Above cs l r) ∧
      ∀ text, rangeBetween (arinRanges cs) earliest l.start = some text ↔
        ∃ r, LastAbove cs l r ∧ text = displayRange (Text.trim (String.ofList r.value)) := by
  have hnone : rangeBetween (arinRanges cs) earliest l.start = none ↔ ∀ r, ¬ Above cs l r := by
    rw [rangeBetween_eq_none_iff]
    constructor
    · intro h r hr
      have hle := h _ (mem_arinRanges_iff.2 ⟨r, hr.line, rfl⟩) ((hearliest _).2 hr.behind)
      exact absurd hr.before (Nat.not_lt_of_le hle)
    · rintro h entry hentry hle
      obtain ⟨r, hr, rfl⟩ := mem_arinRanges_iff.1 hentry
      by_contra hlt
      exact h r ⟨hr, Nat.lt_of_not_le hlt, (hearliest _).1 hle⟩
  have hsome : ∀ text, rangeBetween (arinRanges cs) earliest l.start = some text →
      ∃ r, LastAbove cs l r ∧ text = displayRange (Text.trim (String.ofList r.value)) := by
    intro text htext
    obtain ⟨entry, hentry, hle, hlt, rfl, hlast⟩ := exists_of_rangeBetween (sorted_arinRanges cs) htext
    obtain ⟨r, hr, rfl⟩ := mem_arinRanges_iff.1 hentry
    refine ⟨r, ⟨⟨hr, hlt, (hearliest _).1 hle⟩, ?_⟩, rfl⟩
    intro other hother
    exact hlast _ (mem_arinRanges_iff.2 ⟨other, hother.line, rfl⟩) hother.before
  refine ⟨hnone, fun text => ⟨hsome text, ?_⟩⟩
  rintro ⟨r, hr, htext⟩
  cases hfound : rangeBetween (arinRanges cs) earliest l.start with
  | none => exact absurd hr.toAbove (hnone.1 hfound r)
  | some text =>
      obtain ⟨other, hother, hfirst⟩ := hsome _ hfound
      rw [hfirst, htext, hr.value_eq hother]

theorem lastStop_le_iff_lines {passed later : List Match} {x : Nat}
    (hfound : arinBlocks.findAll cs = passed ++ l.toMatch :: later) :
    lastStop 0 passed ≤ x ↔
      ∀ other, BlockLine cs other → other.start < l.start → other.span.stop ≤ x := by
  have hmarks := marks_arinBlocks cs
  rw [hfound] at hmarks
  rw [lastStop_le_iff hmarks, ← hfound]
  constructor
  · intro h other hother hlt
    exact h _ (mem_arinBlocks_iff.2 ⟨other, hother, rfl⟩) hlt
  · intro h n hn hlt
    obtain ⟨other, hother, rfl⟩ := mem_arinBlocks_iff.1 hn
    exact h other hother hlt

theorem arinHeader?_eq_some_iff_begins {passed later : List Match} (hl : BlockLine cs l)
    (hfound : arinBlocks.findAll cs = passed ++ l.toMatch :: later) :
    arinHeader? cs (arinRanges cs) 0 passed l.toMatch = some h ↔ Begins cs l h := by
  obtain ⟨hnone, hsome⟩ := rangeBetween_arinRanges fun x => lastStop_le_iff_lines (x := x) hfound
  rw [arinHeader?_eq_some_iff, KeyedLine.In.value_toMatch hl]
  constructor
  · rintro ⟨hblocks, hrange, hspan⟩
    refine ⟨hspan, hblocks, rfl, ?_, ?_⟩
    · rw [hrange]
      exact hnone
    · rw [hrange]
      exact hsome
  · intro hbegins
    refine ⟨hbegins.blocks, ?_, hbegins.span⟩
    ext text
    exact (hbegins.range_eq_some text).trans (hsome text).symm

/-- The headers are those of the lines of blocks. -/
theorem mem_arinHeaders_iff : h ∈ arinHeaders cs ↔ ∃ l, BlockLine cs l ∧ Begins cs l h := by
  rw [arinHeaders, mem_arinHeadersFrom_iff]
  constructor
  · rintro ⟨passed, m, later, hfound, hm⟩
    obtain ⟨l, hl, rfl⟩ := mem_arinBlocks_iff.1 (hfound ▸ by simp : m ∈ arinBlocks.findAll cs)
    exact ⟨l, hl, (arinHeader?_eq_some_iff_begins hl hfound).1 hm⟩
  · rintro ⟨l, hl, hbegins⟩
    obtain ⟨passed, later, hfound⟩ := List.append_of_mem (mem_arinBlocks_iff.2 ⟨l, hl, rfl⟩)
    exact ⟨passed, l.toMatch, later, hfound, (arinHeader?_eq_some_iff_begins hl hfound).2 hbegins⟩

theorem marks_arinHeaders (cs : List Char) : Marks cs ((arinHeaders cs).map Header.span) :=
  (marks_arinBlocks cs).sublist (sublist_headers .arin cs)

/-- A line of blocks begins no network if and only if a piece of its text is not a block. -/
theorem skipped_iff (hl : BlockLine cs l) :
    (∀ h ∈ arinHeaders cs, h.span ≠ l.span) ↔
      ∃ piece ∈ listPieces (String.ofList l.value), ∃ e, Cidr.parse (Text.trim piece) = .error e := by
  obtain ⟨passed, later, hfound⟩ := List.append_of_mem (mem_arinBlocks_iff.2 ⟨l, hl, rfl⟩)
  simp only [Cidr.parse_trim]
  rw [← exists_mapM_eq_error_iff]
  constructor
  · intro hskipped
    cases hblocks : (listPieces (String.ofList l.value)).mapM Cidr.parse with
    | error e => exact ⟨e, rfl⟩
    | ok blocks =>
        have hheader : arinHeader? cs (arinRanges cs) 0 passed l.toMatch = some
            ⟨blocks, rangeBetween (arinRanges cs) (lastStop 0 passed) l.start, l.span⟩ := by
          rw [arinHeader?, KeyedLine.In.value_toMatch hl, hblocks]
          rfl
        have hmem := mem_arinHeaders_iff.2
          ⟨l, hl, (arinHeader?_eq_some_iff_begins hl hfound).1 hheader⟩
        exact absurd rfl (hskipped _ hmem)
  · rintro ⟨e, herror⟩ h hh hspan
    obtain ⟨other, hother, hbegins⟩ := mem_arinHeaders_iff.1 hh
    have hsame : other.toMatch = l.toMatch := by
      refine hother.eq_of_start_eq hl (congrArg Span.start ?_ : other.span.start = l.span.start)
      exact hbegins.span.symm.trans hspan
    have hvalue := KeyedLine.In.value_toMatch hother
    rw [hsame, KeyedLine.In.value_toMatch hl] at hvalue
    have hblocks := hbegins.blocks
    simp only [Cidr.parse_trim] at hblocks
    rw [← hvalue, ← mapM_eq_ok_iff, herror] at hblocks
    cases hblocks

/-- Of two lines of blocks, only the first one is right behind a line of a range above the first. -/
theorem LastAbove.start_le {other : KeyedLine} (hr : LastAbove cs l r) (hother : LastAbove cs other r)
    (hl : BlockLine cs l) : other.start ≤ l.start := by
  by_contra hlt
  have hstop := hother.behind l hl (Nat.lt_of_not_le hlt)
  have hbefore := hr.before
  have hnonempty : l.start < l.span.stop := hl.start_lt_stop
  omega

/-- The networks of an answer of ARIN stand in the order of their lines, apart from each other. Each
one has the blocks of its line and the last range between the line of blocks before, whether that
one is skipped or not, and its own line. A line is skipped exactly if a piece of it is not a block.
No range goes to two networks, and none goes over a line of blocks. -/
theorem arin_networks_take_own_ranges (cs : List Char) :
    ((arinHeaders cs).Pairwise fun h next => h.span.stop ≤ next.span.start) ∧
    (∀ h ∈ arinHeaders cs, h.span.start < h.span.stop) ∧
    (∀ h ∈ arinHeaders cs, ∃ l, BlockLine cs l ∧ Begins cs l h) ∧
    (∀ l, BlockLine cs l → ((∀ h ∈ arinHeaders cs, h.span ≠ l.span) ↔
      ∃ piece ∈ listPieces (String.ofList l.value),
        ∃ e, Cidr.parse (Text.trim piece) = .error e)) ∧
    (∀ h ∈ arinHeaders cs, ∀ h' ∈ arinHeaders cs, ∀ l l' r, BlockLine cs l → BlockLine cs l' →
      Begins cs l h → Begins cs l' h' → LastAbove cs l r → LastAbove cs l' r → h = h') ∧
    ∀ l r other, LastAbove cs l r → BlockLine cs other →
      other.span.stop ≤ r.start ∨ l.start ≤ other.start := by
  have hmarks := marks_arinHeaders cs
  refine ⟨List.pairwise_map.1 hmarks.apart, ?nonempty, fun h hh => mem_arinHeaders_iff.1 hh,
    fun l hl => skipped_iff hl, ?once, ?apart⟩
  case nonempty =>
    intro h hh
    exact hmarks.nonempty _ (List.mem_map_of_mem hh)
  case once =>
    intro h hh h' hh' l l' r hl hl' hbegins hbegins' hr hr'
    have hstart : l.start = l'.start := Nat.le_antisymm (hr'.start_le hr hl') (hr.start_le hr' hl)
    have hspan : l.span = l'.span := congrArg Match.whole (hl.eq_of_start_eq hl' hstart)
    exact List.inj_on_of_nodup_map hmarks.nodup hh hh' (hbegins.span.trans (hspan.trans hbegins'.span.symm))
  case apart =>
    intro l r other hr hother
    rcases Nat.lt_or_ge other.start l.start with hlt | hle
    · exact .inl (hr.behind other hother hlt)
    · exact .inr hle

theorem arin_networks_take_own_ranges_behind_skipped :
    let cs := "CIDR: none\nNetRange: 10.0.0.0 - 10.255.255.255\nCIDR: 10.0.0.0/8\n".toList
    ∃ h ∈ arinHeaders cs, ∃ l, BlockLine cs l ∧ Begins cs l h := by
  intro cs
  let l : KeyedLine := ⟨47, "CIDR", [' '], "10.0.0.0/8".toList⟩
  have hl : BlockLine cs l :=
    { key_mem := List.mem_singleton_self _
      gap_ne := by decide
      gap_blank := by simp [l, inlineBlank, Text.isBlank]
      value_ne := by decide
      value_begins := .inl (by simp [l, inlineBlank, Text.isBlank])
      value_line := by decide
      placed := ⟨"CIDR: none\nNetRange: 10.0.0.0 - 10.255.255.255\n".toList, ['\n'],
        ⟨by decide +kernel, by simp, by simp, by decide⟩, by decide +kernel⟩ }
  have hpieces : listPieces (String.ofList l.value) = ["10.0.0.0/8"] := by
    rw [listPieces, String.toList_ofList]
    have hcomma : ',' ∉ l.value := by decide
    exact congrArg (List.map String.ofList) (Text.splitOn_of_not_mem hcomma)
  have hblock : ∀ e, Cidr.parse (Text.trim "10.0.0.0/8") ≠ .error e := by
    intro e
    rw [show Cidr.parse (Text.trim "10.0.0.0/8") =
      .ok ⟨.v4, 167772160, 8, by decide, by decide, by decide⟩ by decide +kernel]
    intro h
    cases h
  obtain ⟨-, -, hall, hskipped, -⟩ := arin_networks_take_own_ranges cs
  have hheader : ∃ h ∈ arinHeaders cs, h.span = l.span := by
    by_contra hno
    obtain ⟨piece, hpiece, e, herror⟩ := (hskipped l hl).1 fun h hh hspan => hno ⟨h, hh, hspan⟩
    rw [hpieces, List.mem_singleton] at hpiece
    exact hblock e (hpiece ▸ herror)
  obtain ⟨h, hh, -⟩ := hheader
  exact ⟨h, hh, hall h hh⟩

end IpRegistry.Whois
