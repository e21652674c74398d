import IpRegistry.National
import IpRegistry.Proofs.Pattern.Reads
import IpRegistry.Proofs.Whois.Cover

namespace IpRegistry

open Pattern Cidr

namespace Whois

/-- The value of a match is `first`, a hyphen between two blanks, `last`, and then `more`. -/
structure RangeOf (cs : List Char) (m : Match) (first last more : List Char) : Prop where
  text_first : m.text? cs "first" = some first
  text_last : m.text? cs "last" = some last
  text_value : ∃ b b', inlineBlank b = true ∧ inlineBlank b' = true ∧
    m.text? cs "val" = some (first ++ b :: '-' :: b' :: (last ++ more))

/-- The value of a match is not taken apart. -/
structure PlainOf (cs : List Char) (m : Match) (value : List Char) : Prop where
  text_first : m.text? cs "first" = none
  text_last : m.text? cs "last" = none
  text_value : m.text? cs "val" = some value

variable {cs : List Char} {m : Match}

theorem rangeOf_of_captured {first last more : List Char} {b b' : Char}
    (hb : inlineBlank b = true) (hb' : inlineBlank b' = true)
    (h : captured cs m.groups =
      [("val", first ++ b :: '-' :: b' :: (last ++ more)), ("last", last), ("first", first)]) :
    RangeOf cs m first last more where
  text_first := by rw [Match.text?_eq, h]; rfl
  text_last := by rw [Match.text?_eq, h]; rfl
  text_value := ⟨b, b', hb, hb', by rw [Match.text?_eq, h]; rfl⟩

theorem plainOf_of_captured {value : List Char} (h : captured cs m.groups = [("val", value)]) :
    PlainOf cs m value where
  text_first := by rw [Match.text?_eq, h]; rfl
  text_last := by rw [Match.text?_eq, h]; rfl
  text_value := by rw [Match.text?_eq, h]; rfl

/-- The line of a match is a key, a colon, blanks and the value of the match. -/
def LineOf (keys : List String) (cs : List Char) (m : Match) : Prop :=
  ∃ key ∈ keys, ∃ blanks value, (∀ c ∈ blanks, inlineBlank c = true) ∧
    m.text? cs "val" = some value ∧
    Text.slice cs m.whole.start m.whole.stop = key.toList ++ ':' :: (blanks ++ value)

theorem exists_value {keys : List String} {value : Pattern} {seen : List Char}
    {groups : List (String × List Char)} (h : (headerLine keys value).Reads seen groups) :
    ∃ key ∈ keys, ∃ blanks v, (∀ c ∈ blanks, inlineBlank c = true) ∧ value.Reads v groups ∧
      seen = key.toList ++ ':' :: (blanks ++ v) := by
  obtain ⟨_, _, _, _, ⟨rfl, rfl⟩, ⟨_, _, _, _, hkey, ⟨_, _, _, _, ⟨rfl, rfl⟩,
    ⟨blanks, _, _, _, hblanks, ⟨v, _, _, _, hvalue, ⟨rfl, rfl⟩, rfl, rfl⟩, rfl, rfl⟩,
    rfl, rfl⟩, rfl, rfl⟩, rfl, rfl⟩ := h
  obtain ⟨⟨key, hmem, rfl⟩, rfl⟩ := reads_oneOf_texts hkey
  obtain ⟨-, hall, rfl⟩ := reads_atLeastOne hblanks
  refine ⟨key, hmem, blanks, v, hall, ?_, ?_⟩
  · simpa using hvalue
  · simp

theorem rangeValue_cases {seen : List Char} {groups : List (String × List Char)}
    (h : rangeValue.Reads seen groups) :
    (∃ first last b b', inlineBlank b = true ∧ inlineBlank b' = true ∧
      seen = first ++ b :: '-' :: b' :: (last ++ []) ∧
      groups = [("val", seen), ("last", last), ("first", first)]) ∨ groups = [("val", seen)] := by
  obtain ⟨inner, hinner | hinner, rfl⟩ := h
  · obtain ⟨_, _, _, _, ⟨_, hfirst, rfl⟩, ⟨_, _, _, _, ⟨_, _, _, _, ⟨⟨b, hb, rfl⟩, rfl⟩,
      ⟨_, _, _, _, ⟨rfl, rfl⟩, ⟨⟨b', hb', rfl⟩, rfl⟩, rfl, rfl⟩, rfl, rfl⟩, ⟨_, hlast, rfl⟩,
      rfl, rfl⟩, rfl, rfl⟩ := hinner
    obtain ⟨-, -, rfl⟩ := reads_atLeastOne hfirst
    obtain ⟨-, -, rfl⟩ := reads_atLeastOne hlast
    refine .inl ⟨_, _, b, b', hb, hb', ?_, rfl⟩
    simp
  · obtain ⟨-, -, rfl⟩ := reads_atLeastOne hinner
    exact .inr rfl

/-- The value of a header line is a range or not taken apart. -/
theorem otherBlocks_cases (h : m ∈ otherBlocks.findAll cs) :
    LineOf networkKeys cs m ∧
      ((∃ first last, RangeOf cs m first last []) ∨ ∃ value, PlainOf cs m value) := by
  obtain ⟨key, hkey, blanks, value, hblanks, hvalue, hslice⟩ :=
    exists_value (reads_of_mem_findAll h)
  rcases rangeValue_cases hvalue with ⟨first, last, b, b', hb, hb', rfl, hgroups⟩ | hgroups
  · have hrange := rangeOf_of_captured hb hb' hgroups
    refine ⟨⟨key, hkey, blanks, _, hblanks, ?_, hslice⟩, .inl ⟨first, last, hrange⟩⟩
    rw [Match.text?_eq, hgroups]
    rfl
  · have hplain := plainOf_of_captured hgroups
    exact ⟨⟨key, hkey, blanks, value, hblanks, hplain.text_value, hslice⟩, .inr ⟨value, hplain⟩⟩

end Whois

namespace National

variable {cs : List Char} {m : Match}

/-- The line of a match is the words for an address, blanks, a colon, blanks and the value. -/
def KrnicLine (cs : List Char) (m : Match) : Prop :=
  ∃ before blanks value, (∀ c ∈ before, Text.isBlank c = true) ∧
    (∀ c ∈ blanks, inlineBlank c = true) ∧ m.text? cs "val" = some value ∧
    Text.slice cs m.whole.start m.whole.stop =
      "IPv4 Address".toList ++ (before ++ ':' :: (blanks ++ value))

/-- The value of a line is a range with something behind it or not taken apart. -/
theorem krnicLine_cases (h : m ∈ krnicLine.findAll cs) :
    KrnicLine cs m ∧ ((∃ first last b more, inlineBlank b = true ∧ more ≠ [] ∧
      Whois.RangeOf cs m first last (b :: more)) ∨ ∃ value, Whois.PlainOf cs m value) := by
  obtain ⟨_, _, _, _, ⟨rfl, rfl⟩, ⟨_, _, _, _, ⟨rfl, rfl⟩, ⟨before, _, _, _, hfront,
    ⟨_, _, _, _, ⟨rfl, rfl⟩, ⟨blanks, _, _, _, hback, ⟨value, _, _, _, hvalue, ⟨rfl, rfl⟩,
    rfl, rfl⟩, rfl, rfl⟩, rfl, rfl⟩, rfl, rfl⟩, rfl, rfl⟩, hslice, hgroups⟩ :=
    reads_of_mem_findAll h
  obtain ⟨-, hbefore, rfl⟩ := reads_atLeastOne hfront
  obtain ⟨-, hblanks, rfl⟩ := reads_atLeastOne hback
  have hline : Text.slice cs m.whole.start m.whole.stop =
      "IPv4 Address".toList ++ (before ++ ':' :: (blanks ++ value)) := by
    rw [hslice]
    simp
  obtain ⟨inner, hinner | hinner, rfl⟩ := hvalue
  · obtain ⟨first, _, _, _, ⟨_, hfirst, rfl⟩, ⟨_, _, _, _, ⟨⟨b, hb, rfl⟩, rfl⟩, ⟨_, _, _, _,
      ⟨rfl, rfl⟩, ⟨_, _, _, _, ⟨⟨b', hb', rfl⟩, rfl⟩, ⟨last, _, _, _, ⟨_, hlast, rfl⟩,
      ⟨_, more, _, _, ⟨⟨b'', hb'', rfl⟩, rfl⟩, hmore, rfl, rfl⟩, rfl, rfl⟩, rfl, rfl⟩, rfl, rfl⟩,
      rfl, rfl⟩, rfl, rfl⟩ := hinner
    obtain ⟨-, -, rfl⟩ := reads_atLeastOne hfirst
    obtain ⟨-, -, rfl⟩ := reads_atLeastOne hlast
    obtain ⟨hne, -, rfl⟩ := reads_atLeastOne hmore
    have hrange : Whois.RangeOf cs m first last (b'' :: more) :=
      Whois.rangeOf_of_captured hb hb' (by simpa using hgroups)
    refine ⟨⟨before, blanks, _, hbefore, hblanks, ?_, hline⟩,
      .inl ⟨first, last, b'', more, hb'', hne, hrange⟩⟩
    rw [Match.text?_eq, hgroups]
    rfl
  · obtain ⟨-, -, rfl⟩ := reads_atLeastOne hinner
    have hplain : Whois.PlainOf cs m value := Whois.plainOf_of_captured (by simpa using hgroups)
    exact ⟨⟨before, blanks, value, hbefore, hblanks, hplain.text_value, hline⟩,
      .inr ⟨value, hplain⟩⟩

end National

namespace Cidr

theorem hyphen_not_mem_of_parse? {s : String} {a : Address} (h : Address.parse? s = some a) :
    '-' ∉ s.toList := by
  intro hmem
  exact absurd (Address.isAddressChar_of_parse? h _ hmem) (by decide)

theorem hyphen_not_mem_of_writes {s : String} {c : Cidr} (h : Writes s c) : '-' ∉ s.toList := by
  rcases h with ⟨-, hread, -⟩ | ⟨before, after, hs, -, hread, hprefix⟩
  · exact hyphen_not_mem_of_parse? hread
  · rw [hs, List.mem_append, List.mem_cons]
    rintro (hmem | hmem | hmem)
    · exact hyphen_not_mem_of_parse? hread (by rwa [String.toList_ofList])
    · exact absurd hmem (by decide)
    · exact absurd (Text.digit?_of_unsigned hprefix _ hmem) (by decide)

theorem blockList_singleton (block : Cidr) : Whois.blockList [block] = block.text := by
  simp [Whois.blockList]

/-- A text that stands for the range of two addresses: its pieces are the shortest list of blocks
for the range, and from the two ends, and from a document with them, comes the same text. -/
structure CoverText (a b : Address) (cidr : String) : Prop where
  blocks : ∃ blocks, (Whois.listPieces cidr).mapM parse = .ok blocks ∧ Covering a b blocks
  ends : ∀ start stop, WritesAddress start a → WritesAddress stop b →
    (coverTexts start stop).map (", ".intercalate ·) = .ok cidr
  document : ∀ document handle, Rdap.textMember? document "handle" = some handle →
    Rdap.textMember? document "startAddress" = some a.text →
    Rdap.textMember? document "endAddress" = some b.text →
    ∃ n, Rdap.Network.parse document = .ok n ∧ n.startAddress = some a.text ∧
      n.endAddress = some b.text ∧ n.cidr = some cidr

theorem coverText_of_summarize {a b : Address} {blocks : List Cidr}
    (h : summarize a b = .ok blocks) : CoverText a b (Whois.blockList blocks) := by
  have hordered := ordered_of_summarize h
  obtain ⟨_, hother, hcovering⟩ := exists_summarize hordered
  cases h.symm.trans hother
  refine ⟨⟨blocks, ?_, hcovering⟩, ?_, ?_⟩
  · rw [listPieces_blockList (hcovering.ne_nil hordered), mapM_parse_text]
  · intro start stop hstart hstop
    rw [coverTexts_eq hstart hstop h]
    rfl
  · intro document handle hhandle hstart hstop
    exact Rdap.parse_network hhandle hstart hstop h

/-- The texts write the ends of a range. -/
def WritesRange (first last : List Char) (a b : Address) : Prop :=
  WritesAddress (String.ofList first) a ∧ WritesAddress (String.ofList last) b ∧ Ordered a b

theorem exists_coverText {first last : List Char} {blocks : List Cidr}
    (h : Whois.coveringBlocks (String.ofList first) (String.ofList last) = .ok blocks) :
    ∃ a b, WritesRange first last a b ∧ CoverText a b (Whois.blockList blocks) := by
  obtain ⟨a, b, ha, hb, hsummarize⟩ := coveringBlocks_eq_ok_iff.mp h
  exact ⟨a, b, ⟨ha, hb, ordered_of_summarize hsummarize⟩, coverText_of_summarize hsummarize⟩

theorem exists_coveringBlocks {first last : List Char} {a b : Address}
    (h : WritesRange first last a b) :
    ∃ blocks, Whois.coveringBlocks (String.ofList first) (String.ofList last) = .ok blocks := by
  obtain ⟨ha, hb, hordered⟩ := h
  obtain ⟨blocks, hsummarize, -⟩ := exists_summarize hordered
  exact ⟨blocks, coveringBlocks_eq_ok_iff.mpr ⟨a, b, ha, hb, hsummarize⟩⟩

end Cidr

namespace Whois

variable {cs : List Char} {m : Match} {h : Header} {first last more : List Char}

theorem otherHeader?_of_range (hrange : RangeOf cs m first last more) :
    otherHeader? cs m = some h ↔
      ∃ blocks, coveringBlocks (String.ofList first) (String.ofList last) = .ok blocks ∧
        ⟨blocks, some (displayRange (trimmedValue m cs)), m.whole⟩ = h := by
  unfold otherHeader? rangeBlocks
  simp only [hrange.text_first, hrange.text_last]
  cases coveringBlocks (String.ofList first) (String.ofList last) <;> simp

theorem otherHeader?_of_plain {value : List Char} (hplain : PlainOf cs m value) :
    otherHeader? cs m = some h ↔
      ∃ block, Cidr.parse (Text.trim (String.ofList value)) = .ok block ∧
        ⟨[block], some (displayRange (Text.trim (String.ofList value))), m.whole⟩ = h := by
  unfold otherHeader? rangeBlocks trimmedValue Whois.value
  simp only [hplain.text_first, hplain.text_last, hplain.text_value, Option.getD_some]
  cases Cidr.parse (Text.trim (String.ofList value)) <;> simp [Except.map]

theorem displayRange_of_slash {s : String} {block : Cidr} (hslash : '/' ∈ s.toList)
    (h : Cidr.parse s = .ok block) : displayRange s = rangeText block.first block.last := by
  unfold displayRange
  rw [if_pos (List.contains_iff_mem.mpr hslash), h]

theorem otherHeader?_span (hheader : otherHeader? cs m = some h) : h.span = m.whole := by
  unfold otherHeader? at hheader
  simp only at hheader
  split at hheader
  · cases hheader
    rfl
  · cases hheader

end Whois

namespace National

theorem krnicHeader?_of_range {cs : List Char} {m : Match} {h : Header}
    {first last more : List Char} (hrange : Whois.RangeOf cs m first last more) :
    krnicHeader? cs m = some h ↔
      ∃ blocks, Whois.coveringBlocks (String.ofList first) (String.ofList last) = .ok blocks ∧
        ⟨blocks, some (Text.trim (String.ofList first) ++ " - " ++ Text.trim (String.ofList last)),
          m.whole⟩ = h := by
  unfold krnicHeader? krnicBlocks
  simp only [hrange.text_first, hrange.text_last]
  cases Whois.coveringBlocks (String.ofList first) (String.ofList last) <;> simp [Except.map]

theorem krnicHeader?_of_plain {cs : List Char} {m : Match} {h : Header} {value : List Char}
    (hplain : Whois.PlainOf cs m value) :
    krnicHeader? cs m = some h ↔
      ∃ block, Cidr.parse (Text.trim (String.ofList value)) = .ok block ∧
        ⟨[block], some (Text.trim (String.ofList value)), m.whole⟩ = h := by
  unfold krnicHeader? krnicBlocks Whois.trimmedValue Whois.value
  simp only [hplain.text_first, hplain.text_last, hplain.text_value, Option.getD_some]
  cases Cidr.parse (Text.trim (String.ofList value)) <;> simp [Except.map]

theorem krnicHeader?_span {cs : List Char} {m : Match} {h : Header}
    (hheader : krnicHeader? cs m = some h) : h.span = m.whole := by
  unfold krnicHeader? at hheader
  split at hheader
  · cases hheader
    rfl
  · cases hheader

end National

/-- A match with a range begins a section if and only if its ends are in order. -/
theorem exists_header_iff {p : Pattern} (hp : p.consumes = true) {cs : List Char}
    {header? : Match → Option Whois.Header}
    (hspan : ∀ m h, header? m = some h → h.span = m.whole) {m : Match} (hm : m ∈ p.findAll cs)
    {first last : List Char} {header : List Cidr → Whois.Header}
    (hrange : ∀ h, header? m = some h ↔
      ∃ blocks, Whois.coveringBlocks (String.ofList first) (String.ofList last) = .ok blocks ∧
        header blocks = h) :
    (∃ h ∈ (p.findAll cs).filterMap header?, h.span = m.whole) ↔
      ∃ a b, WritesRange first last a b := by
  constructor
  · rintro ⟨h, hh, hwhole⟩
    obtain ⟨n, hn, hheader⟩ := List.mem_filterMap.mp hh
    have hsame : n = m := eq_of_whole_eq hp hn hm ((hspan n h hheader).symm.trans hwhole)
    subst hsame
    obtain ⟨blocks, hblocks, -⟩ := (hrange h).mp hheader
    obtain ⟨a, b, hwrites, -⟩ := exists_coverText hblocks
    exact ⟨a, b, hwrites⟩
  · rintro ⟨a, b, hwrites⟩
    obtain ⟨blocks, hblocks⟩ := exists_coveringBlocks hwrites
    have hheader := (hrange (header blocks)).mpr ⟨blocks, hblocks, rfl⟩
    exact ⟨_, List.mem_filterMap.mpr ⟨m, hm, hheader⟩, hspan m _ hheader⟩

theorem slash_mem_trim {value : List Char} (h : '/' ∈ value) :
    '/' ∈ (Text.trim (String.ofList value)).toList :=
  Text.mem_trim (by decide) (by rwa [String.toList_ofList])

theorem hyphen_not_mem_value {value : List Char} {block : Cidr}
    (h : Cidr.Writes (Text.trim (String.ofList value)) block) : '-' ∉ value := by
  intro hmem
  exact Cidr.hyphen_not_mem_of_writes h
    (Text.mem_trim (by decide) (by rwa [String.toList_ofList]))

/-- A section that begins with a range has the shortest list of blocks for that range, whose ends are
addresses of one family in order, and its text is the one that comes from the ends themselves and
from a document with them. A section that begins with a block, as the only other ones do, has the
text of that block, and the range of the block if it is given with a slash. A line with a range
begins no section if the ends are not such addresses. -/
theorem range_headers_agree (cs : List Char) :
    (∀ h ∈ Whois.otherHeaders cs, ∃ m ∈ Whois.otherBlocks.findAll cs, h.span = m.whole ∧
      Whois.LineOf Whois.networkKeys cs m ∧
      ((∃ first last a b, Whois.RangeOf cs m first last [] ∧ Cidr.WritesRange first last a b ∧
          Cidr.CoverText a b (Whois.blockList h.blocks)) ∨
        ∃ value block, Whois.PlainOf cs m value ∧ '-' ∉ value ∧
          Cidr.Writes (Text.trim (String.ofList value)) block ∧
          Whois.blockList h.blocks = block.text ∧
          ('/' ∈ value → h.range = some (Cidr.rangeText block.first block.last)))) ∧
    (∀ h ∈ National.headers .krnic cs, ∃ m ∈ National.krnicLine.findAll cs, h.span = m.whole ∧
      National.KrnicLine cs m ∧
      ((∃ first last more a b, Whois.RangeOf cs m first last more ∧
          Cidr.WritesRange first last a b ∧ Cidr.CoverText a b (Whois.blockList h.blocks)) ∨
        ∃ value, Whois.PlainOf cs m value ∧ '-' ∉ value)) ∧
    (∀ m ∈ Whois.otherBlocks.findAll cs, ∀ first last more, Whois.RangeOf cs m first last more →
      ((∃ h ∈ Whois.otherHeaders cs, h.span = m.whole) ↔
        ∃ a b, Cidr.WritesRange first last a b)) ∧
    ∀ m ∈ National.krnicLine.findAll cs, ∀ first last more, Whois.RangeOf cs m first last more →
      ((∃ h ∈ National.headers .krnic cs, h.span = m.whole) ↔
        ∃ a b, Cidr.WritesRange first last a b) := by
  refine ⟨?others, ?krnic, ?emitsOthers, ?emitsKrnic⟩
  case others =>
    intro h hh
    obtain ⟨m, hm, hheader⟩ := List.mem_filterMap.mp hh
    obtain ⟨hline, ⟨first, last, hrange⟩ | ⟨value, hplain⟩⟩ := Whois.otherBlocks_cases hm
    · obtain ⟨blocks, hblocks, rfl⟩ := (Whois.otherHeader?_of_range hrange).mp hheader
      obtain ⟨a, b, hwrites, htext⟩ := exists_coverText hblocks
      exact ⟨m, hm, rfl, hline, .inl ⟨first, last, a, b, hrange, hwrites, htext⟩⟩
    · obtain ⟨block, hparse, rfl⟩ := (Whois.otherHeader?_of_plain hplain).mp hheader
      have hwrites := Cidr.writes_of_parse hparse
      rw [Text.trim_trim] at hwrites
      refine ⟨m, hm, rfl, hline, .inr ⟨value, block, hplain, hyphen_not_mem_value hwrites, hwrites,
        blockList_singleton block, fun hslash => ?_⟩⟩
      exact congrArg some (Whois.displayRange_of_slash (slash_mem_trim hslash) hparse)
  case krnic =>
    intro h hh
    obtain ⟨m, hm, hheader⟩ := List.mem_filterMap.mp hh
    obtain ⟨hline, ⟨first, last, b, more, -, -, hrange⟩ | ⟨value, hplain⟩⟩ :=
      National.krnicLine_cases hm
    · obtain ⟨blocks, hblocks, rfl⟩ := (National.krnicHeader?_of_range hrange).mp hheader
      obtain ⟨a, b, hwrites, htext⟩ := exists_coverText hblocks
      exact ⟨m, hm, rfl, hline, .inl ⟨first, last, _, a, b, hrange, hwrites, htext⟩⟩
    · obtain ⟨block, hparse, rfl⟩ := (National.krnicHeader?_of_plain hplain).mp hheader
      have hwrites := Cidr.writes_of_parse hparse
      rw [Text.trim_trim] at hwrites
      exact ⟨m, hm, rfl, hline, .inr ⟨value, hplain, hyphen_not_mem_value hwrites⟩⟩
  case emitsOthers =>
    intro m hm first last more hrange
    exact exists_header_iff (by decide) (fun _ _ => Whois.otherHeader?_span) hm
      fun _ => Whois.otherHeader?_of_range hrange
  case emitsKrnic =>
    intro m hm first last more hrange
    exact exists_header_iff (by decide) (fun _ _ => National.krnicHeader?_span) hm
      fun _ => National.krnicHeader?_of_range hrange

theorem range_headers_agree_inetnum :
    let cs := "inetnum: 10.0.0.0 - 10.0.0.255\n".toList
    ∃ m ∈ Whois.otherBlocks.findAll cs,
      Whois.RangeOf cs m "10.0.0.0".toList "10.0.0.255".toList [] ∧
      ∃ h ∈ Whois.otherHeaders cs, h.span = m.whole := by
  intro cs
  let m : Match := ⟨⟨0, 30⟩, [("val", ⟨9, 30⟩), ("last", ⟨20, 30⟩), ("first", ⟨9, 17⟩)]⟩
  have hfind : Whois.otherBlocks.find cs 0 = some m := by
    rw [Pattern.find_eq_head?]
    decide +kernel
  have hm : m ∈ Whois.otherBlocks.findAll cs := by
    rw [findAll, findAllFrom_of_eq_some (Nat.zero_le _) hfind (by decide)]
    exact List.mem_cons_self
  have hrange : Whois.RangeOf cs m "10.0.0.0".toList "10.0.0.255".toList [] :=
    ⟨by decide +kernel, by decide +kernel, ' ', ' ', by decide, by decide, by decide +kernel⟩
  have hwrites : ∃ a b, WritesRange "10.0.0.0".toList "10.0.0.255".toList a b := by
    refine ⟨⟨.v4, 167772160, by decide⟩, ⟨.v4, 167772415, by decide⟩, ?_, ?_, rfl, by decide⟩ <;>
      unfold WritesAddress <;> decide +kernel
  exact ⟨m, hm, hrange, ((range_headers_agree cs).2.2.1 m hm _ _ _ hrange).mpr hwrites⟩

end IpRegistry
