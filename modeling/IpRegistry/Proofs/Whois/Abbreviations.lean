import IpRegistry.Proofs.Traverse
import IpRegistry.Proofs.Whois.Cover
import IpRegistry.Proofs.Whois.HeaderLines

namespace IpRegistry.Whois

open List (Forall₂)
open Pattern
open Text (byteLength)

/-- The text of a block with its whole address, or without zero bytes at the end of a version 4
address of which at least two bytes remain. -/
inductive Abbreviates : String → Cidr → Prop where
  | whole (c : Cidr) : Abbreviates c.text c
  | short (c : Cidr) (kept : Nat) (hfamily : c.family = .v4) (hkept : 2 ≤ kept)
      (hzero : ∀ octet ∈ c.first.octets.drop kept, octet = 0) :
      Abbreviates (Address.dotted (c.first.octets.take kept) ++ "/" ++ toString c.prefixLen) c

theorem expandBlock_eq_self {s : String} (htrim : Text.trim s = s)
    (hdots : s.toList.count '.' = 0 ∨ 3 ≤ s.toList.count '.') : expandBlock s = s := by
  rw [expandBlock, htrim]
  exact (if_pos hdots).trans String.ofList_toList

/-- The text of an address has no dots or those of four bytes. -/
theorem count_dot_text (a : Address) : a.text.toList.count '.' = 0 ∨ a.text.toList.count '.' = 3 := by
  by_cases hdot : '.' ∈ a.text.toList
  · obtain ⟨front, octets, htext, hlength, hfront⟩ := Address.exists_dotted hdot
    have hnone : front.count '.' = 0 := by
      rcases hfront with rfl | rfl <;> decide
    have hpieces : ∀ piece ∈ octets.map (Nat.toDigits 10), '.' ∉ piece := by
      intro piece hpiece
      obtain ⟨n, -, rfl⟩ := List.mem_map.1 hpiece
      exact Address.dot_not_mem_toDigits n
    right
    rw [htext, List.count_append, hnone, Address.toList_dotted_map, Text.count_intercalate hpieces,
      List.length_map, hlength]
  · exact .inl (List.count_eq_zero.2 hdot)

theorem toList_slashed (address : String) (prefixLen : Nat) :
    (address ++ "/" ++ toString prefixLen).toList =
      address.toList ++ '/' :: Nat.toDigits 10 prefixLen := by
  rw [String.toList_append, String.toList_append, List.append_assoc]
  simp

theorem count_dot_slashed (address : String) (prefixLen : Nat) :
    (address ++ "/" ++ toString prefixLen).toList.count '.' = address.toList.count '.' := by
  have hlength : (Nat.toDigits 10 prefixLen).count '.' = 0 :=
    List.count_eq_zero.2 (Address.dot_not_mem_toDigits prefixLen)
  rw [toList_slashed, List.count_append, List.count_cons_of_ne (by decide), hlength, Nat.add_zero]

/-- What may stand in a block: hexadecimal digits, dots, colons and the slash. -/
def isBlockChar (c : Char) : Bool :=
  c ∈ "0123456789abcdef.:/".toList

theorem isBlockChar_slashed {address : String} (h : ∀ c ∈ address.toList, isBlockChar c = true)
    (prefixLen : Nat) :
    ∀ c ∈ (address ++ "/" ++ toString prefixLen).toList, isBlockChar c = true := by
  intro c hc
  rw [toList_slashed] at hc
  rcases List.mem_append.1 hc with hc | hc
  · exact h c hc
  · rcases List.mem_cons.1 hc with rfl | hc
    · decide
    · have hdigit := Address.mem_of_mem_toDigits (by decide) (by decide) hc
      exact decide_eq_true (List.mem_append_left ".:/".toList hdigit)

theorem isBlockChar_text (a : Address) : ∀ c ∈ a.text.toList, isBlockChar c = true := by
  intro c hc
  exact decide_eq_true (List.mem_append_left ['/'] (Address.mem_of_mem_text hc))

theorem isBlockChar_dotted (octets : List Nat) :
    ∀ c ∈ (Address.dotted octets).toList, isBlockChar c = true := by
  intro c hc
  rcases Address.mem_of_mem_dotted hc with rfl | hc
  · decide
  · exact decide_eq_true (List.mem_append_left ".:/".toList hc)

theorem not_mem_of_isBlockChar {cs : List Char} {c : Char} (h : ∀ d ∈ cs, isBlockChar d = true)
    (hc : isBlockChar c = false) : c ∉ cs := by
  intro hmem
  rw [h c hmem] at hc
  cases hc

theorem isBlank_of_isBlockChar {c : Char} (h : isBlockChar c = true) : Text.isBlank c = false := by
  have hall : "0123456789abcdef.:/".toList.all (!Text.isBlank ·) = true := by decide
  simpa using List.all_eq_true.1 hall c (of_decide_eq_true h)

/-- A block with its whole address stays as it is, also if it is not strict. -/
theorem expandBlock_slashed (a : Address) (prefixLen : Nat) :
    expandBlock (a.text ++ "/" ++ toString prefixLen) = a.text ++ "/" ++ toString prefixLen := by
  have hchars := isBlockChar_slashed (isBlockChar_text a) prefixLen
  refine expandBlock_eq_self (Text.trim_eq_self fun c hc => isBlank_of_isBlockChar (hchars c hc)) ?_
  rw [count_dot_slashed]
  rcases count_dot_text a with h | h
  · exact .inl h
  · exact .inr h.ge

/-- Zeros behind a dot each complete the address. -/
theorem toList_dotted_zeros {octets : List Nat} (hne : octets ≠ []) (count : Nat) :
    (Address.dotted (octets ++ List.replicate count 0)).toList =
      (Address.dotted octets).toList ++ (List.replicate count ['.', '0']).flatten := by
  induction count with
  | zero => simp
  | succ count ih =>
      have hmap : (octets ++ List.replicate count 0).map (Nat.toDigits 10) ≠ [] := by
        simp [hne]
      rw [List.replicate_succ', ← List.append_assoc, Address.toList_dotted_map, List.map_append,
        List.map_singleton, Text.intercalate_concat hmap, ← Address.toList_dotted_map, ih,
        List.replicate_succ', List.flatten_append, List.append_assoc]
      rfl

theorem expandBlock_short {octets : List Nat} (hleast : 2 ≤ octets.length)
    (hmost : octets.length < 4) (prefixLen : Nat) :
    expandBlock (Address.dotted octets ++ "/" ++ toString prefixLen) =
      Address.dotted (octets ++ List.replicate (4 - octets.length) 0) ++ "/" ++
        toString prefixLen := by
  have hchars := isBlockChar_slashed (isBlockChar_dotted octets) prefixLen
  have hdots : (Address.dotted octets ++ "/" ++ toString prefixLen).toList.count '.' =
      octets.length - 1 := by
    have hpieces : ∀ piece ∈ octets.map (Nat.toDigits 10), '.' ∉ piece := by
      intro piece hpiece
      obtain ⟨n, -, rfl⟩ := List.mem_map.1 hpiece
      exact Address.dot_not_mem_toDigits n
    rw [count_dot_slashed, Address.toList_dotted_map, Text.count_intercalate hpieces, List.length_map]
  have hslash : '/' ∉ (Address.dotted octets).toList := by
    intro h
    rcases Address.mem_of_mem_dotted h with h | h
    · cases h
    · exact absurd h (by decide)
  have hsplit : Text.splitFirst? ['/'] (Address.dotted octets ++ "/" ++ toString prefixLen).toList =
      some ((Address.dotted octets).toList, Nat.toDigits 10 prefixLen) := by
    rw [toList_slashed]
    exact Text.splitFirst?_append hslash
  have hne : octets ≠ [] := List.ne_nil_of_length_pos (by omega)
  have hzeros : 3 - (octets.length - 1) = 4 - octets.length := by omega
  rw [expandBlock, Text.trim_eq_self fun c hc => isBlank_of_isBlockChar (hchars c hc)]
  simp only [hdots, hsplit]
  rw [if_neg (by omega), hzeros, ← toList_dotted_zeros hne, ← toList_slashed, String.ofList_toList]

theorem Abbreviates.expandBlock_eq {s : String} {c : Cidr} (h : Abbreviates s c) :
    expandBlock s = c.text := by
  cases h with
  | whole => exact expandBlock_slashed c.first c.prefixLen
  | short _ kept hfamily hkept hzero =>
      have hlength : c.first.octets.length = 4 := Address.length_digitsOf ..
      have htext : c.first.text = Address.dotted c.first.octets := by
        rw [Address.text, c.first_family, hfamily]
      rcases Nat.lt_or_ge kept 4 with hless | hall
      · have htake : (c.first.octets.take kept).length = kept := by
          rw [List.length_take, hlength]
          omega
        have hdrop : c.first.octets.drop kept = List.replicate (4 - kept) 0 := by
          rw [List.eq_replicate_iff, List.length_drop, hlength]
          exact ⟨rfl, hzero⟩
        rw [expandBlock_short (by omega) (by omega), htake, ← hdrop, List.take_append_drop, ← htext]
        rfl
      · rw [List.take_of_length_le (by omega), ← htext]
        exact expandBlock_slashed c.first c.prefixLen

theorem Abbreviates.isBlockChar {s : String} {c : Cidr} (h : Abbreviates s c) :
    ∀ x ∈ s.toList, isBlockChar x = true := by
  cases h with
  | whole => exact isBlockChar_slashed (isBlockChar_text c.first) c.prefixLen
  | short => exact isBlockChar_slashed (isBlockChar_dotted _) c.prefixLen

theorem Abbreviates.slash_mem {s : String} {c : Cidr} (h : Abbreviates s c) : '/' ∈ s.toList := by
  cases h with
  | whole =>
      rw [Cidr.toList_text]
      simp
  | short =>
      rw [toList_slashed]
      simp

/-- The pieces of a list of blocks are its blocks. -/
theorem listPieces_abbreviations {written : List String} {blocks : List Cidr}
    (h : Forall₂ Abbreviates written blocks) (hne : written ≠ []) :
    Text.trim (", ".intercalate written) = ", ".intercalate written ∧
      listPieces (", ".intercalate written) = written := by
  have hblock := exists_of_forall₂ h
  constructor
  · refine Text.trim_intercalate ", " fun s hs => ?_
    obtain ⟨c, -, hc⟩ := hblock s hs
    refine ⟨?_, Text.trim_eq_self fun x hx => isBlank_of_isBlockChar (hc.isBlockChar x hx)⟩
    rintro rfl
    exact absurd hc.slash_mem List.not_mem_nil
  · have hpieces : Text.splitOn ", ".toList (", ".intercalate written).toList =
        written.map String.toList := by
      rw [String.toList_intercalate]
      refine Text.splitOn_intercalate (by simpa using hne) fun piece hpiece => ?_
      obtain ⟨s, hs, rfl⟩ := List.mem_map.1 hpiece
      obtain ⟨c, -, hc⟩ := hblock s hs
      exact not_mem_of_isBlockChar hc.isBlockChar (by decide)
    rw [listPieces, hpieces, List.map_map]
    simp

/-- The text of a list of blocks is the value of its line as it stands. -/
theorem wellFormed_abbreviations {key : String} {gap : List Char} {written : List String}
    {blocks : List Cidr} (hkey : key ∈ networkKeys) (hgap : gap ≠ [])
    (hblank : ∀ c ∈ gap, inlineBlank c = true) (h : Forall₂ Abbreviates written blocks)
    (hne : written ≠ []) :
    (⟨0, key, gap, (", ".intercalate written).toList⟩ : KeyedLine).WellFormed networkKeys := by
  obtain ⟨htrim, hpieces⟩ := listPieces_abbreviations h hne
  have hblock := exists_of_forall₂ h
  refine ⟨hkey, hgap, hblank, ?value_ne, .inl ?value_begins, ?value_line⟩
  case value_ne =>
    intro hnil
    obtain ⟨s, rest, rfl⟩ := List.exists_cons_of_ne_nil hne
    obtain ⟨c, -, hc⟩ := hblock s List.mem_cons_self
    have hone : listPieces (", ".intercalate (s :: rest)) = [""] := by
      rw [String.toList_eq_nil_iff.1 hnil]
      exact congrArg (List.map String.ofList) (Text.splitOn_of_not_mem List.not_mem_nil)
    have hs : s = "" := (List.cons.inj (hpieces.symm.trans hone)).1
    exact absurd hc.slash_mem (by simp [hs])
  case value_begins =>
    intro c hc
    have hstrip := Text.strip_eq_self_iff.1 (Text.trim_eq_self_iff.1 htrim)
    exact Bool.and_eq_false_iff.2 (.inl (hstrip.1 c hc))
  case value_line =>
    intro hmem
    rw [String.toList_intercalate] at hmem
    rcases Text.mem_intercalate hmem with hmem | ⟨piece, hpiece, hmem⟩
    · exact absurd hmem (by decide)
    · obtain ⟨s, hs, rfl⟩ := List.mem_map.1 hpiece
      obtain ⟨c, -, hc⟩ := hblock s hs
      exact not_mem_of_isBlockChar hc.isBlockChar (by decide) hmem

theorem mapM_abbreviations {written : List String} {blocks : List Cidr}
    (h : Forall₂ Abbreviates written blocks) :
    written.mapM (fun piece => Cidr.parse (expandBlock piece)) = .ok blocks := by
  rw [mapM_eq_ok_iff]
  refine h.imp fun s c hc => ?_
  rw [hc.expandBlock_eq, Cidr.parse_text]

def Header.shift (offset : Nat) (h : Header) : Header :=
  { h with span := h.span.shift offset }

theorem trimmedValue_shift (front rest : List Char) (m : Match) :
    trimmedValue (m.shift (byteLength front)) (front ++ rest) = trimmedValue m rest := by
  rw [trimmedValue, value, Match.text?_shift]
  rfl

theorem trimmedValue_append {cs : List Char} {m : Match} {pos : Nat} (h : m.Within cs pos)
    (more : List Char) : trimmedValue m (cs ++ more) = trimmedValue m cs := by
  rw [trimmedValue, value, Match.text?_append_left h]
  rfl

theorem lacnicHeader?_shift (front rest : List Char) (m : Match) :
    lacnicHeader? (front ++ rest) (m.shift (byteLength front)) =
      (lacnicHeader? rest m).map (Header.shift (byteLength front)) := by
  rw [lacnicHeader?, lacnicHeader?, trimmedValue_shift]
  cases (listPieces (trimmedValue m rest)).mapM fun piece => Cidr.parse (expandBlock piece) <;> rfl

theorem lacnicHeader?_append {cs : List Char} {m : Match} {pos : Nat} (h : m.Within cs pos)
    (more : List Char) : lacnicHeader? (cs ++ more) m = lacnicHeader? cs m := by
  rw [lacnicHeader?, lacnicHeader?, trimmedValue_append h]

theorem distinct_networkKeys : Distinct networkKeys where
  apart := by decide
  line := by decide

/-- The networks of a text that is cut between two lines are those before and those behind. -/
theorem lacnicHeaders_cut {front back : List Char}
    (h : (∀ c ∈ front.getLast?, c = '\n') ∨ ∀ c ∈ back.head?, c = '\n') :
    lacnicHeaders (front ++ back) =
      lacnicHeaders front ++ (lacnicHeaders back).map (Header.shift (byteLength front)) := by
  have hfront : (lacnicBlocks.findAll front).filterMap (lacnicHeader? (front ++ back)) =
      lacnicHeaders front := by
    refine List.filterMap_congr fun m hm => ?_
    exact lacnicHeader?_append ((findAllFrom_apart (consumes_headerLine _) front 0).1 m hm).1 back
  have hback : ((lacnicBlocks.findAll back).map (Match.shift (byteLength front))).filterMap
      (lacnicHeader? (front ++ back)) = (lacnicHeaders back).map (Header.shift (byteLength front)) := by
    rw [List.filterMap_map, lacnicHeaders, List.map_filterMap]
    exact List.filterMap_congr fun m _ => lacnicHeader?_shift front back m
  have hfound : lacnicBlocks.findAll (front ++ back) = lacnicBlocks.findAll front ++
      (lacnicBlocks.findAll back).map (Match.shift (byteLength front)) :=
    findAll_cut (confined_headerLine distinct_networkKeys) (consumes_headerLine _) h
  rw [lacnicHeaders, hfound, List.filterMap_append, hfront, hback]

/-- A line can stand between the texts. -/
structure Borders (before after : List Char) : Prop where
  before_ends : ∀ c ∈ before.getLast?, c = '\n'
  after_begins : ∀ c ∈ after.head?, c = '\n'

/-- The networks of a text are those before a line, in the line and behind it. -/
theorem lacnicHeaders_parts {before line after : List Char} (h : Borders before after) :
    lacnicHeaders (before ++ line ++ after) =
      lacnicHeaders before ++ (lacnicHeaders line).map (Header.shift (byteLength before)) ++
        (lacnicHeaders after).map (Header.shift (byteLength (before ++ line))) := by
  rw [lacnicHeaders_cut (.inr h.after_begins), lacnicHeaders_cut (.inl h.before_ends)]

theorem value_toMatch_text {l : KeyedLine} (hl : l.WellFormed networkKeys) :
    value { l with start := 0 }.toMatch l.text = String.ofList l.value := by
  have hin : { l with start := 0 }.In networkKeys l.text :=
    { hl with placed := ⟨[], [], ⟨(List.append_nil _).symm, nofun, nofun,
      (show '\n' ∉ l.text from hl.newline_not_mem distinct_networkKeys)⟩, rfl⟩ }
  exact hin.value_toMatch

/-- A line names at most one network. -/
theorem lacnicHeaders_text {l : KeyedLine} (hl : l.WellFormed networkKeys) :
    lacnicHeaders l.text = match (listPieces (Text.trim (String.ofList l.value))).mapM fun piece =>
        Cidr.parse (expandBlock piece) with
      | .ok blocks => [⟨blocks, some (displayRange (Text.trim (String.ofList l.value))),
          ⟨0, byteLength l.text⟩⟩]
      | .error _ => [] := by
  have hfound : lacnicBlocks.findAll l.text = [{ l with start := 0 }.toMatch] :=
    findAll_text distinct_networkKeys hl
  have hwhole : { l with start := 0 }.toMatch.whole = ⟨0, byteLength l.text⟩ :=
    congrArg (Span.mk 0) (Nat.zero_add _)
  rw [lacnicHeaders, hfound, List.filterMap_cons, List.filterMap_nil, lacnicHeader?, trimmedValue,
    value_toMatch_text hl, hwhole]
  cases (listPieces (Text.trim (String.ofList l.value))).mapM fun piece =>
    Cidr.parse (expandBlock piece) <;> rfl

/-- A block with its whole address is not changed, and one of which zero bytes have been left out gets
them back. A line of such blocks names one network, with these blocks in their order, between those
of the lines before it and those of the lines behind it. A line with a piece that is no block once it
is completed names none, and the other lines name the same ones as without it. -/
theorem lacnic_blocks_complete :
    (∀ (a : Address) (prefixLen : Nat), expandBlock (a.text ++ "/" ++ toString prefixLen) =
      a.text ++ "/" ++ toString prefixLen) ∧
    (∀ written block, Abbreviates written block → expandBlock written = block.text) ∧
    (∀ key ∈ networkKeys, ∀ gap, gap ≠ [] → (∀ c ∈ gap, inlineBlank c = true) →
      ∀ written blocks, written ≠ [] → Forall₂ Abbreviates written blocks →
      ∀ before line after, Borders before after →
        line = key.toList ++ ':' :: (gap ++ (", ".intercalate written).toList) →
        lacnicHeaders (before ++ line ++ after) = lacnicHeaders before ++
          ⟨blocks, some (displayRange (", ".intercalate written)),
            ⟨byteLength before, byteLength (before ++ line)⟩⟩ ::
          (lacnicHeaders after).map (Header.shift (byteLength (before ++ line)))) ∧
    ∀ l : KeyedLine, l.WellFormed networkKeys →
      (∃ piece ∈ listPieces (Text.trim (String.ofList l.value)),
        ∃ e, Cidr.parse (expandBlock piece) = .error e) →
      ∀ before after, Borders before after →
        lacnicHeaders (before ++ l.text ++ after) = lacnicHeaders before ++
          (lacnicHeaders after).map (Header.shift (byteLength (before ++ l.text))) := by
  refine ⟨expandBlock_slashed, fun _ _ h => h.expandBlock_eq, ?listed, ?skipped⟩
  case listed =>
    rintro key hkey gap hgap hblank written blocks hne hblocks before line after hborders rfl
    obtain ⟨htrim, hpieces⟩ := listPieces_abbreviations hblocks hne
    let l : KeyedLine := ⟨0, key, gap, (", ".intercalate written).toList⟩
    have hl : l.WellFormed networkKeys := wellFormed_abbreviations hkey hgap hblank hblocks hne
    have hone : lacnicHeaders l.text = [⟨blocks, some (displayRange (", ".intercalate written)),
        ⟨0, byteLength l.text⟩⟩] := by
      rw [lacnicHeaders_text hl, String.ofList_toList, htrim, hpieces, mapM_abbreviations hblocks]
    have htext : l.text = key.toList ++ ':' :: (gap ++ (", ".intercalate written).toList) := by
      rw [KeyedLine.text, KeyedLine.lead, List.append_assoc, List.cons_append]
    rw [← htext, lacnicHeaders_parts hborders, hone, Text.byteLength_append]
    simp [Header.shift, Span.shift]
  case skipped =>
    intro l hl herror before after hborders
    obtain ⟨e, herror⟩ := exists_mapM_eq_error_iff.2 herror
    have hnone : lacnicHeaders l.text = [] := by
      rw [lacnicHeaders_text hl, herror]
    rw [lacnicHeaders_parts hborders, hnone, List.map_nil, List.append_nil]

theorem lacnic_blocks_complete_two_families :
    let cs := "owner: none\ninetnum: 200.160/14, 2801:10::/32\n".toList
    ∃ h ∈ lacnicHeaders cs, blockList h.blocks = "200.160.0.0/14, 2801:10::/32" := by
  intro cs
  let short : Cidr := ⟨.v4, 3365928960, 14, by decide, by decide, by decide⟩
  let whole : Cidr := ⟨.v6, 53174313395905769972010214404246208512, 32, by decide, by decide,
    by decide⟩
  have hshort : Abbreviates "200.160/14" short := by
    have htext : Address.dotted (short.first.octets.take 2) ++ "/" ++ toString short.prefixLen =
        "200.160/14" := by decide +kernel
    exact htext ▸ .short short 2 rfl (le_refl 2) (by decide +kernel)
  have hwhole : Abbreviates "2801:10::/32" whole := by
    have htext : whole.text = "2801:10::/32" := by decide +kernel
    exact htext ▸ .whole whole
  have hlist := lacnic_blocks_complete.2.2.1 "inetnum" List.mem_cons_self [' '] (by decide)
    (by simp [inlineBlank, Text.isBlank]) ["200.160/14", "2801:10::/32"] [short, whole] (by decide)
    (.cons hshort (.cons hwhole .nil)) "owner: none\n".toList
    "inetnum: 200.160/14, 2801:10::/32".toList ['\n'] ⟨by simp, by simp⟩
    (by decide +kernel)
  have hcs : cs = "owner: none\n".toList ++ "inetnum: 200.160/14, 2801:10::/32".toList ++ ['\n'] := by
    decide +kernel
  rw [hcs, hlist]
  exact ⟨_, List.mem_append_right _ List.mem_cons_self, by decide +kernel⟩

end IpRegistry.Whois
