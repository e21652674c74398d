import IpRegistry.Proofs.Field.Lines

namespace IpRegistry.Field

open Pattern (Match)
open Text (byteLength)

/-- The text in a window. -/
def Bounds.shown (b : Bounds) (cs : List Char) : List Char :=
  Text.dropBytes (b.window cs) (Text.floorBoundary (b.window cs) b.start)

theorem scan_eq_nil {find : Finder} {cs : List Char} {stop : Nat}
    (h : ∀ m, find cs 0 = some m → m.whole.start ≠ stop + 1) :
    scan find cs true (some stop) 0 = [] := by
  rw [scan, if_pos (Nat.zero_le _)]
  split
  · rfl
  · rename_i m hm
    simp [isAdjacent, h m hm]

section

variable {p : Pattern} (hp : p.looksBehind = false)

include hp

theorem values_eq_scan (cs : List Char) (b : Bounds) (contiguous : Bool) :
    values p.find cs b contiguous = scan p.find (b.shown cs) contiguous none 0 := by
  obtain ⟨front, rest, hwindow, hfront⟩ :=
    Text.isBoundary_iff.1 (Text.isBoundary_floorBoundary (b.window cs) b.start)
  have hshown : b.shown cs = rest := by
    rw [Bounds.shown, ← hfront, hwindow, Text.dropBytes_byteLength]
  have hscan := scan_append front rest 0 (Pattern.find_append hp front rest) contiguous none
  rw [values, hshown, ← hscan, ← hfront, hwindow]
  rfl

/-- A scan takes the value of an adjacent match and goes on behind the end of the match. -/
theorem scan_of_find {done rest : List Char} {m : Match} {previous : Option Nat} {value : String}
    (hfind : p.find (done ++ rest) 0 = some m) (hadjacent : isAdjacent previous m = true)
    (hvalue : capture (done ++ rest) m = some value) (hend : logicalEnd m = byteLength done)
    (hlt : m.whole.start < logicalEnd m) :
    scan p.find (done ++ rest) true previous 0 = value :: scan p.find rest true (some 0) 0 := by
  have hresume : resume (done ++ rest) m 0 = byteLength done := by
    rw [resume, if_pos hlt, hend]
  have hrest := scan_append done rest 0 (Pattern.find_append hp done rest) true (some 0)
  rw [scan, if_pos (Nat.zero_le _), hfind]
  simp only [hadjacent, hvalue, hresume, hend, Bool.not_true, Bool.and_false, Bool.false_eq_true,
    if_false, Option.toList_some, List.singleton_append]
  rw [if_pos (by omega)]
  exact congrArg _ hrest

end

namespace LineShape

variable {s : LineShape} {cs tail after : List Char} {m : Match}

/-- A match begins with a key. -/
theorem opens_of_find (h : s.pattern.find cs 0 = some m) :
    ∃ front rest, cs = front ++ rest ∧ m.whole.start = byteLength front ∧ s.Opens rest := by
  obtain ⟨c, t, hon, -, ht, rfl⟩ := Pattern.exists_of_find (Nat.zero_le _) h
  have horigin : t.origin = c.pos := ((Pattern.Thread.Sound.begin hon).outcomes _ t ht).2
  obtain ⟨front, hcs, hpos, -⟩ := hon
  refine ⟨front, c.rest, hcs, horigin.trans hpos, ?_⟩
  by_contra hopens
  have hnone : s.pattern.outcomes (Pattern.Thread.begin c) = [] :=
    Pattern.outcomes_eq_nil_iff.2 (first?_eq_none hopens)
  rw [hnone] at ht
  cases ht

theorem not_opens_newline (s : LineShape) (cs : List Char) : ¬s.Opens ('\n' :: cs) := by
  rintro ⟨key, hkey, rest, hrest⟩
  obtain ⟨c, hc, hblank⟩ := (Option.any_eq_true _ _).1 (s.unindented key hkey)
  obtain ⟨more, hmore⟩ := List.head?_eq_some_iff.1 hc
  rw [hmore] at hrest
  cases hrest
  cases hblank

theorem start_ne_one (hopens : ¬s.Opens cs.tail) (h : s.pattern.find cs 0 = some m) :
    m.whole.start ≠ 1 := by
  obtain ⟨front, rest, rfl, hstart, hrest⟩ := opens_of_find h
  intro hone
  rw [hstart] at hone
  match front, hone with
  | [c], _ => exact hopens hrest
  | c :: d :: front, hone =>
      have hc := c.utf8Size_pos
      have hd := d.utf8Size_pos
      rw [byteLength, byteLength] at hone
      omega

/-- Lines one behind the other, each with an ending. -/
def written (ending : List Char) (lines : List s.Line) : List Char :=
  lines.flatMap fun l => l.text ++ ending

theorem written_cons (ending : List Char) (l : s.Line) (lines : List s.Line) :
    written ending (l :: lines) = l.text ++ (ending ++ written ending lines) := by
  rw [written, List.flatMap_cons, List.append_assoc]
  rfl

/-- What has to stand between two lines for the second match to be adjacent to the first one. -/
def lineEnd (s : LineShape) : List Char :=
  s.taken ++ ['\n']

theorem lineEnd_append (s : LineShape) (rest : List Char) :
    s.lineEnd ++ rest = '\n' :: (s.taken ++ rest) := by
  rw [lineEnd, taken]
  cases s.stops <;> rfl

theorem written_lineEnd (l : s.Line) (lines : List s.Line) (after : List Char) :
    written s.lineEnd (l :: lines) ++ after =
      l.text ++ '\n' :: (s.taken ++ (written s.lineEnd lines ++ after)) := by
  rw [written_cons, ← s.lineEnd_append, List.append_assoc, List.append_assoc]

theorem written_newline (l : s.Line) (lines : List s.Line) (after : List Char) :
    written ['\n'] (l :: lines) ++ after = l.text ++ '\n' :: (written ['\n'] lines ++ after) := by
  rw [written_cons, List.append_assoc]
  rfl

theorem left_taken (s : LineShape) (rest : List Char) : s.left (s.taken ++ rest) = '\n' :: rest := by
  rw [left, taken]
  cases s.stops <;> rfl

theorem isUnindented_text (l : s.Line) (rest : List Char) :
    isUnindented (l.text ++ rest) = true := by
  obtain ⟨c, hc, hblank⟩ := (Option.any_eq_true _ _).1 (s.unindented l.key l.key_mem)
  obtain ⟨more, hmore⟩ := List.head?_eq_some_iff.1 hc
  rw [Line.text, hmore]
  exact hblank

theorem isUnindented_written (ending : List Char) (lines : List s.Line)
    (h : isUnindented after = true) : isUnindented (written ending lines ++ after) = true := by
  cases lines with
  | nil => exact h
  | cons l lines =>
      rw [written_cons, List.append_assoc]
      exact isUnindented_text l _

theorem scan_line (l : s.Line) {front : List Char} {previous : Option Nat}
    (hprevious : ∀ stop ∈ previous, byteLength front = stop + 1)
    (hunread : ∀ m, s.pattern.find (front ++ (l.text ++ '\n' :: tail)) 0 = some m →
      byteLength front ≤ m.whole.start)
    (hstops : s.stops = true → isUnindented tail = true) :
    scan s.pattern.find (front ++ (l.text ++ '\n' :: tail)) true previous 0 =
      l.value :: scan s.pattern.find (s.left tail) true (some 0) 0 := by
  obtain ⟨m, hfind, hstart, hend, hvalue⟩ := exists_find_line l hstops
  have hfind' := Pattern.find_append_of_le s.looksBehind_pattern hunread
  have hvalue' := (capture_shift front _ m).trans hvalue
  have hend' := logicalEnd_shift (byteLength front) m
  have hstart' : (m.shift (byteLength front)).whole.start = byteLength front := by
    show byteLength front + m.whole.start = _
    rw [hstart, Nat.add_zero]
  have htext : front ++ (l.text ++ '\n' :: tail) =
      front ++ (l.text ++ s.taken) ++ s.left tail := by
    rw [← s.taken_append_left tail]
    simp only [List.append_assoc]
  have hpos : 0 < byteLength (l.text ++ s.taken) := by
    rw [Nat.pos_iff_ne_zero, ne_eq, Text.byteLength_eq_zero_iff, Line.text]
    simp
  rw [hfind, Option.map_some, htext] at hfind'
  rw [htext] at hvalue'
  rw [htext]
  refine scan_of_find s.looksBehind_pattern hfind' ?_ hvalue' ?_ ?_
  · cases previous with
    | none => rfl
    | some stop => exact beq_iff_eq.2 (hstart'.trans (hprevious stop rfl))
  · rw [hend', hend, Text.byteLength_append front]
  · rw [hend', hend, hstart']
    omega

theorem scan_written_cons (l : s.Line) (lines : List s.Line) {front : List Char}
    {previous : Option Nat} (hprevious : ∀ stop ∈ previous, byteLength front = stop + 1)
    (hunread : ∀ m, s.pattern.find (front ++ (written s.lineEnd (l :: lines) ++ after)) 0 = some m →
      byteLength front ≤ m.whole.start)
    (hstops : s.stops = true → isUnindented after = true) :
    scan s.pattern.find (front ++ (written s.lineEnd (l :: lines) ++ after)) true previous 0 =
      l.value :: scan s.pattern.find ('\n' :: (written s.lineEnd lines ++ after)) true (some 0) 0 := by
  rw [written_lineEnd] at hunread ⊢
  rw [scan_line l hprevious hunread, left_taken]
  intro hs
  rw [taken, if_pos hs]
  exact isUnindented_written _ lines (hstops hs)

/-- Behind a match, a scan takes the values of the lines that are adjacent to one another. -/
theorem scan_written (lines : List s.Line) (hafter : ¬s.Opens after)
    (hstops : s.stops = true → isUnindented after = true) :
    scan s.pattern.find ('\n' :: (written s.lineEnd lines ++ after)) true (some 0) 0 =
      lines.map Line.value := by
  induction lines with
  | nil => exact scan_eq_nil fun m hm => start_ne_one hafter hm
  | cons l lines ih =>
      have hstep : scan s.pattern.find (['\n'] ++ (written s.lineEnd (l :: lines) ++ after)) true
          (some 0) 0 = l.value :: scan s.pattern.find ('\n' :: (written s.lineEnd lines ++ after))
            true (some 0) 0 := by
        refine scan_written_cons l lines (fun stop hstop => Option.some.inj hstop ▸ rfl) ?_ hstops
        intro m hm
        obtain ⟨front, rest, hcs, hstart, hopens⟩ := opens_of_find hm
        cases front with
        | nil =>
            rw [List.nil_append] at hcs
            exact absurd (hcs ▸ hopens) (not_opens_newline s _)
        | cons c front => exact hstart ▸ Nat.le_trans c.utf8Size_pos (Nat.le_add_right _ _)
      exact hstep.trans (congrArg _ ih)

theorem scan_front_written {front : List Char} (l : s.Line) (lines : List s.Line)
    (hunread : ∀ m, s.pattern.find (front ++ (written s.lineEnd (l :: lines) ++ after)) 0 = some m →
      byteLength front ≤ m.whole.start)
    (hafter : ¬s.Opens after) (hstops : s.stops = true → isUnindented after = true) :
    scan s.pattern.find (front ++ (written s.lineEnd (l :: lines) ++ after)) true none 0 =
      (l :: lines).map Line.value := by
  rw [scan_written_cons l lines (fun _ h => absurd h (Option.not_mem_none _)) hunread hstops,
    scan_written lines hafter hstops, List.map_cons]

/-- If the line feed belongs to a match, a line that comes right behind it is not adjacent. -/
theorem scan_front_first {front : List Char} (hs : s.stops = false) (l : s.Line)
    (lines : List s.Line)
    (hunread : ∀ m, s.pattern.find (front ++ (written ['\n'] (l :: lines) ++ after)) 0 = some m →
      byteLength front ≤ m.whole.start)
    (hafter : lines = [] → ¬s.Opens after.tail) :
    scan s.pattern.find (front ++ (written ['\n'] (l :: lines) ++ after)) true none 0 =
      [l.value] := by
  have hconsumes : ∀ {tail : List Char}, s.stops = true → isUnindented tail = true := by
    rw [hs]
    rintro _ ⟨⟩
  have hleft : s.left (written ['\n'] lines ++ after) = written ['\n'] lines ++ after := by
    rw [left, hs]
    rfl
  rw [written_newline] at hunread ⊢
  rw [scan_line l (fun _ h => absurd h (Option.not_mem_none _)) hunread hconsumes, hleft, scan_eq_nil]
  intro m hm
  cases lines with
  | nil => exact start_ne_one (hafter rfl) hm
  | cons next lines =>
      obtain ⟨m', hfind, hstart, -, -⟩ := exists_find_line next hconsumes
      rw [written_newline, hfind] at hm
      rw [← Option.some.inj hm, hstart]
      exact Nat.zero_ne_one

end LineShape

theorem joined_eq {values : List String} (h : ∀ v ∈ values, v ≠ "" ∧ Text.trim v = v) :
    joined values = "\n".intercalate (distinct values) :=
  Text.trim_intercalate "\n" fun v hv => h v (mem_distinct.1 hv)

theorem Spec.extract?_of_scan {f : Spec} (hkind : f.kind = .text)
    (hahead : f.pattern.looksBehind = false) {t : Table} (ht : t.contiguous = true)
    {cs : List Char} {b : Bounds} {values : List String} (hne : values ≠ [])
    (hvalues : ∀ v ∈ values, v ≠ "" ∧ Text.trim v = v)
    (hscan : scan f.pattern.find (b.shown cs) true none 0 = values) :
    f.extract? t cs b = some (.text ("\n".intercalate (distinct values))) := by
  have hcaptures : f.captures t.contiguous cs b = values := by
    rw [Spec.captures, hkind, ht, values_eq_scan hahead]
    show (scan f.pattern.find (b.shown cs) true none 0).filter _ = values
    rw [hscan, List.filter_eq_self]
    exact fun v hv => bne_iff_ne.2 (hvalues v hv).1
  rw [Spec.extract?, hcaptures]
  cases values with
  | nil => exact absurd rfl hne
  | cons first more =>
      rw [← joined_eq hvalues, hkind]
      rfl

section

variable {fields : List Spec} {f : Spec} (read : Spec → Option Value)

theorem lookup_filterMap_of_not_mem {name : String} (h : name ∉ fields.map Spec.name) :
    (fields.filterMap fun f => (read f).map fun v => (f.name, v)).lookup name = none := by
  refine List.lookup_eq_none_iff.2 fun p hp => ?_
  obtain ⟨f, hf, hread⟩ := List.mem_filterMap.1 hp
  obtain ⟨v, -, rfl⟩ := Option.map_eq_some_iff.1 hread
  exact bne_iff_ne.2 fun heq => h (heq ▸ List.mem_map_of_mem (f := Spec.name) hf)

theorem lookup_filterMap (hnames : (fields.map Spec.name).Nodup) (hf : f ∈ fields) :
    (fields.filterMap fun f => (read f).map fun v => (f.name, v)).lookup f.name = read f := by
  induction fields with
  | nil => cases hf
  | cons g fields ih =>
      rw [List.map_cons, List.nodup_cons] at hnames
      rw [List.filterMap_cons]
      rcases List.mem_cons.1 hf with rfl | hf
      · cases hread : read f with
        | none => exact lookup_filterMap_of_not_mem read hnames.1
        | some v => exact List.lookup_cons_self
      · have hne : f.name ≠ g.name := fun heq =>
          hnames.1 (heq ▸ List.mem_map_of_mem (f := Spec.name) hf)
        cases hread : read g with
        | none => exact ih hnames.2 hf
        | some v =>
            rw [Option.map_some, List.lookup_cons, beq_eq_false_iff_ne.2 hne]
            exact ih hnames.2 hf

end

/-- What a table reads for a field, if no other field has its name. -/
theorem Table.lookup_extract {t : Table} (hnames : t.names.Nodup) {f : Spec} (hf : f ∈ t.fields)
    {wanted : Option (List String)} (hwanted : isWanted wanted f.name = true) (cs : List Char)
    (b : Bounds) : (t.extract cs b wanted).lookup f.name = f.extract? t cs b := by
  refine lookup_filterMap (fun f => f.extract? t cs b) ?_ (List.mem_filter.2 ⟨hf, hwanted⟩)
  exact hnames.sublist (List.filter_sublist.map Spec.name)

/-- The tables of the answers that write a field on lines of its own. -/
inductive Table.ByLines : Table → Prop
  | registry (r : Registry) : ByLines (Whois.table r)
  | referral : ByLines Whois.referralTable
  | routes : ByLines (Origin.table .plain)

/-- A field of texts is written on lines. -/
def Spec.IsShaped (f : Spec) : Prop :=
  f.kind = .text → ∃ s : LineShape, f.pattern = s.pattern

theorem isShaped_of_kind {f : Spec} (h : f.kind ≠ .text) : f.IsShaped :=
  fun htext => absurd htext h

section

variable (name : String) (kind : Kind) {keys : List String}

theorem isShaped_line {key : String} (h : isUnindented key.toList = true) :
    (Spec.mk name (line key) kind).IsShaped := fun _ =>
  ⟨⟨[key], true, false, List.forall_mem_singleton.2 h, by simp⟩, rfl⟩

variable (hunindented : ∀ key ∈ keys, isUnindented key.toList = true)
  (hapart : ∀ key ∈ keys, ∀ other ∈ keys,
    key.toList ++ [':'] <+: other.toList ++ [':'] → key = other)

include hunindented hapart

theorem isShaped_paragraph : (Spec.mk name (paragraph keys) kind).IsShaped := fun _ =>
  ⟨⟨keys, true, true, hunindented, hapart⟩, rfl⟩

theorem isShaped_tightLine : (Spec.mk name (tightLine keys) kind).IsShaped := fun _ =>
  ⟨⟨keys, false, false, hunindented, hapart⟩, rfl⟩

end

namespace Table.ByLines

variable {t : Table} (h : t.ByLines)

include h

theorem contiguous_eq : t.contiguous = true := by
  cases h with
  | registry r => cases r <;> rfl
  | referral => rfl
  | routes => rfl

theorem inUse : t.InUse := by
  cases h with
  | registry r => exact .registry r
  | referral => exact .referral
  | routes => exact .routes .plain

theorem names_nodup : t.names.Nodup :=
  h.inUse.names_nodup

theorem isShaped : ∀ f ∈ t.fields, f.IsShaped := by
  have hnil : ∀ f ∈ ([] : List Spec), f.IsShaped := fun f hf => absurd hf List.not_mem_nil
  cases h with
  | registry r =>
    cases r <;>
      simp only [Whois.table, Whois.arinTable, Whois.ripenccTable, Whois.apnicTable,
        Whois.lacnicTable, Whois.afrinicTable, Whois.contiguousTable, Whois.mailField,
        List.forall_mem_cons] <;>
      and_intros
    all_goals first
      | exact isShaped_line _ _ (by decide +kernel)
      | exact isShaped_paragraph _ _ (by decide +kernel) (by decide +kernel)
      | exact isShaped_of_kind (by decide)
      | exact hnil
  | referral =>
      simp only [Whois.referralTable, Whois.contiguousTable, List.forall_mem_cons]
      and_intros
      all_goals first
        | exact isShaped_tightLine _ _ (by decide +kernel) (by decide +kernel)
        | exact isShaped_of_kind (by decide)
        | exact hnil
  | routes =>
      simp only [Origin.table, Whois.contiguousTable, List.forall_mem_cons]
      and_intros
      all_goals first
        | exact isShaped_line _ _ (by decide +kernel)
        | exact hnil

theorem text?_of_scan {f : Spec} (hf : f ∈ t.fields) (hkind : f.kind = .text) {s : LineShape}
    (hs : f.pattern = s.pattern) {cs : List Char} {b : Bounds} {wanted : Option (List String)}
    (hwanted : isWanted wanted f.name = true) {lines : List s.Line} (hne : lines ≠ [])
    (hscan : scan s.pattern.find (b.shown cs) true none 0 = lines.map LineShape.Line.value) :
    (t.extract cs b wanted).text? f.name =
      some ("\n".intercalate (distinct (lines.map LineShape.Line.value))) := by
  have hvalues : ∀ v ∈ lines.map LineShape.Line.value, v ≠ "" ∧ Text.trim v = v := by
    intro v hv
    obtain ⟨l, -, rfl⟩ := List.mem_map.1 hv
    exact ⟨l.value_ne, l.value_trimmed⟩
  rw [← hs] at hscan
  rw [Map.text?, Table.lookup_extract h.names_nodup hf hwanted,
    Spec.extract?_of_scan hkind (hs ▸ s.looksBehind_pattern) h.contiguous_eq
      (List.map_eq_nil_iff.not.2 hne) hvalues hscan]

end Table.ByLines

open LineShape in
/-- How a field of texts is read from lines of its own before which no match begins. The distinct
values are joined if the values stop before the line feed or if there is an empty line behind each
line. But if the line feed belongs to a match and the lines follow one another directly, only the
first value is read. -/
theorem extract_lines {t : Table} (ht : t.ByLines) {f : Spec} (hf : f ∈ t.fields)
    (hkind : f.kind = .text) :
    (∃ s : LineShape, f.pattern = s.pattern) ∧
      ∀ s : LineShape, f.pattern = s.pattern →
        ∀ (cs : List Char) (b : Bounds) (wanted : Option (List String)) (front after : List Char)
          (l : s.Line) (lines : List s.Line), isWanted wanted f.name = true →
          (∀ m, f.pattern.find (b.shown cs) 0 = some m → byteLength front ≤ m.whole.start) →
          (b.shown cs = front ++ (written s.lineEnd (l :: lines) ++ after) → ¬s.Opens after →
            (s.stops = true → isUnindented after = true) →
            (t.extract cs b wanted).text? f.name =
              some ("\n".intercalate (distinct ((l :: lines).map Line.value)))) ∧
          (b.shown cs = front ++ (written ['\n'] (l :: lines) ++ after) → s.stops = false →
            (lines = [] → ¬s.Opens after.tail) →
            (t.extract cs b wanted).text? f.name = some l.value) := by
  refine ⟨ht.isShaped f hf hkind, ?_⟩
  intro s hs cs b wanted front after l lines hwanted hunread
  rw [hs] at hunread
  constructor
  · intro hshown hafter hstops
    rw [hshown] at hunread
    refine ht.text?_of_scan hf hkind hs hwanted (List.cons_ne_nil l lines) ?_
    rw [hshown]
    exact scan_front_written l lines hunread hafter hstops
  · intro hshown hstops hafter
    rw [hshown] at hunread
    refine ht.text?_of_scan hf hkind hs hwanted (List.cons_ne_nil l []) ?_
    rw [hshown]
    exact scan_front_first hstops l lines hunread hafter

theorem extract_lines_address :
    let cs := "Address: 1600 Amphitheatre Parkway\nAddress: Suite 2\nCity: Mountain View\n".toList
    (Whois.arinTable.extract cs {} none).text? "address" =
      some "1600 Amphitheatre Parkway\nSuite 2" := by
  intro cs
  let s : LineShape := ⟨["Address"], true, true, by decide +kernel, by decide +kernel⟩
  let street : s.Line := ⟨"Address", [' '], "1600 Amphitheatre Parkway", List.mem_singleton_self _,
    List.forall_mem_singleton.2 rfl, fun _ => List.cons_ne_nil _ _, by decide, by decide +kernel,
    by decide +kernel⟩
  let suite : s.Line := ⟨"Address", [' '], "Suite 2", List.mem_singleton_self _,
    List.forall_mem_singleton.2 rfl, fun _ => List.cons_ne_nil _ _, by decide, by decide +kernel,
    by decide +kernel⟩
  have hf : ⟨"address", paragraph ["Address"], .text⟩ ∈ Whois.arinTable.fields := by
    simp [Whois.arinTable, Whois.contiguousTable]
  obtain ⟨-, hread⟩ := extract_lines (.registry .arin) hf rfl
  have h := (hread s rfl cs {} none [] "City: Mountain View\n".toList street [suite] rfl
    fun _ _ => Nat.zero_le _).1
  exact h (by decide +kernel) (by decide +kernel) fun _ => by decide +kernel

/-- Two lines of a street address that come right behind one another are not joined. -/
theorem extract_street_address :
    let cs := "network:Street-Address:A\nnetwork:Street-Address:B\nnetwork:City:C\n".toList
    (Whois.referralTable.extract cs {} none).text? "address" = some "A" ∧
      joined ["A", "B"] = "A\nB" := by
  intro cs
  let s : LineShape :=
    ⟨["network:Street-Address"], false, false, by decide +kernel, by decide +kernel⟩
  let first : s.Line := ⟨"network:Street-Address", [], "A", List.mem_singleton_self _,
    List.forall_mem_nil _, Bool.noConfusion, by decide, by decide +kernel, by decide +kernel⟩
  let second : s.Line := ⟨"network:Street-Address", [], "B", List.mem_singleton_self _,
    List.forall_mem_nil _, Bool.noConfusion, by decide, by decide +kernel, by decide +kernel⟩
  have hf : ⟨"address", tightLine ["network:Street-Address"], .text⟩ ∈
      Whois.referralTable.fields := by
    simp [Whois.referralTable, Whois.contiguousTable]
  have hshown : Bounds.shown {} cs =
      [] ++ (LineShape.written ['\n'] [first, second] ++ "network:City:C\n".toList) := by
    decide +kernel
  have hscan : scan s.pattern.find (Bounds.shown {} cs) true none 0 =
      [first].map LineShape.Line.value := by
    rw [hshown]
    exact LineShape.scan_front_first rfl first [second] (fun _ _ => Nat.zero_le _)
      fun hnil => absurd hnil (List.cons_ne_nil _ _)
  refine ⟨?_, by decide +kernel⟩
  exact Table.ByLines.referral.text?_of_scan hf rfl (s := s) rfl rfl
    (List.cons_ne_nil first []) hscan

end IpRegistry.Field
