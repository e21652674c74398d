import IpRegistry.Proofs.Field.Adjacent
import IpRegistry.Proofs.Field.Dates
import Mathlib

namespace IpRegistry

namespace Text

theorem upperOf_ne_nil (c : Char) : upperOf c ≠ [] := by
  have hexpansions : upperExpansions.all (fun e => !e.2.isEmpty) = true := by decide +kernel
  unfold upperOf
  dsimp only
  split
  · exact List.cons_ne_nil _ _
  · split
    · rename_i expansion hlookup
      obtain ⟨front, back, heq, -⟩ := List.lookup_eq_some_iff.1 hlookup
      have hmem : (c.toNat, expansion) ∈ upperExpansions :=
        heq ▸ List.mem_append_right _ List.mem_cons_self
      have hne := List.all_eq_true.1 hexpansions _ hmem
      intro hnil
      rw [List.map_eq_nil_iff.1 hnil] at hne
      cases hne
    · split <;> exact List.cons_ne_nil _ _

theorem toUpper_ne_empty {s : String} (h : s ≠ "") : toUpper s ≠ "" := by
  intro hempty
  have hnil : s.toList.flatMap upperOf = [] := String.ofList_eq_empty_iff.1 hempty
  cases hchars : s.toList with
  | nil => exact h (String.toList_eq_nil_iff.1 hchars)
  | cons c cs =>
      rw [hchars, List.flatMap_cons] at hnil
      exact upperOf_ne_nil c (List.append_eq_nil_iff.1 hnil).1

theorem isBlankText_iff_of_trim {s : String} (h : trim s = s) : isBlankText s = true ↔ s = "" := by
  rw [← trim_eq_empty_iff, h]

end Text

theorem Calendar.Moment.text_ne_empty (m : Calendar.Moment) : m.text ≠ "" := by
  intro hempty
  have hmem : '-' ∈ m.text.toList := by simp [Moment.text]
  rw [hempty] at hmem
  cases hmem

namespace Field

theorem distinct_append_singleton (items : List String) (a : String) :
    distinct (items ++ [a]) = adjoin (distinct items) a :=
  List.foldl_append

theorem distinct_ne_nil {items : List String} (h : items ≠ []) : distinct items ≠ [] := by
  obtain ⟨a, ha⟩ := List.exists_mem_of_ne_nil items h
  exact List.ne_nil_of_mem (mem_distinct.2 ha)

/-- The distinct items stand in the order in which they were seen first. -/
theorem pairwise_distinct (items : List String) :
    (distinct items).Pairwise fun a b => items.idxOf a < items.idxOf b := by
  induction items using List.reverseRecOn with
  | nil => exact .nil
  | append_singleton items a ih =>
      have hold : ∀ b ∈ distinct items, (items ++ [a]).idxOf b = items.idxOf b := fun b hb =>
        List.idxOf_append_of_mem (mem_distinct.1 hb)
      have hkeep : (distinct items).Pairwise fun b c =>
          (items ++ [a]).idxOf b < (items ++ [a]).idxOf c :=
        ih.imp_of_mem fun hb hc hlt => by rwa [hold _ hb, hold _ hc]
      rw [distinct_append_singleton, adjoin]
      split
      · exact hkeep
      · rename_i hnew
        rw [List.contains_iff_mem, mem_distinct] at hnew
        refine List.pairwise_append.2 ⟨hkeep, List.pairwise_singleton _ _, fun b hb c hc => ?_⟩
        have hlt := List.idxOf_lt_length_iff.2 (mem_distinct.1 hb)
        rw [List.mem_singleton.1 hc, hold b hb, List.idxOf_append_of_notMem hnew]
        omega

/-- What the scan for a field finds in a window. -/
def Spec.scanned (f : Spec) (t : Table) (cs : List Char) (b : Bounds) : List String :=
  values f.pattern.find cs b (t.contiguous && f.kind != .list)

theorem trim_of_mem_capture {window : List Char} {m : Pattern.Match} {v : String}
    (h : v ∈ capture window m) : Text.trim v = v := by
  obtain ⟨cs, -, rfl⟩ := Option.map_eq_some_iff.1 h
  rw [Text.trim, String.toList_ofList, Text.strip_strip]

theorem trim_of_mem_scan {find : Finder} {window : List Char} {contiguous : Bool}
    {previous : Option Nat} {pos : Nat} :
    ∀ v ∈ scan find window contiguous previous pos, Text.trim v = v := by
  induction previous, pos using scan.induct find window contiguous with
  | case1 previous pos hpos hnone =>
      rw [scan, if_pos hpos, hnone]
      exact List.forall_mem_nil _
  | case2 previous pos hpos m hm hstop =>
      rw [scan, if_pos hpos, hm]
      simp only [if_pos hstop]
      exact List.forall_mem_nil _
  | case3 previous pos hpos m hm hgo ih =>
      rw [scan, if_pos hpos, hm]
      simp only [if_neg hgo]
      intro v hv
      rcases List.mem_append.1 hv with hv | hv
      · exact trim_of_mem_capture (Option.mem_toList.1 hv)
      · split at hv
        · rename_i hlt
          exact ih hlt v hv
        · cases hv
  | case4 previous pos hpos =>
      rw [scan, if_neg hpos]
      exact List.forall_mem_nil _

theorem ne_empty_and_trim_of_mem_captures {f : Spec} {t : Table} {cs : List Char} {b : Bounds} {v : String}
    (h : v ∈ f.captures t.contiguous cs b) : v ≠ "" ∧ Text.trim v = v := by
  obtain ⟨hv, hne⟩ := List.mem_filter.1 h
  exact ⟨bne_iff_ne.1 hne, trim_of_mem_scan v hv⟩

theorem captures_eq_nil_iff {f : Spec} {t : Table} {cs : List Char} {b : Bounds} :
    f.captures t.contiguous cs b = [] ↔ ∀ v ∈ f.scanned t cs b, Text.isBlankText v = true := by
  rw [Spec.captures, List.filter_eq_nil_iff]
  refine forall₂_congr fun v hv => ?_
  rw [Text.isBlankText_iff_of_trim (trim_of_mem_scan v hv), bne_iff_ne, not_not]

/-- A text that is not empty, or a list of the captures without repetitions: at least one, none of them
empty or with white space around it, and in the order in which they were found first. -/
def Value.WellFormed (captures : List String) : Value → Prop
  | text s => s ≠ ""
  | list items =>
    items ≠ [] ∧ items.Nodup ∧ (∀ s ∈ items, s ≠ "" ∧ Text.trim s = s) ∧
      (∀ s, s ∈ items ↔ s ∈ captures) ∧
      items.Pairwise fun a b => captures.idxOf a < captures.idxOf b

theorem joined_ne_empty {texts : List String} (hne : texts ≠ [])
    (h : ∀ v ∈ texts, v ≠ "" ∧ Text.trim v = v) : joined texts ≠ "" := by
  rw [joined_eq h]
  exact Text.intercalate_ne_empty (distinct_ne_nil hne) fun v hv => (h v (mem_distinct.1 hv)).1

theorem normalized_ne_empty (policy : Calendar.DatePolicy) {s : String} (h : s ≠ "") :
    (policy.normalize s).getD s ≠ "" := by
  unfold Calendar.DatePolicy.normalize
  split
  · exact Calendar.Moment.text_ne_empty _
  · exact h

theorem Kind.value_wellFormed (kind : Kind) (dates : Option Calendar.DatePolicy) {first : String}
    {more : List String} (h : ∀ v ∈ first :: more, v ≠ "" ∧ Text.trim v = v) :
    (kind.value dates first more).WellFormed (first :: more) := by
  have hfirst := (h first List.mem_cons_self).1
  have hne : first :: more ≠ [] := List.cons_ne_nil _ _
  cases kind with
  | text => exact joined_ne_empty hne h
  | country => exact Text.toUpper_ne_empty hfirst
  | timestamp =>
      cases dates with
      | none => exact joined_ne_empty hne h
      | some policy => exact normalized_ne_empty policy hfirst
  | list =>
      exact ⟨distinct_ne_nil hne, nodup_distinct _, fun s hs => h s (mem_distinct.1 hs),
        fun s => mem_distinct, pairwise_distinct _⟩

namespace Spec

variable {f : Spec} {t : Table} {cs : List Char} {b : Bounds}

theorem extract?_eq_none_iff : f.extract? t cs b = none ↔ f.captures t.contiguous cs b = [] := by
  unfold extract?
  split <;> simp_all

theorem wellFormed_of_extract? {v : Value} (h : f.extract? t cs b = some v) :
    v.WellFormed (f.captures t.contiguous cs b) := by
  unfold extract? at h
  split at h
  · cases h
  · rename_i first more hcaptures
    cases h
    rw [hcaptures]
    exact f.kind.value_wellFormed t.dates fun v hv => ne_empty_and_trim_of_mem_captures (hcaptures ▸ hv)

end Spec

namespace Table

variable {t : Table} {cs : List Char} {b : Bounds} {wanted : Option (List String)}

theorem extract_filter (names : List String) :
    t.extract cs b (some names) =
      (t.extract cs b none).filter fun (name, _) => names.contains name := by
  unfold extract
  rw [List.filter_filterMap, List.filterMap_filter, List.filterMap_filter]
  refine List.filterMap_congr fun f _ => ?_
  cases f.extract? t cs b with
  | none => simp
  | some v => simp [isWanted, Option.filter]

theorem LeavesCalendar.of_wanted (h : t.LeavesCalendar cs b wanted) : t.LeavesCalendar cs b none := by
  obtain ⟨f, hf, -, hleaves⟩ := h
  exact ⟨f, hf, rfl, hleaves⟩

theorem extract?_filter {m : Map} (names : List String) (h : t.extract? cs b none = some m) :
    t.extract? cs b (some names) = some (m.filter fun (name, _) => names.contains name) := by
  have hstays : ¬t.LeavesCalendar cs b (some names) := fun hleaves => by
    rw [extract?_eq_none hleaves.of_wanted] at h
    cases h
  rw [extract?_eq_some hstays, extract_filter, eq_of_extract? h]

theorem mem_extract {name : String} {v : Value} (h : (name, v) ∈ t.extract cs b wanted) :
    ∃ f ∈ t.fields, f.name = name ∧ isWanted wanted name = true ∧ f.extract? t cs b = some v := by
  obtain ⟨f, hf, hread⟩ := List.mem_filterMap.1 h
  obtain ⟨hmem, hwanted⟩ := List.mem_filter.1 hf
  obtain ⟨v', hv, heq⟩ := Option.map_eq_some_iff.1 hread
  cases heq
  exact ⟨f, hmem, rfl, hwanted, hv⟩

theorem keys_filterMap_sublist (read : Spec → Option Value) (fields : List Spec) :
    ((fields.filterMap fun f => (read f).map fun v => (f.name, v)).map Prod.fst).Sublist
      (fields.map Spec.name) := by
  induction fields with
  | nil => exact .slnil
  | cons f fields ih =>
      rw [List.filterMap_cons]
      cases read f with
      | none => exact ih.cons _
      | some v => exact ih.cons_cons _

theorem nodup_keys_extract (hnames : t.names.Nodup) :
    ((t.extract cs b wanted).map Prod.fst).Nodup :=
  hnames.sublist ((keys_filterMap_sublist _ _).trans (List.filter_sublist.map Spec.name))

theorem lookup_extract_eq_none_iff (hnames : t.names.Nodup) {f : Spec} (hf : f ∈ t.fields)
    (hwanted : isWanted wanted f.name = true) :
    (t.extract cs b wanted).lookup f.name = none ↔
      ∀ v ∈ f.scanned t cs b, Text.isBlankText v = true := by
  rw [lookup_extract hnames hf hwanted, Spec.extract?_eq_none_iff, captures_eq_nil_iff]

end Table

/-- What is read by a table in use, or by any other table whose fields have different names. The fields
of a window are entries of the table with wanted names, each once; their values are texts that are not
empty or lists of distinct captures in the order of the text. A wanted field is missing exactly if its
scan finds nothing but blanks. What is read for some names is what is read for all of them, restricted
to these names. Fields are read unless a wanted date leaves the calendar, which takes a shift of
dates; of the tables in use, only those of JPNIC have one. -/
theorem fields_well_formed {t : Table} (ht : t.InUse ∨ t.names.Nodup) (cs : List Char)
    (b : Bounds) :
    (∀ wanted, t.extract? cs b wanted = none ↔ t.LeavesCalendar cs b wanted) ∧
    ((∀ policy ∈ t.dates, policy.hourOffset = 0) → ∀ wanted, ¬t.LeavesCalendar cs b wanted) ∧
    (t.InUse → (∀ policy ∈ t.dates, policy.hourOffset = 0) ∨
      t.dates = some National.jpnicDates) ∧
    (∀ wanted m, t.extract? cs b wanted = some m →
      (m.map Prod.fst).Nodup ∧
      (∀ name v, (name, v) ∈ m → ∃ f ∈ t.fields, f.name = name ∧ isWanted wanted name = true ∧
        v.WellFormed (f.captures t.contiguous cs b)) ∧
      ∀ f ∈ t.fields, isWanted wanted f.name = true →
        (m.lookup f.name = none ↔ ∀ v ∈ f.scanned t cs b, Text.isBlankText v = true)) ∧
    ∀ names m, t.extract? cs b none = some m →
      t.extract? cs b (some names) = some (m.filter fun (name, _) => names.contains name) := by
  have hnames : t.names.Nodup := ht.elim Table.InUse.names_nodup id
  refine ⟨fun wanted => Table.extract?_eq_none_iff,
    fun hzero wanted => Table.not_leavesCalendar_of_unshifted hzero, Table.InUse.dates_shift,
    fun wanted m hm => ?_, fun names m hm => Table.extract?_filter names hm⟩
  obtain rfl := Table.eq_of_extract? hm
  refine ⟨Table.nodup_keys_extract hnames, fun name v hv => ?_,
    fun f hf hwanted => Table.lookup_extract_eq_none_iff hnames hf hwanted⟩
  obtain ⟨f, hf, hname, hwanted, hread⟩ := Table.mem_extract hv
  exact ⟨f, hf, hname, hwanted, Spec.wellFormed_of_extract? hread⟩

theorem fields_well_formed_route :
    (Origin.table .plain).InUse ∧
      (Origin.table .plain).extract? "descr: X\nsource: Y\n".toList {} none =
        some [("description", .text "X"), ("source", .text "Y")] ∧
      (Origin.table .plain).extract? "descr: X\nsource: Y\n".toList {} (some ["source"]) =
        some [("source", .text "Y")] := by
  have huse : (Origin.table .plain).InUse := .routes .plain
  have hall : (Origin.table .plain).extract? "descr: X\nsource: Y\n".toList {} none =
      some [("description", .text "X"), ("source", .text "Y")] := by
    decide_cbv
  obtain ⟨-, -, -, -, hrestrict⟩ := fields_well_formed (.inl huse) "descr: X\nsource: Y\n".toList {}
  exact ⟨huse, hall, hrestrict ["source"] _ hall⟩

/-- A date of JPNIC in the first hours of the calendar keeps the other fields from being read, but
not if only those are wanted. -/
theorem extract_before_calendar :
    let cs := "[Assigned Date] -262143/01/01 00:00:00(JST)\n[Organization] X\n".toList
    (National.table .jpnic).InUse ∧ (National.table .jpnic).extract? cs {} none = none ∧
      (National.table .jpnic).extract? cs {} (some ["name"]) = some [("name", .text "X")] :=
  ⟨.national .jpnic, by decide_cbv, by decide_cbv⟩

end Field

end IpRegistry
