import IpRegistry.National
import IpRegistry.Proofs.Field.Dates
import IpRegistry.Proofs.Pattern.Matches
import IpRegistry.Whois

namespace IpRegistry.Field

open Pattern (Span Marks Match)
open Text

/-- The next mark behind a range. -/
def nextMark (marks : List Span) (s : Span) : Option Span :=
  marks.find? fun m => s.stop ≤ m.start

/-- Where the text behind a range ends: at the next mark or at the end. -/
def blockEnd (cs : List Char) (marks : List Span) (s : Span) : Nat :=
  ((nextMark marks s).map Span.start).getD (byteLength cs)

/-- The text behind a range up to the next mark or to the end. -/
def block (cs : List Char) (marks : List Span) (s : Span) : List Char :=
  slice cs s.stop (blockEnd cs marks s)

section

variable {cs : List Char} {marks kept : List Span} {s next : Span}

theorem nextMark_append {front rest : List Span} (hm : Marks cs (front ++ s :: rest)) :
    nextMark (front ++ s :: rest) s = rest.head? := by
  have hapart := List.pairwise_append.1 hm.apart
  have hs := hm.nonempty s (by simp)
  have hskip : (front ++ [s]).find? (fun m => s.stop ≤ m.start) = none := by
    rw [List.find?_eq_none]
    intro m hmem
    rw [decide_eq_true_eq, Nat.not_le]
    rcases List.mem_append.1 hmem with hmem | hmem
    · have hbefore := hapart.2.2 m hmem s List.mem_cons_self
      have hlt := hm.nonempty m (List.mem_append_left _ hmem)
      omega
    · rw [List.mem_singleton.1 hmem]
      exact hs
  rw [nextMark, List.append_cons, List.find?_append, hskip, Option.none_or]
  cases rest with
  | nil => rfl
  | cons next rest =>
      have hle : s.stop ≤ next.start := List.rel_of_pairwise_cons hapart.2.1 List.mem_cons_self
      exact List.find?_cons_of_pos (decide_eq_true hle)

/-- The window of a section goes up to the next section. -/
theorem sectionBounds_eq (hm : Marks cs marks) {i : Nat} (hs : marks[i]? = some s) :
    sectionBounds marks i = ⟨s.stop, (nextMark marks s).map Span.start⟩ := by
  obtain ⟨hi, rfl⟩ := List.getElem?_eq_some_iff.1 hs
  have hnext : nextMark marks marks[i] = marks[i + 1]? := by
    have hsplit : marks = marks.take i ++ marks[i] :: marks.drop (i + 1) := by
      rw [List.getElem_cons_drop, List.take_append_drop]
    have h := nextMark_append (hsplit ▸ hm)
    rwa [← hsplit, List.head?_drop] at h
  rw [sectionBounds, hs, hnext]
  rfl

theorem mem_of_nextMark (h : nextMark marks s = some next) :
    next ∈ marks ∧ s.stop ≤ next.start := by
  have hle := List.find?_some (p := fun m : Span => decide (s.stop ≤ m.start)) h
  exact ⟨List.mem_of_find?_eq_some h, of_decide_eq_true hle⟩

/-- The next mark is the first one of those behind a range. -/
theorem exists_nextMark (hm : Marks cs marks) {m : Span} (hmem : m ∈ marks)
    (hle : s.stop ≤ m.start) :
    ∃ next, nextMark marks s = some next ∧ (next = m ∨ next.start < m.start) := by
  cases hnext : nextMark marks s with
  | none => exact absurd (decide_eq_true hle) (List.find?_eq_none.1 hnext m hmem)
  | some next =>
      refine ⟨next, rfl, ?_⟩
      obtain ⟨-, front, rest, rfl, hfront⟩ := List.find?_eq_some_iff_append.1 hnext
      have hapart := List.pairwise_append.1 hm.apart
      have hlt := hm.nonempty next (by simp)
      rcases List.mem_append.1 hmem with hmem | hmem
      · have hbehind := hfront m hmem
        rw [decide_eq_true hle] at hbehind
        cases hbehind
      · rcases List.mem_cons.1 hmem with rfl | hmem
        · exact .inl rfl
        · have hafter := List.rel_of_pairwise_cons hapart.2.1 hmem
          exact .inr (by omega)

/-- A block ends between two characters, not before its range does. -/
theorem blockEnd_within (hm : Marks cs marks) (hs : s ∈ marks) :
    s.stop ≤ blockEnd cs marks s ∧ isBoundary cs (blockEnd cs marks s) = true := by
  rw [blockEnd]
  cases hnext : nextMark marks s with
  | none =>
      refine ⟨(hm.within s hs).le_latest, isBoundary_iff.2 ⟨cs, [], ?_, rfl⟩⟩
      exact (List.append_nil cs).symm
  | some next =>
      obtain ⟨hmem, hle⟩ := mem_of_nextMark hnext
      exact ⟨hle, (hm.within next hmem).start_boundary⟩

/-- The fields of a section are those of the block behind its header. -/
theorem extract?_section {t : Table} (ht : t.InUse) (hm : Marks cs marks) {i : Nat}
    (hs : marks[i]? = some s) (wanted : Option (List String)) :
    t.extract? cs (sectionBounds marks i) wanted = t.extract? (block cs marks s) {} wanted := by
  have hmem := List.mem_of_getElem? hs
  obtain ⟨hle, hstop⟩ := blockEnd_within hm hmem
  have hwindow : t.extract? cs (sectionBounds marks i) wanted =
      t.extract? cs ⟨s.stop, some (blockEnd cs marks s)⟩ wanted := by
    rw [sectionBounds_eq hm hs, blockEnd]
    cases nextMark marks s <;> rfl
  rw [hwindow, block, ht.extract?_slice (hm.within s hmem).stop_boundary hstop hle]

variable (hm : Marks cs marks) (hsub : kept.Sublist marks)

include hm hsub

/-- A block among fewer marks reaches at least as far, and no farther if the next mark is kept. -/
theorem blockEnd_le : blockEnd cs marks s ≤ blockEnd cs kept s := by
  rw [blockEnd, blockEnd]
  cases hkept : nextMark kept s with
  | none =>
      cases hnext : nextMark marks s with
      | none => exact Nat.le_refl _
      | some next =>
          have hwithin := hm.within next (mem_of_nextMark hnext).1
          exact Nat.le_trans hwithin.start_le hwithin.le_latest
  | some k =>
      obtain ⟨hmem, hle⟩ := mem_of_nextMark hkept
      obtain ⟨next, hnext, hfirst⟩ := exists_nextMark hm (hsub.subset hmem) hle
      rw [hnext]
      rcases hfirst with rfl | hlt
      · exact Nat.le_refl _
      · exact Nat.le_of_lt hlt

theorem blockEnd_eq_iff :
    blockEnd cs kept s = blockEnd cs marks s ↔ ∀ next ∈ nextMark marks s, next ∈ kept := by
  constructor
  · intro heq next hnext
    rw [blockEnd, blockEnd, Option.mem_def.1 hnext] at heq
    cases hkept : nextMark kept s with
    | none =>
        rw [hkept] at heq
        have hmem := (mem_of_nextMark hnext).1
        have hlt : next.start < byteLength cs :=
          Nat.lt_of_lt_of_le (hm.nonempty next hmem) (hm.within next hmem).le_latest
        exact absurd heq.symm (Nat.ne_of_lt hlt)
    | some k =>
        obtain ⟨hmem, hle⟩ := mem_of_nextMark hkept
        obtain ⟨first, hfirst, hcases⟩ := exists_nextMark hm (hsub.subset hmem) hle
        cases hfirst.symm.trans hnext
        rw [hkept] at heq
        rcases hcases with rfl | hlt
        · exact hmem
        · exact absurd heq.symm (Nat.ne_of_lt hlt)
  · intro hall
    cases hnext : nextMark marks s with
    | none =>
        have hkept : nextMark kept s = none := by
          refine Option.eq_none_iff_forall_not_mem.2 fun k hk => ?_
          obtain ⟨hmem, hle⟩ := mem_of_nextMark hk
          obtain ⟨first, hfirst, -⟩ := exists_nextMark hm (hsub.subset hmem) hle
          cases hfirst.symm.trans hnext
        rw [blockEnd, blockEnd, hkept, hnext]
    | some next =>
        obtain ⟨-, hle⟩ := mem_of_nextMark hnext
        obtain ⟨k, hk, hcases⟩ := exists_nextMark (hm.sublist hsub) (hall next hnext) hle
        have hreach := blockEnd_le (s := s) hm hsub
        rw [blockEnd, blockEnd, hk, hnext] at *
        rcases hcases with rfl | hlt
        · rfl
        · exact absurd hreach (Nat.not_le_of_lt hlt)

end

/-- The items are read from a text by its headers. The headers stand at some of the marks of a text,
and each item has the fields of the block that goes up to the next header; there are no items if a
date of one of these blocks leads out of the calendar. The block of a header holds the one up to the
next mark, and is longer exactly if no header stands at that mark. -/
structure ReadByBlocks {η α : Type} (cs : List Char) (marks : List Span) (t : Table)
    (wanted : Option (List String)) (span : η → Span) (item : η → Map → α) (headers : List η)
    (items : Option (List α)) : Prop where
  sublist : (headers.map span).Sublist marks
  items_eq : items = headers.mapM fun h =>
    (t.extract? (block cs (headers.map span) (span h)) {} wanted).map (item h)
  own_prefix : ∀ h ∈ headers, block cs marks (span h) <+: block cs (headers.map span) (span h)
  own_iff : ∀ h ∈ headers, block cs (headers.map span) (span h) = block cs marks (span h) ↔
    ∀ next ∈ nextMark marks (span h), next ∈ headers.map span

theorem readByBlocks {η α : Type} {cs : List Char} {marks : List Span} (hm : Marks cs marks)
    {t : Table} (ht : t.InUse) (wanted : Option (List String)) {span : η → Span}
    (item : η → Map → α) {headers : List η} (hsub : (headers.map span).Sublist marks) :
    ReadByBlocks cs marks t wanted span item headers
      ((headers.mapIdx fun i h =>
        (t.extract? cs (sectionBounds (headers.map span) i) wanted).map (item h)).mapM id) where
  sublist := hsub
  items_eq := by
    have hread : (headers.mapIdx fun i h =>
        (t.extract? cs (sectionBounds (headers.map span) i) wanted).map (item h)) =
          headers.map fun h =>
            (t.extract? (block cs (headers.map span) (span h)) {} wanted).map (item h) := by
      refine List.ext_getElem (by simp) fun i hi _ => ?_
      rw [List.getElem_mapIdx, List.getElem_map]
      rw [List.length_mapIdx] at hi
      have hs : (headers.map span)[i]? = some (span headers[i]) := by
        rw [List.getElem?_map, List.getElem?_eq_getElem hi, Option.map_some]
      rw [extract?_section ht (hm.sublist hsub) hs]
    rw [hread, List.mapM_map]
    rfl
  own_prefix h _ := takeBytes_prefix _ (Nat.sub_le_sub_right (blockEnd_le hm hsub) _)
  own_iff h hh := by
    have hmem := List.mem_map_of_mem (f := span) hh
    obtain ⟨hle, hboundary⟩ := blockEnd_within (hm.sublist hsub) hmem
    obtain ⟨hle', hboundary'⟩ := blockEnd_within hm (hsub.subset hmem)
    have hstart := (hm.within _ (hsub.subset hmem)).stop_boundary
    rw [← blockEnd_eq_iff hm hsub, block, block]
    refine ⟨fun heq => ?_, fun heq => by rw [heq]⟩
    obtain ⟨_, _, -, -, hlength⟩ := exists_slice hstart hboundary hle
    obtain ⟨_, _, -, -, hlength'⟩ := exists_slice hstart hboundary' hle'
    rw [heq, hlength'] at hlength
    omega

/-- A table that does not shift dates always gives the items. -/
theorem readByBlocks_of_unshifted {η α : Type} {cs : List Char} {marks : List Span}
    (hm : Marks cs marks) {t : Table} (ht : t.InUse)
    (hdates : ∀ policy ∈ t.dates, policy.hourOffset = 0) (wanted : Option (List String))
    {span : η → Span} (item : η → Map → α) {headers : List η}
    (hsub : (headers.map span).Sublist marks) :
    ReadByBlocks cs marks t wanted span item headers
      (some (headers.mapIdx fun i h =>
        item h (t.extract cs (sectionBounds (headers.map span) i) wanted))) := by
  have hread : ∀ b, t.extract? cs b wanted = some (t.extract cs b wanted) := fun b =>
    Table.extract?_eq_some (Table.not_leavesCalendar_of_unshifted hdates)
  have h := readByBlocks hm ht wanted item hsub
  simp only [hread, Option.map_some, mapM_id_mapIdx_some] at h
  exact h

theorem sublist_filterMap {η : Type} {span : η → Span} {f : Match → Option η}
    (hf : ∀ m h, f m = some h → span h = m.whole) (found : List Match) :
    ((found.filterMap f).map span).Sublist (found.map Match.whole) := by
  induction found with
  | nil => exact .slnil
  | cons m found ih =>
      rw [List.filterMap_cons]
      split
      · exact ih.cons _
      · rename_i h hm
        rw [List.map_cons, List.map_cons, hf m h hm]
        exact ih.cons_cons _

end IpRegistry.Field
