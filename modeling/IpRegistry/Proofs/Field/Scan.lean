import IpRegistry.Field
import IpRegistry.Proofs.Pattern.Search
import IpRegistry.Proofs.Text.Offset
import Mathlib

namespace IpRegistry.Field

open Pattern (Match Span)
open Text

/-- What is found from a boundary on lies there or behind it, between boundaries of the text, and has
its groups inside. -/
def Finder.Lawful (find : Finder) : Prop :=
  ∀ cs pos m, isBoundary cs pos = true → find cs pos = some m → m.Within cs pos

theorem lawful_find (p : Pattern) : Finder.Lawful p.find := fun _ _ _ hpos h =>
  Pattern.within_of_find (le_of_isBoundary hpos) h

/-- The part of a text between two boundaries. There is none if one of them is no boundary, or if the
second one stands before the first. -/
def slice? (cs : List Char) (start stop : Nat) : Option (List Char) :=
  if start ≤ stop ∧ isBoundary cs start = true ∧ isBoundary cs stop = true then
    some (slice cs start stop)
  else none

/-- The value of a match, or none without the group `val`, if it can be cut out of the text. -/
def cut? (window : List Char) (m : Match) : Option (List String) :=
  match m.group? "val" with
  | none => some []
  | some s => do return [trim (String.ofList (← slice? window s.start s.stop))]

/-- The course of a scan from a place on: the places at which it looks for a match, with the one where
it ends, and the values that it finds. It looks for matches at boundaries and cuts values out between
boundaries; otherwise it has no course, and neither has a scan that goes on forever. -/
inductive Course (find : Finder) (window : List Char) (contiguous : Bool) :
    (previous : Option Nat) → (pos : Nat) → (places : List Nat) → (found : List String) → Prop
  | behind {previous : Option Nat} {pos : Nat} (h : byteLength window < pos) :
      Course find window contiguous previous pos [pos] []
  | unmatched {previous : Option Nat} {pos : Nat} (hpos : isBoundary window pos = true)
      (h : find window pos = none) : Course find window contiguous previous pos [pos] []
  | apart {previous : Option Nat} {pos : Nat} {m : Match} (hpos : isBoundary window pos = true)
      (hm : find window pos = some m) (h : (contiguous && !isAdjacent previous m) = true) :
      Course find window contiguous previous pos [pos] []
  | matched {previous : Option Nat} {pos : Nat} {m : Match} {values : List String}
      {places : List Nat} {found : List String} (hpos : isBoundary window pos = true)
      (hm : find window pos = some m) (h : ¬(contiguous && !isAdjacent previous m) = true)
      (hcut : cut? window m = some values)
      (rest : Course find window contiguous (some (logicalEnd m)) (resume window m pos) places
        found) :
      Course find window contiguous previous pos (pos :: places) (values ++ found)

variable {find : Finder} {window : List Char} {contiguous : Bool} {previous : Option Nat}
  {pos : Nat} {m : Match}

theorem Course.unique {places places' : List Nat} {found found' : List String}
    (h : Course find window contiguous previous pos places found)
    (h' : Course find window contiguous previous pos places' found') :
    places = places' ∧ found = found' := by
  induction h generalizing places' found' with
  | behind hlt =>
      cases h' with
      | behind => exact ⟨rfl, rfl⟩
      | unmatched hpos | apart hpos | matched hpos =>
          exact absurd (le_of_isBoundary hpos) (Nat.not_le_of_lt hlt)
  | unmatched hpos hnone =>
      cases h' with
      | behind | unmatched => exact ⟨rfl, rfl⟩
      | apart _ hm | matched _ hm => cases hnone.symm.trans hm
  | apart hpos hm hapart =>
      cases h' with
      | behind | unmatched | apart => exact ⟨rfl, rfl⟩
      | matched _ hm' hnear =>
          cases hm.symm.trans hm'
          exact absurd hapart hnear
  | matched hpos hm hnear hcut rest ih =>
      cases h' with
      | behind hlt => exact absurd (le_of_isBoundary hpos) (Nat.not_le_of_lt hlt)
      | unmatched _ hnone => cases hnone.symm.trans hm
      | apart _ hm' hapart =>
          cases hm.symm.trans hm'
          exact absurd hapart hnear
      | matched _ hm' _ hcut' rest' =>
          cases hm.symm.trans hm'
          cases hcut.symm.trans hcut'
          obtain ⟨rfl, rfl⟩ := ih rest'
          exact ⟨rfl, rfl⟩

theorem isBoundary_logicalEnd (h : m.Within window pos) :
    isBoundary window (logicalEnd m) = true := by
  rw [logicalEnd]
  cases hstop : m.group? "stop" with
  | none => exact h.whole.stop_boundary
  | some s => exact (h.of_group? hstop).start_boundary

/-- A scan goes on behind the place at which it looked for the match. -/
theorem lt_resume (h : m.Within window pos) : pos < resume window m pos := by
  have hstart := h.whole.earliest_le
  rw [resume]
  split
  · omega
  · have hle : max m.whole.stop (pos + 1) ≤
        ceilBoundary window (max m.whole.stop (pos + 1)) := by
      rcases Nat.le_total (max m.whole.stop (pos + 1)) (byteLength window) with hshort | hlong
      · exact (ceilBoundary_isLeast hshort).1.2
      · exact Nat.le_of_eq (ceilBoundary_of_le window hlong).symm
    omega

/-- A place of a scan is a boundary or stands one behind the end. -/
def IsPlace (window : List Char) (pos : Nat) : Prop :=
  isBoundary window pos = true ∨ pos = byteLength window + 1

theorem IsPlace.le (h : IsPlace window pos) : pos ≤ byteLength window + 1 := by
  rcases h with h | h
  · exact Nat.le_succ_of_le (le_of_isBoundary h)
  · exact Nat.le_of_eq h

theorem IsPlace.isBoundary (h : IsPlace window pos) (hle : pos ≤ byteLength window) :
    Text.isBoundary window pos = true := by
  rcases h with h | h
  · exact h
  · omega

theorem isPlace_resume (hpos : isBoundary window pos = true) (h : m.Within window pos) :
    IsPlace window (resume window m pos) := by
  rw [resume]
  split
  · exact .inl (isBoundary_logicalEnd h)
  · have hstop := h.whole.le_latest
    have hle := le_of_isBoundary hpos
    rcases Nat.lt_or_ge (byteLength window) (max m.whole.stop (pos + 1)) with hlong | hshort
    · refine .inr ?_
      rw [ceilBoundary_of_le window (Nat.le_of_lt hlong)]
      omega
    · exact .inl (ceilBoundary_isLeast hshort).1.1

/-- The value of a match can be cut out. -/
theorem cut?_eq (h : m.Within window pos) : cut? window m = some (capture window m).toList := by
  rw [cut?, capture, Match.text?]
  cases hval : m.group? "val" with
  | none => rfl
  | some s =>
      have hs := h.of_group? hval
      have hslice : slice? window s.start s.stop = some (slice window s.start s.stop) :=
        if_pos ⟨hs.start_le, hs.start_boundary, hs.stop_boundary⟩
      simp [hslice, trim]

theorem mem_of_cut? {values : List String} (h : m.Within window pos)
    (hcut : cut? window m = some values) {v : String} (hv : v ∈ values) :
    ∃ s : Span, s.Within window pos (byteLength window) ∧
      v = trim (String.ofList (slice window s.start s.stop)) := by
  rw [cut?] at hcut
  split at hcut
  · cases hcut
    cases hv
  · rename_i s hval
    obtain ⟨part, hpart, hvalues⟩ := Option.bind_eq_some_iff.1 hcut
    cases hvalues
    rw [slice?] at hpart
    split at hpart
    · cases hpart
      have hs := h.of_group? hval
      refine ⟨s, ⟨?_, hs.start_le, ?_, hs.start_boundary, hs.stop_boundary⟩,
        List.mem_singleton.1 hv⟩
      · exact Nat.le_trans h.whole.earliest_le hs.earliest_le
      · exact Nat.le_trans hs.le_latest h.whole.le_latest
    · cases hpart

/-- The scan has a course, on which it finds its values. -/
theorem exists_course (hfind : find.Lawful) (contiguous : Bool) (previous : Option Nat)
    (hpos : IsPlace window pos) :
    ∃ places, Course find window contiguous previous pos places
      (scan find window contiguous previous pos) := by
  induction previous, pos using scan.induct find window contiguous with
  | case1 previous pos hle hnone =>
      rw [scan, if_pos hle, hnone]
      exact ⟨[pos], .unmatched (hpos.isBoundary hle) hnone⟩
  | case2 previous pos hle m hm hapart =>
      rw [scan, if_pos hle, hm]
      simp only [if_pos hapart]
      exact ⟨[pos], .apart (hpos.isBoundary hle) hm hapart⟩
  | case3 previous pos hle m hm hnear ih =>
      have hboundary := hpos.isBoundary hle
      have hwithin := hfind window pos m hboundary hm
      have hlt := lt_resume hwithin
      obtain ⟨places, hrest⟩ := ih hlt (isPlace_resume hboundary hwithin)
      rw [scan, if_pos hle, hm]
      simp only [if_neg hnear, if_pos hlt]
      exact ⟨pos :: places, .matched hboundary hm hnear (cut?_eq hwithin) hrest⟩
  | case4 previous pos hgt =>
      rw [scan, if_neg hgt]
      exact ⟨[pos], .behind (Nat.lt_of_not_le hgt)⟩

namespace Course

variable {places : List Nat} {found : List String}
  (hfind : find.Lawful) (h : Course find window contiguous previous pos places found)

include hfind h

theorem le_of_mem : ∀ i ∈ places, pos ≤ i := by
  induction h with
  | behind | unmatched | apart =>
      intro i hi
      exact Nat.le_of_eq (List.mem_singleton.1 hi).symm
  | matched hpos hm _ _ _ ih =>
      have hlt := lt_resume (hfind _ _ _ hpos hm)
      intro i hi
      rcases List.mem_cons.1 hi with rfl | hi
      · exact Nat.le_refl _
      · exact Nat.le_of_lt (Nat.lt_of_lt_of_le hlt (ih i hi))

/-- Each place stands behind the one before it. -/
theorem ascending : places.Pairwise (· < ·) := by
  induction h with
  | behind | unmatched | apart => exact List.pairwise_singleton _ _
  | matched hpos hm _ _ rest ih =>
      have hlt := lt_resume (hfind _ _ _ hpos hm)
      exact .cons (fun i hi => Nat.lt_of_lt_of_le hlt (rest.le_of_mem hfind i hi)) ih

theorem isPlace_of_mem (hpos : IsPlace window pos) : ∀ i ∈ places, IsPlace window i := by
  induction h with
  | behind | unmatched | apart =>
      intro i hi
      rwa [List.mem_singleton.1 hi]
  | matched hboundary hm _ _ _ ih =>
      have hnext := isPlace_resume hboundary (hfind _ _ _ hboundary hm)
      exact List.forall_mem_cons.2 ⟨hpos, ih hnext⟩

/-- A value is a part of the window behind the start of the scan, without white space around it. -/
theorem exists_span : ∀ v ∈ found, ∃ s : Span, s.Within window pos (byteLength window) ∧
    v = trim (String.ofList (slice window s.start s.stop)) := by
  induction h with
  | behind | unmatched | apart => exact List.forall_mem_nil _
  | matched hpos hm _ hcut _ ih =>
      have hwithin := hfind _ _ _ hpos hm
      have hlt := lt_resume hwithin
      intro v hv
      rcases List.mem_append.1 hv with hv | hv
      · exact mem_of_cut? hwithin hcut hv
      · obtain ⟨s, hs, rfl⟩ := ih v hv
        exact ⟨s, ⟨Nat.le_trans (Nat.le_of_lt hlt) hs.earliest_le, hs.start_le, hs.le_latest,
          hs.start_boundary, hs.stop_boundary⟩, rfl⟩

end Course

namespace Bounds

variable (b : Bounds) (cs : List Char)

/-- Where a window starts: its start, rounded down to a boundary that is not behind its end. -/
def first : Nat :=
  floorBoundary (b.window cs) b.start

/-- Where a window ends: its end, rounded down to a boundary. -/
def last : Nat :=
  floorBoundary cs (b.stop.getD (byteLength cs))

theorem slice?_last : slice? cs 0 (b.last cs) = some (b.window cs) := by
  rw [slice?, if_pos ⟨Nat.zero_le _, isBoundary_zero cs, isBoundary_floorBoundary ..⟩, slice,
    dropBytes_zero]
  rfl

theorem exists_append_window :
    ∃ rest, cs = b.window cs ++ rest ∧ byteLength (b.window cs) = b.last cs := by
  obtain ⟨front, rest, hcs, hfront⟩ :=
    isBoundary_iff.1 (isBoundary_floorBoundary cs (b.stop.getD (byteLength cs)))
  have hwindow : b.window cs = front := by
    rw [window, ← hfront, hcs, takeBytes_byteLength]
  exact ⟨rest, by rw [hwindow, hcs], by rw [hwindow, hfront, last]⟩

theorem isBoundary_window {i : Nat} (h : i ≤ b.last cs) :
    isBoundary (b.window cs) i = isBoundary cs i := by
  obtain ⟨rest, hcs, hlast⟩ := b.exists_append_window cs
  have happend := isBoundary_append_left (hlast.symm ▸ h) rest
  rw [← hcs] at happend
  exact happend.symm

theorem last_isGreatest :
    IsGreatest {i | isBoundary cs i = true ∧ i ≤ b.stop.getD (byteLength cs)} (b.last cs) :=
  floorBoundary_isGreatest ..

theorem first_isGreatest :
    IsGreatest {i | isBoundary cs i = true ∧ i ≤ b.start ∧ i ≤ b.last cs} (b.first cs) := by
  obtain ⟨rest, -, hlast⟩ := b.exists_append_window cs
  obtain ⟨⟨hboundary, hle⟩, hgreatest⟩ := floorBoundary_isGreatest (b.window cs) b.start
  have hshort : b.first cs ≤ b.last cs := hlast ▸ le_of_isBoundary hboundary
  refine ⟨⟨?_, hle, hshort⟩, fun i ⟨hi, hstart, hstop⟩ => hgreatest ⟨?_, hstart⟩⟩
  · exact (isBoundary_window b cs hshort).symm.trans hboundary
  · exact (isBoundary_window b cs hstop).trans hi

/-- A part of the window is the same part of the text. -/
theorem within_of_window {s : Span} {earliest : Nat}
    (h : s.Within (b.window cs) earliest (byteLength (b.window cs))) :
    s.Within cs earliest (b.last cs) ∧
      slice (b.window cs) s.start s.stop = slice cs s.start s.stop := by
  obtain ⟨rest, hcs, hlast⟩ := b.exists_append_window cs
  have hstop : s.stop ≤ b.last cs := hlast ▸ h.le_latest
  have hstart : s.start ≤ b.last cs := Nat.le_trans h.start_le hstop
  refine ⟨⟨h.earliest_le, h.start_le, hstop, ?_, ?_⟩, ?_⟩
  · exact (isBoundary_window b cs hstart).symm.trans h.start_boundary
  · exact (isBoundary_window b cs hstop).symm.trans h.stop_boundary
  · have hslice := slice_append_left h.start_boundary h.stop_boundary h.start_le rest
    rw [← hcs] at hslice
    exact hslice.symm

end Bounds

/-- The scan of a window ends, whatever the offsets of the window are. The window goes from its start to
its end, both rounded down to boundaries of the text, and can be cut out. The scan looks for matches at
boundaries only, at each one once and from left to right, and ends there or one place behind the end of
the window. Its values are parts of the text inside the window, without white space around them. -/
theorem scan_ends_in_window {find : Finder} (hfind : find.Lawful) (cs : List Char) (b : Bounds)
    (contiguous : Bool) :
    IsGreatest {i | isBoundary cs i = true ∧ i ≤ b.stop.getD (byteLength cs)} (b.last cs) ∧
      IsGreatest {i | isBoundary cs i = true ∧ i ≤ b.start ∧ i ≤ b.last cs} (b.first cs) ∧
      slice? cs 0 (b.last cs) = some (b.window cs) ∧
      ∃ places : List Nat,
        (∀ course found,
          Course find (b.window cs) contiguous none (b.first cs) course found ↔
            course = places ∧ found = values find cs b contiguous) ∧
        places.Pairwise (· < ·) ∧
        (∀ i ∈ places, b.first cs ≤ i ∧ i ≤ b.last cs + 1 ∧
          (i ≤ b.last cs → isBoundary cs i = true)) ∧
        ∀ v ∈ values find cs b contiguous, ∃ s : Span, s.Within cs (b.first cs) (b.last cs) ∧
          v = trim (String.ofList (slice cs s.start s.stop)) := by
  have hfirst : IsPlace (b.window cs) (b.first cs) := .inl (isBoundary_floorBoundary ..)
  obtain ⟨-, -, hlast⟩ := b.exists_append_window cs
  obtain ⟨places, hcourse⟩ := exists_course hfind contiguous none hfirst
  refine ⟨b.last_isGreatest cs, b.first_isGreatest cs, b.slice?_last cs, places, ?_,
    hcourse.ascending hfind, fun i hi => ?_, fun v hv => ?_⟩
  · intro course found
    refine ⟨fun h => h.unique hcourse, ?_⟩
    rintro ⟨rfl, rfl⟩
    exact hcourse
  · have hplace := hcourse.isPlace_of_mem hfind hfirst i hi
    refine ⟨hcourse.le_of_mem hfind i hi, hlast ▸ hplace.le, fun hle => ?_⟩
    rw [← b.isBoundary_window cs hle]
    exact hplace.isBoundary (hlast.symm ▸ hle)
  · obtain ⟨s, hs, rfl⟩ := hcourse.exists_span hfind v hv
    obtain ⟨hwithin, hslice⟩ := b.within_of_window cs hs
    exact ⟨s, hwithin, by rw [hslice]⟩

/-- The window starts inside a character and ends behind the text. Where there are no digits, the match
is empty and the scan steps over a whole character. -/
theorem scan_ends_in_window_digits :
    let find := Pattern.find (.group "val" (.many true Char.isDigit))
    Finder.Lawful find ∧ ∃ places,
      Course find "é12é".toList false none 0 places ["", "12", "", ""] ∧
        places.Pairwise (· < ·) ∧ ∀ i ∈ places, i ≤ 7 := by
  have hvalues : values (Pattern.find (.group "val" (.many true Char.isDigit))) "é12é".toList
      ⟨1, some 99⟩ false = ["", "12", "", ""] := by
    decide_cbv
  have hwindow : Bounds.window ⟨1, some 99⟩ "é12é".toList = "é12é".toList := by decide +kernel
  have hfirst : Bounds.first ⟨1, some 99⟩ "é12é".toList = 0 := by decide +kernel
  have hlast : Bounds.last ⟨1, some 99⟩ "é12é".toList = 6 := by decide +kernel
  intro find
  have hlawful : Finder.Lawful find := lawful_find _
  obtain ⟨-, -, -, places, hcourse, hascending, hplaces, -⟩ :=
    scan_ends_in_window hlawful "é12é".toList ⟨1, some 99⟩ false
  rw [hwindow, hfirst, hvalues] at hcourse
  refine ⟨hlawful, places, (hcourse _ _).2 ⟨rfl, rfl⟩, hascending, fun i hi => ?_⟩
  have hle := (hplaces i hi).2.1
  rwa [hlast] at hle

end IpRegistry.Field
