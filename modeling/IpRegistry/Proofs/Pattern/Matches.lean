import IpRegistry.Proofs.Pattern.Search

namespace IpRegistry.Pattern

/-- The pattern needs a character to match. -/
def consumes : Pattern → Bool
  | one _ => true
  | literal cs => !cs.isEmpty
  | seq a b => a.consumes || b.consumes
  | alt a b => a.consumes && b.consumes
  | group _ p => p.consumes
  | _ => false

variable {t u : Thread}

theorem mem_test {b : Bool} (h : u ∈ if b then [t] else []) : u = t := by
  cases b with
  | true => exact List.mem_singleton.1 h
  | false => cases h

/-- Matching never goes back, and goes on if the pattern needs a character. -/
theorem le_of_mem_outcomes (p : Pattern) (h : u ∈ p.outcomes t) :
    t.cursor.pos ≤ u.cursor.pos ∧ (p.consumes = true → t.cursor.pos < u.cursor.pos) := by
  induction p generalizing t u with
  | empty => exact ⟨Nat.le_of_eq (by rw [List.mem_singleton.1 h]), fun hc => by cases hc⟩
  | lineStart | lineEnd | wordBoundary =>
      exact ⟨Nat.le_of_eq (by rw [mem_test h]), fun hc => by cases hc⟩
  | one cls =>
      have hlt : t.cursor.pos < u.cursor.pos := by
        rw [outcomes, Option.mem_toList, Thread.one] at h
        split at h
        · rename_i c cs _
          split at h
          · cases h
            have hsize := c.utf8Size_pos
            show t.cursor.pos < t.cursor.pos + (c.utf8Size + 0)
            omega
          · cases h
        · cases h
      exact ⟨Nat.le_of_lt hlt, fun _ => hlt⟩
  | literal cs =>
      rw [outcomes, Option.mem_toList, Thread.literal] at h
      split at h
      · cases h
        refine ⟨Nat.le_add_right _ _, fun hc => Nat.lt_add_of_pos_right ?_⟩
        rw [Nat.pos_iff_ne_zero, ne_eq, Text.byteLength_eq_zero_iff]
        rintro rfl
        cases hc
      · cases h
  | seq a b iha ihb =>
      obtain ⟨v, hv, hu⟩ := List.mem_flatMap.1 h
      obtain ⟨hle, hlt⟩ := iha hv
      obtain ⟨hle', hlt'⟩ := ihb hu
      refine ⟨Nat.le_trans hle hle', fun hc => ?_⟩
      rcases Bool.or_eq_true_iff.1 hc with hc | hc
      · exact Nat.lt_of_lt_of_le (hlt hc) hle'
      · exact Nat.lt_of_le_of_lt hle (hlt' hc)
  | alt a b iha ihb =>
      rw [consumes, Bool.and_eq_true]
      rcases List.mem_append.1 h with h | h
      · exact ⟨(iha h).1, fun hc => (iha h).2 hc.1⟩
      · exact ⟨(ihb h).1, fun hc => (ihb h).2 hc.2⟩
  | many greedy cls =>
      refine ⟨?_, fun hc => by cases hc⟩
      cases greedy with
      | true => exact pos_le_of_mem_climb (List.mem_reverse.1 h)
      | false => exact pos_le_of_mem_climb h
  | group name p ih =>
      obtain ⟨v, hv, rfl⟩ := List.mem_map.1 h
      rw [closeGroup_cursor]
      exact ih (t := t.openGroup) hv

theorem lt_of_find {p : Pattern} (hp : p.consumes = true) {cs : List Char} {pos : Nat} {m : Match}
    (hpos : pos ≤ Text.byteLength cs) (h : p.find cs pos = some m) :
    m.whole.start < m.whole.stop := by
  obtain ⟨c, t, hon, -, ht, rfl⟩ := exists_of_find hpos h
  have horigin : t.origin = c.pos := ((Thread.Sound.begin hon).outcomes p t ht).2
  show t.origin < t.cursor.pos
  rw [horigin]
  exact (le_of_mem_outcomes p ht).2 hp

/-- Ranges in a text from left to right, each behind the one before it, and none of them empty. -/
structure Marks (cs : List Char) (marks : List Span) : Prop where
  within : ∀ s ∈ marks, s.Within cs 0 (Text.byteLength cs)
  nonempty : ∀ s ∈ marks, s.start < s.stop
  apart : marks.Pairwise fun s next => s.stop ≤ next.start

theorem Marks.sublist {cs : List Char} {marks kept : List Span} (h : Marks cs marks)
    (hsub : kept.Sublist marks) : Marks cs kept where
  within s hs := h.within s (hsub.subset hs)
  nonempty s hs := h.nonempty s (hsub.subset hs)
  apart := h.apart.sublist hsub

theorem Marks.nodup {cs : List Char} {marks : List Span} (h : Marks cs marks) : marks.Nodup := by
  refine h.apart.imp_of_mem fun {s next} hs _ hle heq => ?_
  have hlt := h.nonempty s hs
  rw [← heq] at hle
  omega

section

variable {p : Pattern} {cs : List Char} {pos : Nat} {m : Match}

theorem findAllFrom_of_eq_none (h : p.find cs pos = none) : p.findAllFrom cs pos = [] := by
  rw [findAllFrom, h]
  split <;> rfl

/-- The search goes on behind a match that is not empty. -/
theorem findAllFrom_of_eq_some (hpos : pos ≤ Text.byteLength cs) (h : p.find cs pos = some m)
    (hlt : m.whole.start < m.whole.stop) :
    p.findAllFrom cs pos = m :: p.findAllFrom cs m.whole.stop := by
  have hresume : m.resume cs = m.whole.stop := if_pos hlt
  have hstart := (within_of_find hpos h).whole.earliest_le
  rw [findAllFrom, if_pos hpos, h]
  show (if pos < m.resume cs then _ else _) = _
  rw [hresume, if_pos (by omega)]

theorem findAllFrom_apart (hp : p.consumes = true) (cs : List Char) (pos : Nat) :
    (∀ m ∈ p.findAllFrom cs pos, m.Within cs pos ∧ m.whole.start < m.whole.stop) ∧
      (p.findAllFrom cs pos).Pairwise fun m next => m.whole.stop ≤ next.whole.start := by
  induction pos using findAllFrom.induct p cs with
  | case1 pos hpos hnone =>
      rw [findAllFrom_of_eq_none hnone]
      exact ⟨fun _ hm => absurd hm List.not_mem_nil, .nil⟩
  | case2 pos hpos m hm hlt ih =>
      have hwithin := within_of_find hpos hm
      have hnonempty := lt_of_find hp hpos hm
      have hresume : m.resume cs = m.whole.stop := if_pos hnonempty
      rw [hresume] at ih
      rw [findAllFrom_of_eq_some hpos hm hnonempty]
      refine ⟨?_, .cons (fun n hn => (ih.1 n hn).1.whole.earliest_le) ih.2⟩
      intro n hn
      rcases List.mem_cons.1 hn with rfl | hn
      · exact ⟨hwithin, hnonempty⟩
      · obtain ⟨hn, hlt'⟩ := ih.1 n hn
        have hle : pos ≤ n.whole.start := by
          have hfirst := hwithin.whole.earliest_le
          have hnext := hn.whole.earliest_le
          omega
        exact ⟨⟨{ hn.whole with earliest_le := hle }, hn.groups⟩, hlt'⟩
  | case3 pos hpos m hm hle =>
      have hnonempty := lt_of_find hp hpos hm
      have hresume : m.resume cs = m.whole.stop := if_pos hnonempty
      have hstart := (within_of_find hpos hm).whole.earliest_le
      omega
  | case4 pos hpos =>
      rw [findAllFrom, if_neg hpos]
      exact ⟨fun _ hm => absurd hm List.not_mem_nil, .nil⟩

end

/-- The ranges of the matches of a pattern. -/
def marks (p : Pattern) (cs : List Char) : List Span :=
  (p.findAll cs).map Match.whole

theorem marks_findAll {p : Pattern} (hp : p.consumes = true) (cs : List Char) :
    Marks cs (p.marks cs) := by
  obtain ⟨hwithin, hapart⟩ := findAllFrom_apart hp cs 0
  constructor
  · intro s hs
    obtain ⟨m, hm, rfl⟩ := List.mem_map.1 hs
    exact (hwithin m hm).1.whole
  · intro s hs
    obtain ⟨m, hm, rfl⟩ := List.mem_map.1 hs
    exact (hwithin m hm).2
  · exact List.pairwise_map.2 hapart

theorem eq_of_start_eq {p : Pattern} (hp : p.consumes = true) {cs : List Char} {m n : Match}
    (hm : m ∈ p.findAll cs) (hn : n ∈ p.findAll cs) (h : m.whole.start = n.whole.start) : m = n := by
  obtain ⟨hwithin, hapart⟩ := findAllFrom_apart hp cs 0
  change (p.findAll cs).Pairwise _ at hapart
  have hlt := (hwithin m hm).2
  have hlt' := (hwithin n hn).2
  obtain ⟨i, hi, rfl⟩ := List.getElem_of_mem hm
  obtain ⟨j, hj, rfl⟩ := List.getElem_of_mem hn
  rcases Nat.lt_trichotomy i j with hij | rfl | hij
  · have hle := List.pairwise_iff_getElem.1 hapart i j hi hj hij
    omega
  · rfl
  · have hle := List.pairwise_iff_getElem.1 hapart j i hj hi hij
    omega

/-- Matches with the same range are the same. -/
theorem eq_of_whole_eq {p : Pattern} (hp : p.consumes = true) {cs : List Char} {m n : Match}
    (hm : m ∈ p.findAll cs) (hn : n ∈ p.findAll cs) (h : m.whole = n.whole) : m = n :=
  eq_of_start_eq hp hm hn (congrArg Span.start h)

end IpRegistry.Pattern
