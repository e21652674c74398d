import IpRegistry.Pattern
import IpRegistry.Proofs.Text.Offset
import Mathlib.Data.List.Forall2

namespace IpRegistry.Pattern

open List (Forall₂)

/-- The pattern looks at the character before a place. -/
def looksBehind : Pattern → Bool
  | lineStart | wordBoundary => true
  | seq a b | alt a b => a.looksBehind || b.looksBehind
  | group _ p => p.looksBehind
  | _ => false

theorem looksBehind_concat (ps : List Pattern) : (concat ps).looksBehind = ps.any looksBehind := by
  fun_induction concat ps with
  | case1 => rfl
  | case2 p => exact (Bool.or_false _).symm
  | case3 p ps _ ih => rw [looksBehind, ih, List.any_cons]

theorem looksBehind_oneOf (ps : List Pattern) : (oneOf ps).looksBehind = ps.any looksBehind := by
  fun_induction oneOf ps with
  | case1 => rfl
  | case2 p => exact (Bool.or_false _).symm
  | case3 p ps _ ih => rw [looksBehind, ih, List.any_cons]

theorem looksBehind_counted (cls : Char → Bool) (least more : Nat) :
    (counted cls least more).looksBehind = false := by
  fun_induction counted cls least more with
  | case1 => rfl
  | case2 more ih => rw [optional, looksBehind, looksBehind, ih]; rfl
  | case3 least more ih => rw [looksBehind, ih]; rfl

/-- A relation of threads in front of the same characters that the steps of matching keep. -/
structure Parallel (R : Thread → Thread → Prop) : Prop where
  rest {t u : Thread} : R t u → u.cursor.rest = t.cursor.rest
  skip {t u : Thread} (seen : List Char) {rest : List Char} : R t u →
    t.cursor.rest = seen ++ rest → R (t.skip seen rest) (u.skip seen rest)
  openGroup {t u : Thread} : R t u → R t.openGroup u.openGroup
  closeGroup {t u : Thread} (name : String) : R t u → R (t.closeGroup name) (u.closeGroup name)

variable {R : Thread → Thread → Prop} {t u : Thread}

theorem forall₂_test (h : R t u) {test : Thread → Bool} (heq : test u = test t) :
    Forall₂ R (if test t then [t] else []) (if test u then [u] else []) := by
  rw [heq]
  split
  · exact .cons h .nil
  · exact .nil

namespace Parallel

variable (hR : Parallel R) (h : R t u)

include hR h

theorem one (cls : Char → Bool) : Forall₂ R (t.one cls).toList (u.one cls).toList := by
  rw [Thread.one, Thread.one, hR.rest h]
  cases hrest : t.cursor.rest with
  | nil => exact .nil
  | cons c cs =>
      cases hc : cls c with
      | true => simpa [hc] using hR.skip [c] h hrest
      | false => simp [hc]

theorem literal (cs : List Char) : Forall₂ R (t.literal cs).toList (u.literal cs).toList := by
  rw [Thread.literal, Thread.literal, hR.rest h]
  split
  · rename_i hprefix
    have hrest := List.prefix_iff_eq_append.1 (List.isPrefixOf_iff_prefix.1 hprefix)
    exact .cons (hR.skip _ h hrest.symm) .nil
  · exact .nil

theorem climb (cls : Char → Bool) {rest : List Char} (hrest : t.cursor.rest = rest) :
    Forall₂ R (Thread.climb cls rest t) (Thread.climb cls rest u) := by
  induction rest generalizing t u with
  | nil => exact .cons h .nil
  | cons c cs ih =>
      rw [Thread.climb, Thread.climb]
      split
      · exact .cons h (ih (hR.skip [c] h hrest) rfl)
      · exact .cons h .nil

end Parallel

/-- Matching takes related threads to related threads, one by one. -/
theorem Parallel.outcomes (hR : Parallel R) {p : Pattern}
    (hbefore : p.looksBehind = true → ∀ {t u}, R t u → u.cursor.before = t.cursor.before)
    (h : R t u) : Forall₂ R (p.outcomes t) (p.outcomes u) := by
  induction p generalizing t u with
  | empty => exact .cons h .nil
  | one cls => exact hR.one h cls
  | literal cs => exact hR.literal h cs
  | seq a b iha ihb =>
      rw [looksBehind, Bool.or_eq_true] at hbefore
      exact List.rel_flatMap (iha (fun hb => hbefore (.inl hb)) h)
        fun _ _ h => ihb (fun hb => hbefore (.inr hb)) h
  | alt a b iha ihb =>
      rw [looksBehind, Bool.or_eq_true] at hbefore
      exact List.rel_append (iha (fun hb => hbefore (.inl hb)) h)
        (ihb (fun hb => hbefore (.inr hb)) h)
  | many greedy cls =>
      have hclimb := hR.climb h cls rfl
      rw [Pattern.outcomes, Pattern.outcomes, hR.rest h]
      cases greedy with
      | true => exact List.rel_reverse hclimb
      | false => exact hclimb
  | group name p ih =>
      exact List.rel_map (fun _ _ h => hR.closeGroup name h) (ih hbefore (hR.openGroup h))
  | lineStart =>
      refine forall₂_test h ?_
      rw [Thread.atLineStart, Thread.atLineStart, hbefore rfl h]
  | lineEnd =>
      refine forall₂_test h ?_
      rw [Thread.atLineEnd, Thread.atLineEnd, hR.rest h]
  | wordBoundary =>
      refine forall₂_test h ?_
      rw [Thread.atWordBoundary, Thread.atWordBoundary, hbefore rfl h, hR.rest h]

def SamePlace (t u : Thread) : Prop :=
  t.cursor = u.cursor

theorem closeGroup_cursor (t : Thread) (name : String) :
    (t.closeGroup name).cursor = t.cursor := by
  rw [Thread.closeGroup]
  split <;> rfl

theorem parallel_samePlace : Parallel SamePlace where
  rest h := congrArg Cursor.rest h.symm
  skip _ _ h _ := congrArg (Cursor.skip · _ _) h
  openGroup h := h
  closeGroup name h := (closeGroup_cursor _ name).trans (h.trans (closeGroup_cursor _ name).symm)

/-- The places that matching leads to depend on the place where it begins. -/
theorem map_cursor_outcomes (p : Pattern) (h : SamePlace t u) :
    (p.outcomes t).map Thread.cursor = (p.outcomes u).map Thread.cursor := by
  rw [← List.forall₂_eq_eq_eq, List.forall₂_map_left_iff, List.forall₂_map_right_iff]
  exact parallel_samePlace.outcomes (fun _ {_ _} h => congrArg Cursor.before h.symm) h

/-- The place is one of a text. -/
def Cursor.On (cs : List Char) (c : Cursor) : Prop :=
  ∃ front, cs = front ++ c.rest ∧ c.pos = Text.byteLength front ∧ c.before = front.getLast?

namespace Cursor.On

variable {cs : List Char} {c d : Cursor}

theorem start (cs : List Char) : Cursor.On cs ⟨none, 0, cs⟩ :=
  ⟨[], rfl, rfl, rfl⟩

theorem skip (h : c.On cs) (seen : List Char) {rest : List Char} (hrest : c.rest = seen ++ rest) :
    (c.skip seen rest).On cs := by
  obtain ⟨front, rfl, hpos, hbefore⟩ := h
  refine ⟨front ++ seen, ?_, ?_, ?_⟩
  · rw [hrest, List.append_assoc]
    rfl
  · rw [Text.byteLength_append, ← hpos]
    rfl
  · rw [List.getLast?_append, ← hbefore]
    rfl

/-- Two places at one offset are the same. -/
theorem eq_of_pos (hc : c.On cs) (hd : d.On cs) (h : c.pos = d.pos) : c = d := by
  obtain ⟨front, hfront, hpos, hbefore⟩ := hc
  obtain ⟨other, hother, hpos', hbefore'⟩ := hd
  have heq : front = other := by
    rw [← Text.takeBytes_byteLength front c.rest, ← Text.takeBytes_byteLength other d.rest,
      ← hfront, ← hother, ← hpos, ← hpos', h]
  subst heq
  have hrest : c.rest = d.rest := List.append_cancel_left (hfront.symm.trans hother)
  cases c
  cases d
  simp_all

theorem pos_add_rest (h : c.On cs) : c.pos + Text.byteLength c.rest = Text.byteLength cs := by
  obtain ⟨front, rfl, hpos, -⟩ := h
  rw [hpos, Text.byteLength_append]

theorem isBoundary (h : c.On cs) : Text.isBoundary cs c.pos = true := by
  obtain ⟨front, hfront, hpos, -⟩ := h
  exact Text.isBoundary_iff.2 ⟨front, c.rest, hfront, hpos.symm⟩

end Cursor.On

/-- A range between two places of a text that does not begin before `from`. -/
structure Span.Within (cs : List Char) (earliest latest : Nat) (s : Span) : Prop where
  earliest_le : earliest ≤ s.start
  start_le : s.start ≤ s.stop
  le_latest : s.stop ≤ latest
  start_boundary : Text.isBoundary cs s.start = true
  stop_boundary : Text.isBoundary cs s.stop = true

/-- A thread at a place of a text at or behind its origin, with its groups between the two. -/
structure Thread.Sound (cs : List Char) (t : Thread) : Prop where
  on : t.cursor.On cs
  origin_le : t.origin ≤ t.cursor.pos
  origin_boundary : Text.isBoundary cs t.origin = true
  opened : ∀ start ∈ t.opened, t.origin ≤ start ∧ start ≤ t.cursor.pos ∧
    Text.isBoundary cs start = true
  groups : ∀ g ∈ t.groups, g.2.Within cs t.origin t.cursor.pos

namespace Thread.Sound

variable {cs : List Char}

theorem begin {c : Cursor} (h : c.On cs) : Thread.Sound cs ⟨c.pos, c, [], []⟩ where
  on := h
  origin_le := Nat.le_refl _
  origin_boundary := h.isBoundary
  opened _ h := absurd h List.not_mem_nil
  groups _ h := absurd h List.not_mem_nil

theorem skip (h : t.Sound cs) (seen : List Char) {rest : List Char}
    (hrest : t.cursor.rest = seen ++ rest) :
    (t.skip seen rest).Sound cs := by
  have hle : t.cursor.pos ≤ (t.cursor.skip seen rest).pos := Nat.le_add_right _ _
  refine ⟨h.on.skip seen hrest, Nat.le_trans h.origin_le hle, h.origin_boundary, ?_, ?_⟩
  · intro start hstart
    obtain ⟨hfrom, hto, hboundary⟩ := h.opened start hstart
    exact ⟨hfrom, Nat.le_trans hto hle, hboundary⟩
  · intro g hg
    have hwithin := h.groups g hg
    exact { hwithin with le_latest := Nat.le_trans hwithin.le_latest hle }

theorem openGroup (h : t.Sound cs) : t.openGroup.Sound cs := by
  refine ⟨h.on, h.origin_le, h.origin_boundary, ?_, h.groups⟩
  intro start hstart
  rcases List.mem_cons.1 hstart with rfl | hstart
  · exact ⟨h.origin_le, Nat.le_refl _, h.on.isBoundary⟩
  · exact h.opened start hstart

theorem closeGroup (h : t.Sound cs) (name : String) : (t.closeGroup name).Sound cs := by
  rw [Thread.closeGroup]
  split
  · exact h
  · rename_i start opened hopened
    have hmem := h.opened
    rw [hopened] at hmem
    obtain ⟨hfrom, hto, hboundary⟩ := hmem start List.mem_cons_self
    refine ⟨h.on, h.origin_le, h.origin_boundary, ?_, ?_⟩
    · exact fun other hother => hmem other (List.mem_cons_of_mem _ hother)
    · intro g hg
      rcases List.mem_cons.1 hg with rfl | hg
      · exact ⟨hfrom, hto, Nat.le_refl _, hboundary, h.on.isBoundary⟩
      · exact h.groups g hg

theorem parallel (cs : List Char) (origin : Nat) :
    Parallel fun t u => t = u ∧ t.Sound cs ∧ t.origin = origin where
  rest h := congrArg (·.cursor.rest) h.1.symm
  skip seen _ h hrest := ⟨congrArg (Thread.skip · _ _) h.1, h.2.1.skip seen hrest, h.2.2⟩
  openGroup h := ⟨congrArg Thread.openGroup h.1, h.2.1.openGroup, h.2.2⟩
  closeGroup {t u} name h := by
    refine ⟨congrArg (Thread.closeGroup name) h.1, h.2.1.closeGroup name, ?_⟩
    rw [Thread.closeGroup]
    split <;> exact h.2.2

/-- Matching from a place of a text leads to places of the text behind it, with the groups between
them. -/
theorem outcomes (h : t.Sound cs) (p : Pattern) :
    ∀ u ∈ p.outcomes t, u.Sound cs ∧ u.origin = t.origin := by
  have hpairs := (parallel cs t.origin).outcomes (p := p)
    (fun _ {_ _} h => congrArg (·.cursor.before) h.1.symm) ⟨rfl, h, rfl⟩
  intro u hu
  obtain ⟨i, hi, rfl⟩ := List.getElem_of_mem hu
  exact (hpairs.get hi hi).2

end Thread.Sound

def Span.shift (offset : Nat) (s : Span) : Span :=
  ⟨offset + s.start, offset + s.stop⟩

def Match.shift (offset : Nat) (m : Match) : Match :=
  ⟨m.whole.shift offset, m.groups.map fun g => (g.1, g.2.shift offset)⟩

theorem Match.group?_shift (offset : Nat) (m : Match) (name : String) :
    (m.shift offset).group? name = (m.group? name).map (Span.shift offset) := by
  rw [Match.group?, Match.group?, Match.shift]
  induction m.groups with
  | nil => rfl
  | cons g gs ih =>
      rw [List.map_cons, List.lookup_cons, List.lookup_cons]
      split
      · rfl
      · exact ih

/-- The second thread is the first one in a text that is longer at its beginning. -/
structure Thread.Shifted (offset : Nat) (t u : Thread) : Prop where
  origin : u.origin = offset + t.origin
  pos : u.cursor.pos = offset + t.cursor.pos
  rest : u.cursor.rest = t.cursor.rest
  opened : u.opened = t.opened.map (offset + ·)
  groups : u.groups = t.groups.map fun g => (g.1, g.2.shift offset)

theorem Thread.Shifted.toMatch {offset : Nat} (h : t.Shifted offset u) :
    u.toMatch = t.toMatch.shift offset := by
  rw [Thread.toMatch, Thread.toMatch, h.origin, h.pos, h.groups]
  rfl

theorem Thread.Shifted.parallel (offset : Nat) : Parallel (Thread.Shifted offset) where
  rest h := h.rest
  skip _ _ h _ :=
    { h with
      pos := by
        show _ + _ = _ + (_ + _)
        rw [h.pos, Nat.add_assoc]
      rest := rfl }
  openGroup h :=
    { h with
      opened := by
        show _ :: _ = _
        rw [h.pos, h.opened]
        rfl }
  closeGroup {t u} name h := by
    have hopened := h.opened
    rw [Thread.closeGroup, Thread.closeGroup]
    cases ht : t.opened with
    | nil =>
        rw [ht] at hopened
        rw [hopened]
        exact h
    | cons start opened =>
        rw [ht] at hopened
        rw [hopened]
        refine { h with opened := rfl, groups := ?_ }
        show (name, _) :: _ = _
        rw [h.pos, h.groups]
        rfl

end IpRegistry.Pattern
