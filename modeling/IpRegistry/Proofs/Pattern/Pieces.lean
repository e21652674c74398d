import IpRegistry.Proofs.Pattern.Leftmost
import IpRegistry.Proofs.Text.Split

namespace IpRegistry.Pattern

open List (Forall₂)
open Text (byteLength)

/-- No match has the separator in it, and beside the separator the pattern matches as it does at an
end of a text. -/
def confined (sep : Char) : Pattern → Bool
  | empty => true
  | one cls | many _ cls => !cls sep
  | literal cs => !cs.contains sep
  | seq a b | alt a b => a.confined sep && b.confined sep
  | group _ p => p.confined sep
  | lineStart | lineEnd => sep == '\n'
  | wordBoundary => !Text.isWord sep

theorem confined_counted {sep : Char} {cls : Char → Bool} (h : cls sep = false) (least more : Nat) :
    (counted cls least more).confined sep = true := by
  fun_induction counted cls least more with
  | case1 => rfl
  | case2 more ih => simp [Pattern.optional, confined, h, ih]
  | case3 least more ih => simp [confined, h, ih]

theorem confined_oneOf (sep : Char) (ps : List Pattern) :
    (oneOf ps).confined sep = ps.all (confined sep) := by
  fun_induction oneOf ps with
  | case1 => rfl
  | case2 p => exact (Bool.and_true _).symm
  | case3 p ps _ ih => rw [confined, ih, List.all_cons]

/-- The second thread is the first one in a text that is longer at both ends: `offset` bytes stand
before the text of the first thread, the last of them the separator, and `back` stands behind it. -/
structure Thread.Framed (sep : Char) (offset : Nat) (back : List Char) (t u : Thread) : Prop where
  origin : u.origin = offset + t.origin
  pos : u.cursor.pos = offset + t.cursor.pos
  rest : u.cursor.rest = t.cursor.rest ++ back
  before : u.cursor.before = t.cursor.before ∨
    t.cursor.before = none ∧ u.cursor.before = some sep
  opened : u.opened = t.opened.map (offset + ·)
  groups : u.groups = t.groups.map fun g => (g.1, g.2.shift offset)

namespace Thread.Framed

variable {sep : Char} {offset : Nat} {back : List Char} {t u : Thread}

theorem toMatch (h : t.Framed sep offset back u) : u.toMatch = t.toMatch.shift offset := by
  rw [Thread.toMatch, Thread.toMatch, h.origin, h.pos, h.groups]
  rfl

theorem skip (h : t.Framed sep offset back u) (seen rest : List Char) :
    (t.skip seen rest).Framed sep offset back (u.skip seen (rest ++ back)) where
  origin := h.origin
  pos := by
    show _ + _ = _ + (_ + _)
    rw [h.pos, Nat.add_assoc]
  rest := rfl
  before := by
    show seen.getLast?.or _ = seen.getLast?.or _ ∨ seen.getLast?.or _ = none ∧ seen.getLast?.or _ = _
    cases seen.getLast? with
    | none => exact h.before
    | some c => exact .inl rfl
  opened := h.opened
  groups := h.groups

theorem openGroup (h : t.Framed sep offset back u) :
    t.openGroup.Framed sep offset back u.openGroup :=
  { h with
    opened := by
      show _ :: _ = _
      rw [h.pos, h.opened]
      rfl }

theorem closeGroup (h : t.Framed sep offset back u) (name : String) :
    (t.closeGroup name).Framed sep offset back (u.closeGroup name) := by
  have hopened := h.opened
  rw [Thread.closeGroup, Thread.closeGroup]
  cases ht : t.opened with
  | nil =>
      rw [ht] at hopened
      rw [hopened]
      exact h
  | cons start opened =>
      rw [ht] at hopened
      rw [hopened]
      refine { h with opened := rfl, groups := ?_ }
      show (name, _) :: _ = _
      rw [h.pos, h.groups]
      rfl

theorem test (h : t.Framed sep offset back u) {test : Thread → Bool} (heq : test u = test t) :
    Forall₂ (Thread.Framed sep offset back) (if test t then [t] else [])
      (if test u then [u] else []) :=
  forall₂_test h heq

variable (hback : ∀ c ∈ back.head?, c = sep)

include hback

theorem head?_rest {cls : Char → Bool} (hcls : cls sep = false) (rest : List Char) :
    (rest ++ back).head?.any cls = rest.head?.any cls := by
  cases rest with
  | cons c rest => rfl
  | nil =>
      cases back with
      | nil => rfl
      | cons c more =>
          obtain rfl := hback c rfl
          exact hcls

theorem one {cls : Char → Bool} (hcls : cls sep = false) (h : t.Framed sep offset back u) :
    Forall₂ (Thread.Framed sep offset back) (t.one cls).toList (u.one cls).toList := by
  rw [Thread.one, Thread.one, h.rest]
  cases t.cursor.rest with
  | cons c cs =>
      cases hc : cls c with
      | true => simpa [hc] using h.skip [c] cs
      | false => simp [hc]
  | nil =>
      cases back with
      | nil => exact .nil
      | cons c more =>
          obtain rfl := hback c rfl
          simp [hcls]

theorem literal {cs : List Char} (hcs : sep ∉ cs) (h : t.Framed sep offset back u) :
    Forall₂ (Thread.Framed sep offset back) (t.literal cs).toList (u.literal cs).toList := by
  have hprefix : cs.isPrefixOf (t.cursor.rest ++ back) = cs.isPrefixOf t.cursor.rest := by
    rw [Bool.eq_iff_iff, List.isPrefixOf_iff_prefix, List.isPrefixOf_iff_prefix]
    cases back with
    | nil => rw [List.append_nil]
    | cons c more =>
        obtain rfl := hback c rfl
        exact Text.prefix_append_cons_iff hcs
  rw [Thread.literal, Thread.literal, h.rest, hprefix]
  split
  · rename_i hstarts
    have hle := (List.isPrefixOf_iff_prefix.1 hstarts).length_le
    rw [List.drop_append_of_le_length hle]
    exact .cons (h.skip _ _) .nil
  · exact .nil

theorem climb {cls : Char → Bool} (hcls : cls sep = false) (h : t.Framed sep offset back u)
    (rest : List Char) :
    Forall₂ (Thread.Framed sep offset back) (Thread.climb cls rest t)
      (Thread.climb cls (rest ++ back) u) := by
  induction rest generalizing t u with
  | nil =>
      cases back with
      | nil => exact .cons h .nil
      | cons c more =>
          obtain rfl := hback c rfl
          rw [List.nil_append, Thread.climb, Thread.climb, hcls]
          exact .cons h .nil
  | cons c rest ih =>
      rw [List.cons_append, Thread.climb, Thread.climb]
      split
      · exact .cons h (ih (h.skip [c] rest))
      · exact .cons h .nil

/-- A pattern that is confined by the separator matches in a part of a text as it does in a text of
its own. -/
theorem outcomes {p : Pattern} (hp : p.confined sep = true) (h : t.Framed sep offset back u) :
    Forall₂ (Thread.Framed sep offset back) (p.outcomes t) (p.outcomes u) := by
  induction p generalizing t u with
  | empty => exact .cons h .nil
  | one cls => exact h.one hback (by simpa [confined] using hp)
  | literal cs => exact h.literal hback (by simpa [confined] using hp)
  | seq a b iha ihb =>
      obtain ⟨ha, hb⟩ := Bool.and_eq_true_iff.1 hp
      exact List.rel_flatMap (iha ha h) fun _ _ h => ihb hb h
  | alt a b iha ihb =>
      obtain ⟨ha, hb⟩ := Bool.and_eq_true_iff.1 hp
      exact List.rel_append (iha ha h) (ihb hb h)
  | many greedy cls =>
      have hcls : cls sep = false := by simpa [confined] using hp
      have hclimb := h.climb hback hcls t.cursor.rest
      rw [Pattern.outcomes, Pattern.outcomes, h.rest]
      cases greedy with
      | true => exact List.rel_reverse hclimb
      | false => exact hclimb
  | group name p ih => exact List.rel_map (fun _ _ h => h.closeGroup name) (ih hp h.openGroup)
  | lineStart =>
      have hsep : sep = '\n' := by simpa [confined] using hp
      refine h.test ?_
      rw [Thread.atLineStart, Thread.atLineStart]
      rcases h.before with heq | ⟨ht, hu⟩
      · rw [heq]
      · rw [ht, hu, hsep]
        rfl
  | lineEnd =>
      have hsep : sep = '\n' := by simpa [confined] using hp
      refine h.test ?_
      rw [Thread.atLineEnd, Thread.atLineEnd, h.rest]
      cases t.cursor.rest with
      | cons c rest => rfl
      | nil =>
          cases back with
          | nil => rfl
          | cons c more =>
              obtain rfl := hback c rfl
              simp [hsep]
  | wordBoundary =>
      have hsep : Text.isWord sep = false := by simpa [confined] using hp
      have hbefore : u.cursor.before.any Text.isWord = t.cursor.before.any Text.isWord := by
        rcases h.before with heq | ⟨ht, hu⟩
        · rw [heq]
        · rw [ht, hu]
          exact hsep
      refine h.test ?_
      rw [Thread.atWordBoundary, Thread.atWordBoundary, hbefore, h.rest, head?_rest hback hsep]

end Thread.Framed

variable {p : Pattern}

/-- The ways to match at or behind a place are those from the place itself and those from the next
place on. -/
theorem candidates_cons (p : Pattern) (front : List Char) (c : Char) (rest : List Char) :
    p.candidates (front ++ c :: rest) (byteLength front) =
      p.outcomes (.begin ⟨front.getLast?, byteLength front, c :: rest⟩) ++
        p.candidates (front ++ c :: rest) (byteLength (front ++ [c])) := by
  have hnext : Cursor.at (front ++ c :: rest) (byteLength (front ++ [c])) =
      ⟨(front ++ [c]).getLast?, byteLength (front ++ [c]), rest⟩ := by
    have hat := at_append (front ++ [c]) rest
    rwa [List.append_assoc] at hat
  have hskip : Cursor.skip ⟨front.getLast?, byteLength front, c :: rest⟩ [c] rest =
      ⟨(front ++ [c]).getLast?, byteLength (front ++ [c]), rest⟩ := by
    rw [Cursor.skip, Text.byteLength_append, List.getLast?_append]
  rw [candidates, candidates, at_append, hnext]
  show p.outcomes _ ++ ((Cursor.onward (Cursor.skip _ [c] rest) rest).map
    Thread.begin).flatMap p.outcomes = _
  rw [hskip]

theorem candidates_end (p : Pattern) (cs : List Char) :
    p.candidates cs (byteLength cs) = p.outcomes (.begin ⟨cs.getLast?, byteLength cs, []⟩) := by
  have hat := at_append cs []
  rw [List.append_nil] at hat
  rw [candidates, hat]
  exact List.flatMap_singleton ..

section

variable {sep : Char} {front back : List Char}

theorem framed_begin (hfront : ∀ c ∈ front.getLast?, c = sep) (seen rest : List Char) :
    (Thread.begin ⟨seen.getLast?, byteLength seen, rest⟩).Framed sep (byteLength front) back
      (.begin ⟨(front ++ seen).getLast?, byteLength (front ++ seen), rest ++ back⟩) where
  origin := Text.byteLength_append ..
  pos := Text.byteLength_append ..
  rest := rfl
  before := by
    show (front ++ seen).getLast? = seen.getLast? ∨
      seen.getLast? = none ∧ (front ++ seen).getLast? = some sep
    rw [List.getLast?_append]
    cases seen.getLast? with
    | some c => exact .inl rfl
    | none =>
        cases hlast : front.getLast? with
        | none => exact .inl rfl
        | some c => exact .inr ⟨rfl, congrArg some (hfront c hlast)⟩
  opened := rfl
  groups := rfl

/-- The ways to match in a text from a place of one of its parts on are those in the part, and then
those from the next part on. -/
theorem exists_candidates (hp : p.confined sep = true) (hfront : ∀ c ∈ front.getLast?, c = sep)
    (hback : ∀ c ∈ back.head?, c = sep) (seen rest : List Char) :
    ∃ found, Forall₂ (Thread.Framed sep (byteLength front) back)
        (p.candidates (seen ++ rest) (byteLength seen)) found ∧
      p.candidates (front ++ (seen ++ rest) ++ back) (byteLength (front ++ seen)) =
        found ++ back.head?.elim [] fun c => p.candidates (front ++ (seen ++ rest) ++ back)
          (byteLength (front ++ (seen ++ rest) ++ [c])) := by
  induction rest generalizing seen with
  | nil =>
      rw [List.append_nil, candidates_end]
      refine ⟨_, (framed_begin hfront seen []).outcomes hback hp, ?_⟩
      cases back with
      | nil =>
          rw [List.append_nil, candidates_end]
          exact (List.append_nil _).symm
      | cons c more => exact candidates_cons p (front ++ seen) c more
  | cons d rest ih =>
      obtain ⟨found, hfound, heq⟩ := ih (seen ++ [d])
      have hpart : seen ++ [d] ++ rest = seen ++ d :: rest := List.append_assoc ..
      have hwhole : front ++ (seen ++ d :: rest) ++ back = front ++ seen ++ d :: (rest ++ back) := by
        simp
      have hplace := candidates_cons p (front ++ seen) d (rest ++ back)
      rw [← hwhole, List.append_assoc front seen [d]] at hplace
      rw [hpart] at hfound heq
      rw [candidates_cons p seen d rest, hplace, heq, ← List.append_assoc]
      exact ⟨_, List.rel_append ((framed_begin hfront seen (d :: rest)).outcomes hback hp) hfound,
        rfl⟩

/-- A search from a place of a part of a text finds the first match in the part, or else the first
one from the next part on. -/
theorem find_part (hp : p.confined sep = true) (hfront : ∀ c ∈ front.getLast?, c = sep)
    (hback : ∀ c ∈ back.head?, c = sep) (seen rest : List Char) :
    p.find (front ++ (seen ++ rest) ++ back) (byteLength (front ++ seen)) =
      ((p.find (seen ++ rest) (byteLength seen)).map (Match.shift (byteLength front))).or
        (back.head?.bind fun c => p.find (front ++ (seen ++ rest) ++ back)
          (byteLength (front ++ (seen ++ rest) ++ [c]))) := by
  obtain ⟨found, hfound, heq⟩ := exists_candidates hp hfront hback seen rest
  have hhead : (found.head?.map Thread.toMatch) =
      (p.find (seen ++ rest) (byteLength seen)).map (Match.shift (byteLength front)) := by
    rw [find_eq_head?]
    revert hfound
    generalize p.candidates (seen ++ rest) (byteLength seen) = ts
    intro hfound
    cases hfound with
    | nil => rfl
    | cons h _ => exact congrArg some h.toMatch
  rw [find_eq_head?, heq, List.head?_append, Option.map_or, hhead]
  cases back with
  | nil => rfl
  | cons c more => exact congrArg _ (find_eq_head? ..).symm

/-- Searches from two places that find the same first match find the same matches. -/
theorem findAllFrom_congr (hc : p.consumes = true) {cs : List Char} {pos pos' : Nat}
    (hpos : pos ≤ byteLength cs) (hpos' : pos' ≤ byteLength cs)
    (h : p.find cs pos = p.find cs pos') : p.findAllFrom cs pos = p.findAllFrom cs pos' := by
  cases hm : p.find cs pos' with
  | none => rw [findAllFrom_of_eq_none hm, findAllFrom_of_eq_none (h.trans hm)]
  | some m =>
      have hlt := lt_of_find hc hpos' hm
      rw [findAllFrom_of_eq_some hpos' hm hlt, findAllFrom_of_eq_some hpos (h.trans hm) hlt]

/-- The matches in a text from a place of one of its parts on are those in the part, and then those
from the next part on. -/
theorem findAllFrom_part (front back : List Char) (hp : p.confined sep = true)
    (hc : p.consumes = true) (hfront : ∀ c ∈ front.getLast?, c = sep)
    (hback : ∀ c ∈ back.head?, c = sep) {part : List Char} {pos : Nat}
    (hpos : Text.isBoundary part pos = true) :
    p.findAllFrom (front ++ part ++ back) (byteLength front + pos) =
      (p.findAllFrom part pos).map (Match.shift (byteLength front)) ++
        back.head?.elim [] fun c =>
          p.findAllFrom (front ++ part ++ back) (byteLength (front ++ part ++ [c])) := by
  have hwhole : byteLength (front ++ part ++ back) =
      byteLength front + byteLength part + byteLength back := by
    rw [Text.byteLength_append, Text.byteLength_append]
  induction pos using findAllFrom.induct p part with
  | case1 pos hle hnone =>
      obtain ⟨seen, rest, rfl, rfl⟩ := Text.isBoundary_iff.1 hpos
      have hfind := find_part hp hfront hback seen rest
      rw [hnone, Option.map_none, Option.none_or, Text.byteLength_append] at hfind
      rw [findAllFrom_of_eq_none hnone]
      cases back with
      | nil => rw [findAllFrom_of_eq_none hfind]; rfl
      | cons c more =>
          refine findAllFrom_congr hc (by omega) ?_ hfind
          rw [hwhole, Text.byteLength_append, Text.byteLength_append front]
          exact Nat.add_le_add_left (Nat.add_le_add_left (Nat.zero_le _) _) _
  | case2 pos hle m hm hlt ih =>
      obtain ⟨seen, rest, rfl, rfl⟩ := Text.isBoundary_iff.1 hpos
      have hfind := find_part hp hfront hback seen rest
      rw [hm, Option.map_some, Option.some_or, Text.byteLength_append] at hfind
      have hnonempty := lt_of_find hc hle hm
      have hresume : m.resume (seen ++ rest) = m.whole.stop := if_pos hnonempty
      have hlt' : (m.shift (byteLength front)).whole.start < (m.shift (byteLength front)).whole.stop :=
        Nat.add_lt_add_left hnonempty _
      rw [hresume] at ih
      rw [findAllFrom_of_eq_some (by omega) hfind hlt', findAllFrom_of_eq_some hle hm hnonempty,
        List.map_cons, List.cons_append]
      exact congrArg _ (ih (within_of_find hle hm).whole.stop_boundary)
  | case3 pos hle m hm hge =>
      have hnonempty := lt_of_find hc hle hm
      have hresume : m.resume part = m.whole.stop := if_pos hnonempty
      have hstart := (within_of_find hle hm).whole.earliest_le
      omega
  | case4 pos hle =>
      obtain ⟨seen, rest, rfl, rfl⟩ := Text.isBoundary_iff.1 hpos
      rw [Text.byteLength_append] at hle
      omega

end

theorem shift_nil : Match.shift (byteLength []) = id := by
  funext m
  simp [Match.shift, Span.shift, Text.byteLength]

/-- The matches in a text are those before a separator and those behind it. -/
theorem findAll_append {sep : Char} (hp : p.confined sep = true) (hc : p.consumes = true)
    (a b : List Char) :
    p.findAll (a ++ sep :: b) =
      p.findAll a ++ (p.findAll b).map (Match.shift (byteLength (a ++ [sep]))) := by
  have hbefore := findAllFrom_part [] (sep :: b) hp hc nofun
    (by rintro c ⟨rfl⟩; rfl) (Text.isBoundary_zero a)
  have hbehind := findAllFrom_part (a ++ [sep]) [] hp hc (by simp [eq_comm]) nofun
    (Text.isBoundary_zero b)
  rw [shift_nil, List.map_id] at hbefore
  rw [List.append_nil, List.append_assoc] at hbehind
  rw [findAll, findAll, findAll]
  exact hbefore.trans (congrArg _ (hbehind.trans (List.append_nil _)))

section

variable {sep : Char} (hp : p.confined sep = true) (hc : p.consumes = true)

include hc

theorem findAll_nil : p.findAll [] = [] := by
  refine List.eq_nil_iff_forall_not_mem.2 fun m hm => ?_
  obtain ⟨hwithin, hlt⟩ := (findAllFrom_apart hc [] 0).1 m hm
  exact absurd hwithin.whole.le_latest (Nat.not_le_of_lt (Nat.zero_lt_of_lt hlt))

include hp

/-- A text can be cut on either side of a separator. -/
theorem findAll_cut {front back : List Char}
    (h : (∀ c ∈ front.getLast?, c = sep) ∨ ∀ c ∈ back.head?, c = sep) :
    p.findAll (front ++ back) =
      p.findAll front ++ (p.findAll back).map (Match.shift (byteLength front)) := by
  rcases h with hfront | hback
  · rcases List.eq_nil_or_concat front with rfl | ⟨front, c, rfl⟩
    · rw [findAll_nil hc, shift_nil, List.map_id]
      rfl
    · obtain rfl := hfront c (by simp)
      have hlast := findAll_append hp hc front []
      rw [findAll_nil hc, List.map_nil, List.append_nil] at hlast
      rw [List.concat_eq_append, hlast, List.append_assoc]
      exact findAll_append hp hc front back
  · cases back with
    | nil => rw [findAll_nil hc, List.append_nil, List.map_nil, List.append_nil]
    | cons c back =>
        obtain rfl := hback c rfl
        have hfirst := findAll_append hp hc [] back
        rw [findAll_nil hc, List.nil_append] at hfirst
        have hshift : Match.shift (byteLength (front ++ [c])) =
            Match.shift (byteLength front) ∘ Match.shift (byteLength ([] ++ [c])) := by
          funext m
          rw [Function.comp_apply, Match.shift_shift, Text.byteLength_append]
          rfl
        rw [findAll_append hp hc front back, hfirst, List.nil_append, List.map_map, hshift]

/-- The matches in a text are those before one of its parts, those in the part and those behind it. -/
theorem findAll_parts {before part after : List Char} (hbefore : ∀ c ∈ before.getLast?, c = sep)
    (hafter : ∀ c ∈ after.head?, c = sep) :
    p.findAll (before ++ part ++ after) =
      p.findAll before ++ (p.findAll part).map (Match.shift (byteLength before)) ++
        (p.findAll after).map (Match.shift (byteLength (before ++ part))) := by
  rw [findAll_cut hp hc (.inr hafter), findAll_cut hp hc (.inl hbefore)]

/-- A part of a text that reaches from one separator, or from the start, to the next one, or to the
end. -/
structure IsPart (sep : Char) (cs before part after : List Char) : Prop where
  eq : cs = before ++ part ++ after
  before_ends : ∀ c ∈ before.getLast?, c = sep
  after_begins : ∀ c ∈ after.head?, c = sep
  not_mem : sep ∉ part

/-- Each match lies in a part of the text without separators. -/
theorem mem_findAll_iff {cs : List Char} {m : Match} :
    m ∈ p.findAll cs ↔ ∃ before part after, IsPart sep cs before part after ∧
      ∃ n ∈ p.findAll part, m = n.shift (byteLength before) := by
  constructor
  · intro hm
    induction hlength : cs.length using Nat.strong_induction_on generalizing cs m with
    | _ length ih =>
        subst hlength
        by_cases hsep : sep ∈ cs
        · obtain ⟨a, b, rfl, ha⟩ := List.eq_append_cons_of_mem hsep
          rw [findAll_append hp hc, List.mem_append] at hm
          rcases hm with hm | hm
          · exact ⟨[], a, sep :: b, ⟨rfl, nofun, by simp [eq_comm], ha⟩, m, hm, by rw [shift_nil]; rfl⟩
          · obtain ⟨n, hn, rfl⟩ := List.mem_map.1 hm
            obtain ⟨before, part, after, hpart, k, hk, rfl⟩ := ih b.length (by simp; omega) hn rfl
            refine ⟨a ++ [sep] ++ before, part, after, ⟨?_, ?_, hpart.after_begins, hpart.not_mem⟩,
              k, hk, ?_⟩
            · rw [hpart.eq]
              simp
            · intro c hc
              rw [List.getLast?_append] at hc
              cases hlast : before.getLast? with
              | none => simpa [hlast, eq_comm] using hc
              | some d =>
                  rw [hlast] at hc
                  obtain rfl : d = c := Option.some.inj hc
                  exact hpart.before_ends d hlast
            · rw [Match.shift_shift, ← Text.byteLength_append]
        · exact ⟨[], cs, [], ⟨by simp, nofun, nofun, hsep⟩, m, hm, by rw [shift_nil]; rfl⟩
  · rintro ⟨before, part, after, hpart, n, hn, rfl⟩
    rw [hpart.eq, findAll_parts hp hc hpart.before_ends hpart.after_begins]
    exact List.mem_append_left _ (List.mem_append_right _ (List.mem_map_of_mem hn))

end

theorem Match.text?_shift (front rest : List Char) (m : Match) (name : String) :
    (m.shift (byteLength front)).text? (front ++ rest) name = m.text? rest name := by
  rw [Match.text?, Match.text?, Match.group?_shift]
  cases m.group? name with
  | none => rfl
  | some span => exact congrArg some (Text.slice_append ..)

theorem Match.text?_append_left {cs : List Char} {m : Match} {pos : Nat} (h : m.Within cs pos)
    (more : List Char) (name : String) : m.text? (cs ++ more) name = m.text? cs name := by
  rw [Match.text?, Match.text?]
  cases hgroup : m.group? name with
  | none => rfl
  | some span =>
      have hspan := h.of_group? hgroup
      exact congrArg some (Text.slice_append_left hspan.start_boundary hspan.stop_boundary
        hspan.start_le more)

end IpRegistry.Pattern
