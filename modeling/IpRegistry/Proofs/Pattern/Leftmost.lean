import IpRegistry.Proofs.Pattern.Matches

namespace IpRegistry.Pattern

variable {t u v : Thread} {a b : Pattern} {seen rest : List Char}

theorem Thread.skip_nil (t : Thread) : t.skip [] t.cursor.rest = t :=
  rfl

theorem Thread.skip_skip (t : Thread) (front back rest rest' : List Char) :
    (t.skip front rest').skip back rest = t.skip (front ++ back) rest := by
  have hbefore : back.getLast?.or (front.getLast?.or t.cursor.before) =
      (front ++ back).getLast?.or t.cursor.before := by
    rw [List.getLast?_append, Option.or_assoc]
  have hpos : t.cursor.pos + Text.byteLength front + Text.byteLength back =
      t.cursor.pos + Text.byteLength (front ++ back) := by
    rw [Text.byteLength_append, Nat.add_assoc]
  simp only [Thread.skip, Cursor.skip, hbefore, hpos]

/-- The thread behind a text that a group of this name captures. -/
def Thread.capture (name : String) (seen rest : List Char) (t : Thread) : Thread :=
  { t.skip seen rest with
    groups := (name, ⟨t.cursor.pos, t.cursor.pos + Text.byteLength seen⟩) :: t.groups }

theorem Thread.closeGroup_skip (name : String) (seen rest : List Char) (t : Thread) :
    (t.openGroup.skip seen rest).closeGroup name = t.capture name seen rest :=
  rfl

/-- The outcome that is preferred, if there is any. -/
def first? (p : Pattern) (t : Thread) : Option Thread :=
  (p.outcomes t).head?

theorem outcomes_eq_nil_iff {p : Pattern} : p.outcomes t = [] ↔ p.first? t = none :=
  List.head?_eq_none_iff.symm

theorem head?_flatMap {α β : Type} {items : List α} {f : α → List β} {x : α} {y : β}
    (hx : items.head? = some x) (hy : (f x).head? = some y) :
    (items.flatMap f).head? = some y := by
  obtain ⟨more, rfl⟩ := List.head?_eq_some_iff.1 hx
  rw [List.flatMap_cons, List.head?_append, hy, Option.some_or]

theorem head?_flatMap_of_mem {α β : Type} {items : List α} {f : α → List β} {x : α} {y : β}
    (hx : x ∈ items) (hy : (f x).head? = some y) (hothers : ∀ z ∈ items, z = x ∨ f z = []) :
    (items.flatMap f).head? = some y := by
  induction items with
  | nil => cases hx
  | cons z items ih =>
      rw [List.forall_mem_cons] at hothers
      rw [List.flatMap_cons, List.head?_append]
      rcases hothers.1 with rfl | hnone
      · rw [hy, Option.some_or]
      · rcases List.mem_cons.1 hx with rfl | hx
        · rw [hnone] at hy
          cases hy
        · rw [hnone, List.head?_nil, Option.none_or, ih hx hothers.2]

theorem first?_seq (ha : a.first? t = some u) (hb : b.first? u = some v) :
    (seq a b).first? t = some v :=
  head?_flatMap ha hb

theorem first?_group {p : Pattern} (name : String) (h : p.first? t.openGroup = some u) :
    (group name p).first? t = some (u.closeGroup name) := by
  rw [first?, outcomes, List.head?_map]
  exact congrArg (Option.map _) h

theorem outcomes_literal (h : t.cursor.rest = seen ++ rest) :
    (literal seen).outcomes t = [t.skip seen rest] := by
  have hstarts : seen.isPrefixOf t.cursor.rest = true := by
    rw [List.isPrefixOf_iff_prefix, h]
    exact List.prefix_append seen rest
  rw [outcomes, Thread.literal, if_pos hstarts, h, List.drop_left]
  rfl

theorem outcomes_literal_eq_nil (h : ¬seen <+: t.cursor.rest) : (literal seen).outcomes t = [] := by
  rw [outcomes, Thread.literal, if_neg fun hstarts => h (List.isPrefixOf_iff_prefix.1 hstarts)]
  rfl

theorem first?_literal (h : t.cursor.rest = seen ++ rest) :
    (literal seen).first? t = some (t.skip seen rest) := by
  rw [first?, outcomes_literal h]
  rfl

theorem first?_one {cls : Char → Bool} {c : Char} (hc : cls c = true)
    (h : t.cursor.rest = c :: rest) : (one cls).first? t = some (t.skip [c] rest) := by
  rw [first?, outcomes, Thread.one, h]
  simp [hc]

/-- The last place that repeating a class leads to is behind the run of its characters. -/
theorem getLast?_climb {cls : Char → Bool} (hseen : ∀ c ∈ seen, cls c = true)
    (hstop : ∀ c ∈ rest.head?, cls c = false) (h : t.cursor.rest = seen ++ rest) :
    (Thread.climb cls (seen ++ rest) t).getLast? = some (t.skip seen rest) := by
  induction seen generalizing t with
  | nil =>
      rw [List.nil_append] at h ⊢
      rw [← h, Thread.skip_nil, h]
      cases rest with
      | nil => rfl
      | cons c rest =>
          rw [Thread.climb, hstop c rfl]
          rfl
  | cons c seen ih =>
      rw [List.forall_mem_cons] at hseen
      rw [List.cons_append, Thread.climb, if_pos hseen.1, List.getLast?_cons, ih hseen.2 rfl,
        Thread.skip_skip]
      rfl

/-- Repeated as often as possible, a class takes the whole run of its characters. -/
theorem first?_greedy {cls : Char → Bool} (hseen : ∀ c ∈ seen, cls c = true) (hne : seen ≠ [])
    (hstop : ∀ c ∈ rest.head?, cls c = false) (h : t.cursor.rest = seen ++ rest) :
    (atLeastOne true cls).first? t = some (t.skip seen rest) := by
  cases seen with
  | nil => exact absurd rfl hne
  | cons c seen =>
      rw [List.forall_mem_cons] at hseen
      have hmany : (many true cls).first? (t.skip [c] (seen ++ rest)) =
          some (t.skip (c :: seen) rest) := by
        show (Thread.climb cls (seen ++ rest) (t.skip [c] (seen ++ rest))).reverse.head? = _
        rw [List.head?_reverse, getLast?_climb hseen.2 hstop rfl, Thread.skip_skip]
        rfl
      exact first?_seq (first?_one hseen.1 h) hmany

/-- Repeated as seldom as possible, a class stops at the first place from which it goes on. -/
theorem head?_flatMap_climb {cls : Char → Bool} {f : Thread → List Thread}
    (hseen : ∀ c ∈ seen, cls c = true)
    (hearlier : ∀ front c back, seen = front ++ c :: back →
      f (t.skip front (c :: back ++ rest)) = [])
    (hu : (f (t.skip seen rest)).head? = some u) (h : t.cursor.rest = seen ++ rest) :
    ((Thread.climb cls (seen ++ rest) t).flatMap f).head? = some u := by
  induction seen generalizing t with
  | nil =>
      rw [List.nil_append] at h ⊢
      rw [← h, Thread.skip_nil] at hu
      cases rest with
      | nil => rwa [Thread.climb, List.flatMap_singleton]
      | cons c rest =>
          rw [Thread.climb]
          split <;> rw [List.flatMap_cons, List.head?_append, hu, Option.some_or]
  | cons c seen ih =>
      rw [List.forall_mem_cons] at hseen
      have hfirst : f t = [] := by
        have hnil := hearlier [] c seen rfl
        rwa [← h, Thread.skip_nil] at hnil
      rw [List.cons_append, Thread.climb, if_pos hseen.1, List.flatMap_cons, hfirst,
        List.nil_append]
      apply ih hseen.2 _ _ rfl
      · rintro front d back rfl
        rw [Thread.skip_skip]
        exact hearlier (c :: front) d back rfl
      · rw [Thread.skip_skip]
        exact hu

theorem outcomes_oneOf (ps : List Pattern) (t : Thread) :
    (oneOf ps).outcomes t = ps.flatMap fun p => p.outcomes t := by
  fun_induction oneOf ps with
  | case1 =>
      rw [outcomes, Thread.one]
      split <;> rfl
  | case2 p => rw [List.flatMap_singleton]
  | case3 p ps _ ih => rw [outcomes, ih, List.flatMap_cons]

/-- One of several keys and a colon, and then a pattern. -/
def behindKey (keys : List String) (p : Pattern) : Pattern :=
  seq (oneOf (keys.map ofText)) (seq (ofText ":") p)

variable {keys : List String} {key : String} {p : Pattern}

theorem outcomes_behindKey (keys : List String) (p : Pattern) (t : Thread) :
    (behindKey keys p).outcomes t = keys.flatMap fun key =>
      ((ofText key).outcomes t).flatMap (seq (ofText ":") p).outcomes := by
  rw [behindKey, outcomes, outcomes_oneOf, List.flatMap_map, List.flatMap_assoc]

theorem outcomes_key_eq_nil (p : Pattern) (h : ¬key.toList ++ [':'] <+: t.cursor.rest) :
    ((ofText key).outcomes t).flatMap (seq (ofText ":") p).outcomes = [] := by
  by_cases hkey : key.toList <+: t.cursor.rest
  · obtain ⟨more, hmore⟩ := hkey
    have hcolon : ¬":".toList <+: (t.skip key.toList more).cursor.rest := by
      rintro ⟨tail, rfl⟩
      exact h ⟨tail, by rw [← hmore, List.append_assoc]; rfl⟩
    have hread : (ofText key).outcomes t = [t.skip key.toList more] :=
      outcomes_literal hmore.symm
    have hnone : (ofText ":").outcomes (t.skip key.toList more) = [] :=
      outcomes_literal_eq_nil hcolon
    rw [hread, List.flatMap_singleton, outcomes, hnone, List.flatMap_nil]
  · have hnone : (ofText key).outcomes t = [] := outcomes_literal_eq_nil hkey
    rw [hnone, List.flatMap_nil]

theorem first?_behindKey (hapart : ∀ key ∈ keys, ∀ other ∈ keys,
      key.toList ++ [':'] <+: other.toList ++ [':'] → key = other)
    (hkey : key ∈ keys) (h : t.cursor.rest = key.toList ++ ':' :: rest)
    (hu : p.first? (t.skip (key.toList ++ [':']) rest) = some u) :
    (behindKey keys p).first? t = some u := by
  have hstart : key.toList ++ [':'] <+: t.cursor.rest := ⟨rest, by simp [h]⟩
  have hread : (ofText key).first? t = some (t.skip key.toList (':' :: rest)) := first?_literal h
  have hcolon : (ofText ":").first? (t.skip key.toList (':' :: rest)) =
      some (t.skip (key.toList ++ [':']) rest) := by
    rw [← Thread.skip_skip t key.toList [':'] rest (':' :: rest)]
    exact first?_literal rfl
  rw [first?, outcomes_behindKey]
  refine head?_flatMap_of_mem hkey ?_ fun other hother => ?_
  · exact head?_flatMap hread (first?_seq hcolon hu)
  · by_cases hstarts : other.toList ++ [':'] <+: t.cursor.rest
    · left
      rcases List.prefix_or_prefix_of_prefix hstarts hstart with hle | hle
      · exact hapart other hother key hkey hle
      · exact (hapart key hkey other hother hle).symm
    · exact .inr (outcomes_key_eq_nil _ hstarts)

theorem at_append (front rest : List Char) :
    Cursor.at (front ++ rest) (Text.byteLength front) =
      ⟨front.getLast?, Text.byteLength front, rest⟩ := by
  have hpos : (Cursor.at (front ++ rest) (Text.byteLength front)).pos = Text.byteLength front := by
    have hshifted := (Cursor.shifted_at front rest 0).1
    rw [Nat.add_zero] at hshifted
    rw [hshifted]
    cases rest <;> rfl
  exact (Cursor.on_at _ _).1.eq_of_pos ⟨front, rfl, rfl, rfl⟩ hpos

theorem find_of_first? {p : Pattern} {cs : List Char} (h : p.first? (.begin ⟨none, 0, cs⟩) = some u) :
    p.find cs 0 = some u.toMatch := by
  have hcandidates : (p.candidates cs 0).head? = some u := by
    have hat : Cursor.at cs 0 = ⟨none, 0, cs⟩ := at_append [] cs
    rw [candidates, hat]
    exact head?_flatMap (by cases cs <;> rfl) h
  rw [find_eq_head?, hcandidates]
  rfl

/-- A search goes on behind a place from which there is no outcome. -/
theorem find_cons {p : Pattern} (hp : p.looksBehind = false) {c : Char} {cs : List Char}
    (h : p.first? (.begin ⟨none, 0, c :: cs⟩) = none) :
    p.find (c :: cs) 0 = (p.find cs 0).map (Match.shift c.utf8Size) := by
  have hnext := find_append hp [c] cs 0
  have hat : Cursor.at (c :: cs) 0 = ⟨none, 0, c :: cs⟩ := at_append [] (c :: cs)
  have hat' : Cursor.at (c :: cs) c.utf8Size = ⟨some c, c.utf8Size, cs⟩ := at_append [c] cs
  have hskip : Cursor.skip ⟨none, 0, c :: cs⟩ [c] cs = ⟨some c, c.utf8Size, cs⟩ := by
    rw [Cursor.skip, Nat.zero_add]
    rfl
  have hcandidates : p.candidates (c :: cs) 0 = p.candidates (c :: cs) c.utf8Size := by
    rw [candidates, candidates, hat, hat']
    show p.outcomes _ ++ ((Cursor.onward (Cursor.skip ⟨none, 0, c :: cs⟩ [c] cs) cs).map
      Thread.begin).flatMap p.outcomes = _
    rw [outcomes_eq_nil_iff.2 h, hskip]
    rfl
  rw [find_eq_head?, hcandidates, ← find_eq_head?]
  exact hnext

theorem Match.shift_shift (m : Match) (i j : Nat) : (m.shift j).shift i = m.shift (i + j) := by
  have hspan : ∀ s : Span, (s.shift j).shift i = s.shift (i + j) := fun s => by
    rw [Span.shift, Span.shift, Span.shift, Nat.add_assoc, Nat.add_assoc]
  simp only [Match.shift, hspan, List.map_map, Function.comp_def]

/-- A search passes over a text in which no match begins. -/
theorem find_append_of_le {p : Pattern} (hp : p.looksBehind = false) {front rest : List Char}
    (h : ∀ m, p.find (front ++ rest) 0 = some m → Text.byteLength front ≤ m.whole.start) :
    p.find (front ++ rest) 0 = (p.find rest 0).map (Match.shift (Text.byteLength front)) := by
  induction front with
  | nil => exact find_append hp [] rest 0
  | cons c front ih =>
      have hsize := c.utf8Size_pos
      have hfirst : p.first? (.begin ⟨none, 0, c :: (front ++ rest)⟩) = none := by
        cases hu : p.first? (.begin ⟨none, 0, c :: (front ++ rest)⟩) with
        | none => rfl
        | some u =>
            have hle := h _ (find_of_first? hu)
            have horigin : u.origin = 0 :=
              ((Thread.Sound.begin (Cursor.On.start _)).outcomes p u (List.mem_of_head? hu)).2
            change c.utf8Size + _ ≤ u.origin at hle
            omega
      have hfind := find_cons hp hfirst
      rw [List.cons_append, hfind, ih, Option.map_map]
      · congr 1
        funext m
        exact m.shift_shift _ _
      · intro m hm
        have hle := h (m.shift c.utf8Size) (by rw [List.cons_append, hfind, hm]; rfl)
        change c.utf8Size + Text.byteLength front ≤ c.utf8Size + m.whole.start at hle
        omega

end IpRegistry.Pattern
