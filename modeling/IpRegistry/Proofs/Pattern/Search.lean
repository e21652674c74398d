import IpRegistry.Pattern.Search
import IpRegistry.Proofs.Pattern.Outcomes

namespace IpRegistry.Pattern

namespace Results

variable {α β : Type}

theorem head?_toList (r : Results α) : r.toList.head? = r.head? := by
  cases r <;> rfl

theorem toList_append (r : Results α) (later : Unit → Results α) :
    (r.append later).toList = r.toList ++ (later ()).toList := by
  induction r with
  | done => rfl
  | next a more ih => exact congrArg (a :: ·) (ih ())

theorem toList_prepend (as : List α) (later : Unit → Results α) :
    (prepend as later).toList = as ++ (later ()).toList := by
  induction as with
  | nil => rfl
  | cons a as ih => exact congrArg (a :: ·) ih

theorem toList_filterMap (f : α → Option β) (r : Results α) :
    (r.filterMap f).toList = r.toList.filterMap f := by
  induction r with
  | done => rfl
  | next a more ih =>
      rw [filterMap, toList, List.filterMap_cons]
      cases f a with
      | none => exact ih ()
      | some b => exact congrArg (b :: ·) (ih ())

theorem toList_flatMap (f : α → Results β) (r : Results α) :
    (r.flatMap f).toList = r.toList.flatMap fun a => (f a).toList := by
  induction r with
  | done => rfl
  | next a more ih => rw [flatMap, toList_append, toList, List.flatMap_cons, ih ()]

end Results

/-- The second list is the first one without some of the threads whose place was seen before. -/
inductive Thin : List Cursor → List Thread → List Thread → Prop
  | nil (seen : List Cursor) : Thin seen [] []
  | keep {seen : List Cursor} {ts us : List Thread} (t : Thread)
    (rest : Thin (t.cursor :: seen) ts us) : Thin seen (t :: ts) (t :: us)
  | drop {seen : List Cursor} {ts us : List Thread} {t : Thread} (h : t.cursor ∈ seen)
    (rest : Thin seen ts us) : Thin seen (t :: ts) us

namespace Thin

variable {seen more : List Cursor} {ts us vs ws : List Thread}

theorem refl (seen : List Cursor) (ts : List Thread) : Thin seen ts ts := by
  induction ts generalizing seen with
  | nil => exact .nil seen
  | cons t ts ih => exact .keep t (ih _)

theorem mono (h : Thin seen ts us) (hsub : seen ⊆ more) : Thin more ts us := by
  induction h generalizing more with
  | nil => exact .nil more
  | keep t _ ih => exact .keep t (ih (List.cons_subset_cons _ hsub))
  | drop hmem _ ih => exact .drop (hsub hmem) (ih hsub)

theorem dropAll (h : ∀ t ∈ ts, t.cursor ∈ seen) (hrest : Thin seen us vs) :
    Thin seen (ts ++ us) vs := by
  induction ts with
  | nil => exact hrest
  | cons t ts ih =>
      exact .drop (h t List.mem_cons_self) (ih fun u hu => h u (List.mem_cons_of_mem _ hu))

theorem append (h : Thin seen ts us) (hrest : Thin (ts.map Thread.cursor ++ seen) vs ws) :
    Thin seen (ts ++ vs) (us ++ ws) := by
  induction h with
  | nil => exact hrest
  | keep t _ ih =>
      refine .keep t (ih (hrest.mono ?_))
      rw [List.map_cons, List.cons_append]
      exact List.cons_subset.2 ⟨List.mem_append_right _ List.mem_cons_self,
        List.append_subset.2 ⟨List.subset_append_left ..,
          List.Subset.trans (List.subset_cons_self ..) (List.subset_append_right ..)⟩⟩
  | drop hmem _ ih =>
      refine .drop hmem (ih (hrest.mono ?_))
      exact List.cons_subset.2 ⟨List.mem_append_right _ hmem, List.Subset.refl _⟩

theorem trans (h : Thin seen ts us) (hthen : Thin seen us vs) : Thin seen ts vs := by
  induction h generalizing vs with
  | nil => exact hthen
  | keep t hrest ih =>
      cases hthen with
      | keep _ hthen => exact .keep t (ih hthen)
      | drop hmem hthen =>
          -- A thread that is left out later has a place that was seen before both lists.
          have hsub : t.cursor :: _ ⊆ _ := List.cons_subset.2 ⟨hmem, List.Subset.refl _⟩
          exact .drop hmem ((ih (hthen.mono (List.subset_cons_self ..))).mono hsub)
  | drop hmem _ ih => exact .drop hmem (ih hthen)

theorem flatMap {f : Thread → List Thread} (h : Thin seen ts us)
    (hf : ∀ t u, SamePlace t u → (f t).map Thread.cursor = (f u).map Thread.cursor)
    (hseen : ∀ t : Thread, t.cursor ∈ seen → ∀ u ∈ f t, u.cursor ∈ more) :
    Thin more (ts.flatMap f) (us.flatMap f) := by
  induction h generalizing more with
  | nil => exact .nil more
  | drop hmem _ ih => exact dropAll (hseen _ hmem) (ih hseen)
  | keep t _ ih =>
      refine (refl more (f t)).append (ih ?_)
      intro u hu v hv
      rw [List.mem_append]
      rcases List.mem_cons.1 hu with heq | hmem
      · left
        rw [← hf u t heq]
        exact List.mem_map_of_mem hv
      · exact .inr (hseen u hmem v hv)

theorem flatMap_congr {f g : Thread → List Thread} (ts : List Thread)
    (h : ∀ t ∈ ts, Thin [] (f t) (g t)) : Thin seen (ts.flatMap f) (ts.flatMap g) := by
  induction ts generalizing seen with
  | nil => exact .nil seen
  | cons t ts ih =>
      have hfirst := (h t List.mem_cons_self).mono (List.nil_subset seen)
      exact hfirst.append (ih fun u hu => h u (List.mem_cons_of_mem _ hu))

theorem subset (h : Thin seen ts us) : us ⊆ ts := by
  induction h with
  | nil => exact List.nil_subset _
  | keep t _ ih => exact List.cons_subset_cons t ih
  | drop _ _ ih => exact List.Subset.trans ih (List.subset_cons_self ..)

/-- What is preferred is never left out. -/
theorem head?_eq (h : Thin [] ts us) : us.head? = ts.head? := by
  cases h with
  | nil => rfl
  | keep t _ => rfl
  | drop hmem _ => cases hmem

end Thin

/-- The places behind zero, one, two, … characters of a class. -/
def Cursor.climb (cls : Char → Bool) : (rest : List Char) → (c : Cursor) → List Cursor
  | [], c => [c]
  | d :: ds, c => if cls d then c :: climb cls ds (c.skip [d] ds) else [c]

theorem map_cursor_climb (cls : Char → Bool) (rest : List Char) (t : Thread) :
    (Thread.climb cls rest t).map Thread.cursor = Cursor.climb cls rest t.cursor := by
  induction rest generalizing t with
  | nil => rfl
  | cons c cs ih =>
      rw [Thread.climb, Cursor.climb]
      split
      · exact congrArg (t.cursor :: ·) (ih _)
      · rfl

/-- Behind a place of a text that counts as seen, all places to which a class can be repeated were
seen. -/
def Closed (cls : Char → Bool) (cs : List Char) (seen : Seen) (places : List Cursor) : Prop :=
  ∀ c : Cursor, c.On cs → seen.contains c.pos = true → Cursor.climb cls c.rest c ⊆ places

/-- The same while a class is repeated: the places before the one that was reached are not finished,
and those behind them are the ones to which the class can be repeated from there. -/
structure Closing (cls : Char → Bool) (cs : List Char) (seen : Seen) (places : List Cursor)
    (reached : Cursor) : Prop where
  behind : ∀ c : Cursor, c.On cs → seen.contains c.pos = true → reached.pos ≤ c.pos →
    Cursor.climb cls c.rest c ⊆ places
  before : ∀ c : Cursor, c.On cs → seen.contains c.pos = true →
    Cursor.climb cls c.rest c ⊆ places ++ Cursor.climb cls reached.rest reached

variable {cls : Char → Bool} {cs : List Char} {seen : Seen} {places : List Cursor}

theorem Closed.closing (h : Closed cls cs seen places) (reached : Cursor) :
    Closing cls cs seen places reached where
  behind c hc hseen _ := h c hc hseen
  before c hc hseen := List.Subset.trans (h c hc hseen) (List.subset_append_left ..)

theorem contains_insert {n m : Nat} :
    (seen.insert n).contains m = true ↔ n = m ∨ seen.contains m = true := by
  rw [Std.HashSet.contains_insert, Bool.or_eq_true, beq_iff_eq]

/-- The class cannot be repeated any further. -/
theorem Closing.insert {c : Cursor} (h : Closing cls cs seen places c) (hc : c.On cs) :
    Closed cls cs (seen.insert c.pos) (places ++ Cursor.climb cls c.rest c) := by
  intro d hd hseen
  rcases contains_insert.1 hseen with hpos | hseen
  · rw [hd.eq_of_pos hc hpos.symm]
    exact List.subset_append_right ..
  · exact h.before d hd hseen

theorem Closing.climb_subset {c : Cursor} (h : Closing cls cs seen places c) (hc : c.On cs)
    (hseen : seen.contains c.pos = true) : Cursor.climb cls c.rest c ⊆ places :=
  h.behind c hc hseen (Nat.le_refl _)

theorem Closing.closed {c : Cursor} (h : Closing cls cs seen places c) (hc : c.On cs)
    (hseen : seen.contains c.pos = true) : Closed cls cs seen places := by
  intro d hd hd'
  exact List.Subset.trans (h.before d hd hd')
    (List.append_subset.2 ⟨List.Subset.refl _, h.climb_subset hc hseen⟩)

theorem Closing.step {c : Cursor} {d : Char} {ds : List Char} (h : Closing cls cs seen places c)
    (hc : c.On cs) (hrest : c.rest = d :: ds) (hd : cls d = true) :
    Closing cls cs (seen.insert c.pos) (places ++ [c]) (c.skip [d] ds) := by
  have hclimb : Cursor.climb cls c.rest c = c :: Cursor.climb cls ds (c.skip [d] ds) := by
    rw [hrest, Cursor.climb, if_pos hd]
  have hpos : c.pos < (c.skip [d] ds).pos := by
    have hsize := d.utf8Size_pos
    show c.pos < c.pos + (d.utf8Size + 0)
    omega
  constructor
  · intro e he hseen hle
    rcases contains_insert.1 hseen with heq | hseen
    · omega
    · have hbehind := h.behind e he hseen (by omega)
      exact List.Subset.trans hbehind (List.subset_append_left ..)
  · intro e he hseen
    rw [List.append_assoc]
    show _ ⊆ places ++ (c :: Cursor.climb cls ds (c.skip [d] ds))
    rw [← hclimb]
    rcases contains_insert.1 hseen with heq | hseen
    · rw [he.eq_of_pos hc heq.symm]
      exact List.subset_append_right ..
    · exact h.before e he hseen

/-- A repetition that heeds the places seen before keeps a first part of the threads; the places of
the others were seen before. -/
structure Kept (cls : Char → Bool) (cs : List Char) (places : List Cursor) (rest : List Char)
    (t : Thread) (seen : Seen) (kept dropped : List Thread) (seen' : Seen) : Prop where
  climb_eq : Thread.climb cls rest t = kept ++ dropped
  reach_eq (acc : List Thread) : reachUnseen cls rest t seen acc = (kept.reverse ++ acc, seen')
  toList_eq (later : Seen → Results Thread) :
    (climbUnseen cls later rest t seen).toList = kept ++ (later seen').toList
  dropped_seen : ∀ u ∈ dropped, u.cursor ∈ places
  closed : Closed cls cs seen' (places ++ (Thread.climb cls rest t).map Thread.cursor)

variable {rest : List Char} {t : Thread}

theorem kept_of_contains (ht : t.cursor.On cs) (hrest : t.cursor.rest = rest)
    (h : Closing cls cs seen places t.cursor) (hseen : seen.contains t.cursor.pos = true) :
    Kept cls cs places rest t seen [] (Thread.climb cls rest t) seen where
  climb_eq := rfl
  reach_eq acc := by cases rest <;> exact if_pos hseen
  toList_eq later := by cases rest <;> exact congrArg Results.toList (if_pos hseen)
  dropped_seen u hu := by
    have hsubset := h.climb_subset ht hseen
    rw [hrest, ← map_cursor_climb] at hsubset
    exact hsubset (List.mem_map_of_mem hu)
  closed c hc hc' := List.Subset.trans (h.closed ht hseen c hc hc') (List.subset_append_left ..)

theorem kept_of_stop (ht : t.cursor.On cs) (hrest : t.cursor.rest = rest)
    (h : Closing cls cs seen places t.cursor) (hseen : ¬seen.contains t.cursor.pos = true)
    (hstop : ∀ c ds, rest = c :: ds → cls c = false) :
    Kept cls cs places rest t seen [t] [] (seen.insert t.cursor.pos) where
  climb_eq := by
    cases rest with
    | nil => rfl
    | cons c ds => exact if_neg (by rw [hstop c ds rfl]; exact Bool.false_ne_true)
  reach_eq acc := by
    cases rest with
    | nil => exact if_neg hseen
    | cons c ds =>
        rw [reachUnseen, if_neg hseen, hstop c ds rfl]
        rfl
  toList_eq later := by
    cases rest with
    | nil => exact congrArg Results.toList (if_neg hseen)
    | cons c ds =>
        rw [climbUnseen, if_neg hseen, hstop c ds rfl]
        rfl
  dropped_seen u hu := absurd hu List.not_mem_nil
  closed := by
    rw [map_cursor_climb, ← hrest]
    exact h.insert ht

theorem Kept.cons {c : Char} {ds : List Char} {kept dropped : List Thread} {seen' : Seen}
    (hseen : ¬seen.contains t.cursor.pos = true) (hc : cls c = true)
    (h : Kept cls cs (places ++ [t.cursor]) ds (t.skip [c] ds) (seen.insert t.cursor.pos) kept
      dropped seen')
    (hplaces : ∀ u ∈ dropped, u.cursor ≠ t.cursor) :
    Kept cls cs places (c :: ds) t seen (t :: kept) dropped seen' where
  climb_eq := by
    rw [Thread.climb, if_pos hc, h.climb_eq]
    rfl
  reach_eq acc := by
    rw [reachUnseen, if_neg hseen, if_pos hc, h.reach_eq, List.reverse_cons, List.append_assoc]
    rfl
  toList_eq later := by
    rw [climbUnseen, if_neg hseen]
    show t :: (if cls c = true then _ else _ : Results Thread).toList = _
    rw [if_pos hc, h.toList_eq]
    rfl
  dropped_seen u hu := by
    rcases List.mem_append.1 (h.dropped_seen u hu) with hmem | hmem
    · exact hmem
    · exact absurd (List.mem_singleton.1 hmem) (hplaces u hu)
  closed := by
    have hclosed := h.closed
    rw [Thread.climb, if_pos hc]
    rwa [List.append_assoc] at hclosed

theorem pos_le_of_mem_climb {u : Thread} (h : u ∈ Thread.climb cls rest t) :
    t.cursor.pos ≤ u.cursor.pos := by
  induction rest generalizing t with
  | nil => exact Nat.le_of_eq (congrArg (·.cursor.pos) (List.mem_singleton.1 h).symm)
  | cons c ds ih =>
      rw [Thread.climb] at h
      split at h
      · rcases List.mem_cons.1 h with rfl | h
        · exact Nat.le_refl _
        · exact Nat.le_trans (Nat.le_add_right _ _) (ih h)
      · exact Nat.le_of_eq (congrArg (·.cursor.pos) (List.mem_singleton.1 h).symm)

theorem exists_kept (ht : t.cursor.On cs) (hrest : t.cursor.rest = rest)
    (h : Closing cls cs seen places t.cursor) :
    ∃ kept dropped seen', Kept cls cs places rest t seen kept dropped seen' := by
  induction rest generalizing t seen places with
  | nil =>
      by_cases hseen : seen.contains t.cursor.pos = true
      · exact ⟨_, _, _, kept_of_contains ht hrest h hseen⟩
      · exact ⟨_, _, _, kept_of_stop ht hrest h hseen fun _ _ h => by cases h⟩
  | cons c ds ih =>
      by_cases hseen : seen.contains t.cursor.pos = true
      · exact ⟨_, _, _, kept_of_contains ht hrest h hseen⟩
      · cases hc : cls c with
        | false =>
            refine ⟨_, _, _, kept_of_stop ht hrest h hseen ?_⟩
            rintro _ _ ⟨rfl, rfl⟩
            exact hc
        | true =>
            obtain ⟨kept, dropped, seen', hkept⟩ := ih (t := t.skip [c] ds)
              (ht.skip [c] hrest) rfl (h.step ht hrest hc)
            refine ⟨_, _, _, hkept.cons hseen hc ?_⟩
            intro u hu heq
            have hmem : u ∈ Thread.climb cls ds (t.skip [c] ds) := by
              rw [hkept.climb_eq]
              exact List.mem_append_right _ hu
            have hle : t.cursor.pos + (c.utf8Size + 0) ≤ u.cursor.pos := pos_le_of_mem_climb hmem
            have hsize := c.utf8Size_pos
            rw [heq] at hle
            omega

theorem Kept.places_subset {kept dropped : List Thread} {seen' : Seen}
    (h : Kept cls cs places rest t seen kept dropped seen') :
    places ++ (Thread.climb cls rest t).map Thread.cursor ⊆
      kept.map Thread.cursor ++ places := by
  rw [h.climb_eq, List.map_append]
  refine List.append_subset.2 ⟨List.subset_append_right .., List.append_subset.2
    ⟨List.subset_append_left .., ?_⟩⟩
  intro c hc
  obtain ⟨u, hu, rfl⟩ := List.mem_map.1 hc
  exact List.mem_append_right _ (h.dropped_seen u hu)

theorem thin_repeatGreedily {r : Results Thread} (hr : ∀ t ∈ r.toList, t.cursor.On cs)
    (h : Closed cls cs seen places) :
    Thin places (r.toList.flatMap (many true cls).outcomes) (repeatGreedily cls r seen).toList := by
  induction r generalizing seen places with
  | done => exact .nil places
  | next t more ih =>
      obtain ⟨kept, dropped, seen', hkept⟩ :=
        exists_kept (hr t List.mem_cons_self) rfl (h.closing t.cursor)
      have hout : (many true cls).outcomes t = dropped.reverse ++ kept.reverse := by
        rw [← List.reverse_append, ← hkept.climb_eq]
        rfl
      rw [Results.toList, List.flatMap_cons, repeatGreedily, hkept.reach_eq]
      show Thin places _ (Results.prepend (kept.reverse ++ []) _).toList
      rw [Results.toList_prepend, List.append_nil, hout, List.append_assoc]
      refine .dropAll (fun u hu => hkept.dropped_seen u (List.mem_reverse.1 hu)) ?_
      refine (Thin.refl places kept.reverse).append
        ((ih () (fun u hu => hr u (List.mem_cons_of_mem _ hu)) hkept.closed).mono ?_)
      intro c hc
      rw [List.map_reverse, List.mem_append, List.mem_reverse, ← List.mem_append]
      exact hkept.places_subset hc

theorem thin_repeatLazily {r : Results Thread} (hr : ∀ t ∈ r.toList, t.cursor.On cs)
    (h : Closed cls cs seen places) :
    Thin places (r.toList.flatMap (many false cls).outcomes) (repeatLazily cls r seen).toList := by
  induction r generalizing seen places with
  | done => exact .nil places
  | next t more ih =>
      obtain ⟨kept, dropped, seen', hkept⟩ :=
        exists_kept (hr t List.mem_cons_self) rfl (h.closing t.cursor)
      have hout : (many false cls).outcomes t = kept ++ dropped := hkept.climb_eq
      rw [Results.toList, List.flatMap_cons, repeatLazily, hkept.toList_eq, hout,
        List.append_assoc]
      refine (Thin.refl places kept).append (.dropAll ?_ ?_)
      · exact fun u hu => List.mem_append_right _ (hkept.dropped_seen u hu)
      · exact (ih () (fun u hu => hr u (List.mem_cons_of_mem _ hu)) hkept.closed).mono
          hkept.places_subset

theorem closed_empty (cls : Char → Bool) (cs : List Char) (places : List Cursor) :
    Closed cls cs ∅ places := by
  intro c _ hseen
  simp at hseen

theorem sound_flatMap {ts : List Thread} (p : Pattern) (h : ∀ t ∈ ts, t.Sound cs) :
    ∀ u ∈ ts.flatMap p.outcomes, u.Sound cs := by
  intro u hu
  obtain ⟨t, ht, hu⟩ := List.mem_flatMap.1 hu
  exact ((h t ht).outcomes p u hu).1

theorem outcomes_test (test : Thread → Bool) (ts : List Thread) :
    ts.flatMap (fun t => if test t then [t] else []) =
      ts.filterMap fun t => if test t then some t else none := by
  rw [List.filterMap_eq_flatMap_toList]
  congr 1
  funext t
  cases test t <;> rfl

/-- The threads of a search are outcomes of the threads at which it began, in the same order; only
threads whose place an earlier one has reached are left out. -/
theorem thin_run (p : Pattern) {r : Results Thread} (hr : ∀ t ∈ r.toList, t.Sound cs) :
    Thin [] (r.toList.flatMap p.outcomes) (p.run r).toList := by
  induction p generalizing r with
  | empty =>
      show Thin [] (r.toList.flatMap fun t => [t]) r.toList
      rw [List.flatMap_singleton']
      exact .refl _ _
  | one cls =>
      rw [run, Results.toList_filterMap, List.filterMap_eq_flatMap_toList]
      exact .refl _ _
  | literal cs =>
      rw [run, Results.toList_filterMap, List.filterMap_eq_flatMap_toList]
      exact .refl _ _
  | seq a b iha ihb =>
      have hfirst := iha hr
      have hsound : ∀ t ∈ (a.run r).toList, t.Sound cs :=
        fun t ht => sound_flatMap a hr t (hfirst.subset ht)
      have hsecond : Thin [] _ _ := hfirst.flatMap (fun _ _ h => map_cursor_outcomes b h)
        fun _ h => absurd h List.not_mem_nil
      rw [List.flatMap_assoc] at hsecond
      exact hsecond.trans (ihb hsound)
  | alt a b iha ihb =>
      rw [run, Results.toList_flatMap]
      refine .flatMap_congr _ fun t ht => ?_
      have hone : ∀ u ∈ (Results.single t).toList, u.Sound cs := by
        intro u hu
        rw [List.mem_singleton.1 hu]
        exact hr t ht
      have ha := iha hone
      have hb := ihb hone
      rw [show (Results.single t).toList = [t] from rfl, List.flatMap_singleton] at ha hb
      rw [Results.toList_append]
      exact ha.append (hb.mono (List.nil_subset _))
  | many greedy cls =>
      have hon : ∀ t ∈ r.toList, t.cursor.On cs := fun t ht => (hr t ht).on
      cases greedy with
      | true => exact thin_repeatGreedily hon (closed_empty cls cs [])
      | false => exact thin_repeatLazily hon (closed_empty cls cs [])
  | group name p ih =>
      have hopened : (r.filterMap fun t => some t.openGroup).toList =
          r.toList.map Thread.openGroup := by
        rw [Results.toList_filterMap, List.filterMap_eq_map']
      have hsound : ∀ t ∈ (r.filterMap fun t => some t.openGroup).toList, t.Sound cs := by
        rw [hopened]
        intro u hu
        obtain ⟨t, ht, rfl⟩ := List.mem_map.1 hu
        exact (hr t ht).openGroup
      have hthin : Thin [] _ _ := (ih hsound).flatMap (f := fun t => [t.closeGroup name])
        (fun t u h => by
          rw [List.map_singleton, List.map_singleton, closeGroup_cursor, closeGroup_cursor, h])
        fun _ h => absurd h List.not_mem_nil
      have hout : (group name p).outcomes =
          fun t => (p.outcomes t.openGroup).flatMap fun u => [u.closeGroup name] :=
        funext fun _ => List.map_eq_flatMap
      rw [hopened, List.flatMap_map, List.flatMap_assoc] at hthin
      rw [run, Results.toList_filterMap, List.filterMap_eq_map', List.map_eq_flatMap, hout]
      exact hthin
  | lineStart =>
      rw [run, Results.toList_filterMap, ← outcomes_test]
      exact .refl _ _
  | lineEnd =>
      rw [run, Results.toList_filterMap, ← outcomes_test]
      exact .refl _ _
  | wordBoundary =>
      rw [run, Results.toList_filterMap, ← outcomes_test]
      exact .refl _ _

/-- A thread that begins at a place. -/
def Thread.begin (c : Cursor) : Thread :=
  ⟨c.pos, c, [], []⟩

/-- The places from a place on. -/
def Cursor.onward (c : Cursor) : (rest : List Char) → List Cursor
  | [] => [c]
  | d :: ds => c :: (c.skip [d] ds).onward ds

theorem toList_startsFrom (c : Cursor) (rest : List Char) :
    (startsFrom c rest).toList = (c.onward rest).map Thread.begin := by
  induction rest generalizing c with
  | nil => rfl
  | cons d ds ih => exact congrArg (Thread.begin c :: ·) (ih _)

theorem Cursor.On.onward {c : Cursor} (hc : c.On cs) {rest : List Char} (hrest : c.rest = rest) :
    ∀ d ∈ c.onward rest, d.On cs ∧ c.pos ≤ d.pos := by
  induction rest generalizing c with
  | nil =>
      intro d hd
      rw [List.mem_singleton.1 hd]
      exact ⟨hc, Nat.le_refl _⟩
  | cons e es ih =>
      intro d hd
      rcases List.mem_cons.1 hd with rfl | hd
      · exact ⟨hc, Nat.le_refl _⟩
      · obtain ⟨hon, hle⟩ := ih (hc.skip [e] hrest) rfl d hd
        exact ⟨hon, Nat.le_trans (Nat.le_add_right _ _) hle⟩

theorem Cursor.On.moveTo {c : Cursor} (hc : c.On cs) {rest : List Char} (hrest : c.rest = rest)
    (pos : Nat) :
    (Cursor.moveTo pos rest c).On cs ∧
      (pos ≤ Text.byteLength cs → pos ≤ (Cursor.moveTo pos rest c).pos) := by
  induction rest generalizing c with
  | nil =>
      refine ⟨hc, fun hpos => ?_⟩
      have hend := hc.pos_add_rest
      rw [hrest] at hend
      show pos ≤ c.pos
      have hzero : Text.byteLength [] = 0 := rfl
      omega
  | cons d ds ih =>
      rw [Cursor.moveTo]
      split
      · rename_i hle
        exact ⟨hc, fun _ => hle⟩
      · exact ih (hc.skip [d] hrest) rfl

theorem Cursor.on_at (cs : List Char) (pos : Nat) :
    (Cursor.at cs pos).On cs ∧ (pos ≤ Text.byteLength cs → pos ≤ (Cursor.at cs pos).pos) :=
  (Cursor.On.start cs).moveTo rfl pos

/-- All ways in which a pattern matches at or after an offset, those from earlier places first. -/
def candidates (p : Pattern) (cs : List Char) (pos : Nat) : List Thread :=
  let c := Cursor.at cs pos
  ((c.onward c.rest).map Thread.begin).flatMap p.outcomes

theorem sound_starts (cs : List Char) (pos : Nat) :
    ∀ t ∈ (startsFrom (Cursor.at cs pos) (Cursor.at cs pos).rest).toList, t.Sound cs := by
  intro t ht
  rw [toList_startsFrom] at ht
  obtain ⟨c, hc, rfl⟩ := List.mem_map.1 ht
  exact .begin ((Cursor.on_at cs pos).1.onward rfl c hc).1

/-- A search gives the first way to match from the leftmost place that has one. -/
theorem find_eq_head? (p : Pattern) (cs : List Char) (pos : Nat) :
    p.find cs pos = (p.candidates cs pos).head?.map Thread.toMatch := by
  have hthin := (thin_run p (sound_starts cs pos)).head?_eq
  rw [Results.head?_toList, toList_startsFrom] at hthin
  exact congrArg (Option.map Thread.toMatch) hthin

/-- A match that lies between two offsets of a text, with its groups inside it. -/
structure Match.Within (cs : List Char) (earliest : Nat) (m : Match) : Prop where
  whole : m.whole.Within cs earliest (Text.byteLength cs)
  groups : ∀ g ∈ m.groups, g.2.Within cs m.whole.start m.whole.stop

theorem Match.Within.of_group? {cs : List Char} {earliest : Nat} {m : Match}
    (h : m.Within cs earliest) {name : String} {s : Span} (hs : m.group? name = some s) :
    s.Within cs m.whole.start m.whole.stop := by
  obtain ⟨later, earlier, hgroups, -⟩ := List.lookup_eq_some_iff.1 hs
  refine h.groups (name, s) ?_
  rw [hgroups]
  exact List.mem_append_right _ List.mem_cons_self

/-- A match is the outcome of a thread that begins at or behind the offset. -/
theorem exists_of_find {p : Pattern} {pos : Nat} {m : Match} (hpos : pos ≤ Text.byteLength cs)
    (h : p.find cs pos = some m) :
    ∃ c t, c.On cs ∧ pos ≤ c.pos ∧ t ∈ p.outcomes (Thread.begin c) ∧ t.toMatch = m := by
  rw [find_eq_head?] at h
  obtain ⟨t, ht, rfl⟩ := Option.map_eq_some_iff.1 h
  obtain ⟨u, hu, ht⟩ := List.mem_flatMap.1 (List.mem_of_head? ht)
  obtain ⟨c, hc, rfl⟩ := List.mem_map.1 hu
  obtain ⟨hon, hle⟩ := Cursor.on_at cs pos
  obtain ⟨hstart, hfrom⟩ := hon.onward rfl c hc
  exact ⟨c, t, hstart, Nat.le_trans (hle hpos) hfrom, ht, rfl⟩

theorem within_of_find {p : Pattern} {pos : Nat} {m : Match} (hpos : pos ≤ Text.byteLength cs)
    (h : p.find cs pos = some m) : m.Within cs pos := by
  obtain ⟨c, t, hon, hle, ht, rfl⟩ := exists_of_find hpos h
  obtain ⟨hsound, horigin⟩ := (Thread.Sound.begin hon).outcomes p t ht
  have hend := hsound.on.pos_add_rest
  refine ⟨⟨?_, hsound.origin_le, ?_, hsound.origin_boundary, hsound.on.isBoundary⟩,
    hsound.groups⟩
  · show pos ≤ t.origin
    rw [horigin]
    exact hle
  · show t.cursor.pos ≤ _
    omega

/-- The second place is the first one in a text that is longer at its beginning. -/
def Cursor.Shifted (offset : Nat) (c d : Cursor) : Prop :=
  d.pos = offset + c.pos ∧ d.rest = c.rest

theorem Cursor.Shifted.skip {offset : Nat} {c d : Cursor} (h : c.Shifted offset d)
    (seen rest : List Char) : (c.skip seen rest).Shifted offset (d.skip seen rest) := by
  refine ⟨?_, rfl⟩
  show _ + _ = _ + (_ + _)
  rw [h.1, Nat.add_assoc]

theorem Cursor.Shifted.moveTo {offset : Nat} {c d : Cursor} (h : c.Shifted offset d)
    (rest : List Char) (pos : Nat) :
    (Cursor.moveTo pos rest c).Shifted offset (Cursor.moveTo (offset + pos) rest d) := by
  induction rest generalizing c d with
  | nil => exact h
  | cons e es ih =>
      rw [Cursor.moveTo, Cursor.moveTo, h.1]
      simp only [Nat.add_le_add_iff_left]
      split
      · exact h
      · exact ih (h.skip [e] es)

theorem Cursor.Shifted.onward {offset : Nat} {c d : Cursor} (h : c.Shifted offset d)
    (rest : List Char) :
    List.Forall₂ (Cursor.Shifted offset) (c.onward rest) (d.onward rest) := by
  induction rest generalizing c d with
  | nil => exact .cons h .nil
  | cons e es ih => exact .cons h (ih (h.skip [e] es))

theorem exists_moveTo_append (front rest : List Char) (pos : Nat) {c : Cursor}
    (hc : c.rest = front ++ rest) :
    ∃ d : Cursor, d.pos = c.pos + Text.byteLength front ∧ d.rest = rest ∧
      Cursor.moveTo (c.pos + Text.byteLength front + pos) (front ++ rest) c =
        Cursor.moveTo (c.pos + Text.byteLength front + pos) rest d := by
  induction front generalizing c with
  | nil => exact ⟨c, rfl, hc, rfl⟩
  | cons e es ih =>
      have hsize := e.utf8Size_pos
      obtain ⟨d, hpos, hrest, hmove⟩ := ih (c := c.skip [e] (es ++ rest)) rfl
      have hsum : (c.skip [e] (es ++ rest)).pos + Text.byteLength es =
          c.pos + Text.byteLength (e :: es) := by
        show c.pos + (e.utf8Size + 0) + _ = c.pos + (e.utf8Size + _)
        omega
      rw [hsum] at hpos hmove
      refine ⟨d, hpos, hrest, ?_⟩
      rw [List.cons_append, Cursor.moveTo, if_neg, hmove]
      show ¬c.pos + (e.utf8Size + _) + pos ≤ c.pos
      omega

theorem Cursor.shifted_at (front rest : List Char) (pos : Nat) :
    (Cursor.at rest pos).Shifted (Text.byteLength front)
      (Cursor.at (front ++ rest) (Text.byteLength front + pos)) := by
  obtain ⟨d, hpos, hrest, hmove⟩ :=
    exists_moveTo_append front rest pos (c := ⟨none, 0, front ++ rest⟩) rfl
  simp only [Nat.zero_add] at hpos hmove
  rw [Cursor.at, Cursor.at, hmove]
  exact Cursor.Shifted.moveTo ⟨hpos, hrest⟩ rest pos

theorem Thread.Shifted.begin {offset : Nat} {c d : Cursor} (h : c.Shifted offset d) :
    (Thread.begin c).Shifted offset (Thread.begin d) where
  origin := h.1
  pos := h.1
  rest := h.2
  opened := rfl
  groups := rfl

/-- A pattern that does not look behind finds in the later part of a text what it finds from there
on in the whole text. -/
theorem find_append {p : Pattern} (hp : p.looksBehind = false) (front rest : List Char)
    (pos : Nat) :
    p.find (front ++ rest) (Text.byteLength front + pos) =
      (p.find rest pos).map (Match.shift (Text.byteLength front)) := by
  have hat := Cursor.shifted_at front rest pos
  have hstarts := List.rel_map (fun _ _ h => Thread.Shifted.begin h)
    (hat.onward (Cursor.at rest pos).rest)
  have hcandidates : List.Forall₂ (Thread.Shifted (Text.byteLength front))
      (p.candidates rest pos) (p.candidates (front ++ rest) (Text.byteLength front + pos)) := by
    rw [candidates, candidates, hat.2]
    exact List.rel_flatMap hstarts fun _ _ h => (Thread.Shifted.parallel _).outcomes
      (fun hbehind => absurd (hp.symm.trans hbehind) Bool.false_ne_true) h
  rw [find_eq_head?, find_eq_head?]
  revert hcandidates
  generalize p.candidates rest pos = ts
  generalize p.candidates (front ++ rest) _ = us
  intro hcandidates
  cases hcandidates with
  | nil => rfl
  | cons h _ => exact congrArg some h.toMatch

end IpRegistry.Pattern
