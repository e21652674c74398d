import IpRegistry.Proofs.Pattern.Matches

namespace IpRegistry.Pattern

/-- The pattern can match the text `seen`, wherever it stands, with these texts of its groups, the
group that is complete last first. -/
def Reads : Pattern → (seen : List Char) → (groups : List (String × List Char)) → Prop
  | one cls, seen, groups => (∃ c, cls c = true ∧ seen = [c]) ∧ groups = []
  | literal cs, seen, groups => seen = cs ∧ groups = []
  | seq a b, seen, groups => ∃ front back earlier later,
      a.Reads front earlier ∧ b.Reads back later ∧ seen = front ++ back ∧ groups = later ++ earlier
  | alt a b, seen, groups => a.Reads seen groups ∨ b.Reads seen groups
  | many _ cls, seen, groups => (∀ c ∈ seen, cls c = true) ∧ groups = []
  | group name p, seen, groups => ∃ inner, p.Reads seen inner ∧ groups = (name, seen) :: inner
  | empty, seen, groups | lineStart, seen, groups | lineEnd, seen, groups
  | wordBoundary, seen, groups => seen = [] ∧ groups = []

/-- The texts of groups. -/
def captured (cs : List Char) (groups : List (String × Span)) : List (String × List Char) :=
  groups.map fun g => (g.1, Text.slice cs g.2.start g.2.stop)

theorem lookup_captured (cs : List Char) (groups : List (String × Span)) (name : String) :
    (captured cs groups).lookup name =
      (groups.lookup name).map fun span => Text.slice cs span.start span.stop := by
  induction groups with
  | nil => rfl
  | cons g groups ih =>
      rw [captured, List.map_cons, List.lookup_cons, List.lookup_cons]
      cases name == g.1 with
      | true => rfl
      | false => exact ih

/-- From one thread to another a text is read and groups with these texts are completed. -/
structure Thread.Advances (cs : List Char) (t u : Thread) (seen : List Char)
    (found : List (String × List Char)) : Prop where
  rest : t.cursor.rest = seen ++ u.cursor.rest
  pos : u.cursor.pos = t.cursor.pos + Text.byteLength seen
  opened : u.opened = t.opened
  groups : ∃ spans, u.groups = spans ++ t.groups ∧ captured cs spans = found

namespace Thread.Advances

variable {cs seen seen' : List Char} {t u v : Thread} {found found' : List (String × List Char)}

theorem refl (cs : List Char) (t : Thread) : t.Advances cs t [] [] where
  rest := rfl
  pos := rfl
  opened := rfl
  groups := ⟨[], rfl, rfl⟩

theorem skip (cs : List Char) {t : Thread} (seen : List Char) {rest : List Char}
    (h : t.cursor.rest = seen ++ rest) : t.Advances cs (t.skip seen rest) seen [] where
  rest := h
  pos := rfl
  opened := rfl
  groups := ⟨[], rfl, rfl⟩

theorem trans (htu : t.Advances cs u seen found) (huv : u.Advances cs v seen' found') :
    t.Advances cs v (seen ++ seen') (found' ++ found) where
  rest := by rw [htu.rest, huv.rest, List.append_assoc]
  pos := by rw [huv.pos, htu.pos, Text.byteLength_append, Nat.add_assoc]
  opened := huv.opened.trans htu.opened
  groups := by
    obtain ⟨spans, hspans, rfl⟩ := htu.groups
    obtain ⟨later, hlater, rfl⟩ := huv.groups
    exact ⟨later ++ spans, by rw [hlater, hspans, List.append_assoc], List.map_append⟩

/-- The text between two threads stands in the whole text. -/
theorem slice_eq (h : t.Advances cs u seen found) (hon : t.cursor.On cs) :
    Text.slice cs t.cursor.pos u.cursor.pos = seen := by
  obtain ⟨front, hcs, hpos, -⟩ := hon
  rw [Text.slice, h.pos, Nat.add_sub_cancel_left, hcs, hpos, Text.dropBytes_byteLength, h.rest,
    Text.takeBytes_byteLength]

theorem closeGroup (name : String) (h : t.openGroup.Advances cs u seen found)
    (hon : t.cursor.On cs) :
    t.Advances cs (u.closeGroup name) seen ((name, seen) :: found) := by
  have hopened : u.opened = t.cursor.pos :: t.opened := h.opened
  have hslice : Text.slice cs t.cursor.pos u.cursor.pos = seen := h.slice_eq hon
  obtain ⟨spans, hspans, rfl⟩ := h.groups
  rw [Thread.closeGroup, hopened]
  refine ⟨h.rest, h.pos, rfl, (name, ⟨t.cursor.pos, u.cursor.pos⟩) :: spans, ?_, ?_⟩
  · rw [List.cons_append, hspans]
    rfl
  · rw [captured, List.map_cons, hslice]
    rfl

end Thread.Advances

variable {cs : List Char} {t u : Thread}

theorem exists_of_mem_climb {cls : Char → Bool} {rest : List Char} (hrest : t.cursor.rest = rest)
    (h : u ∈ Thread.climb cls rest t) :
    ∃ seen, (∀ c ∈ seen, cls c = true) ∧ t.Advances cs u seen [] := by
  induction rest generalizing t with
  | nil =>
      rw [List.mem_singleton.1 h]
      exact ⟨[], nofun, .refl cs t⟩
  | cons c rest ih =>
      rw [Thread.climb] at h
      split at h
      · rename_i hc
        rcases List.mem_cons.1 h with rfl | h
        · exact ⟨[], nofun, .refl cs u⟩
        · obtain ⟨seen, hseen, hadvances⟩ := ih rfl h
          refine ⟨c :: seen, ?_, (Thread.Advances.skip cs [c] hrest).trans hadvances⟩
          rintro d (_ | ⟨_, hd⟩)
          · exact hc
          · exact hseen d hd
      · rw [List.mem_singleton.1 h]
        exact ⟨[], nofun, .refl cs t⟩

/-- A pattern reads the text between a thread and an outcome. -/
theorem exists_reads (p : Pattern) (ht : t.Sound cs) (h : u ∈ p.outcomes t) :
    ∃ seen found, p.Reads seen found ∧ t.Advances cs u seen found := by
  induction p generalizing t u with
  | empty =>
      rw [List.mem_singleton.1 h]
      exact ⟨[], [], ⟨rfl, rfl⟩, .refl cs t⟩
  | lineStart | lineEnd | wordBoundary =>
      rw [mem_test h]
      exact ⟨[], [], ⟨rfl, rfl⟩, .refl cs t⟩
  | one cls =>
      rw [outcomes, Option.mem_toList, Thread.one] at h
      split at h
      · rename_i c rest hrest
        split at h
        · rename_i hc
          cases h
          exact ⟨[c], [], ⟨⟨c, hc, rfl⟩, rfl⟩, .skip cs [c] hrest⟩
        · cases h
      · cases h
  | literal text =>
      rw [outcomes, Option.mem_toList, Thread.literal] at h
      split at h
      · rename_i hprefix
        have hrest := List.prefix_iff_eq_append.1 (List.isPrefixOf_iff_prefix.1 hprefix)
        cases h
        exact ⟨text, [], ⟨rfl, rfl⟩, .skip cs text hrest.symm⟩
      · cases h
  | seq a b iha ihb =>
      obtain ⟨v, hv, hu⟩ := List.mem_flatMap.1 h
      obtain ⟨front, earlier, hfront, htv⟩ := iha ht hv
      obtain ⟨back, later, hback, hvu⟩ := ihb (ht.outcomes a v hv).1 hu
      exact ⟨front ++ back, later ++ earlier,
        ⟨front, back, earlier, later, hfront, hback, rfl, rfl⟩, htv.trans hvu⟩
  | alt a b iha ihb =>
      rcases List.mem_append.1 h with h | h
      · obtain ⟨seen, found, hreads, hadvances⟩ := iha ht h
        exact ⟨seen, found, .inl hreads, hadvances⟩
      · obtain ⟨seen, found, hreads, hadvances⟩ := ihb ht h
        exact ⟨seen, found, .inr hreads, hadvances⟩
  | many greedy cls =>
      have hclimb : u ∈ Thread.climb cls t.cursor.rest t := by
        cases greedy with
        | true => exact List.mem_reverse.1 h
        | false => exact h
      obtain ⟨seen, hseen, hadvances⟩ := exists_of_mem_climb rfl hclimb
      exact ⟨seen, [], ⟨hseen, rfl⟩, hadvances⟩
  | group name p ih =>
      obtain ⟨v, hv, rfl⟩ := List.mem_map.1 h
      obtain ⟨seen, found, hreads, hadvances⟩ := ih ht.openGroup hv
      exact ⟨seen, (name, seen) :: found, ⟨found, hreads, rfl⟩, hadvances.closeGroup name ht.on⟩

theorem reads_atLeastOne {greedy : Bool} {cls : Char → Bool} {seen : List Char}
    {groups : List (String × List Char)} (h : (atLeastOne greedy cls).Reads seen groups) :
    seen ≠ [] ∧ (∀ c ∈ seen, cls c = true) ∧ groups = [] := by
  obtain ⟨-, back, -, -, ⟨⟨c, hc, rfl⟩, rfl⟩, ⟨hback, rfl⟩, rfl, rfl⟩ := h
  exact ⟨List.cons_ne_nil _ _, List.forall_mem_cons.mpr ⟨hc, hback⟩, rfl⟩

theorem reads_oneOf_texts {keys : List String} {seen : List Char}
    {groups : List (String × List Char)} (h : (oneOf (keys.map ofText)).Reads seen groups) :
    (∃ key ∈ keys, seen = key.toList) ∧ groups = [] := by
  induction keys with
  | nil =>
      obtain ⟨⟨c, hc, -⟩, -⟩ := h
      cases hc
  | cons key keys ih =>
      cases keys with
      | nil => exact ⟨⟨key, List.mem_cons_self, h.1⟩, h.2⟩
      | cons next keys =>
          rcases h with h | h
          · exact ⟨⟨key, List.mem_cons_self, h.1⟩, h.2⟩
          · obtain ⟨⟨other, hother, hseen⟩, hgroups⟩ := ih h
            exact ⟨⟨other, List.mem_cons_of_mem _ hother, hseen⟩, hgroups⟩

/-- The pattern reads the text of a match, and the groups of the match have the texts it reads. -/
def Match.Reads (p : Pattern) (cs : List Char) (m : Match) : Prop :=
  p.Reads (Text.slice cs m.whole.start m.whole.stop) (captured cs m.groups)

theorem reads_of_find {p : Pattern} {pos : Nat} {m : Match} (hpos : pos ≤ Text.byteLength cs)
    (h : p.find cs pos = some m) : m.Reads p cs := by
  obtain ⟨c, t, hon, -, ht, rfl⟩ := exists_of_find hpos h
  have hsound := Thread.Sound.begin hon
  obtain ⟨seen, found, hreads, hadvances⟩ := exists_reads p hsound ht
  have horigin : t.origin = c.pos := (hsound.outcomes p t ht).2
  obtain ⟨spans, hspans, rfl⟩ := hadvances.groups
  have hgroups : t.groups = spans := hspans.trans (List.append_nil spans)
  have hslice : Text.slice cs c.pos t.cursor.pos = seen := hadvances.slice_eq hon
  show p.Reads (Text.slice cs t.origin t.cursor.pos) (captured cs t.groups)
  rw [horigin, hslice, hgroups]
  exact hreads

theorem reads_of_mem_findAllFrom {p : Pattern} {pos : Nat} {m : Match}
    (h : m ∈ p.findAllFrom cs pos) : m.Reads p cs := by
  induction pos using findAllFrom.induct p cs with
  | case1 pos hpos hnone =>
      rw [findAllFrom_of_eq_none hnone] at h
      cases h
  | case2 pos hpos n hn hlt ih =>
      rw [findAllFrom, if_pos hpos, hn] at h
      simp only [if_pos hlt] at h
      rcases List.mem_cons.1 h with rfl | h
      · exact reads_of_find hpos hn
      · exact ih h
  | case3 pos hpos n hn hle =>
      rw [findAllFrom, if_pos hpos, hn] at h
      simp only [if_neg hle] at h
      rw [List.mem_singleton.1 h]
      exact reads_of_find hpos hn
  | case4 pos hpos =>
      rw [findAllFrom, if_neg hpos] at h
      cases h

theorem reads_of_mem_findAll {p : Pattern} {m : Match} (h : m ∈ p.findAll cs) : m.Reads p cs :=
  reads_of_mem_findAllFrom h

theorem Match.text?_eq (m : Match) (cs : List Char) (name : String) :
    m.text? cs name = (captured cs m.groups).lookup name :=
  (lookup_captured cs m.groups name).symm

end IpRegistry.Pattern
