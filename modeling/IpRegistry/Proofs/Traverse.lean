import Mathlib.Data.List.Forall2

namespace IpRegistry

variable {α β γ : Type}

theorem mapM_congr {f g : α → Option β} {items : List α} (h : ∀ a ∈ items, f a = g a) :
    items.mapM f = items.mapM g := by
  induction items with
  | nil => rfl
  | cons a rest ih =>
    rw [List.mapM_cons, List.mapM_cons, h a List.mem_cons_self,
      ih fun b hb => h b (List.mem_cons_of_mem _ hb)]

theorem mapM_map_eq_some {f : β → Option γ} {e : α → β} (g : α → γ) {items : List α}
    (h : ∀ a ∈ items, f (e a) = some (g a)) : (items.map e).mapM f = some (items.map g) := by
  rw [List.mapM_map, mapM_congr (f := f ∘ e) h]
  exact List.mapM_pure

theorem mapM_id_mapIdx_some (f : Nat → α → β) (items : List α) :
    (items.mapIdx fun index a => some (f index a)).mapM id = some (items.mapIdx f) := by
  rw [List.mapIdx_eq_zipIdx_map, List.mapIdx_eq_zipIdx_map]
  exact mapM_map_eq_some _ fun _ _ => rfl

theorem mapM_eq_none_iff {f : α → Option β} {items : List α} :
    items.mapM f = none ↔ ∃ a ∈ items, f a = none := by
  induction items with
  | nil => simp
  | cons a rest ih =>
    rw [List.mapM_cons, List.exists_mem_cons_iff, ← ih]
    cases f a <;> cases rest.mapM f <;> simp

theorem exists_of_mapM {f : α → Option β} {items : List α} {results : List β}
    (h : items.mapM f = some results) {b : β} (hb : b ∈ results) : ∃ a ∈ items, f a = some b := by
  induction items generalizing results with
  | nil =>
    cases h
    cases hb
  | cons a rest ih =>
    simp only [List.mapM_cons, Option.bind_eq_bind, Option.bind_eq_some_iff] at h
    obtain ⟨first, hfirst, others, hothers, heq⟩ := h
    cases heq
    rcases List.mem_cons.mp hb with rfl | hb
    · exact ⟨a, List.mem_cons_self, hfirst⟩
    · obtain ⟨a', ha', hread⟩ := ih hothers hb
      exact ⟨a', List.mem_cons_of_mem a ha', hread⟩

/-- What stands in the first of two related lists is related to something in the second. -/
theorem exists_of_forall₂ {R : α → β → Prop} {items : List α} {results : List β}
    (h : List.Forall₂ R items results) : ∀ a ∈ items, ∃ b ∈ results, R a b := by
  induction h with
  | nil => exact List.forall_mem_nil _
  | cons hfirst _ ih =>
    refine List.forall_mem_cons.2 ⟨⟨_, List.mem_cons_self, hfirst⟩, fun a ha => ?_⟩
    obtain ⟨b, hb, hR⟩ := ih a ha
    exact ⟨b, List.mem_cons_of_mem _ hb, hR⟩

variable {ε : Type} {f : α → Except ε β} {items : List α}

theorem mapM_eq_ok_iff {results : List β} :
    items.mapM f = .ok results ↔ List.Forall₂ (fun a b => f a = .ok b) items results := by
  induction items generalizing results with
  | nil =>
    rw [List.forall₂_nil_left_iff]
    exact ⟨fun h => (Except.ok.inj h).symm, fun h => congrArg Except.ok h.symm⟩
  | cons a rest ih =>
    rw [List.mapM_cons, List.forall₂_cons_left_iff]
    constructor
    · intro h
      cases hfirst : f a with
      | error e =>
        rw [hfirst] at h
        cases h
      | ok first =>
        cases hothers : rest.mapM f with
        | error e =>
          rw [hfirst, hothers] at h
          cases h
        | ok others =>
          rw [hfirst, hothers] at h
          exact ⟨first, others, rfl, ih.1 hothers, (Except.ok.inj h).symm⟩
    · rintro ⟨first, others, hfirst, hothers, rfl⟩
      rw [hfirst, ih.2 hothers]
      rfl

theorem exists_of_mapM_eq_ok {results : List β} (h : items.mapM f = .ok results) :
    ∀ b ∈ results, ∃ a ∈ items, f a = .ok b :=
  exists_of_forall₂ (List.Forall₂.flip (mapM_eq_ok_iff.1 h))

/-- The error is that of one of the items. -/
theorem exists_of_mapM_eq_error {e : ε} (h : items.mapM f = .error e) :
    ∃ a ∈ items, f a = .error e := by
  induction items with
  | nil => cases h
  | cons a rest ih =>
    rw [List.mapM_cons] at h
    cases hfirst : f a with
    | error e' =>
      rw [hfirst] at h
      exact ⟨a, List.mem_cons_self, hfirst.trans (congrArg _ (Except.error.inj h))⟩
    | ok first =>
      cases hothers : rest.mapM f with
      | error e' =>
        rw [hfirst, hothers] at h
        obtain ⟨a', ha', hfails⟩ := ih (hothers.trans (congrArg _ (Except.error.inj h)))
        exact ⟨a', List.mem_cons_of_mem a ha', hfails⟩
      | ok others =>
        rw [hfirst, hothers] at h
        cases h

theorem exists_mapM_eq_error_iff :
    (∃ e, items.mapM f = .error e) ↔ ∃ a ∈ items, ∃ e, f a = .error e := by
  constructor
  · rintro ⟨e, h⟩
    obtain ⟨a, ha, hfails⟩ := exists_of_mapM_eq_error h
    exact ⟨a, ha, e, hfails⟩
  · rintro ⟨a, ha, e, hfails⟩
    cases h : items.mapM f with
    | error e' => exact ⟨e', rfl⟩
    | ok results =>
      obtain ⟨b, -, hread⟩ := exists_of_forall₂ (mapM_eq_ok_iff.1 h) a ha
      rw [hfails] at hread
      cases hread

end IpRegistry
