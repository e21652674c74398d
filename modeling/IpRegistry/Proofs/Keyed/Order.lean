import IpRegistry.Keyed
import Mathlib.Data.List.Induction
import Mathlib.Data.String.Basic

namespace IpRegistry.Keyed

variable {κ α β : Type}

/-- Puts the value of a key at its place; a value of a key of the same name is replaced. -/
def insertInOrder (name : κ → String) (key : κ) (a : α) : Keyed κ α → Keyed κ α
  | [] => [(key, a)]
  | (k, b) :: rest =>
    if name key < name k then (key, a) :: (k, b) :: rest
    else if name key = name k then (key, a) :: rest
    else (k, b) :: insertInOrder name key a rest

/-- The values in the order of the names of their keys; of two values of one key the later one
counts. -/
def inOrder (name : κ → String) (items : Keyed κ α) : Keyed κ α :=
  items.foldl (fun held item => insertInOrder name item.1 item.2 held) []

/-- The keys stand in the order of their names, each once. -/
def Ordered (name : κ → String) (items : Keyed κ α) : Prop :=
  items.Pairwise fun i j => name i.1 < name j.1

theorem Ordered.nodup {name : κ → String} {items : Keyed κ α} (h : Ordered name items) :
    items.Nodup :=
  h.imp fun hlt heq => hlt.ne (congrArg (name ·.1) heq)

theorem inOrder_append_singleton (name : κ → String) (items : Keyed κ α) (item : κ × α) :
    inOrder name (items ++ [item]) = insertInOrder name item.1 item.2 (inOrder name items) := by
  rw [inOrder, List.foldl_append]
  rfl

theorem mem_of_mem_insertInOrder {name : κ → String} {key : κ} {a : α} {items : Keyed κ α}
    {item : κ × α} (h : item ∈ insertInOrder name key a items) : item = (key, a) ∨ item ∈ items := by
  induction items with
  | nil => exact .inl (List.mem_singleton.mp h)
  | cons first rest ih =>
    rw [insertInOrder] at h
    split at h
    · exact List.mem_cons.mp h
    · split at h
      · exact (List.mem_cons.mp h).imp_right (List.mem_cons_of_mem _)
      · rcases List.mem_cons.mp h with rfl | h
        · exact .inr List.mem_cons_self
        · exact (ih h).imp_right (List.mem_cons_of_mem _)

theorem mem_of_mem_inOrder {name : κ → String} {items : Keyed κ α} {item : κ × α}
    (h : item ∈ inOrder name items) : item ∈ items := by
  induction items using List.reverseRecOn with
  | nil => cases h
  | append_singleton items last ih =>
    rw [inOrder_append_singleton] at h
    rw [List.mem_append, List.mem_singleton]
    exact (mem_of_mem_insertInOrder h).symm.imp_left ih

theorem ordered_insertInOrder {name : κ → String} {items : Keyed κ α} (h : Ordered name items)
    (key : κ) (a : α) : Ordered name (insertInOrder name key a items) := by
  induction items with
  | nil => exact List.pairwise_singleton _ _
  | cons first rest ih =>
    obtain ⟨hfirst, hrest⟩ := List.pairwise_cons.mp h
    rw [insertInOrder]
    split
    · rename_i hlt
      refine List.pairwise_cons.mpr ⟨?_, h⟩
      intro item hitem
      rcases List.mem_cons.mp hitem with rfl | hitem
      · exact hlt
      · exact hlt.trans (hfirst item hitem)
    · split
      · rename_i heq
        refine List.pairwise_cons.mpr ⟨?_, hrest⟩
        intro item hitem
        exact heq ▸ hfirst item hitem
      · rename_i hge hne
        refine List.pairwise_cons.mpr ⟨?_, ih hrest⟩
        intro item hitem
        rcases mem_of_mem_insertInOrder hitem with rfl | hitem
        · exact lt_of_le_of_ne (not_lt.mp hge) (Ne.symm hne)
        · exact hfirst item hitem

theorem ordered_inOrder (name : κ → String) (items : Keyed κ α) :
    Ordered name (inOrder name items) := by
  induction items using List.reverseRecOn with
  | nil => exact List.Pairwise.nil
  | append_singleton items last ih =>
    rw [inOrder_append_singleton]
    exact ordered_insertInOrder ih _ _

theorem insertInOrder_of_forall_lt {name : κ → String} {key : κ} {items : Keyed κ α}
    (h : ∀ item ∈ items, name item.1 < name key) (a : α) :
    insertInOrder name key a items = items ++ [(key, a)] := by
  induction items with
  | nil => rfl
  | cons first rest ih =>
    obtain ⟨hfirst, hrest⟩ := List.forall_mem_cons.mp h
    rw [insertInOrder, if_neg hfirst.asymm, if_neg hfirst.ne', ih hrest]
    rfl

theorem insertInOrder_of_forall_gt {name : κ → String} {key : κ} {items : Keyed κ α}
    (h : ∀ item ∈ items, name key < name item.1) (a : α) :
    insertInOrder name key a items = (key, a) :: items := by
  cases items with
  | nil => rfl
  | cons first rest => exact if_pos (h first List.mem_cons_self)

theorem inOrder_eq_self {name : κ → String} {items : Keyed κ α} (h : Ordered name items) :
    inOrder name items = items := by
  induction items using List.reverseRecOn with
  | nil => rfl
  | append_singleton items last ih =>
    obtain ⟨hitems, -, hlast⟩ := List.pairwise_append.mp h
    rw [inOrder_append_singleton, ih hitems]
    exact insertInOrder_of_forall_lt (fun item hitem => hlast item hitem last (by simp)) _

theorem inOrder_inOrder (name : κ → String) (items : Keyed κ α) :
    inOrder name (inOrder name items) = inOrder name items :=
  inOrder_eq_self (ordered_inOrder name items)

theorem insertInOrder_map (name : κ → String) (f : α → β) (key : κ) (a : α) (items : Keyed κ α) :
    insertInOrder id (name key) (f a) (items.map fun item => (name item.1, f item.2)) =
      (insertInOrder name key a items).map fun item => (name item.1, f item.2) := by
  induction items with
  | nil => rfl
  | cons first rest ih =>
    simp only [List.map_cons, insertInOrder, id_eq, ih]
    split
    · rfl
    · split <;> rfl

theorem inOrder_map (name : κ → String) (f : α → β) (items : Keyed κ α) :
    inOrder id (items.map fun item => (name item.1, f item.2)) =
      (inOrder name items).map fun item => (name item.1, f item.2) := by
  induction items using List.reverseRecOn with
  | nil => rfl
  | append_singleton items last ih =>
    rw [List.map_append, List.map_singleton, inOrder_append_singleton, inOrder_append_singleton, ih]
    exact insertInOrder_map name f _ _ _

theorem filter_insertInOrder {name : κ → String} {items : Keyed κ α} (h : Ordered name items)
    (p : String → Bool) (key : κ) (a : α) :
    (insertInOrder name key a items).filter (fun item => p (name item.1)) =
      if p (name key) then insertInOrder name key a (items.filter fun item => p (name item.1))
      else items.filter fun item => p (name item.1) := by
  induction items with
  | nil => simp [insertInOrder, List.filter_cons]
  | cons first rest ih =>
    obtain ⟨hfirst, hrest⟩ := List.pairwise_cons.mp h
    rw [insertInOrder]
    split
    · rename_i hlt
      have hbefore : ∀ item ∈ (first :: rest).filter fun item => p (name item.1),
          name key < name item.1 := by
        intro item hitem
        rcases List.mem_cons.mp (List.mem_of_mem_filter hitem) with rfl | hitem
        · exact hlt
        · exact hlt.trans (hfirst item hitem)
      rw [insertInOrder_of_forall_gt hbefore]
      exact List.filter_cons
    · split
      · rename_i hle heq
        rw [List.filter_cons, List.filter_cons, heq]
        split
        · rw [insertInOrder, if_neg hle, if_pos heq]
        · rfl
      · rename_i hle hne
        rw [List.filter_cons, List.filter_cons, ih hrest]
        split
        · rw [insertInOrder, if_neg hle, if_neg hne]
          split <;> rfl
        · rfl

theorem filter_inOrder (name : κ → String) (p : String → Bool) (items : Keyed κ α) :
    (inOrder name items).filter (fun item => p (name item.1)) =
      inOrder name (items.filter fun item => p (name item.1)) := by
  induction items using List.reverseRecOn with
  | nil => rfl
  | append_singleton items last ih =>
    rw [inOrder_append_singleton, filter_insertInOrder (ordered_inOrder name items), ih,
      List.filter_append, List.filter_singleton]
    cases p (name last.1) with
    | true => exact (inOrder_append_singleton name _ last).symm
    | false => exact congrArg (inOrder name) (List.append_nil _).symm

end IpRegistry.Keyed
