import IpRegistry.Proofs.Keyed
import Mathlib.Algebra.BigOperators.Group.List.Basic
import Mathlib.Algebra.GroupWithZero.Nat
import Mathlib.Data.List.Induction
import Mathlib.Data.List.Nodup

namespace IpRegistry.Keyed

variable {κ α β : Type} [DecidableEq κ] {start : α} {f : β → α → α}

/-- The values of all keys after each item has changed the value of its key. -/
def collect (start : α) (f : β → α → α) (items : List (κ × β)) : Keyed κ α :=
  items.foldl (fun values item => values.update item.1 start (f item.2)) []

/-- What the items give for a key. -/
def valuesOf (key : κ) (items : List (κ × β)) : List β :=
  (items.filter (·.1 = key)).map Prod.snd

theorem collect_concat (items : List (κ × β)) (item : κ × β) :
    collect start f (items ++ [item]) =
      (collect start f items).update item.1 start (f item.2) := by
  rw [collect, collect, List.foldl_concat]

theorem valuesOf_concat (key : κ) (items : List (κ × β)) (item : κ × β) :
    valuesOf key (items ++ [item]) =
      valuesOf key items ++ if item.1 = key then [item.2] else [] := by
  rw [valuesOf, valuesOf, List.filter_append, List.map_append]
  by_cases hkey : item.1 = key <;> simp [hkey]

theorem lookup_collect (key : κ) (items : List (κ × β)) :
    (collect start f items).lookup key =
      if valuesOf key items = [] then none
      else some ((valuesOf key items).foldl (fun a b => f b a) start) := by
  induction items using List.reverseRecOn with
  | nil => rfl
  | append_singleton items item ih =>
      rw [collect_concat, lookup_update, valuesOf_concat]
      by_cases hkey : key = item.1
      · subst hkey
        rw [ih]
        by_cases hnone : valuesOf item.1 items = [] <;> simp [hnone]
      · have hkey' : item.1 ≠ key := fun heq => hkey heq.symm
        simp [hkey, hkey', ih]

theorem nodup_keys_collect (items : List (κ × β)) :
    ((collect start f items).map Prod.fst).Nodup := by
  induction items using List.reverseRecOn with
  | nil => exact List.nodup_nil
  | append_singleton items item ih =>
      rw [collect_concat]
      exact nodup_keys_update ih _ _ _

theorem valuesOf_ne_nil_iff {key : κ} {items : List (κ × β)} :
    valuesOf key items ≠ [] ↔ key ∈ items.map Prod.fst := by
  rw [valuesOf, Ne, List.map_eq_nil_iff, List.filter_eq_nil_iff, List.mem_map]
  simp only [decide_eq_true_eq, not_forall, not_not, exists_prop]

theorem mem_keys_collect {key : κ} {items : List (κ × β)} :
    key ∈ (collect start f items).map Prod.fst ↔ key ∈ items.map Prod.fst := by
  rw [mem_keys_iff, lookup_collect, ← valuesOf_ne_nil_iff]
  by_cases hnone : valuesOf key items = [] <;> simp [hnone]

theorem length_valuesOf (key : κ) (items : List (κ × β)) :
    (valuesOf key items).length = (items.map Prod.fst).count key := by
  rw [valuesOf, List.length_map, List.count, List.countP_map, List.countP_eq_length_filter]
  congr 1

theorem count_valuesOf [BEq β] [LawfulBEq β] (key : κ) (b : β) (items : List (κ × β)) :
    (valuesOf key items).count b = items.count (key, b) := by
  induction items with
  | nil => rfl
  | cons item items ih =>
      obtain ⟨k, c⟩ := item
      have hcons : valuesOf key ((k, c) :: items) =
          (if k = key then [c] else []) ++ valuesOf key items := by
        by_cases hkey : k = key <;> simp [valuesOf, hkey]
      rw [hcons, List.count_append, ih, List.count_cons]
      by_cases hkey : k = key <;> by_cases hb : c = b <;> simp [hkey, hb, Nat.add_comm]

/-- If each item adds one to what is measured, the measures add up to the number of items. -/
theorem sum_collect {g : α → Nat} (hstart : g start = 0) (hf : ∀ b a, g (f b a) = g a + 1)
    (items : List (κ × β)) :
    ((collect start f items).map fun entry => g entry.2).sum = items.length := by
  have hupdate : ∀ (key : κ) (b : β) (values : Keyed κ α),
      ((update key start (f b) values).map fun entry => g entry.2).sum =
        (values.map fun entry => g entry.2).sum + 1 := by
    intro key b values
    induction values with
    | nil => simp [update, hf, hstart]
    | cons value values ih =>
        obtain ⟨k, a⟩ := value
        rw [update]
        split
        · simp only [List.map_cons, List.sum_cons, hf]
          omega
        · simp only [List.map_cons, List.sum_cons, ih]
          omega
  induction items using List.reverseRecOn with
  | nil => rfl
  | append_singleton items item ih =>
      rw [collect_concat, hupdate, ih, List.length_append, List.length_singleton]

end IpRegistry.Keyed
