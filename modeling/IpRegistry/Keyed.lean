/-!
Values by keys: one value for each key, in the order in which the keys came first.
-/

namespace IpRegistry

abbrev Keyed (κ α : Type) := List (κ × α)

namespace Keyed

variable {κ α : Type} [DecidableEq κ]

/-- Changes the value of a key; a key without a value starts from the given one. -/
def update (key : κ) (start : α) (f : α → α) : Keyed κ α → Keyed κ α
  | [] => [(key, f start)]
  | (k, v) :: rest => if k = key then (k, f v) :: rest else (k, v) :: update key start f rest

def insert (key : κ) (a : α) (items : Keyed κ α) : Keyed κ α :=
  update key a (fun _ => a) items

theorem lookup_update (key k : κ) (start : α) (f : α → α) (items : Keyed κ α) :
    (update key start f items).lookup k =
      if k = key then some (f ((items.lookup key).getD start)) else items.lookup k := by
  have hbeq (a b : κ) : (a == b) = decide (a = b) := rfl
  induction items with
  | nil => by_cases hk : k = key <;> simp [update, List.lookup_cons, hbeq, hk]
  | cons item rest ih =>
    obtain ⟨l, v⟩ := item
    by_cases hl : l = key
    · subst hl
      by_cases hk : k = l <;> simp [update, List.lookup_cons, hbeq, hk]
    · by_cases hk : k = l
      · subst hk
        simp [update, hl]
      · have hl' : ¬key = l := fun h => hl h.symm
        simp [update, List.lookup_cons, hbeq, hl, hl', hk, ih]

theorem lookup_insert (key k : κ) (a : α) (items : Keyed κ α) :
    (insert key a items).lookup k = if k = key then some a else items.lookup k := by
  simp [insert, lookup_update]

end Keyed

end IpRegistry
