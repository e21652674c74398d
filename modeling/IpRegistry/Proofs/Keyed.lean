import IpRegistry.Keyed

namespace IpRegistry.Keyed

variable {κ α : Type} [DecidableEq κ]

theorem mem_keys_iff {key : κ} {items : Keyed κ α} :
    key ∈ items.map Prod.fst ↔ (items.lookup key).isSome = true := by
  induction items with
  | nil => exact iff_of_false List.not_mem_nil Bool.false_ne_true
  | cons item rest ih =>
      rw [List.map_cons, List.mem_cons, List.lookup_cons, ih]
      cases hkey : key == item.1 with
      | true => exact iff_of_true (.inl (eq_of_beq hkey)) rfl
      | false => exact or_iff_right (ne_of_beq_false hkey)

theorem keys_update_of_mem {key : κ} {items : Keyed κ α} (h : key ∈ items.map Prod.fst)
    (start : α) (f : α → α) : (update key start f items).map Prod.fst = items.map Prod.fst := by
  induction items with
  | nil => cases h
  | cons item rest ih =>
      obtain ⟨k, v⟩ := item
      rw [update]
      split
      · rfl
      · rename_i hne
        have hrest := (List.mem_cons.1 h).resolve_left fun heq => hne heq.symm
        rw [List.map_cons, List.map_cons, ih hrest]

theorem keys_update_of_not_mem {key : κ} {items : Keyed κ α} (h : key ∉ items.map Prod.fst)
    (start : α) (f : α → α) :
    (update key start f items).map Prod.fst = items.map Prod.fst ++ [key] := by
  induction items with
  | nil => rfl
  | cons item rest ih =>
      obtain ⟨k, v⟩ := item
      rw [List.map_cons, List.mem_cons, not_or] at h
      rw [update, if_neg fun heq => h.1 heq.symm, List.map_cons, List.map_cons, ih h.2]
      rfl

theorem nodup_keys_update {items : Keyed κ α} (h : (items.map Prod.fst).Nodup) (key : κ) (start : α)
    (f : α → α) : ((update key start f items).map Prod.fst).Nodup := by
  by_cases hmem : key ∈ items.map Prod.fst
  · rwa [keys_update_of_mem hmem]
  · rw [keys_update_of_not_mem hmem, List.nodup_append]
    refine ⟨h, List.pairwise_singleton _ key, ?_⟩
    rintro k hk _ hkey rfl
    rw [List.mem_singleton.1 hkey] at hk
    exact hmem hk

theorem nodup_keys_insert {items : Keyed κ α} (h : (items.map Prod.fst).Nodup) (key : κ) (a : α) :
    ((insert key a items).map Prod.fst).Nodup :=
  nodup_keys_update h key a fun _ => a

end IpRegistry.Keyed
