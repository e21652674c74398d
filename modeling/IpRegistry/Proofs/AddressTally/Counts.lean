import IpRegistry.AddressTally
import IpRegistry.Proofs.Keyed.Collect

namespace IpRegistry

namespace Keyed

variable {κ : Type} [DecidableEq κ]

/-- How often each key is there. -/
def tally (keys : List κ) : Keyed κ Nat :=
  collect 0 (fun _ n => n + 1) (keys.map fun key => (key, ()))

theorem lookup_tally (keys : List κ) (key : κ) :
    (tally keys).lookup key = if key ∈ keys then some (keys.count key) else none := by
  have hkeys : (keys.map fun key => (key, ())).map Prod.fst = keys := by simp [Function.comp_def]
  have hfold : ∀ units : List Unit, units.foldl (fun n _ => n + 1) 0 = units.length := by
    intro units
    induction units using List.reverseRecOn with
    | nil => rfl
    | append_singleton units last ih => rw [List.foldl_concat, ih, List.length_append]; rfl
  have hmem : valuesOf key (keys.map fun key => (key, ())) ≠ [] ↔ key ∈ keys := by
    rw [valuesOf_ne_nil_iff, hkeys]
  rw [tally, lookup_collect, hfold, length_valuesOf, hkeys]
  by_cases hkey : key ∈ keys
  · rw [if_pos hkey, if_neg (hmem.2 hkey)]
  · rw [if_neg hkey, if_pos (not_not.1 fun hne => hkey (hmem.1 hne))]

theorem sum_tally (keys : List κ) : ((tally keys).map Prod.snd).sum = keys.length := by
  have hsum : ((tally keys).map fun entry => id entry.2).sum =
      (keys.map fun key => (key, ())).length := by
    rw [tally]
    exact sum_collect (g := id) rfl (fun _ _ => rfl) _
  rwa [List.length_map] at hsum

end Keyed

namespace AddressTally

/-- The counts are those of what is mentioned: nothing is missing, and nothing else is there. -/
structure Tally (seen : List (String × Option Nat)) (counts : Counts) : Prop where
  keys_nodup : (counts.map Prod.fst).Nodup
  mem_keys : ∀ key, key ∈ counts.map Prod.fst ↔ key ∈ seen.map Prod.fst
  count : ∀ key entry, counts.lookup key = some entry → entry.count = (seen.map Prod.fst).count key
  ports_nodup : ∀ key entry, counts.lookup key = some entry → (entry.ports.map Prod.fst).Nodup
  ports : ∀ key entry, counts.lookup key = some entry → ∀ port, entry.ports.lookup port =
    if (key, some port) ∈ seen then some (seen.count (key, some port)) else none
  sum_count : (counts.map fun entry => entry.2.count).sum = seen.length
  sum_ports : ∀ key entry, counts.lookup key = some entry →
    (entry.ports.map Prod.snd).sum ≤ entry.count

/-- The order of what is mentioned does not matter. -/
theorem Tally.perm {seen seen' : List (String × Option Nat)} {counts : Counts} (h : Tally seen counts)
    (hperm : seen.Perm seen') : Tally seen' counts where
  keys_nodup := h.keys_nodup
  mem_keys key := (h.mem_keys key).trans (hperm.map Prod.fst).mem_iff
  count key entry hentry := (h.count key entry hentry).trans ((hperm.map Prod.fst).count_eq key)
  ports_nodup := h.ports_nodup
  ports key entry hentry port := by
    rw [h.ports key entry hentry, hperm.count_eq]
    simp only [hperm.mem_iff]
  sum_count := h.sum_count.trans hperm.length_eq
  sum_ports := h.sum_ports

/-- The counts of one text that is mentioned with these ports. -/
def entryOf (ports : List (Option Nat)) : Count :=
  ports.foldl (fun c port => c.add port) {}

theorem entryOf_concat (ports : List (Option Nat)) (port : Option Nat) :
    entryOf (ports ++ [port]) = (entryOf ports).add port := by
  rw [entryOf, entryOf, List.foldl_concat]

theorem count_entryOf (ports : List (Option Nat)) : (entryOf ports).count = ports.length := by
  induction ports using List.reverseRecOn with
  | nil => rfl
  | append_singleton ports port ih =>
      rw [entryOf_concat, List.length_append, ← ih]
      rfl

theorem ports_entryOf (ports : List (Option Nat)) :
    (entryOf ports).ports = Keyed.tally (ports.filterMap id) := by
  induction ports using List.reverseRecOn with
  | nil => rfl
  | append_singleton ports port ih =>
      rw [entryOf_concat, List.filterMap_append, Keyed.tally, List.map_append]
      cases port with
      | none =>
          have hport : [(none : Option Nat)].filterMap id = [] := rfl
          rw [hport, List.map_nil, List.append_nil]
          exact ih
      | some port =>
          have hport : [some port].filterMap id = [port] := rfl
          rw [hport, List.map_singleton, Keyed.collect_concat, ← Keyed.tally, ← ih]
          rfl

theorem count_filterMap_id {α : Type} [DecidableEq α] (a : α) (items : List (Option α)) :
    (items.filterMap id).count a = items.count (some a) := by
  induction items with
  | nil => rfl
  | cons item items ih =>
      cases item with
      | none => simpa using ih
      | some b => simpa [List.count_cons] using ih

theorem lookup_ofText {s key : String} {entry : Count} (h : (ofText s).lookup key = some entry) :
    entry = entryOf (Keyed.valuesOf key (mentions s)) := by
  have hlookup : (ofText s).lookup key = _ := Keyed.lookup_collect key (mentions s)
  rw [h] at hlookup
  split at hlookup
  · cases hlookup
  · exact Option.some.inj hlookup

theorem tally_ofText (s : String) : Tally (mentions s) (ofText s) where
  keys_nodup := Keyed.nodup_keys_collect _
  mem_keys _ := Keyed.mem_keys_collect
  count key entry h := by
    rw [lookup_ofText h, count_entryOf, Keyed.length_valuesOf]
  ports_nodup key entry h := by
    rw [lookup_ofText h, ports_entryOf]
    exact Keyed.nodup_keys_collect _
  ports key entry h port := by
    have hmem : port ∈ (Keyed.valuesOf key (mentions s)).filterMap id ↔
        (key, some port) ∈ mentions s := by
      rw [← List.count_pos_iff, count_filterMap_id, Keyed.count_valuesOf, List.count_pos_iff]
    rw [lookup_ofText h, ports_entryOf, Keyed.lookup_tally, count_filterMap_id,
      Keyed.count_valuesOf]
    simp only [hmem]
  sum_count := Keyed.sum_collect (g := Count.count) (f := Count.add) rfl (fun _ _ => rfl) _
  sum_ports key entry h := by
    rw [lookup_ofText h, ports_entryOf, count_entryOf, Keyed.sum_tally]
    exact List.length_filterMap_le _ _

end AddressTally

end IpRegistry
