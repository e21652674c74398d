import IpRegistry.Field
import Mathlib.Data.Finset.Card

namespace IpRegistry.Field

/-- An item joins the distinct ones unless it is there. -/
def adjoin (seen : List String) (item : String) : List String :=
  if seen.contains item then seen else seen ++ [item]

theorem mem_adjoin {seen : List String} {item a : String} :
    a ∈ adjoin seen item ↔ a ∈ seen ∨ a = item := by
  rw [adjoin]
  split
  · rename_i h
    rw [List.contains_iff_mem] at h
    constructor
    · exact .inl
    · rintro (ha | rfl)
      · exact ha
      · exact h
  · rw [List.mem_append, List.mem_singleton]

theorem nodup_adjoin {seen : List String} (h : seen.Nodup) (item : String) :
    (adjoin seen item).Nodup := by
  rw [adjoin]
  split
  · exact h
  · rename_i hnew
    rw [List.contains_iff_mem] at hnew
    refine List.nodup_append.2 ⟨h, List.nodup_singleton item, ?_⟩
    rintro a ha b hb rfl
    exact hnew (List.mem_singleton.1 hb ▸ ha)

theorem mem_foldl_adjoin {items seen : List String} {a : String} :
    a ∈ items.foldl adjoin seen ↔ a ∈ seen ∨ a ∈ items := by
  induction items generalizing seen with
  | nil => simp
  | cons item items ih => rw [List.foldl_cons, ih, mem_adjoin, List.mem_cons, or_assoc]

theorem nodup_foldl_adjoin {items seen : List String} (h : seen.Nodup) :
    (items.foldl adjoin seen).Nodup := by
  induction items generalizing seen with
  | nil => exact h
  | cons item items ih => exact ih (nodup_adjoin h item)

theorem foldl_adjoin_of_known {excluded handles found : List String} {handle : String}
    (h : handle ∈ found ∨ handle ∈ excluded) :
    ((handle :: handles).filter fun h => !excluded.contains h).foldl adjoin found =
      (handles.filter fun h => !excluded.contains h).foldl adjoin found := by
  by_cases hexcluded : handle ∈ excluded
  · simp [hexcluded]
  · simp [hexcluded, adjoin, h.resolve_right hexcluded]

theorem foldl_adjoin_of_new {excluded handles found : List String} {handle : String}
    (hfound : handle ∉ found) (hexcluded : handle ∉ excluded) :
    ((handle :: handles).filter fun h => !excluded.contains h).foldl adjoin found =
      (handles.filter fun h => !excluded.contains h).foldl adjoin (found ++ [handle]) := by
  simp [hexcluded, adjoin, hfound]

theorem mem_distinct {items : List String} {a : String} : a ∈ distinct items ↔ a ∈ items :=
  mem_foldl_adjoin.trans (by simp)

theorem nodup_distinct (items : List String) : (distinct items).Nodup :=
  nodup_foldl_adjoin List.nodup_nil

theorem length_distinct (items : List String) :
    (distinct items).length = items.toFinset.card := by
  rw [← List.toFinset_card_of_nodup (nodup_distinct items)]
  congr 1
  ext a
  rw [List.mem_toFinset, List.mem_toFinset, mem_distinct]

end IpRegistry.Field
