import IpRegistry.Proofs.Calendar.Policy
import IpRegistry.Proofs.Field.Window
import Mathlib.Data.List.Basic

namespace IpRegistry

namespace Field

namespace Kind

variable {kind : Kind} {dates : Option Calendar.DatePolicy} {first : String} {more : List String}

/-- The value is a date whose shift leads out of the calendar. -/
def LeavesCalendar (kind : Kind) (dates : Option Calendar.DatePolicy) (first : String) : Prop :=
  kind = .timestamp ∧ ∃ policy ∈ dates, policy.read first = .beyondCalendar

theorem leavesCalendar_iff :
    kind.LeavesCalendar dates first ↔
      (kind == timestamp && dates.any fun policy => policy.read first == .beyondCalendar) = true := by
  unfold LeavesCalendar
  cases dates <;> simp

theorem value?_eq_none (h : kind.LeavesCalendar dates first) :
    kind.value? dates first more = none :=
  if_pos (leavesCalendar_iff.1 h)

theorem value?_eq_some (h : ¬kind.LeavesCalendar dates first) :
    kind.value? dates first more = some (kind.value dates first more) :=
  if_neg (mt leavesCalendar_iff.2 h)

theorem not_leavesCalendar_of_unshifted (h : ∀ policy ∈ dates, policy.hourOffset = 0) :
    ¬kind.LeavesCalendar dates first := by
  rintro ⟨-, policy, hpolicy, hread⟩
  obtain ⟨m, -, hshift⟩ := Calendar.Reading.ofMoments_eq_beyondCalendar_iff.1 hread
  rw [h policy hpolicy, Calendar.Moment.hoursEarlier?_zero] at hshift
  cases hshift

end Kind

namespace Spec

variable {f : Spec} {t : Table} {cs : List Char} {b : Bounds}

/-- The field is a date whose shift leads out of the calendar. -/
def LeavesCalendar (f : Spec) (t : Table) (cs : List Char) (b : Bounds) : Prop :=
  ∃ first ∈ (f.captures t.contiguous cs b).head?, f.kind.LeavesCalendar t.dates first

theorem item?_eq_none (h : f.LeavesCalendar t cs b) : f.item? t cs b = none := by
  obtain ⟨first, hfirst, hleaves⟩ := h
  obtain ⟨more, hcaptures⟩ := List.head?_eq_some_iff.1 hfirst
  simp [item?, hcaptures, Kind.value?_eq_none hleaves]

theorem item?_eq_some (h : ¬f.LeavesCalendar t cs b) :
    f.item? t cs b = some ((f.extract? t cs b).map fun v => (f.name, v)).toList := by
  unfold item? extract?
  cases hcaptures : f.captures t.contiguous cs b with
  | nil => rfl
  | cons first more =>
      have hstays : ¬f.kind.LeavesCalendar t.dates first := fun hleaves =>
        h ⟨first, congrArg List.head? hcaptures, hleaves⟩
      simp [Kind.value?_eq_some hstays]

end Spec

namespace Table

variable {t : Table} {cs : List Char} {b : Bounds} {wanted : Option (List String)}

/-- Some wanted field is a date whose shift leads out of the calendar. -/
def LeavesCalendar (t : Table) (cs : List Char) (b : Bounds) (wanted : Option (List String)) :
    Prop :=
  ∃ f ∈ t.fields, isWanted wanted f.name = true ∧ f.LeavesCalendar t cs b

theorem extract?_eq_none (h : t.LeavesCalendar cs b wanted) : t.extract? cs b wanted = none := by
  obtain ⟨f, hf, hwanted, hleaves⟩ := h
  have hnone : ((t.fields.filter fun f => isWanted wanted f.name).mapM fun f => f.item? t cs b) =
      none :=
    mapM_eq_none_iff.2 ⟨f, List.mem_filter.2 ⟨hf, hwanted⟩, Spec.item?_eq_none hleaves⟩
  rw [extract?, hnone]
  rfl

theorem extract?_eq_some (h : ¬t.LeavesCalendar cs b wanted) :
    t.extract? cs b wanted = some (t.extract cs b wanted) := by
  let entries (f : Spec) : Map := ((f.extract? t cs b).map fun v => (f.name, v)).toList
  have hentries : ∀ f ∈ t.fields.filter fun f => isWanted wanted f.name,
      f.item? t cs b = some (entries f) := by
    intro f hf
    obtain ⟨hmem, hwanted⟩ := List.mem_filter.1 hf
    exact Spec.item?_eq_some fun hleaves => h ⟨f, hmem, hwanted, hleaves⟩
  have hall := @mapM_map_eq_some _ _ _ (fun f => f.item? t cs b) id entries _ hentries
  rw [List.map_id] at hall
  rw [extract?, hall, extract, List.filterMap_eq_flatMap_toList, List.flatMap_def]
  rfl

theorem extract?_eq_none_iff : t.extract? cs b wanted = none ↔ t.LeavesCalendar cs b wanted := by
  refine ⟨fun h => ?_, extract?_eq_none⟩
  by_contra hstays
  rw [extract?_eq_some hstays] at h
  cases h

theorem eq_of_extract? {m : Map} (h : t.extract? cs b wanted = some m) :
    m = t.extract cs b wanted := by
  have hstays : ¬t.LeavesCalendar cs b wanted := fun hleaves => by
    rw [extract?_eq_none hleaves] at h
    cases h
  rw [extract?_eq_some hstays] at h
  exact (Option.some.inj h).symm

theorem not_leavesCalendar_of_unshifted (h : ∀ policy ∈ t.dates, policy.hourOffset = 0) :
    ¬t.LeavesCalendar cs b wanted := by
  rintro ⟨f, -, -, first, -, hleaves⟩
  exact Kind.not_leavesCalendar_of_unshifted h hleaves

theorem hourOffset_of_contiguousTable {fields : List Spec} {dates : Option Calendar.Format} :
    ∀ policy ∈ (Whois.contiguousTable fields dates).dates, policy.hourOffset = 0 := by
  intro policy hpolicy
  obtain ⟨format, -, rfl⟩ := Option.map_eq_some_iff.1 hpolicy
  rfl

/-- Of the tables in use, only those of JPNIC shift dates. -/
theorem InUse.dates_shift (h : t.InUse) :
    (∀ policy ∈ t.dates, policy.hourOffset = 0) ∨ t.dates = some National.jpnicDates := by
  cases h with
  | registry r => cases r <;> exact .inl hourOffset_of_contiguousTable
  | referral => exact .inl hourOffset_of_contiguousTable
  | routes form => exact .inl hourOffset_of_contiguousTable
  | national n =>
      cases n with
      | jpnic => exact .inr rfl
      | krnic => exact .inl fun policy hpolicy => Option.some.inj hpolicy ▸ rfl
  | contacts n =>
      cases n with
      | jpnic => exact .inr rfl
      | krnic => exact .inl fun policy hpolicy => Option.some.inj hpolicy ▸ rfl

end Table

end Field

end IpRegistry
