import IpRegistry.Bulk.Schedule
import IpRegistry.Proofs.Keyed

namespace IpRegistry.Bulk

namespace Schedule

variable (s : Schedule) (tries now length : Nat) (r : Registry) (address : String)

theorem mem_queue {r : Registry} {entry : String × Asn.Record} :
    entry ∈ s.queue r ↔ entry ∈ s.pending ∧ entry.2.registry = r := by
  simp [queue]

theorem queue_isEmpty_eq_false {entry : String × Asn.Record} (h : entry ∈ s.pending) :
    (s.queue entry.2.registry).isEmpty = false := by
  rw [List.isEmpty_eq_false_iff]
  exact List.ne_nil_of_mem (s.mem_queue.2 ⟨h, rfl⟩)

theorem mem_order : r ∈ order := by
  cases r <;> decide

theorem openWindow_eq_with :
    s.openWindow now length r = { s with windows := (s.openWindow now length r).windows } := by
  rw [openWindow]
  split
  · split <;> rfl
  · rfl

@[simp] theorem openWindow_pending : (s.openWindow now length r).pending = s.pending := by
  rw [openWindow_eq_with]

theorem openWindow_windows_lookup (q : Registry) :
    (s.openWindow now length r).windows.lookup q =
      if q = r ∧ ∀ w, s.windows.lookup r = some w → w.isExpired now length = true then
        some ⟨now, 0⟩
      else s.windows.lookup q := by
  rw [openWindow]
  split
  · rename_i w hw
    by_cases he : w.isExpired now length = true
    · simp [he, hw, Keyed.lookup_insert]
    · simp [he, hw]
  · rename_i hw
    simp [hw, Keyed.lookup_insert]

theorem isExhausted_openWindow_of_ne {q : Registry} (h : q ≠ r) :
    (s.openWindow now length r).isExhausted now length q = s.isExhausted now length q := by
  rw [isExhausted, isExhausted, openWindow_windows_lookup, if_neg fun hq => h hq.1]

theorem mayAsk_openWindow {q : Registry} (hr : (s.queue r).isEmpty = true)
    (hq : (s.queue q).isEmpty = false) :
    (s.openWindow now length r).mayAsk now length q = s.mayAsk now length q := by
  have hne : q ≠ r := by
    rintro rfl
    rw [hr] at hq
    cases hq
  have hqueue : (s.openWindow now length r).queue = s.queue := by
    funext q
    rw [queue, openWindow_pending, queue]
  rw [mayAsk, mayAsk, hqueue, isExhausted_openWindow_of_ne s now length r hne]
  by_cases hl : r = .lacnic
  · rw [← hl, hr]
    simp
  · rw [isExhausted_openWindow_of_ne s now length r fun h => hl h.symm]

theorem isExhausted_of_not_mayAsk
    (h : ∀ q, (s.queue q).isEmpty = false → s.mayAsk now length q = false)
    (hr : (s.queue r).isEmpty = false) : s.isExhausted now length r = true := by
  have hlacnic : (s.queue .lacnic).isEmpty = true ∨ s.isExhausted now length .lacnic = true := by
    cases he : (s.queue .lacnic).isEmpty with
    | true => exact Or.inl rfl
    | false => exact Or.inr (by simpa [mayAsk] using h .lacnic he)
  have hmay := h r hr
  rcases hlacnic with hl | hl <;> simpa [mayAsk, hl] using hmay

theorem settle_pending_of_more {outcome : Except LookupError RdapReport}
    (h : (s.settle tries now r address outcome).1 = true) :
    (s.settle tries now r address outcome).2.pending =
      s.pending.eraseP fun entry => entry.1 == address := by
  cases outcome with
  | ok report => rfl
  | error e => cases h

def course (s : Schedule) (r : Registry) : RegistryStats :=
  (s.registries.lookup r).getD {}

theorem failuresOf_update (q : String) :
    ({ s with failures := s.failures.update address 0 (· + 1) } : Schedule).failuresOf q =
      if q = address then s.failuresOf address + 1 else s.failuresOf q := by
  rw [failuresOf, Keyed.lookup_update]
  split <;> rfl

theorem limit_pending : (s.limit r address).pending = s.pending := by
  rw [limit]
  split <;> rfl

theorem limit_failures : (s.limit r address).failures = s.failures := by
  rw [limit]
  split <;> rfl

theorem course_note (f : RegistryStats → RegistryStats) (q : Registry) :
    (s.note r f).course q = if q = r then f (s.course r) else s.course q := by
  rw [course, note, Keyed.lookup_update]
  split <;> rfl

theorem settle_error (e : LookupError) :
    (s.settle tries now r address (.error e)).2 =
      if e.isRateLimit then
        (((s.count now r).2.fail tries r address).limit r address).saturate now r
      else (s.count now r).2.fail tries r address :=
  rfl

theorem settle_pending_sublist (outcome : Except LookupError RdapReport) :
    (s.settle tries now r address outcome).2.pending.Sublist s.pending := by
  cases outcome with
  | ok report => exact List.eraseP_sublist
  | error e =>
      have hfail : ((s.count now r).2.fail tries r address).pending.Sublist s.pending := by
        rw [fail]
        split
        · exact List.eraseP_sublist
        · exact List.Sublist.refl _
      rw [settle_error]
      split
      · show (((s.count now r).2.fail tries r address).limit r address).pending.Sublist s.pending
        rwa [limit_pending]
      · exact hfail

def windowAfter (outcome : Except LookupError RdapReport) : Window :=
  match outcome with
  | .ok _ => ((s.windows.lookup r).getD ⟨now, 0⟩).record
  | .error e =>
      if e.isRateLimit then .saturated now else ((s.windows.lookup r).getD ⟨now, 0⟩).record

@[simp] theorem fail_windows : (s.fail tries r address).windows = s.windows := by
  rw [fail]
  split <;> rfl

@[simp] theorem limit_windows : (s.limit r address).windows = s.windows := by
  rw [limit]
  split <;> rfl

theorem settle_windows_lookup (outcome : Except LookupError RdapReport) (q : Registry) :
    (s.settle tries now r address outcome).2.windows.lookup q =
      if q = r then some (s.windowAfter now r outcome) else s.windows.lookup q := by
  cases outcome with
  | ok report => exact Keyed.lookup_insert r q _ s.windows
  | error e =>
      cases he : e.isRateLimit with
      | false => simp [settle, windowAfter, he, count, Keyed.lookup_insert]
      | true =>
          by_cases hq : q = r <;>
            simp [settle, windowAfter, he, count, saturate, Keyed.lookup_insert, hq]

/-- The reports have different addresses, and the registries are those of a pass. -/
structure Tidy (s : Schedule) : Prop where
  reports : (s.reports.map Prod.fst).Nodup
  registries : s.registries.map Prod.fst = order

variable {s}

theorem Tidy.note (h : s.Tidy) (f : RegistryStats → RegistryStats) : (s.note r f).Tidy := by
  refine ⟨h.reports, ?_⟩
  show (s.registries.update r {} f).map Prod.fst = order
  rw [Keyed.keys_update_of_mem, h.registries]
  rw [h.registries]
  exact mem_order r

theorem Tidy.fail (h : s.Tidy) : (s.fail tries r address).Tidy := by
  rw [Schedule.fail]
  split
  · apply Tidy.note
    exact ⟨h.reports, h.registries⟩
  · exact ⟨h.reports, h.registries⟩

theorem Tidy.limit (h : s.Tidy) : (s.limit r address).Tidy := by
  rw [Schedule.limit]
  split
  · exact h
  · apply Tidy.note
    exact ⟨h.reports, h.registries⟩

theorem Tidy.settle (h : s.Tidy) (outcome : Except LookupError RdapReport) :
    (s.settle tries now r address outcome).2.Tidy := by
  cases outcome with
  | ok report => exact ⟨Keyed.nodup_keys_insert h.reports address report, h.registries⟩
  | error e =>
      have hfail : ((s.count now r).2.fail tries r address).Tidy :=
        Tidy.fail tries r address ⟨h.reports, h.registries⟩
      rw [settle_error]
      split
      · have hlimit := hfail.limit r address
        exact ⟨hlimit.reports, hlimit.registries⟩
      · exact hfail

theorem Tidy.openWindow (h : s.Tidy) : (s.openWindow now length r).Tidy := by
  rw [openWindow_eq_with]
  exact ⟨h.reports, h.registries⟩

end Schedule

end IpRegistry.Bulk
