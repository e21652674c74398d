import IpRegistry.Proofs.Exchange

namespace IpRegistry.Retry

open Exchange (wait?)

variable {ο : Type}

/-- How many of the outcomes it takes to come to an end. -/
def tries (ends : ο → Bool) (outcomes : List ο) : Nat :=
  min outcomes.length (outcomes.findIdx ends + 1)

/-- How many outcomes before the last one that is allowed ask for a pause. -/
def pauses (ends limited : ο → Bool) (outcomes : List ο) : Nat :=
  (outcomes.dropLast.take (tries ends outcomes)).countP limited

/-- What is done for one outcome, perhaps with another try to follow. -/
def steps (limited : ο → Bool) (ask : Event) (pause : Nat) (again : Bool) (o : ο) : List Event :=
  ask :: if limited o && again then [.sleep pause] else []

/-- What is done for all outcomes up to the one that is the end. -/
def trace (ends limited : ο → Bool) (ask : Event) (pause : Nat) (outcomes : List ο) :
    List Event :=
  ((outcomes.take (tries ends outcomes)).mapIdx fun i o =>
    steps limited ask pause (i + 1 < outcomes.length) o).flatten

variable {ends limited : ο → Bool} {ask : Event} {pause : Nat} {o : ο} {rest outcomes : List ο}

theorem tries_of_ends (h : ends o = true) : tries ends (o :: rest) = 1 := by
  rw [tries, List.findIdx_cons, h, List.length_cons]
  exact Nat.min_eq_right (Nat.succ_le_succ (Nat.zero_le _))

theorem tries_of_not_ends (h : ends o = false) :
    tries ends (o :: rest) = tries ends rest + 1 := by
  rw [tries, tries, List.findIdx_cons, h, List.length_cons, cond_false]
  exact Nat.add_min_add_right _ _ _

theorem pauses_of_ends (h : ends o = true) (hlimited : limited o = false) :
    pauses ends limited (o :: rest) = 0 := by
  rw [pauses, tries_of_ends h]
  cases rest with
  | nil => rfl
  | cons next rest => simp [hlimited]

theorem pauses_of_not_ends (h : ends o = false) :
    pauses ends limited (o :: rest) =
      (if limited o && 0 < rest.length then 1 else 0) + pauses ends limited rest := by
  rw [pauses, tries_of_not_ends h]
  cases rest with
  | nil => simp [pauses]
  | cons next rest =>
      rw [pauses, List.dropLast_cons_cons, List.take_succ_cons, List.countP_cons, Nat.add_comm]
      simp

theorem trace_of_ends (h : ends o = true) (hlimited : limited o = false) :
    trace ends limited ask pause (o :: rest) = [ask] := by
  rw [trace, tries_of_ends h, List.take_succ_cons, List.take_zero, List.mapIdx_cons,
    List.mapIdx_nil, steps, hlimited]
  rfl

theorem trace_of_not_ends (h : ends o = false) :
    trace ends limited ask pause (o :: rest) =
      steps limited ask pause (0 < rest.length) o ++ trace ends limited ask pause rest := by
  rw [trace, tries_of_not_ends h, List.take_succ_cons, List.mapIdx_cons, List.flatten_cons, trace,
    List.length_cons]
  simp only [Nat.zero_add, Nat.add_lt_add_iff_right, Nat.lt_add_left_iff_pos]

theorem tries_of_forall (h : ∀ o ∈ outcomes, ends o = false) :
    tries ends outcomes = outcomes.length := by
  have hindex : outcomes.findIdx ends = outcomes.length := List.findIdx_eq_length.2 h
  rw [tries, hindex]
  exact Nat.min_eq_left (Nat.le_succ _)

theorem tries_of_getElem? {k : Nat} (hearlier : ∀ o ∈ outcomes.take k, ends o = false)
    (hk : outcomes[k]?.any ends = true) : tries ends outcomes = k + 1 := by
  induction outcomes generalizing k with
  | nil => cases hk
  | cons o rest ih =>
      cases k with
      | zero => exact tries_of_ends hk
      | succ k =>
          rw [List.take_succ_cons, List.forall_mem_cons] at hearlier
          rw [tries_of_not_ends hearlier.1, ih hearlier.2 hk]

theorem count_steps (hask : wait? ask = none) (again : Bool) :
    (steps limited ask pause again o).count ask = 1 := by
  have hne : Event.sleep pause ≠ ask := by
    rintro rfl
    cases hask
  rw [steps, List.count_cons_self]
  split
  · rw [List.count_singleton, beq_eq_false_iff_ne.2 hne]
    rfl
  · rfl

theorem waits_steps (hask : wait? ask = none) (again : Bool) :
    (steps limited ask pause again o).filterMap wait? =
      List.replicate (if limited o && again then 1 else 0) pause := by
  rw [steps, List.filterMap_cons_none hask]
  split <;> rfl

theorem eq_or_eq_of_mem_trace {e : Event} (he : e ∈ trace ends limited ask pause outcomes) :
    e = ask ∨ e = .sleep pause := by
  obtain ⟨done, hdone, he⟩ := List.mem_flatten.1 he
  obtain ⟨i, hi, rfl⟩ := List.mem_mapIdx.1 hdone
  rw [steps, List.mem_cons] at he
  refine he.imp_right fun he => ?_
  split at he
  · exact List.mem_singleton.1 he
  · cases he

variable (hlimited : ∀ o, ends o = true → limited o = false) (hask : wait? ask = none)

include hlimited hask

theorem count_trace (pause : Nat) (outcomes : List ο) :
    (trace ends limited ask pause outcomes).count ask = tries ends outcomes := by
  induction outcomes with
  | nil => rfl
  | cons o rest ih =>
      cases h : ends o with
      | true =>
          rw [trace_of_ends h (hlimited o h), tries_of_ends h]
          exact List.count_singleton_self
      | false =>
          rw [trace_of_not_ends h, tries_of_not_ends h, List.count_append, count_steps hask, ih,
            Nat.add_comm]

theorem waits_trace (pause : Nat) (outcomes : List ο) :
    (trace ends limited ask pause outcomes).filterMap wait? =
      List.replicate (pauses ends limited outcomes) pause := by
  induction outcomes with
  | nil => rfl
  | cons o rest ih =>
      cases h : ends o with
      | true =>
          rw [trace_of_ends h (hlimited o h), pauses_of_ends h (hlimited o h),
            List.filterMap_cons_none hask]
          rfl
      | false =>
          rw [trace_of_not_ends h, pauses_of_not_ends h, List.filterMap_append, waits_steps hask,
            ih, List.replicate_append_replicate]

end IpRegistry.Retry
