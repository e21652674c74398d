import IpRegistry.Proofs.Bulk.Admission
import Mathlib.Algebra.Order.BigOperators.Group.List
import Mathlib.Algebra.Order.Ring.Nat

namespace IpRegistry.Bulk

/-- The lookups of a plan never turn the clock back. -/
def Plan.Advances (p : Plan) : Prop :=
  ∀ address record σ, σ.elapsed ≤ (p.lookup address record σ).2.elapsed

namespace Schedule

variable (s : Schedule) (tries now : Nat) (r : Registry) (address : String)

/-- How many lookups of the pending addresses there can be. An entry whose address has no tries left
still counts once, since it stays pending until its lookup ends. -/
def budget (s : Schedule) : Nat :=
  (s.pending.map fun entry => max (tries - s.failuresOf entry.1) 1).sum

theorem budget_le (h : 1 ≤ tries) : s.budget tries ≤ s.pending.length * tries := by
  rw [budget]
  induction s.pending with
  | nil => exact Nat.zero_le _
  | cons entry rest ih =>
      rw [List.map_cons, List.sum_cons, List.length_cons, Nat.succ_mul]
      omega

theorem length_le_budget : s.pending.length ≤ s.budget tries := by
  rw [budget]
  induction s.pending with
  | nil => exact Nat.le_refl 0
  | cons entry rest ih =>
      rw [List.map_cons, List.sum_cons, List.length_cons]
      omega

theorem sum_eraseP_lt {α : Type} {l : List α} {test : α → Bool} {f g : α → Nat} {a : α}
    (ha : a ∈ l) (htest : test a = true) (hle : ∀ x, f x ≤ g x) (hpos : ∀ x, 0 < g x) :
    ((l.eraseP test).map f).sum < (l.map g).sum := by
  obtain ⟨b, before, rest, -, -, hl, herase⟩ := List.exists_of_eraseP ha htest
  have hsum : ((before ++ rest).map f).sum ≤ ((before ++ rest).map g).sum :=
    List.sum_le_sum fun x _ => hle x
  rw [herase, hl]
  simp only [List.map_append, List.map_cons, List.sum_append, List.sum_cons] at hsum ⊢
  have := hpos b
  omega

theorem budget_congr {s t : Schedule} (hpending : t.pending = s.pending)
    (hfailures : t.failures = s.failures) : t.budget tries = s.budget tries := by
  simp only [budget, failuresOf, hpending, hfailures]

theorem budget_fail_lt {entry : String × Asn.Record} (h : entry ∈ s.pending) :
    (s.fail tries r entry.1).budget tries < s.budget tries := by
  have hle : ∀ other : String × Asn.Record,
      max (tries - ({ s with failures := s.failures.update entry.1 0 (· + 1) } :
          Schedule).failuresOf other.1) 1 ≤
        max (tries - s.failuresOf other.1) 1 := by
    intro other
    rw [failuresOf_update]
    split
    · rename_i heq
      rw [heq]
      omega
    · exact Nat.le_refl _
  rw [fail]
  split
  · exact sum_eraseP_lt h (beq_self_eq_true _) hle fun _ => by omega
  · rename_i hleft
    rw [failuresOf_update, if_pos rfl] at hleft
    refine List.sum_lt_sum _ _ (fun other _ => hle other) ⟨entry, h, ?_⟩
    show max (tries - ({ s with failures := s.failures.update entry.1 0 (· + 1) } :
      Schedule).failuresOf entry.1) 1 < _
    rw [failuresOf_update, if_pos rfl]
    omega

theorem budget_settle_lt {entry : String × Asn.Record} (h : entry ∈ s.pending)
    (outcome : Except LookupError RdapReport) :
    (s.settle tries now r entry.1 outcome).2.budget tries < s.budget tries := by
  cases outcome with
  | ok report =>
      exact sum_eraseP_lt h (beq_self_eq_true _) (fun _ => Nat.le_refl _) fun _ => by omega
  | error e =>
      have hfail := budget_fail_lt (s.count now r).2 tries r h
      refine Nat.lt_of_le_of_lt (Nat.le_of_eq ?_) hfail
      rw [settle_error]
      split
      · exact budget_congr tries (limit_pending _ _ _) (limit_failures _ _ _)
      · rfl

def Punctual (s : Schedule) (now : Nat) : Prop :=
  ∀ r w, s.windows.lookup r = some w → w.started ≤ now

variable {s} {now} {length : Nat}

theorem Punctual.later {later : Nat} (h : s.Punctual now) (hle : now ≤ later) :
    s.Punctual later :=
  fun r w hw => (h r w hw).trans hle

theorem Punctual.openWindow (h : s.Punctual now) :
    (s.openWindow now length r).Punctual now := by
  intro q w hw
  rw [openWindow_windows_lookup] at hw
  split at hw
  · cases hw
    exact Nat.le_refl _
  · exact h q w hw

theorem Punctual.settle (h : s.Punctual now) (outcome : Except LookupError RdapReport) :
    (s.settle tries now r address outcome).2.Punctual now := by
  have hcurrent : ((s.windows.lookup r).getD ⟨now, 0⟩).record.started ≤ now := by
    cases hw : s.windows.lookup r with
    | none => exact Nat.le_refl _
    | some w => exact h r w hw
  intro q w hw
  rw [settle_windows_lookup] at hw
  split at hw
  · obtain rfl := Option.some.inj hw
    cases outcome with
    | ok report => exact hcurrent
    | error e =>
        rw [windowAfter]
        split
        · exact Nat.le_refl _
        · exact hcurrent
  · exact h q w hw

/-- Some registry with pending addresses can be asked. -/
def Ready (s : Schedule) (now length : Nat) : Prop :=
  ∃ entry ∈ s.pending, s.isExhausted now length entry.2.registry = false

theorem exists_window (hfull : s.isExhausted now length r = true) :
    ∃ w, s.windows.lookup r = some w ∧ w.isExhausted now length = true := by
  rw [isExhausted] at hfull
  split at hfull
  · rename_i w hw
    exact ⟨w, hw, hfull⟩
  · cases hfull

/-- The wait lasts until the first window of a registry with pending addresses ends. -/
theorem wait_spec (hpending : s.pending ≠ [])
    (hfull : ∀ entry ∈ s.pending, s.isExhausted now length entry.2.registry = true) :
    (∃ entry ∈ s.pending, ∃ w, s.windows.lookup entry.2.registry = some w ∧
      s.wait now length = w.remaining now length) ∧
    ∀ entry ∈ s.pending, ∀ w, s.windows.lookup entry.2.registry = some w →
      s.wait now length ≤ w.remaining now length := by
  rw [wait]
  set windows := s.pending.filterMap fun entry => s.windows.lookup entry.2.registry with hwindows
  have hmem : ∀ entry ∈ s.pending, ∀ w, s.windows.lookup entry.2.registry = some w →
      w ∈ windows :=
    fun entry hentry w hw => List.mem_filterMap.2 ⟨entry, hentry, hw⟩
  obtain ⟨entry, hentry⟩ := List.exists_mem_of_ne_nil _ hpending
  obtain ⟨w, hw, -⟩ := exists_window _ (hfull entry hentry)
  cases hmin : (windows.map fun w => w.remaining now length).min? with
  | none =>
      rw [List.min?_eq_none_iff, List.map_eq_nil_iff] at hmin
      have hnone := hmem entry hentry w hw
      rw [hmin] at hnone
      cases hnone
  | some ms =>
      obtain ⟨hattained, hleast⟩ := List.min?_eq_some_iff.1 hmin
      rw [Option.getD_some]
      constructor
      · obtain ⟨first, hfirst, rfl⟩ := List.mem_map.1 hattained
        obtain ⟨other, hother, hlookup⟩ := List.mem_filterMap.1 hfirst
        exact ⟨other, hother, first, hlookup, rfl⟩
      · intro other hother v hv
        exact hleast _ (List.mem_map.2 ⟨v, hmem other hother v hv, rfl⟩)

theorem wait_pos (hpending : s.pending ≠ [])
    (hfull : ∀ entry ∈ s.pending, s.isExhausted now length entry.2.registry = true) :
    0 < s.wait now length := by
  obtain ⟨entry, hentry, w, hw, hwait⟩ := (wait_spec hpending hfull).1
  obtain ⟨v, hv, hexhausted⟩ := exists_window _ (hfull entry hentry)
  obtain rfl : w = v := Option.some.inj (hw.symm.trans hv)
  rw [hwait, Window.remaining_pos_iff]
  simpa using (Bool.and_eq_true_iff.1 hexhausted).2

theorem wait_le (hpending : s.pending ≠ [])
    (hfull : ∀ entry ∈ s.pending, s.isExhausted now length entry.2.registry = true) :
    s.wait now length ≤ length := by
  obtain ⟨-, -, w, -, hwait⟩ := (wait_spec hpending hfull).1
  rw [hwait]
  exact Nat.sub_le _ _

theorem ready_wait (h : s.Punctual now) (hpending : s.pending ≠ [])
    (hfull : ∀ entry ∈ s.pending, s.isExhausted now length entry.2.registry = true) :
    s.Ready (now + s.wait now length) length := by
  obtain ⟨entry, hentry, w, hw, hwait⟩ := (wait_spec hpending hfull).1
  refine ⟨entry, hentry, ?_⟩
  rw [isExhausted, hw, hwait]
  show (w.isFull && !w.isExpired _ length) = false
  rw [Window.isExpired_add_remaining _ _ _ (h _ _ hw)]
  exact Bool.and_false _

end Schedule

namespace World

variable (p : Plan)

theorem budget_step_le {w : World} {m : Move} (h : w.Admits p m) :
    (w.step p m).schedule.budget p.tries + (if m.isAsk then 1 else 0) ≤
      w.schedule.budget p.tries := by
  cases m with
  | enter r =>
      refine Nat.le_of_eq (Schedule.budget_congr _ ?_ ?_)
      · exact Schedule.openWindow_pending _ _ _ _
      · show (w.schedule.openWindow _ _ r).failures = _
        rw [Schedule.openWindow_eq_with]
  | ask r address record => exact Schedule.budget_settle_lt _ _ _ r h.1 _
  | wait => exact Nat.le_refl _

theorem Follows.asks_add_budget_le {w : World} {moves : List Move}
    (h : w.Follows p (Admits p) moves) :
    moves.countP Move.isAsk + (w.after p moves).schedule.budget p.tries ≤
      w.schedule.budget p.tries := by
  induction moves generalizing w with
  | nil => exact Nat.le_of_eq (Nat.zero_add _)
  | cons m moves ih =>
      have hrest := ih h.2
      have hstep := budget_step_le p h.1
      rw [List.countP_cons]
      show _ + ((w.step p m).after p moves).schedule.budget p.tries ≤ _
      omega

def Punctual (w : World) : Prop :=
  w.schedule.Punctual w.services.elapsed

variable {p}

theorem Punctual.step {w : World} (h : w.Punctual) (hp : p.Advances) (m : Move) :
    (w.step p m).Punctual := by
  cases m with
  | enter r => exact Schedule.Punctual.openWindow r h
  | ask r address record => exact (h.later (hp address record w.services)).settle _ _ _ _
  | wait => exact h.later (Nat.le_add_right _ _)

theorem Punctual.after {w : World} (h : w.Punctual) (hp : p.Advances) (moves : List Move) :
    (w.after p moves).Punctual :=
  after_preserves p (fun _ m h => h.step hp m) h moves

theorem asked_of_ready {w : World} (h : w.schedule.Ready w.services.elapsed p.length) :
    (passMoves p Schedule.order w).any Move.isAsk = true := by
  obtain ⟨entry, hentry, hready⟩ := h
  by_contra hquiet
  have hqueue := w.schedule.queue_isEmpty_eq_false hentry
  rw [isExhausted_of_quiet p (Bool.eq_false_iff.2 hquiet) hqueue] at hready
  cases hready

theorem ready_step_wait {w : World} (hw : w.Punctual) (h : w.Admits p .wait) :
    (w.step p .wait).schedule.Ready (w.step p .wait).services.elapsed p.length :=
  Schedule.ready_wait hw h.1 h.2

/-- A pass uses up a try, or nobody can be asked before it and somebody can be asked after the wait
that follows it. -/
theorem turn_progress (hp : p.Advances) {w : World} (hw : w.Punctual)
    (hpending : w.schedule.pending ≠ []) :
    (w.after p (w.turn p)).schedule.budget p.tries < w.schedule.budget p.tries ∨
      ¬w.schedule.Ready w.services.elapsed p.length ∧
        (w.after p (w.turn p)).schedule.Ready (w.after p (w.turn p)).services.elapsed p.length ∧
          (w.after p (w.turn p)).schedule.budget p.tries ≤ w.schedule.budget p.tries := by
  have hfollows := follows_turn p hpending
  have hspent := hfollows.asks_add_budget_le
  rw [turn] at hfollows hspent ⊢
  by_cases hasked : (passMoves p Schedule.order w).any Move.isAsk = true
  · left
    rw [if_pos hasked] at hspent ⊢
    have hcount : 0 < (passMoves p Schedule.order w).countP Move.isAsk :=
      List.countP_pos_iff.2 (by simpa using hasked)
    omega
  · right
    rw [if_neg hasked] at hfollows hspent ⊢
    refine ⟨fun hready => hasked (asked_of_ready hready), ?_, by omega⟩
    rw [after_append]
    exact ready_step_wait (hw.after hp _) ((follows_append p).1 hfollows).2.1

/-- Enough passes leave nothing pending. Two passes for each try that is left are enough, and one
pass less if somebody is asked in the first of them. -/
theorem turns_pending (hp : p.Advances) {most : Nat} {w : World} (hw : w.Punctual)
    (hmost : 2 * w.schedule.budget p.tries ≤ most ∨
      w.schedule.Ready w.services.elapsed p.length ∧
        2 * w.schedule.budget p.tries ≤ most + 1) :
    (w.after p (turns p most w)).schedule.pending = [] := by
  induction most generalizing w with
  | zero =>
      have hlength := w.schedule.length_le_budget p.tries
      show w.schedule.pending = []
      exact List.length_eq_zero_iff.1 (by omega)
  | succ most ih =>
      rw [turns]
      by_cases hempty : w.schedule.pending.isEmpty = true
      · rw [if_pos hempty]
        exact List.isEmpty_iff.1 hempty
      · rw [if_neg hempty, after_append]
        rw [List.isEmpty_iff] at hempty
        apply ih (hw.after hp _)
        rcases turn_progress hp hw hempty with hspent | ⟨hnot, hready, hspent⟩
        · exact Or.inl (by omega)
        · rcases hmost with hmost | hmost
          · exact Or.inr ⟨hready, by omega⟩
          · exact absurd hmost.1 hnot

/-- A run leaves nothing pending. -/
theorem moves_pending (hp : p.Advances) (htries : 1 ≤ p.tries) {w : World} (hw : w.Punctual) :
    (w.after p (w.moves p)).schedule.pending = [] := by
  refine turns_pending hp hw (Or.inl ?_)
  exact Nat.mul_le_mul_left 2 (w.schedule.budget_le p.tries htries)

end World

end IpRegistry.Bulk
