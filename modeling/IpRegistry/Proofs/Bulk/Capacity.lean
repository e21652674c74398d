import IpRegistry.Bulk
import IpRegistry.Proofs.Bulk.Fate
import IpRegistry.Proofs.Bulk.Windows

namespace IpRegistry.Bulk

/-- The one computation breaks off, or does what the other one does. -/
def Refines {α : Type} (x : OptionT Exchange α) (y : Exchange α) : Prop :=
  ∀ σ, (x.run σ).1 = .ok none ∨ x.run σ = ((y σ).1.map some, (y σ).2)

namespace Refines

variable {α β : Type} {x : OptionT Exchange α} {y : Exchange α} {f : α → OptionT Exchange β}
  {g : α → Exchange β}

theorem pure (a : α) : Refines (pure a) (pure a) :=
  fun _ => .inr rfl

theorem lift (y : Exchange α) : Refines (liftM y) y := by
  intro σ
  right
  rcases hy : y σ with ⟨result, σ'⟩
  cases result with
  | ok a => exact Exchange.run_liftM_of_ok hy
  | error e => exact Exchange.run_liftM_of_error hy

theorem bind (hx : Refines x y) (hf : ∀ a, Refines (f a) (g a)) : Refines (x >>= f) (y >>= g) := by
  intro σ
  rcases hx σ with hnone | hrun
  · left
    rw [Exchange.run_bind_of_none (Prod.ext hnone rfl)]
  · rcases hy : y σ with ⟨result, σ'⟩
    rw [hy] at hrun
    cases result with
    | ok a =>
        rw [Exchange.run_bind_of_some hrun, Exchange.bind_of_ok hy]
        exact hf a σ'
    | error e =>
        right
        rw [Exchange.run_bind_of_error hrun, Exchange.bind_of_error hy]
        rfl

theorem ite {x' : OptionT Exchange α} {y' : Exchange α} (b : Bool) (h : Refines x y)
    (h' : Refines x' y') : Refines (if b = true then x else x') (if b = true then y else y') := by
  split
  · exact h
  · exact h'

end Refines

namespace Capacity

variable (c : Capacity) {σ : Services}

theorem now_of_le (h : σ.elapsed ≤ c.time) :
    c.machine.now.run σ = (.ok (some σ.elapsed), σ) := by
  show ((guard (σ.elapsed ≤ c.time) >>= fun _ => return σ.elapsed : OptionT Exchange Nat)).run σ = _
  exact Exchange.run_bind_of_some (Exchange.run_guard_of_pos h σ)

theorem now_of_lt (h : c.time < σ.elapsed) : c.machine.now.run σ = (.ok none, σ) := by
  show ((guard (σ.elapsed ≤ c.time) >>= fun _ => return σ.elapsed : OptionT Exchange Nat)).run σ = _
  exact Exchange.run_bind_of_none (Exchange.run_guard_of_neg (Nat.not_le_of_lt h) σ)

theorem hold_of_le {failures : Nat} (h : failures ≤ c.failures) :
    (c.machine.hold failures).run σ = (.ok (some ()), σ) :=
  Exchange.run_guard_of_pos h σ

theorem refines_now : Refines c.machine.now Machine.endless.now := by
  intro σ
  by_cases h : σ.elapsed ≤ c.time
  · exact .inr (c.now_of_le h)
  · exact .inl (congrArg Prod.fst (c.now_of_lt (Nat.lt_of_not_le h)))

theorem refines_hold (failures : Nat) :
    Refines (c.machine.hold failures) (Machine.endless.hold failures) := by
  intro σ
  by_cases h : failures ≤ c.failures
  · exact .inr (c.hold_of_le h)
  · exact .inl (congrArg Prod.fst (Exchange.run_guard_of_neg h σ))

variable (p : Plan)

theorem refines_askAll (r : Registry) (queue : Classified) (s : Schedule) :
    Refines (Schedule.askAll c.machine p r queue s) (Schedule.askAll .endless p r queue s) := by
  induction queue generalizing s with
  | nil => exact .pure s
  | cons entry queue ih =>
      exact .bind (.lift _) fun outcome => .bind c.refines_now fun now =>
        .bind (c.refines_hold _) fun _ => .ite _ (ih _) (.pure _)

theorem refines_pass (rs : List Registry) (s : Schedule) :
    Refines (Schedule.pass c.machine p rs s) (Schedule.pass .endless p rs s) := by
  induction rs generalizing s with
  | nil => exact .pure (false, s)
  | cons r rs ih =>
      exact .bind c.refines_now fun now => .ite _
        (.bind (c.refines_askAll p r _ _) fun s => .bind (ih s) fun _ => .pure _) (ih s)

theorem refines_passes (most : Nat) (s : Schedule) :
    Refines (Schedule.passes c.machine p most s) (Schedule.passes .endless p most s) := by
  induction most generalizing s with
  | zero => exact .pure s
  | succ most ih =>
      rw [Schedule.passes, Schedule.passes]
      refine .ite _ (.pure s) (.bind (c.refines_pass p _ s) fun asked => ?_)
      exact .ite _ (ih asked.2) (.bind c.refines_now fun now => .bind (.lift _) fun _ => ih asked.2)

end Capacity

/-- A lookup on a machine of some capacity breaks off, or does what the lookup on a machine without
an end does. -/
theorem lookup?_refines (c : Capacity) (addresses : List String) (o : Options) :
    Refines (lookup? c addresses o) (lookup addresses o) :=
  .bind (.lift _) fun _ => .bind (c.refines_passes _ _ _) fun _ => .pure _

namespace Schedule

/-- The failures of all addresses can be counted. -/
def Fits (s : Schedule) (c : Capacity) : Prop :=
  ∀ address, s.failuresOf address ≤ c.failures

end Schedule

namespace World

variable {p : Plan}

theorem failuresOf_le_step (w : World) (m : Move) (address : String) :
    w.schedule.failuresOf address ≤ (w.step p m).schedule.failuresOf address := by
  have haccount (a : Account) (r : Registry) (outcome : Except LookupError RdapReport) :
      a.failures ≤ (a.settle p.tries r outcome).failures := by
    cases outcome with
    | ok report => exact Nat.le_refl _
    | error e =>
        have hfail : a.failures ≤ (a.fail p.tries r).failures := by
          rw [Account.fail]
          split <;> exact Nat.le_succ _
        rw [Account.settle, Account.limit]
        split
        · split <;> exact hfail
        · exact hfail
  show (w.schedule.account address).failures ≤ ((w.step p m).schedule.account address).failures
  cases m with
  | enter r =>
      exact Nat.le_of_eq (congrArg Account.failures (account_step_enter w r address).symm)
  | wait => exact Nat.le_refl _
  | ask r asked other =>
      rw [account_step_ask]
      split
      · exact haccount ..
      · exact Nat.le_refl _

theorem failuresOf_le_after (w : World) (moves : List Move) (address : String) :
    w.schedule.failuresOf address ≤ (w.after p moves).schedule.failuresOf address := by
  induction moves generalizing w with
  | nil => exact Nat.le_refl _
  | cons m moves ih => exact Nat.le_trans (failuresOf_le_step w m address) (ih (w.step p m))

variable {c : Capacity}

theorem fits_of_after {w : World} {moves : List Move} (h : (w.after p moves).schedule.Fits c) :
    w.schedule.Fits c :=
  fun address => Nat.le_trans (failuresOf_le_after w moves address) (h address)

/-- What the lookups of a plan do not change, they do not change at a registry either. -/
theorem after_asks_eq {α : Type} {f : Services → α}
    (hf : ∀ address record σ, f (p.lookup address record σ).2 = f σ) (r : Registry)
    (queue : Classified) (w : World) : f (w.after p (asks p r queue w)).services = f w.services := by
  induction queue generalizing w with
  | nil => rfl
  | cons entry queue ih =>
      obtain ⟨address, record⟩ := entry
      have hstep := hf address record w.services
      rw [asks]
      split
      · exact (ih (w.step p (.ask r address record))).trans hstep
      · exact hstep

theorem after_passMoves_eq {α : Type} {f : Services → α}
    (hf : ∀ address record σ, f (p.lookup address record σ).2 = f σ) (rs : List Registry)
    (w : World) : f (w.after p (passMoves p rs w)).services = f w.services := by
  induction rs generalizing w with
  | nil => rfl
  | cons r rs ih =>
      rw [passMoves]
      split
      · rw [after_append, ih]
        exact after_asks_eq hf r _ (w.step p (.enter r))
      · exact ih w

variable (hp : p.Instant)

include hp

theorem run_askAll {r : Registry} {queue : Classified} {w : World}
    (htime : w.services.elapsed ≤ c.time)
    (hfits : (w.after p (asks p r queue w)).schedule.Fits c) :
    (Schedule.askAll c.machine p r queue w.schedule).run w.services =
      (.ok (some (w.after p (asks p r queue w)).schedule),
        (w.after p (asks p r queue w)).services) := by
  induction queue generalizing w with
  | nil => rfl
  | cons entry queue ih =>
      obtain ⟨address, record⟩ := entry
      let next := w.step p (.ask r address record)
      have htime' : next.services.elapsed ≤ c.time := (hp address record w.services).symm ▸ htime
      have hfits' : next.schedule.Fits c := by
        rw [asks] at hfits
        split at hfits
        · exact fits_of_after (w := next) hfits
        · exact hfits
      have hask : (Schedule.askAll c.machine p r ((address, record) :: queue) w.schedule).run
            w.services =
          (if (w.settled p r address record).1 = true then
            Schedule.askAll c.machine p r queue next.schedule
          else pure next.schedule : OptionT Exchange Schedule).run next.services := by
        rw [Schedule.askAll, Exchange.run_bind_of_some
          (Exchange.run_liftM_of_ok (Exchange.outcome_apply _ _))]
        exact (Exchange.run_bind_of_some (c.now_of_le htime')).trans
          (Exchange.run_bind_of_some (c.hold_of_le (hfits' address)))
      rw [hask, asks]
      rw [asks] at hfits
      by_cases hmore : (w.settled p r address record).1 = true
      · rw [if_pos hmore] at hfits
        rw [if_pos hmore, if_pos hmore]
        exact ih htime' hfits
      · rw [if_neg hmore, if_neg hmore]
        rfl

theorem run_pass {rs : List Registry} {w : World} (htime : w.services.elapsed ≤ c.time)
    (hfits : (w.after p (passMoves p rs w)).schedule.Fits c) :
    (Schedule.pass c.machine p rs w.schedule).run w.services =
      (.ok (some ((passMoves p rs w).any Move.isAsk,
        (w.after p (passMoves p rs w)).schedule)), (w.after p (passMoves p rs w)).services) := by
  induction rs generalizing w with
  | nil => rfl
  | cons r rs ih =>
      rw [passMoves] at hfits
      rw [Schedule.pass, Exchange.run_bind_of_some (c.now_of_le htime), passMoves]
      by_cases hmay : w.schedule.mayAsk w.services.elapsed p.length r = true
      · rw [if_pos hmay, after_append] at hfits
        rw [if_pos hmay, if_pos hmay]
        have hvisit : (Schedule.askAll c.machine p r (w.schedule.queue r)
            (w.schedule.openWindow w.services.elapsed p.length r)).run w.services =
            (.ok (some (w.after p (w.visit p r)).schedule), (w.after p (w.visit p r)).services) :=
          run_askAll hp (w := w.step p (.enter r)) htime (fits_of_after hfits)
        have htime' : (w.after p (w.visit p r)).services.elapsed ≤ c.time :=
          Nat.le_trans (Nat.le_of_eq (after_asks_eq hp r _ (w.step p (.enter r)))) htime
        rw [Exchange.run_bind_of_some hvisit, Exchange.run_bind_of_some (ih htime' hfits),
          List.any_append, any_isAsk_visit, after_append]
        rfl
      · rw [if_neg hmay] at hfits
        rw [if_neg hmay, if_neg hmay]
        exact ih htime hfits

theorem run_passes_succ {most : Nat} {w : World} (hpending : w.schedule.pending ≠ [])
    (htime : w.services.elapsed ≤ c.time)
    (hfits : (w.after p (w.turn p)).schedule.Fits c) :
    (Schedule.passes c.machine p (most + 1) w.schedule).run w.services =
      (Schedule.passes c.machine p most (w.after p (w.turn p)).schedule).run
        (w.after p (w.turn p)).services := by
  have hempty : ¬w.schedule.pending.isEmpty = true := mt List.isEmpty_iff.1 hpending
  rw [Schedule.passes, if_neg hempty]
  rw [turn] at hfits ⊢
  by_cases hasked : (passMoves p Schedule.order w).any Move.isAsk = true
  · rw [if_pos hasked] at hfits ⊢
    rw [Exchange.run_bind_of_some (run_pass hp htime hfits)]
    simp only [hasked]
    rfl
  · rw [if_neg hasked] at hfits ⊢
    rw [after_append] at hfits ⊢
    have htime' : (w.after p (passMoves p Schedule.order w)).services.elapsed ≤ c.time :=
      Nat.le_trans (Nat.le_of_eq (after_passMoves_eq hp _ w)) htime
    rw [Exchange.run_bind_of_some (run_pass hp htime (fits_of_after hfits))]
    simp only [hasked, Bool.false_eq_true, if_false]
    rw [Exchange.run_bind_of_some (c.now_of_le htime')]
    rfl

end World

end IpRegistry.Bulk
