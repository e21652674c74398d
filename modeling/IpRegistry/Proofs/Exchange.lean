import IpRegistry.Exchange
import IpRegistry.Proofs.Services
import Mathlib.Algebra.GroupWithZero.Nat

namespace IpRegistry.Exchange

variable {α β : Type}

theorem bind_apply (x : Exchange α) (f : α → Exchange β) (σ : Services) :
    (x >>= f) σ =
      match x σ with
      | (.ok a, σ') => f a σ'
      | (.error e, σ') => (.error e, σ') :=
  rfl

theorem bind_of_ok {x : Exchange α} {f : α → Exchange β} {σ σ' : Services} {a : α}
    (h : x σ = (.ok a, σ')) : (x >>= f) σ = f a σ' := by
  rw [bind_apply, h]

theorem bind_of_error {x : Exchange α} {f : α → Exchange β} {σ σ' : Services} {e : LookupError}
    (h : x σ = (.error e, σ')) : (x >>= f) σ = (.error e, σ') := by
  rw [bind_apply, h]

section

variable {x : OptionT Exchange α} {f : α → OptionT Exchange β} {y : Exchange α} {a : α}
  {e : LookupError} {σ σ' : Services}

theorem run_bind_of_some (h : x.run σ = (.ok (some a), σ')) : (x >>= f).run σ = (f a).run σ' :=
  bind_of_ok h

theorem run_bind_of_none (h : x.run σ = (.ok none, σ')) : (x >>= f).run σ = (.ok none, σ') :=
  bind_of_ok h

theorem run_bind_of_error (h : x.run σ = (.error e, σ')) : (x >>= f).run σ = (.error e, σ') :=
  bind_of_error h

theorem run_liftM_of_ok (h : y σ = (.ok a, σ')) :
    (liftM y : OptionT Exchange α).run σ = (.ok (some a), σ') :=
  bind_of_ok h

theorem run_liftM_of_error (h : y σ = (.error e, σ')) :
    (liftM y : OptionT Exchange α).run σ = (.error e, σ') :=
  bind_of_error h

theorem run_getM (a : Option α) (σ : Services) :
    (a.getM : OptionT Exchange α).run σ = (.ok a, σ) := by
  cases a <;> rfl

variable {b : Prop} [Decidable b]

theorem run_guard_of_pos (h : b) (σ : Services) :
    (guard b : OptionT Exchange Unit).run σ = (.ok (some ()), σ) := by
  show (if b then pure () else failure : OptionT Exchange Unit).run σ = _
  rw [if_pos h]
  rfl

theorem run_guard_of_neg (h : ¬b) (σ : Services) :
    (guard b : OptionT Exchange Unit).run σ = (.ok none, σ) := by
  show (if b then pure () else failure : OptionT Exchange Unit).run σ = _
  rw [if_neg h]
  rfl

end

theorem bind_pure_fst (x : Exchange α) (f : α → β) (σ : Services) :
    ((x >>= fun a => pure (f a)) σ).1 = (x σ).1.map f := by
  rw [bind_apply]
  rcases x σ with ⟨result, σ'⟩
  cases result <;> rfl

theorem exists_of_bind {x : Exchange α} {f : α → Exchange β} {σ σ' : Services} {b : β}
    (h : (x >>= f) σ = (.ok b, σ')) :
    ∃ a σ₁, x σ = (.ok a, σ₁) ∧ f a σ₁ = (.ok b, σ') := by
  rcases hrun : x σ with ⟨result, σ₁⟩
  cases result with
  | error e =>
      rw [bind_of_error hrun] at h
      cases h
  | ok a =>
      rw [bind_of_ok hrun] at h
      exact ⟨a, σ₁, rfl, h⟩

theorem exists_of_bind_fst {x : Exchange α} {f : α → Exchange β} {σ : Services} {b : β}
    (h : ((x >>= f) σ).1 = .ok b) : ∃ a σ', x σ = (.ok a, σ') ∧ (f a σ').1 = .ok b := by
  have hpair : (x >>= f) σ = (.ok b, ((x >>= f) σ).2) := Prod.ext h rfl
  obtain ⟨a, σ', hrun, hrest⟩ := exists_of_bind hpair
  exact ⟨a, σ', hrun, congrArg Prod.fst hrest⟩

@[simp] theorem ofExcept_apply (result : Except LookupError α) (σ : Services) :
    ofExcept result σ = (result, σ) := by
  cases result <;> rfl

@[simp] theorem outcome_apply (x : Exchange α) (σ : Services) :
    x.outcome σ = (.ok (x σ).1, (x σ).2) :=
  rfl

theorem askTexts_apply (name : String) (σ : Services) :
    askTexts name σ =
      (.ok ((σ.texts.lookup name).getD (.error .nxDomain)), σ.note (.name name)) :=
  rfl

/-- The answers of web servers stay as they are. -/
def LeavesWeb (x : Exchange α) : Prop :=
  ∀ σ, (x σ).2.web = σ.web

theorem LeavesWeb.bind {x : Exchange α} {f : α → Exchange β} (hx : LeavesWeb x)
    (hf : ∀ a, LeavesWeb (f a)) : LeavesWeb (x >>= f) := by
  intro σ
  have hfirst := hx σ
  rw [bind_apply]
  rcases hrun : x σ with ⟨result, σ'⟩
  rw [hrun] at hfirst
  cases result with
  | error e => exact hfirst
  | ok a => exact (hf a σ').trans hfirst

theorem LeavesWeb.outcome {x : Exchange α} (hx : LeavesWeb x) : LeavesWeb x.outcome := by
  intro σ
  rw [outcome_apply]
  exact hx σ

/-- Computations that ask web servers, wait, and do nothing else. -/
inductive Browses : {α : Type} → Exchange α → Prop
  | done {α : Type} (a : α) : Browses (done a)
  | fail {α : Type} (e : LookupError) : Browses (fail e : Exchange α)
  | askWeb (request : Web.Request) : Browses (askWeb request)
  | sleep (ms : Nat) : Browses (sleep ms)
  | bind {α β : Type} {x : Exchange α} {f : α → Exchange β} :
    Browses x → (∀ a, Browses (f a)) → Browses (x >>= f)

theorem Browses.ofExcept (result : Except LookupError α) : Browses (ofExcept result) := by
  cases result with
  | ok a => exact .done a
  | error e => exact .fail e

theorem Browses.elapsed_le {x : Exchange α} (h : Browses x) (σ : Services) :
    σ.elapsed ≤ (x σ).2.elapsed := by
  induction h generalizing σ with
  | done a => exact Nat.le_refl _
  | fail e => exact Nat.le_refl _
  | askWeb request => exact Nat.le_refl _
  | sleep ms => exact Nat.le_add_right _ _
  | bind hx hf ihx ihf =>
      rename_i x f
      have hfirst := ihx σ
      rw [bind_apply]
      rcases hrun : x σ with ⟨result, σ'⟩
      rw [hrun] at hfirst
      cases result with
      | error e => exact hfirst
      | ok a => exact Nat.le_trans hfirst (ihf a σ')

/-- Where web servers have standing answers only, nothing changes for later requests, and the result
depends on those answers alone. -/
theorem Browses.steady {x : Exchange α} (h : Browses x) {σ : Services}
    (hσ : σ.web.queued = []) :
    (x σ).2.web = σ.web ∧ ∀ τ : Services, τ.web = σ.web → (x τ).1 = (x σ).1 := by
  induction h generalizing σ with
  | done a => exact ⟨rfl, fun _ _ => rfl⟩
  | fail e => exact ⟨rfl, fun _ _ => rfl⟩
  | sleep ms => exact ⟨rfl, fun _ _ => rfl⟩
  | askWeb request =>
      have htake : σ.web.take request.url = (σ.web.standing.lookup request.url, σ.web) := by
        rw [Script.take, hσ]
        rfl
      constructor
      · show (σ.web.take request.url).2 = σ.web
        rw [htake]
      · intro τ hτ
        show Except.ok ((τ.web.take request.url).1.getD _) =
          Except.ok ((σ.web.take request.url).1.getD _)
        rw [hτ]
  | bind hx hf ihx ihf =>
      rename_i x f
      obtain ⟨hweb, hsame⟩ := ihx hσ
      rw [bind_apply]
      rcases hrun : x σ with ⟨result, σ'⟩
      rw [hrun] at hweb hsame
      cases result with
      | error e =>
          refine ⟨hweb, fun τ hτ => ?_⟩
          rcases hother : x τ with ⟨result, τ'⟩
          have := hsame τ hτ
          rw [hother] at this
          obtain rfl : result = .error e := this
          rw [bind_of_error hother]
      | ok a =>
          have hσ' : σ'.web.queued = [] := by rw [show σ'.web = σ.web from hweb, hσ]
          obtain ⟨hweb', hsame'⟩ := ihf a hσ'
          refine ⟨hweb'.trans hweb, fun τ hτ => ?_⟩
          rcases hother : x τ with ⟨result, τ'⟩
          have := hsame τ hτ
          rw [hother] at this
          obtain rfl : result = .ok a := this
          have hτ' : τ'.web = τ.web := by
            have hfirst := (ihx (σ := τ) (by rw [hτ, hσ])).1
            rwa [hother] at hfirst
          rw [bind_of_ok hother]
          exact hsame' τ' (by rw [hτ', hτ]; exact hweb.symm)

def noted (x : Exchange α) (σ : Services) : List Event :=
  (x σ).2.events.drop σ.events.length

theorem noted_of_append {x : Exchange α} {σ : Services} {events : List Event}
    (h : (x σ).2.events = σ.events ++ events) : x.noted σ = events := by
  rw [noted, h, List.drop_left]

variable {allowed : Event → Prop}

/-- Whatever the services are, the computation adds allowed events to those before it. -/
def Notes (allowed : Event → Prop) (x : Exchange α) : Prop :=
  ∀ σ, ∃ events, (x σ).2.events = σ.events ++ events ∧ ∀ e ∈ events, allowed e

namespace Notes

theorem done (a : α) : Notes allowed (done a) :=
  fun _ => ⟨[], (List.append_nil _).symm, by simp⟩

theorem fail (e : LookupError) : Notes allowed (fail e : Exchange α) :=
  fun _ => ⟨[], (List.append_nil _).symm, by simp⟩

theorem ofExcept (result : Except LookupError α) : Notes allowed (ofExcept result) := by
  cases result with
  | ok a => exact .done a
  | error e => exact .fail e

theorem askTexts {name : String} (h : allowed (.name name)) : Notes allowed (askTexts name) :=
  fun _ => ⟨[.name name], rfl, by simpa only [List.mem_singleton, forall_eq] using h⟩

theorem mono {x : Exchange α} (h : Notes allowed x) {permitted : Event → Prop}
    (himp : ∀ e, allowed e → permitted e) : Notes permitted x := by
  intro σ
  obtain ⟨events, happend, hallowed⟩ := h σ
  exact ⟨events, happend, fun e he => himp e (hallowed e he)⟩

theorem outcome {x : Exchange α} (h : Notes allowed x) : Notes allowed x.outcome :=
  h

theorem bind {x : Exchange α} {f : α → Exchange β} (hx : Notes allowed x)
    (hf : ∀ a, Notes allowed (f a)) : Notes allowed (x >>= f) := by
  intro σ
  obtain ⟨events, happend, hallowed⟩ := hx σ
  rw [bind_apply]
  rcases hrun : x σ with ⟨result, σ'⟩
  rw [hrun] at happend
  cases result with
  | error e => exact ⟨events, happend, hallowed⟩
  | ok a =>
      obtain ⟨more, happend', hallowed'⟩ := hf a σ'
      refine ⟨events ++ more, ?_, ?_⟩
      · rw [happend', happend, List.append_assoc]
      · intro e he
        exact (List.mem_append.1 he).elim (hallowed e) (hallowed' e)

theorem events_eq {x : Exchange α} (h : Notes allowed x) (σ : Services) :
    (x σ).2.events = σ.events ++ x.noted σ := by
  obtain ⟨events, happend, -⟩ := h σ
  rw [noted_of_append happend, happend]

theorem allowed_of_mem {x : Exchange α} (h : Notes allowed x) {σ : Services} {e : Event}
    (he : e ∈ x.noted σ) : allowed e := by
  obtain ⟨events, happend, hallowed⟩ := h σ
  rw [noted_of_append happend] at he
  exact hallowed e he

theorem noted_bind {x : Exchange α} {f : α → Exchange β} (hx : Notes allowed x)
    (hf : ∀ a, Notes allowed (f a)) {σ σ' : Services} {a : α} (h : x σ = (.ok a, σ')) :
    (x >>= f).noted σ = x.noted σ ++ (f a).noted σ' := by
  have hfirst : σ'.events = σ.events ++ x.noted σ := by
    rw [← hx.events_eq σ, h]
  apply noted_of_append
  rw [bind_of_ok h, (hf a).events_eq σ', hfirst, List.append_assoc]

end Notes

/-- Computations that browse, where each request and each wait is an allowed event. -/
inductive Obeys (allowed : Event → Prop) : {α : Type} → Exchange α → Prop
  | done {α : Type} (a : α) : Obeys allowed (done a)
  | fail {α : Type} (e : LookupError) : Obeys allowed (fail e : Exchange α)
  | askWeb (request : Web.Request) (h : allowed (.web request)) : Obeys allowed (askWeb request)
  | sleep (ms : Nat) (h : allowed (.sleep ms)) : Obeys allowed (sleep ms)
  | bind {α β : Type} {x : Exchange α} {f : α → Exchange β} :
    Obeys allowed x → (∀ a, Obeys allowed (f a)) → Obeys allowed (x >>= f)

theorem Obeys.ofExcept (result : Except LookupError α) : Obeys allowed (ofExcept result) := by
  cases result with
  | ok a => exact .done a
  | error e => exact .fail e

theorem Obeys.mono {x : Exchange α} (h : Obeys allowed x) {permitted : Event → Prop}
    (himp : ∀ e, allowed e → permitted e) : Obeys permitted x := by
  induction h with
  | done a => exact .done a
  | fail e => exact .fail e
  | askWeb request h => exact .askWeb request (himp _ h)
  | sleep ms h => exact .sleep ms (himp _ h)
  | bind hx hf ihx ihf => exact .bind ihx ihf

theorem Obeys.browses {x : Exchange α} (h : Obeys allowed x) : Browses x := by
  induction h with
  | done a => exact .done a
  | fail e => exact .fail e
  | askWeb request h => exact .askWeb request
  | sleep ms h => exact .sleep ms
  | bind hx hf ihx ihf => exact .bind ihx ihf

/-- The milliseconds of a wait. -/
def wait? : Event → Option Nat
  | .sleep ms => some ms
  | _ => none

theorem Obeys.exists_events {x : Exchange α} (h : Obeys allowed x) (σ : Services) :
    ∃ events, (x σ).2.events = σ.events ++ events ∧ (∀ e ∈ events, allowed e) ∧
      (x σ).2.elapsed = σ.elapsed + (events.filterMap wait?).sum := by
  induction h generalizing σ with
  | done a => exact ⟨[], (List.append_nil _).symm, by simp, rfl⟩
  | fail e => exact ⟨[], (List.append_nil _).symm, by simp, rfl⟩
  | askWeb request h =>
      refine ⟨[.web request], rfl, ?_, rfl⟩
      intro e he
      rwa [List.mem_singleton.1 he]
  | sleep ms h =>
      refine ⟨[.sleep ms], rfl, ?_, rfl⟩
      intro e he
      rwa [List.mem_singleton.1 he]
  | bind hx hf ihx ihf =>
      rename_i x f
      obtain ⟨events, happend, hallowed, helapsed⟩ := ihx σ
      rw [bind_apply]
      rcases hrun : x σ with ⟨result, σ'⟩
      rw [hrun] at happend helapsed
      cases result with
      | error e => exact ⟨events, happend, hallowed, helapsed⟩
      | ok a =>
          obtain ⟨more, happend', hallowed', helapsed'⟩ := ihf a σ'
          refine ⟨events ++ more, ?_, ?_, ?_⟩
          · rw [happend', happend, List.append_assoc]
          · intro e he
            exact (List.mem_append.1 he).elim (hallowed e) (hallowed' e)
          · rw [helapsed', helapsed, List.filterMap_append, List.sum_append, Nat.add_assoc]

theorem Obeys.notes {x : Exchange α} (h : Obeys allowed x) : Notes allowed x := by
  intro σ
  obtain ⟨events, happend, hallowed, -⟩ := h.exists_events σ
  exact ⟨events, happend, hallowed⟩

theorem Obeys.events_eq {x : Exchange α} (h : Obeys allowed x) (σ : Services) :
    (x σ).2.events = σ.events ++ x.noted σ :=
  h.notes.events_eq σ

theorem Obeys.allowed_of_mem {x : Exchange α} (h : Obeys allowed x) {σ : Services} {e : Event}
    (he : e ∈ x.noted σ) : allowed e :=
  h.notes.allowed_of_mem he

theorem Obeys.elapsed_eq {x : Exchange α} (h : Obeys allowed x)
    (hwait : ∀ e, allowed e → wait? e = none) (σ : Services) : (x σ).2.elapsed = σ.elapsed := by
  obtain ⟨events, -, hallowed, helapsed⟩ := h.exists_events σ
  have hnone : events.filterMap wait? = [] :=
    List.filterMap_eq_nil_iff.2 fun e he => hwait e (hallowed e he)
  rw [helapsed, hnone]
  rfl

theorem noted_bind_of_ok {x : Exchange α} {f : α → Exchange β} {σ σ' : Services} {a : α}
    (hx : Obeys allowed x) (hf : ∀ a, Obeys allowed (f a)) (h : x σ = (.ok a, σ')) :
    (x >>= f).noted σ = x.noted σ ++ (f a).noted σ' :=
  hx.notes.noted_bind (fun a => (hf a).notes) h

theorem noted_bind_of_error {x : Exchange α} {f : α → Exchange β} {σ σ' : Services}
    {e : LookupError} (h : x σ = (.error e, σ')) : (x >>= f).noted σ = x.noted σ := by
  rw [noted, noted, bind_of_error h, h]

theorem noted_bind_pure (x : Exchange α) (f : α → β) (σ : Services) :
    (x >>= fun a => pure (f a)).noted σ = x.noted σ := by
  rw [noted, noted, bind_apply]
  rcases x σ with ⟨result, σ'⟩
  cases result <;> rfl

/-- Servers that are not asked are going to give what they were going to give before. -/
theorem Obeys.take_fst_eq {x : Exchange α} (h : Obeys allowed x) (key : String)
    (hkey : ∀ request, allowed (.web request) → request.url ≠ key) (σ : Services) :
    ((x σ).2.web.take key).1 = (σ.web.take key).1 := by
  induction h generalizing σ with
  | done a => rfl
  | fail e => rfl
  | askWeb request h => exact σ.web.take_fst_of_ne (hkey request h).symm
  | sleep ms h => rfl
  | bind hx hf ihx ihf =>
      rename_i x f
      have hfirst := ihx σ
      rw [bind_apply]
      rcases hrun : x σ with ⟨result, σ'⟩
      rw [hrun] at hfirst
      cases result with
      | error e => exact hfirst
      | ok a => exact (ihf a σ').trans hfirst

/-- From services with the one property, the computation gives a result, notes some events, and
leaves services with the other property. -/
def Yields (before : Services → Prop) (x : Exchange α) (events : List Event) (a : α)
    (after : Services → Prop) : Prop :=
  ∀ σ, before σ → ∃ σ', x σ = (.ok a, σ') ∧ σ'.events = σ.events ++ events ∧ after σ'

theorem Yields.done (a : α) (before : Services → Prop) : Yields before (done a) [] a before :=
  fun σ hσ => ⟨σ, rfl, (List.append_nil _).symm, hσ⟩

theorem Yields.bind {before middle after : Services → Prop} {x : Exchange α} {f : α → Exchange β}
    {events more : List Event} {a : α} {b : β} (hx : Yields before x events a middle)
    (hf : Yields middle (f a) more b after) :
    Yields before (x >>= f) (events ++ more) b after := by
  intro σ hσ
  obtain ⟨σ', hrun, hevents, hσ'⟩ := hx σ hσ
  obtain ⟨σ'', hrun', hevents', hσ''⟩ := hf σ' hσ'
  exact ⟨σ'', by rw [bind_of_ok hrun, hrun'], by rw [hevents', hevents, List.append_assoc], hσ''⟩

end IpRegistry.Exchange
