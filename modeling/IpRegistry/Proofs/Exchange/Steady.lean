import IpRegistry.Proofs.Exchange
import IpRegistry.Proofs.Services
import IpRegistry.Whois.Query

namespace IpRegistry

namespace Services

/-- No answer is queued, so what a server gives depends only on what it is asked for. -/
structure IsSteady (σ : Services) : Prop where
  whois : σ.whois.queued = []
  web : σ.web.queued = []

/-- The services give the same answers; the time and what has happened may differ. -/
structure SameAnswers (σ τ : Services) : Prop where
  whois : τ.whois = σ.whois
  web : τ.web = σ.web
  texts : τ.texts = σ.texts
  hosts : τ.hosts = σ.hosts

variable {σ τ υ : Services}

theorem SameAnswers.refl (σ : Services) : SameAnswers σ σ :=
  ⟨rfl, rfl, rfl, rfl⟩

theorem SameAnswers.trans (h : SameAnswers σ τ) (hthen : SameAnswers τ υ) : SameAnswers σ υ :=
  ⟨hthen.whois.trans h.whois, hthen.web.trans h.web, hthen.texts.trans h.texts,
    hthen.hosts.trans h.hosts⟩

theorem SameAnswers.symm (h : SameAnswers σ τ) : SameAnswers τ σ :=
  ⟨h.whois.symm, h.web.symm, h.texts.symm, h.hosts.symm⟩

theorem SameAnswers.isSteady (h : SameAnswers σ τ) (hσ : σ.IsSteady) : τ.IsSteady :=
  ⟨by rw [h.whois, hσ.whois], by rw [h.web, hσ.web]⟩

end Services

namespace Script

variable {α : Type} {s : Script α}

theorem take_of_queued_eq_nil (h : s.queued = []) (key : String) :
    s.take key = (s.standing.lookup key, s) := by
  rw [take, h]
  rfl

theorem upcoming_of_queued_eq_nil (h : s.queued = []) (key : String) (count : Nat) :
    s.upcoming key count = List.replicate count (s.standing.lookup key) := by
  have hqueued : s.queuedFor key = [] := by
    rw [queuedFor, h]
    rfl
  rw [upcoming, hqueued, List.map_nil, List.nil_append, List.take_replicate, Nat.min_self]

end Script

namespace Exchange

open Services (SameAnswers)

/-- Where servers have standing answers only, these stay as they are, and the result depends on
nothing else. -/
def Repeatable {α : Type} (x : Exchange α) : Prop :=
  ∀ σ : Services, σ.IsSteady →
    SameAnswers σ (x σ).2 ∧ ∀ τ, SameAnswers σ τ → (x τ).1 = (x σ).1

namespace Repeatable

variable {α β : Type}

theorem done (a : α) : Repeatable (done a) :=
  fun σ _ => ⟨.refl σ, fun _ _ => rfl⟩

theorem fail (e : LookupError) : Repeatable (fail e : Exchange α) :=
  fun σ _ => ⟨.refl σ, fun _ _ => rfl⟩

theorem ofExcept (result : Except LookupError α) : Repeatable (ofExcept result) := by
  cases result with
  | ok a => exact .done a
  | error e => exact .fail e

theorem sleep (ms : Nat) : Repeatable (sleep ms) :=
  fun _ _ => ⟨⟨rfl, rfl, rfl, rfl⟩, fun _ _ => rfl⟩

theorem askTexts (name : String) : Repeatable (askTexts name) := by
  refine fun σ _ => ⟨⟨rfl, rfl, rfl, rfl⟩, fun τ hτ => ?_⟩
  rw [askTexts_apply, askTexts_apply, hτ.texts]

theorem askWhois (server : String) (port : Nat) (query : String) :
    Repeatable (askWhois server port query) := by
  intro σ hσ
  have htake := Script.take_of_queued_eq_nil hσ.whois server
  refine ⟨⟨?_, rfl, rfl, rfl⟩, fun τ hτ => ?_⟩
  · show (σ.whois.take server).2 = σ.whois
    rw [htake]
  · show Except.ok (τ.whois.take server).1.join = Except.ok (σ.whois.take server).1.join
    rw [hτ.whois]

theorem askWeb (request : Web.Request) : Repeatable (askWeb request) := by
  intro σ hσ
  have htake := Script.take_of_queued_eq_nil hσ.web request.url
  refine ⟨⟨rfl, ?_, rfl, rfl⟩, fun τ hτ => ?_⟩
  · show (σ.web.take request.url).2 = σ.web
    rw [htake]
  · show Except.ok ((τ.web.take request.url).1.getD _) =
      Except.ok ((σ.web.take request.url).1.getD _)
    rw [hτ.web]

theorem outcome {x : Exchange α} (h : Repeatable x) : Repeatable x.outcome := by
  refine fun σ hσ => ⟨(h σ hσ).1, fun τ hτ => ?_⟩
  rw [outcome_apply, outcome_apply, (h σ hσ).2 τ hτ]

theorem bind {x : Exchange α} {f : α → Exchange β} (hx : Repeatable x)
    (hf : ∀ a, Repeatable (f a)) : Repeatable (x >>= f) := by
  intro σ hσ
  obtain ⟨hleft, hsame⟩ := hx σ hσ
  rcases hrun : x σ with ⟨result, σ'⟩
  rw [hrun] at hleft hsame
  have hother : ∀ τ, SameAnswers σ τ → ∃ τ', x τ = (result, τ') ∧ SameAnswers σ' τ' := by
    intro τ hτ
    have hτ' := (hx τ (hτ.isSteady hσ)).1
    exact ⟨(x τ).2, Prod.ext (hsame τ hτ) rfl, hleft.symm.trans (hτ.trans hτ')⟩
  cases result with
  | error e =>
      rw [bind_of_error hrun]
      refine ⟨hleft, fun τ hτ => ?_⟩
      obtain ⟨τ', hτ', -⟩ := hother τ hτ
      rw [bind_of_error hτ']
  | ok a =>
      obtain ⟨hleft', hsame'⟩ := hf a σ' (hleft.isSteady hσ)
      rw [bind_of_ok hrun]
      refine ⟨hleft.trans hleft', fun τ hτ => ?_⟩
      obtain ⟨τ', hτ', hanswers⟩ := hother τ hτ
      rw [bind_of_ok hτ']
      exact hsame' τ' hanswers

end Repeatable

theorem Browses.repeatable {α : Type} {x : Exchange α} (h : Browses x) : Repeatable x := by
  induction h with
  | done a => exact .done a
  | fail e => exact .fail e
  | askWeb request => exact .askWeb request
  | sleep ms => exact .sleep ms
  | bind hx hf ihx ihf => exact .bind ihx ihf

end Exchange

namespace Whois.Query

open Exchange (Repeatable)

theorem repeatable_attempt (q : Query) (tries : Nat) : Repeatable (q.attempt tries) := by
  induction tries with
  | zero => exact .fail _
  | succ tries ih =>
      rw [attempt]
      refine .bind (.askWhois _ _ _) fun answer => ?_
      cases answer with
      | none => exact ih
      | some bytes =>
          dsimp only
          cases Answer.ofBytes bytes with
          | failed => exact .fail _
          | text s => exact .done s
          | limited =>
              show Repeatable (if tries = 0 then _ else _)
              split
              · exact .fail _
              · exact .bind (.sleep _) fun _ => ih

theorem repeatable_send (q : Query) : Repeatable q.send := by
  rw [send]
  split
  · exact .fail _
  · exact repeatable_attempt q _

end Whois.Query

end IpRegistry
