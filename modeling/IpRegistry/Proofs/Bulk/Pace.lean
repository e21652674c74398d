import IpRegistry.Proofs.Bulk.Conservation
import IpRegistry.Proofs.Bulk.Timeline

namespace IpRegistry.Bulk

open Rdap (Service)

/-- A request to the service of a registry. -/
def RequestTo (r : Registry) (e : Event) : Prop :=
  ∃ request, e = .web request ∧ (Service.registry r).serves request.url = true

theorem obeys_plan_lookup (o : Options) (address : String) (record : Asn.Record) :
    Exchange.Obeys (RequestTo record.registry) ((plan o).lookup address record) := by
  refine .bind (.ofExcept _) fun target => .bind ?_ fun _ => .done _
  refine Exchange.Obeys.mono (Rdap.obeys_lookup rfl) ?_
  rintro e (rfl | hadmitted)
  · exact ⟨_, rfl, Service.serves_networkUrl _ _⟩
  · cases e with
    | web request =>
        obtain ⟨handle, rfl⟩ := hadmitted
        exact ⟨_, rfl, Service.serves_entityUrl _ handle⟩
    | sleep ms => exact absurd hadmitted.2 (Nat.lt_irrefl 1)
    | whois server port query => exact hadmitted.elim
    | name queried => exact hadmitted.elim

theorem plan_instant (o : Options) : (plan o).Instant := by
  intro address record σ
  refine (obeys_plan_lookup o address record).elapsed_eq ?_ σ
  rintro e ⟨request, rfl, -⟩
  rfl

namespace World

variable {p : Plan} {w : World} {before between rest : List Move} {r : Registry}
  {address later : String} {record other : Asn.Record}

theorem count_le_of_moves (hp : p.Instant) (hw : w.schedule.used r ≤ Window.limit)
    (h : w.moves p = before ++ rest) {window : Window}
    (hwindow : (w.after p before).schedule.windows.lookup r = some window) :
    window.count ≤ Window.limit := by
  have hrespects := respects_moves hp w
  rw [h, follows_append] at hrespects
  have hused := hrespects.1.used_le hw
  rwa [Schedule.used, hwindow] at hused

theorem countP_isLookup_le (hp : p.Instant) (hw : w.schedule.used r ≤ Window.limit)
    {part : List Mark} (hpart : part <:+: timeline p r (w.moves p) w) (hstart : .start ∉ part) :
    part.countP Mark.isLookup ≤ Window.limit := by
  have hrespects := respects_moves hp w
  exact (hrespects.mono p fun v m h => ⟨h, countsOnce_isLookup v m⟩).countP_le hw hpart hstart

theorem respects_ask_of_moves (hp : p.Instant)
    (h : w.moves p = before ++ .ask r address record :: rest) :
    (w.after p before).Respects p (.ask r address record) := by
  have hrespects := respects_moves hp w
  rw [h, follows_append] at hrespects
  exact hrespects.2.1

theorem elapsed_le_of_moves (hp : p.Instant)
    (h : w.moves p = before ++ .ask r address record :: (between ++ .ask r later other :: rest))
    (hlimited : isRateLimited (p.lookup address record (w.after p before).services).1 = true) :
    (w.after p (before ++ [.ask r address record])).services.elapsed + p.length ≤
      (w.after p (before ++ .ask r address record :: between)).services.elapsed := by
  have hlist : before ++ .ask r address record :: (between ++ .ask r later other :: rest) =
      before ++ ((.ask r address record :: (between ++ [.ask r later other])) ++ rest) := by
    simp
  have hrespects := respects_moves hp w
  rw [h, hlist, follows_append, follows_append] at hrespects
  rw [after_append, after_append]
  exact hrespects.2.1.elapsed_of_isRateLimited hp hlimited

end World

theorem used_start (pending : Classified) (σ : Services) (r : Registry) :
    (start pending σ).schedule.used r ≤ Window.limit :=
  Nat.zero_le _

/-- No window ever counts more than nine lookups, and between two beginnings of windows of a registry
no more than nine addresses are looked up there. When an address is looked up, the window of its
registry is not full, and for a registry other than LACNIC, LACNIC has no pending addresses or a full
window. A registry that refuses a lookup as too fast is not asked again before the length of a window
has passed. -/
theorem lookup_heeds_windows {addresses : List String} {o : Options} {σ σ₁ : Services}
    {answer : String}
    (hask : ask (wanted addresses) o.asnRetryCount σ = (.ok answer, σ₁)) :
    let p := plan o
    let w := start (classify answer (wanted addresses)) σ₁
    (lookup addresses o σ).2 = (w.after p (w.moves p)).services ∧
    (∀ before rest, w.moves p = before ++ rest → ∀ r window,
      (w.after p before).schedule.windows.lookup r = some window → window.count ≤ 9) ∧
    (∀ r part, part <:+: World.timeline p r (w.moves p) w → .start ∉ part →
      part.countP Mark.isLookup ≤ 9) ∧
    (∀ before r address record rest, w.moves p = before ++ .ask r address record :: rest →
      let v := w.after p before
      v.schedule.isExhausted v.services.elapsed o.length r = false ∧
      (∀ window, v.schedule.windows.lookup r = some window → window.count < 9) ∧
      (r ≠ .lacnic → v.schedule.queue .lacnic ≠ [] →
        v.schedule.isExhausted v.services.elapsed o.length .lacnic = true)) ∧
    ∀ before r address record between later other rest,
      w.moves p =
        before ++ .ask r address record :: (between ++ .ask r later other :: rest) →
      isRateLimited (lookupOne o address record (w.after p before).services).1 = true →
      (w.after p (before ++ [.ask r address record])).services.elapsed + o.length ≤
        (w.after p (before ++ .ask r address record :: between)).services.elapsed := by
  intro p w
  refine ⟨?_, ?_, ?_, ?_, ?_⟩
  · rw [lookup_eq hask]
    rfl
  · intro before rest hmoves r window hwindow
    exact World.count_le_of_moves (plan_instant o) (used_start _ _ r) hmoves hwindow
  · intro r part hpart hnone
    exact World.countP_isLookup_le (plan_instant o) (used_start _ _ r) hpart hnone
  · intro before r address record rest hmoves v
    obtain ⟨hmay, hused⟩ := World.respects_ask_of_moves (plan_instant o) hmoves
    rw [Schedule.mayAsk_iff] at hmay
    refine ⟨hmay.2, ?_, ?_⟩
    · intro window hwindow
      rwa [Schedule.used, hwindow] at hused
    · intro hr hqueue
      refine (hmay.1.resolve_left hr).resolve_left ?_
      rwa [List.isEmpty_iff]
  · intro before r address record between later other rest hmoves hlimited
    exact World.elapsed_le_of_moves (plan_instant o) hmoves hlimited

def refusing : Services where
  whois := { standing := [(Asn.originServer,
    some ("\n1|8.8.8.8|||arin||".toList.map fun c => UInt8.ofNat c.toNat))] }
  web := { standing := [("http://rdap.arin.net/registry/ip/8.8.8.8", some ⟨429, []⟩)] }

def refusedRecord : Asn.Record where
  registry := .arin
  asn := some "1"
  source := .whois

/-- A registry that refuses both lookups of an address: a window passes between them. -/
theorem lookup_heeds_windows_refusing :
    let o : Options := { retryCount := 2 }
    let again : List Move := [.enter .lacnic, .enter .ripencc, .enter .apnic, .enter .afrinic]
    let asked : Move := .ask .arin "8.8.8.8" refusedRecord
    ∃ σ, ask (wanted ["8.8.8.8"]) 3 refusing = (.ok "\n1|8.8.8.8|||arin||", σ) ∧
      let w := start (classify "\n1|8.8.8.8|||arin||" (wanted ["8.8.8.8"])) σ
      let before := again ++ [.enter .arin]
      let between := again ++ .wait :: before
      w.moves (plan o) = before ++ asked :: (between ++ [asked]) ∧
      (w.after (plan o) (before ++ [asked])).services.elapsed + 60000 ≤
        (w.after (plan o) (before ++ asked :: between)).services.elapsed := by
  intro o again asked
  have hask : ask (wanted ["8.8.8.8"]) 3 refusing =
      (.ok "\n1|8.8.8.8|||arin||", (ask (wanted ["8.8.8.8"]) 3 refusing).2) :=
    Prod.ext (by decide +kernel) rfl
  refine ⟨_, hask, ?_⟩
  intro w before between
  have hmoves : w.moves (plan o) = before ++ asked :: (between ++ [asked]) := by
    decide +kernel
  have hlimited : isRateLimited
      (lookupOne o "8.8.8.8" refusedRecord (w.after (plan o) before).services).1 = true := by
    decide +kernel
  obtain ⟨-, -, -, -, hrefused⟩ := lookup_heeds_windows (o := o) hask
  exact ⟨hmoves, hrefused _ _ _ _ _ _ _ [] hmoves hlimited⟩

end IpRegistry.Bulk
