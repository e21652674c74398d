import IpRegistry.Proofs.Bulk.Isolation
import IpRegistry.Proofs.Bulk.Pace

namespace IpRegistry.Bulk

open Rdap (Service)

namespace Mark

/-- A request for the network of an address. -/
def isNetwork (r : Registry) : Mark → Bool
  | request url => (Service.registry r).servesNetwork url
  | _ => false

def url? : Mark → Option String
  | request url => some url
  | _ => none

end Mark

theorem noted_plan_lookup (o : Options) (address : String) (record : Asn.Record) (σ : Services) :
    ((plan o).lookup address record).noted σ = [] ∨
      ∃ target events, ((plan o).lookup address record).noted σ =
          .web (Rdap.networkRequest (.registry record.registry) target) :: events ∧
        (∀ e ∈ events, ∃ handle,
          e = .web (Rdap.entityRequest (.registry record.registry) handle)) ∧
        (o.depth = 0 → Rdap.BringContacts σ.web.answers o.excluded true → events = []) := by
  show (lookupOne o address record).noted σ = [] ∨
    ∃ target events, (lookupOne o address record).noted σ = _ :: events ∧ _
  rw [lookupOne]
  cases Target.parse address with
  | error e => exact .inl List.drop_length
  | ok target =>
      right
      let options : Rdap.Options := {
        patience := ⟨1, o.length⟩
        depth := o.depth
        excluded := o.excluded
        keepRaw := o.keepRaw }
      have hnoted := Exchange.noted_bind_pure (Rdap.lookup target (some record.registry) options)
        (fun found => RdapReport.ofResult (some record) found none) σ
      obtain ⟨events, hevents, hentities⟩ :=
        @Rdap.noted_lookup target (some record.registry) options _ rfl rfl rfl σ
      refine ⟨target.text, events, hnoted.trans hevents, hentities, ?_⟩
      intro hdepth hbring
      have hnetwork : (Rdap.lookup target (some record.registry) options).noted σ =
          [.web (Rdap.networkRequest (.registry record.registry) target.text)] :=
        Rdap.noted_lookup_of_bringContacts rfl rfl rfl hdepth hbring
      exact (List.cons.inj (hevents.symm.trans hnetwork)).2

namespace World

variable {o : Options} {r : Registry} {w : World} {m : Move}

theorem services_ask (p : Plan) (w : World) (q : Registry) (address : String)
    (record : Asn.Record) :
    (w.step p (.ask q address record)).services = (p.lookup address record w.services).2 :=
  rfl

theorem noted_enter (p : Plan) (w : World) (q : Registry) : w.noted p (.enter q) = [] :=
  List.drop_length

theorem noted_wait (p : Plan) (w : World) :
    w.noted p .wait = [.sleep (w.schedule.wait w.services.elapsed p.length)] :=
  List.drop_left

theorem noted_ask (p : Plan) (w : World) (q : Registry) (address : String) (record : Asn.Record) :
    w.noted p (.ask q address record) = (p.lookup address record).noted w.services :=
  rfl

theorem requestsTo_append (events more : List Event) :
    requestsTo r (events ++ more) = requestsTo r events ++ requestsTo r more :=
  List.filterMap_append

theorem requestsTo_eq_nil {q : Registry} (hq : q ≠ r) {events : List Event}
    (h : ∀ e ∈ events, RequestTo q e) : requestsTo r events = [] := by
  refine List.filterMap_eq_nil_iff.2 fun e he => ?_
  obtain ⟨request, rfl, hserves⟩ := h e he
  refine if_neg fun hother => hq ?_
  exact Service.registry.inj (Service.eq_of_serves hserves hother)

theorem countP_requestsTo_network_le {target : String} {events : List Event}
    (h : ∀ e ∈ events, ∃ handle, e = .web (Rdap.entityRequest (.registry r) handle)) :
    (requestsTo r (.web (Rdap.networkRequest (.registry r) target) :: events)).countP
      (Service.registry r).servesNetwork ≤ 1 := by
  have hrest : (requestsTo r events).countP (Service.registry r).servesNetwork = 0 := by
    refine List.countP_eq_zero.2 fun url hurl => ?_
    obtain ⟨e, he, hrequest⟩ := List.mem_filterMap.1 hurl
    obtain ⟨handle, rfl⟩ := h e he
    dsimp only at hrequest
    rw [Rdap.entityRequest, if_pos (Service.serves_entityUrl _ handle)] at hrequest
    rw [← Option.some.inj hrequest, Service.servesNetwork_entityUrl]
    exact Bool.false_ne_true
  have hfirst : requestsTo r (.web (Rdap.networkRequest (.registry r) target) :: events) =
      (Service.registry r).networkUrl target :: requestsTo r events :=
    List.filterMap_cons_some (if_pos (Service.serves_networkUrl _ target))
  rw [hfirst, List.countP_cons, hrest]
  split <;> omega

/-- Only a lookup at a registry sends requests to its service. -/
theorem requestsTo_noted_of_not_asksAt (h : w.Admits (plan o) m) (hm : m.asksAt r = false) :
    requestsTo r (w.noted (plan o) m) = [] := by
  cases m with
  | enter q =>
      rw [noted_enter]
      rfl
  | wait =>
      rw [noted_wait]
      rfl
  | ask q address record =>
      have hq : record.registry ≠ r := by
        rw [h.2]
        exact ne_of_beq_false hm
      rw [noted_ask]
      exact requestsTo_eq_nil hq fun e he =>
        (obeys_plan_lookup o address record).allowed_of_mem he

theorem countsOnce_of_lookup {counted : Mark → Bool} (hlookup : counted .lookup = false)
    (hadmits : w.Admits (plan o) m)
    (h : ∀ address record, record.registry = r →
      (requestsTo r (((plan o).lookup address record).noted w.services)).countP
        (counted ∘ Mark.request) ≤ 1) :
    w.CountsOnce (plan o) r counted m := by
  have hfirst : (if m.asksAt r then [Mark.lookup] else []).countP counted = 0 := by
    split
    · simp [hlookup]
    · rfl
  rw [CountsOnce, efforts, List.countP_append, hfirst, Nat.zero_add, List.countP_map]
  cases hm : m.asksAt r with
  | false =>
      rw [requestsTo_noted_of_not_asksAt hadmits hm]
      exact Nat.le_refl 0
  | true =>
      cases m with
      | enter q => cases hm
      | wait => cases hm
      | ask q address record =>
          rw [if_pos rfl, noted_ask]
          exact h address record (hadmits.2.trans (eq_of_beq hm))

theorem countsOnce_isNetwork (h : w.Admits (plan o) m) :
    w.CountsOnce (plan o) r (Mark.isNetwork r) m := by
  refine countsOnce_of_lookup rfl h ?_
  rintro address record rfl
  rcases noted_plan_lookup o address record w.services with
    hnone | ⟨target, events, hevents, hentities, -⟩
  · rw [hnone]
    exact Nat.zero_le 1
  · rw [hevents]
    exact countP_requestsTo_network_le hentities

theorem countsOnce_isRequest (h : w.Admits (plan o) m) (hdepth : o.depth = 0)
    (hbring : Rdap.BringContacts w.services.web.answers o.excluded true) :
    w.CountsOnce (plan o) r Mark.isRequest m := by
  refine countsOnce_of_lookup rfl h ?_
  intro address record _
  refine Nat.le_trans List.countP_le_length (Nat.le_trans (List.length_filterMap_le _ _) ?_)
  rcases noted_plan_lookup o address record w.services with
    hnone | ⟨target, events, hevents, -, hcontacts⟩
  · rw [hnone]
    exact Nat.zero_le 1
  · rw [hevents, hcontacts hdepth hbring]
    exact Nat.le_refl 1

theorem answers_step_subset (o : Options) (w : World) (m : Move) :
    (w.step (plan o) m).services.web.answers ⊆ w.services.web.answers := by
  cases m with
  | enter r => exact fun _ h => h
  | wait => exact fun _ h => h
  | ask r address record =>
      rw [services_ask]
      exact (browses_plan_lookup o address record).answers_subset w.services

theorem bringContacts_step (o : Options) (w : World) (m : Move)
    (h : Rdap.BringContacts w.services.web.answers o.excluded true) :
    Rdap.BringContacts (w.step (plan o) m).services.web.answers o.excluded true :=
  fun reply document hreply => h reply document (answers_step_subset o w m hreply)

theorem countP_isNetwork_le (hw : w.schedule.used r ≤ Window.limit) {part : List Mark}
    (hpart : part <:+: timeline (plan o) r (w.moves (plan o)) w) (hstart : .start ∉ part) :
    part.countP (Mark.isNetwork r) ≤ Window.limit := by
  have hcounts := (follows_moves (plan o) w).mono _ fun v m => countsOnce_isNetwork (r := r)
  exact (Follows.and _ (respects_moves (plan_instant o) w) hcounts).countP_le hw hpart hstart

theorem countP_isRequest_le (hdepth : o.depth = 0)
    (hbring : Rdap.BringContacts w.services.web.answers o.excluded true)
    (hw : w.schedule.used r ≤ Window.limit) {part : List Mark}
    (hpart : part <:+: timeline (plan o) r (w.moves (plan o)) w) (hstart : .start ∉ part) :
    part.countP Mark.isRequest ≤ Window.limit := by
  have hadmits := (follows_moves (plan o) w).and_invariant _ (bringContacts_step o) hbring
  have hcounts := hadmits.mono _ fun v m h => countsOnce_isRequest (r := r) h.1 hdepth h.2
  exact (Follows.and _ (respects_moves (plan_instant o) w) hcounts).countP_le hw hpart hstart

theorem events_step (o : Options) (w : World) (m : Move) :
    (w.step (plan o) m).services.events = w.services.events ++ w.noted (plan o) m := by
  cases m with
  | enter r =>
      rw [noted_enter, List.append_nil]
      rfl
  | wait =>
      rw [noted_wait]
      rfl
  | ask r address record =>
      rw [services_ask, noted_ask]
      exact (obeys_plan_lookup o address record).events_eq w.services

theorem filterMap_url_marks (p : Plan) (w : World) (m : Move) :
    (w.marks p r m).filterMap Mark.url? = requestsTo r (w.noted p m) := by
  have hlookup : (if m.asksAt r then [Mark.lookup] else []).filterMap Mark.url? = [] := by
    split <;> rfl
  have hstart : (if w.begins p r m then [Mark.start] else []).filterMap Mark.url? = [] := by
    split <;> rfl
  have hrequests : ((requestsTo r (w.noted p m)).map Mark.request).filterMap Mark.url? =
      requestsTo r (w.noted p m) := by
    rw [List.filterMap_map]
    exact List.filterMap_some
  rw [marks, efforts, List.filterMap_append, List.filterMap_append, hlookup, hrequests, hstart,
    List.nil_append, List.append_nil]

theorem requestsTo_after (o : Options) (moves : List Move) (w : World) :
    requestsTo r (w.after (plan o) moves).services.events =
      requestsTo r w.services.events ++
        (timeline (plan o) r moves w).filterMap Mark.url? := by
  induction moves generalizing w with
  | nil => exact (List.append_nil _).symm
  | cons m moves ih =>
      refine (ih (w.step (plan o) m)).trans ?_
      rw [events_step, requestsTo_append, timeline, List.filterMap_append, filterMap_url_marks,
        List.append_assoc]

end World

/-- The requests that go to the service of a registry are those of its timeline. Between two
beginnings of its windows it is asked for no more than nine networks; for no more than nine documents
of any kind, if related entities are not followed and every network brings the contacts of its own
entities. -/
theorem lookup_limits_networks {addresses : List String} {o : Options} {σ σ₁ : Services}
    {answer : String}
    (hask : ask (wanted addresses) o.asnRetryCount σ = (.ok answer, σ₁)) :
    let p := plan o
    let w := start (classify answer (wanted addresses)) σ₁
    ∀ r,
      World.requestsTo r (lookup addresses o σ).2.events = World.requestsTo r σ₁.events ++
        (World.timeline p r (w.moves p) w).filterMap Mark.url? ∧
      ∀ part, part <:+: World.timeline p r (w.moves p) w → .start ∉ part →
        part.countP (Mark.isNetwork r) ≤ 9 ∧
        (o.depth = 0 → Rdap.BringContacts σ.web.answers o.excluded true →
          part.countP Mark.isRequest ≤ 9) := by
  intro p w r
  refine ⟨?_, ?_⟩
  · rw [lookup_eq hask]
    exact World.requestsTo_after o (w.moves p) w
  · intro part hpart hstart
    refine ⟨World.countP_isNetwork_le (used_start _ _ r) hpart hstart, ?_⟩
    intro hdepth hbring
    have hleaves := leavesWeb_ask (wanted addresses) o.asnRetryCount σ
    rw [hask] at hleaves
    rw [← hleaves] at hbring
    exact World.countP_isRequest_le hdepth hbring (used_start _ _ r) hpart hstart

/-- An address of ARIN whose network is described by a document. -/
def described (document : String) : Services where
  whois := { standing := [(Asn.originServer,
    some ("\n1|8.8.8.8|||arin||".toList.map fun c => UInt8.ofNat c.toNat))] }
  web := { standing := [("http://rdap.arin.net/registry/ip/8.8.8.8",
    some ⟨200, document.toList.map fun c => UInt8.ofNat c.toNat⟩)] }

def plainNetwork : String :=
  "\x7b\"handle\":\"N\"\x7d"

def unfinishedNetwork : String :=
  "\x7b\"handle\":\"N\",\"entities\":[\x7b\"handle\":\"A\"\x7d]\x7d"

theorem childless_plainNetwork :
    (match Web.acceptJson (plainNetwork.toList.map fun c => UInt8.ofNat c.toNat) with
      | .ready document => (Rdap.childrenOf document).any (Rdap.isFetched [] true)
      | _ => true) = false := by
  decide +kernel

theorem lookup_limits_networks_plain :
    ∃ σ, ask (wanted ["8.8.8.8"]) 3 (described plainNetwork) = (.ok "\n1|8.8.8.8|||arin||", σ) ∧
      let w := start (classify "\n1|8.8.8.8|||arin||" (wanted ["8.8.8.8"])) σ
      let network : Mark := .request "http://rdap.arin.net/registry/ip/8.8.8.8"
      World.timeline (plan {}) .arin (w.moves (plan {})) w = [.start, .lookup, network] ∧
      [Mark.lookup, network].countP Mark.isRequest ≤ 9 := by
  have hask : ask (wanted ["8.8.8.8"]) 3 (described plainNetwork) =
      (.ok "\n1|8.8.8.8|||arin||", (ask (wanted ["8.8.8.8"]) 3 (described plainNetwork)).2) :=
    Prod.ext (by decide +kernel) rfl
  have hbring : Rdap.BringContacts (described plainNetwork).web.answers [] true := by
    intro reply document hreply hdocument
    obtain rfl : reply = ⟨200, plainNetwork.toList.map fun c => UInt8.ofNat c.toNat⟩ := by
      simpa [described, Script.answers] using hreply
    have hall := childless_plainNetwork
    rwa [hdocument] at hall
  refine ⟨_, hask, ?_⟩
  intro w network
  have htimeline : World.timeline (plan {}) .arin (w.moves (plan {})) w =
      [.start, .lookup, network] := by
    decide +kernel
  refine ⟨htimeline, ?_⟩
  have hpart : [Mark.lookup, network] <:+:
      World.timeline (plan {}) .arin (w.moves (plan {})) w := by
    rw [htimeline]
    exact ⟨[.start], [], rfl⟩
  exact ((lookup_limits_networks (o := {}) hask .arin).2 _ hpart (by decide)).2 rfl hbring

/-- An entity that is fetched with its network and never found: 18 requests in one window. -/
theorem lookup_limits_networks_unfinished :
    ∃ σ, ask (wanted ["8.8.8.8"]) 3 (described unfinishedNetwork) =
        (.ok "\n1|8.8.8.8|||arin||", σ) ∧
      let p := plan { retryCount := 10 }
      let w := start (classify "\n1|8.8.8.8|||arin||" (wanted ["8.8.8.8"])) σ
      ∃ part rest, World.timeline p .arin (w.moves p) w = .start :: (part ++ .start :: rest) ∧
        .start ∉ part ∧ part.countP Mark.isRequest = 18 := by
  have hask : ask (wanted ["8.8.8.8"]) 3 (described unfinishedNetwork) =
      (.ok "\n1|8.8.8.8|||arin||",
        (ask (wanted ["8.8.8.8"]) 3 (described unfinishedNetwork)).2) :=
    Prod.ext (by decide +kernel) rfl
  let lookup : List Mark := [.lookup, .request "http://rdap.arin.net/registry/ip/8.8.8.8",
    .request "http://rdap.arin.net/registry/entity/A"]
  refine ⟨_, hask, (List.replicate 9 lookup).flatten, lookup, ?_, by decide +kernel, by decide +kernel⟩
  decide +kernel

end IpRegistry.Bulk
