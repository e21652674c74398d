import IpRegistry.Proofs.Rdap.Lookup

namespace IpRegistry

open Exchange (Browses Obeys)

namespace Script

variable {α : Type}

def answers (s : Script α) : List α :=
  (s.queued ++ s.standing).map Prod.snd

theorem mem_answers_of_lookup {items : List (String × α)} {key : String} {a : α}
    (h : items.lookup key = some a) : a ∈ items.map Prod.snd := by
  obtain ⟨before, rest, hitems, -⟩ := List.lookup_eq_some_iff.1 h
  rw [hitems]
  simp

theorem mem_answers_of_take {s : Script α} {key : String} {a : α} (h : (s.take key).1 = some a) :
    a ∈ s.answers := by
  rw [answers, List.map_append, List.mem_append]
  rw [take] at h
  split at h
  · rename_i b hb
    obtain rfl : b = a := Option.some.inj h
    exact .inl (mem_answers_of_lookup hb)
  · exact .inr (mem_answers_of_lookup h)

theorem answers_take_subset (s : Script α) (key : String) :
    (s.take key).2.answers ⊆ s.answers := by
  rw [take]
  split
  · rw [answers, answers]
    exact ((List.eraseP_sublist.append_right _).map Prod.snd).subset
  · exact fun _ h => h

end Script

theorem Exchange.Browses.answers_subset {α : Type} {x : Exchange α} (h : Browses x)
    (σ : Services) : (x σ).2.web.answers ⊆ σ.web.answers := by
  induction h generalizing σ with
  | done a => exact fun _ h => h
  | fail e => exact fun _ h => h
  | askWeb request => exact σ.web.answers_take_subset request.url
  | sleep ms => exact fun _ h => h
  | bind hx hf ihx ihf =>
      rename_i x f
      have hfirst := ihx σ
      rw [bind_apply]
      rcases hrun : x σ with ⟨result, σ'⟩
      rw [hrun] at hfirst
      cases result with
      | error e => exact hfirst
      | ok a => exact fun answer h => hfirst (ihf a σ' h)

namespace Web

variable {α : Type} (request : Request) (pause : Nat) (accept : List UInt8 → Body α)
  (status : Option Nat) (σ : Services)

theorem attempt_one_snd :
    (attempt request pause accept 1 status σ).2 = (Exchange.askWeb request σ).2 := by
  rw [attempt, Exchange.bind_apply]
  rcases hask : Exchange.askWeb request σ with ⟨_ | reply, σ'⟩
  · rfl
  · cases reply with
    | none => rfl
    | some reply =>
        show ((if reply.status = 429 then _ else _ : Exchange α) σ').2 = σ'
        split
        · rfl
        · split
          · cases accept reply.body <;> rfl
          · rfl

variable {request pause accept status σ}

theorem exists_answer_of_attempt_one {a : α}
    (h : (attempt request pause accept 1 status σ).1 = .ok a) :
    ∃ reply : Reply, some reply ∈ σ.web.answers ∧ accept reply.body = .ready a := by
  have hask : Exchange.askWeb request σ =
      (.ok ((σ.web.take request.url).1.getD (some Exchange.notFound)),
        (Exchange.askWeb request σ).2) := rfl
  rw [attempt, Exchange.bind_of_ok hask] at h
  cases htake : (σ.web.take request.url).1 with
  | none =>
      rw [htake] at h
      cases h
  | some answer =>
      have hmem := Script.mem_answers_of_take htake
      rw [htake] at h
      cases answer with
      | none => cases h
      | some reply =>
          refine ⟨reply, hmem, ?_⟩
          change ((if reply.status = 429 then _ else _ : Exchange α) _).1 = _ at h
          split at h
          · cases h
          · split at h
            · cases hbody : accept reply.body with
              | ready b =>
                  rw [hbody] at h
                  rw [show b = a from Except.ok.inj h]
              | limited =>
                  rw [hbody] at h
                  cases h
              | invalid =>
                  rw [hbody] at h
                  cases h
            · cases h

variable {url : String} {headers : List (String × String)} {patience : Patience}

theorem noted_fetchJson (h : patience.retryCount = 1) (σ : Services) :
    (fetchJson url headers patience).noted σ = [.web { url, headers }] := by
  apply Exchange.noted_of_append
  rw [fetchJson, fetch, h]
  show (attempt _ _ _ 1 none σ).2.events = _
  rw [attempt_one_snd]
  rfl

theorem exists_answer_of_fetchJson (h : patience.retryCount = 1) {document : Json}
    (hfound : (fetchJson url headers patience σ).1 = .ok document) :
    ∃ reply : Reply, some reply ∈ σ.web.answers ∧ acceptJson reply.body = .ready document := by
  rw [fetchJson, fetch, h] at hfound
  exact exists_answer_of_attempt_one hfound

end Web

namespace Rdap

namespace Service

variable {s t : Service}

/-- The URL is one of the service. -/
def serves (s : Service) (url : String) : Bool :=
  (s.base ++ "/").toList.isPrefixOf url.toList

theorem serves_iff {url : String} : s.serves url = true ↔ (s.base ++ "/").toList <+: url.toList :=
  List.isPrefixOf_iff_prefix

theorem serves_networkUrl (s : Service) (address : String) :
    s.serves (s.networkUrl address) = true := by
  rw [serves_iff]
  exact ⟨("ip/" ++ address).toList, by simp [networkUrl]⟩

theorem serves_entityUrl (s : Service) (handle : String) :
    s.serves (s.entityUrl handle) = true := by
  rw [serves_iff]
  exact ⟨("entity/" ++ handle).toList, by simp [entityUrl]⟩

/-- The URL is that of a network of the service. -/
def servesNetwork (s : Service) (url : String) : Bool :=
  (s.base ++ "/ip/").toList.isPrefixOf url.toList

theorem servesNetwork_iff {url : String} :
    s.servesNetwork url = true ↔ ∃ address, url = s.networkUrl address := by
  rw [servesNetwork, List.isPrefixOf_iff_prefix]
  constructor
  · rintro ⟨rest, hrest⟩
    refine ⟨String.ofList rest, String.toList_inj.1 ?_⟩
    rw [← hrest]
    simp [networkUrl]
  · rintro ⟨address, rfl⟩
    exact ⟨address.toList, by simp [networkUrl]⟩

theorem servesNetwork_entityUrl (s : Service) (handle : String) :
    s.servesNetwork (s.entityUrl handle) = false := by
  rw [Bool.eq_false_iff]
  intro h
  obtain ⟨address, haddress⟩ := servesNetwork_iff.1 h
  have hlists := congrArg String.toList haddress
  simp [entityUrl, networkUrl] at hlists

theorem eq_of_bases (h : (s.base ++ "/").toList <+: (t.base ++ "/").toList) : s = t := by
  revert h
  rcases s with r | _ <;> rcases t with q | _
  · cases r <;> cases q <;> decide
  · cases r <;> decide
  · cases q <;> decide
  · decide

theorem eq_of_serves {url : String} (hs : s.serves url = true) (ht : t.serves url = true) :
    s = t := by
  rw [serves_iff] at hs ht
  rcases List.prefix_or_prefix_of_prefix hs ht with h | h
  · exact eq_of_bases h
  · exact (eq_of_bases h).symm

end Service

variable {target : Target} {registry : Option Registry} {o : Options} {service : Service}

theorem lookup_eq_fetch (hservice : serviceOf registry o.bootstrap = .ok service)
    (hresponse : o.response = none) :
    lookup target registry o =
      Web.fetchJson (service.networkUrl target.text) Web.registrationHeaders o.patience >>=
        expand target o service := by
  rw [lookup_eq_of_service hservice, hresponse]

/-- A lookup asks for the network first, and for entities after that. -/
theorem noted_lookup (hservice : serviceOf registry o.bootstrap = .ok service)
    (hresponse : o.response = none) (hpatience : o.patience.retryCount = 1) (σ : Services) :
    ∃ events, (lookup target registry o).noted σ =
        .web (networkRequest service target.text) :: events ∧
      ∀ e ∈ events, ∃ handle, e = .web (entityRequest service handle) := by
  have hfirst : (Web.fetchJson (service.networkUrl target.text) Web.registrationHeaders
      o.patience).noted σ = [.web (networkRequest service target.text)] :=
    Web.noted_fetchJson hpatience σ
  rw [lookup_eq_fetch hservice hresponse]
  rcases hrun : Web.fetchJson (service.networkUrl target.text) Web.registrationHeaders
    o.patience σ with ⟨e | document, σ'⟩
  · exact ⟨[], by rw [Exchange.noted_bind_of_error hrun, hfirst], by simp⟩
  · have hrest : Obeys (guide service o).Admits (expand target o service document) :=
      obeys_expand fun _ _ he => he
    refine ⟨(expand target o service document).noted σ', ?_, ?_⟩
    · rw [Exchange.noted_bind_of_ok (Web.obeys_fetchJson trivial fun _ => trivial)
        (fun _ => obeys_expand fun _ _ _ => trivial) hrun, hfirst]
      rfl
    · intro e he
      have hadmitted := hrest.allowed_of_mem he
      cases e with
      | web request =>
          obtain ⟨handle, rfl⟩ := hadmitted
          exact ⟨handle, rfl⟩
      | sleep ms =>
          have hagain : 1 < o.patience.retryCount := hadmitted.2
          omega
      | whois server port query => exact hadmitted.elim
      | name queried => exact hadmitted.elim

/-- No answer of a web server is a network with an entity that has to be fetched. -/
def BringContacts (answers : List (Option Web.Reply)) (excluded : List String) (complete : Bool) :
    Prop :=
  ∀ (reply : Web.Reply) (document : Json), some reply ∈ answers →
    Web.acceptJson reply.body = .ready document →
      (childrenOf document).any (isFetched excluded complete) = false

theorem noted_lookup_of_bringContacts (hservice : serviceOf registry o.bootstrap = .ok service)
    (hresponse : o.response = none) (hpatience : o.patience.retryCount = 1)
    (hdepth : o.depth = 0) {σ : Services}
    (hσ : BringContacts σ.web.answers o.excluded o.completeRoots) :
    (lookup target registry o).noted σ = [.web (networkRequest service target.text)] := by
  have hfirst : (Web.fetchJson (service.networkUrl target.text) Web.registrationHeaders
      o.patience).noted σ = [.web (networkRequest service target.text)] :=
    Web.noted_fetchJson hpatience σ
  rw [lookup_eq_fetch hservice hresponse]
  rcases hrun : Web.fetchJson (service.networkUrl target.text) Web.registrationHeaders
    o.patience σ with ⟨e | document, σ'⟩
  · rw [Exchange.noted_bind_of_error hrun, hfirst]
  · obtain ⟨reply, hreply, hdocument⟩ :=
      Web.exists_answer_of_fetchJson hpatience (by rw [hrun])
    have hsilent : Obeys (fun _ => False) (expand target o service document) := by
      refine obeys_expand ?_
      rintro (hdeep | hfetched)
      · exact absurd hdeep (by omega)
      · rw [hσ reply document hreply hdocument] at hfetched
        cases hfetched
    have hnothing : (expand target o service document).noted σ' = [] :=
      List.eq_nil_iff_forall_not_mem.2 fun _ => hsilent.allowed_of_mem
    rw [Exchange.noted_bind_of_ok (Web.obeys_fetchJson trivial fun _ => trivial)
      (fun _ => obeys_expand fun _ _ _ => trivial) hrun, hfirst, hnothing]
    rfl

end Rdap

end IpRegistry
