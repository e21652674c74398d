import IpRegistry.Proofs.Pattern.Matches
import IpRegistry.Proofs.Whois.Retries
import IpRegistry.Whois.Lookup

namespace IpRegistry.Whois

open Exchange (Notes)

/-- The query for the address at the server of a registry. -/
def registryQuery (i : Inquiry) (registry : Registry) (o : Options) : Query where
  server := registry.whoisServer
  text := (if registry = .arin then "n + " else "") ++ i.address ++ "\r\n"
  retryCount := o.retryCount
  purpose := .whois
  subject := i.address
  blocked := o.blocked

/-- The query for the address at the server of a referral. -/
def referralQuery (i : Inquiry) (o : Options) (server : String × Nat) : Query where
  server := server.1
  port := server.2
  text := i.address ++ "\r\n"
  retryCount := o.retryCount
  purpose := .whois
  subject := i.address
  blocked := o.blocked

/-- The answer of the registry that a lookup reads. -/
def registryAnswer (i : Inquiry) (registry : Registry) (o : Options) : Exchange String :=
  match o.response with
  | some response => .done response
  | none =>
    if o.offline then .fail .responseRequired else (registryQuery i registry o).send

/-- The server of the referral that a lookup follows. -/
def referralServer? (o : Options) (answer : String) : Option (String × Nat) :=
  if o.followReferral && !o.offline then findReferral answer else none

theorem referralServer?_eq_some {o : Options} {answer : String} {server : String × Nat} :
    referralServer? o answer = some server ↔
      o.followReferral = true ∧ o.offline = false ∧ findReferral answer = some server := by
  rw [referralServer?, Option.ite_none_right_eq_some, Bool.and_eq_true, Bool.not_eq_true',
    and_assoc]

/-- What a lookup finds in the answer of a registry and in the one of a referral server. -/
def resultOf (i : Inquiry) (registry : Registry) (o : Options) (answer : String)
    (referral : Option String) : Result where
  query := i.address
  allocations := allocations registry answer o.wanted
  raw := if o.keepRaw then some answer else none
  referral := referral.map fun text => referralAllocation text o.wanted
  rawReferral := if o.keepRaw then referral else none

variable (i : Inquiry) (registry : Registry) (o : Options)

theorem ask_registry :
    ask i registry none o.retryCount o.blocked = (registryQuery i registry o).send := by
  simp only [ask, and_true]
  rfl

theorem ask_referral (server : String × Nat) :
    ask i registry (some server) o.retryCount o.blocked = (referralQuery i o server).send := by
  simp only [ask, reduceCtorEq, and_false, if_false, String.empty_append]
  rfl

theorem lookup_eq : lookup i registry o = do
    let text ← registryAnswer i registry o
    let referral ← followReferral i registry o text
    return resultOf i registry o text referral := by
  rw [lookup, registryAnswer, ask_registry]
  cases o.response with
  | some response => rfl
  | none => cases o.offline <;> rfl

theorem notes_registryAnswer :
    Notes (registryQuery i registry o).Admits (registryAnswer i registry o) := by
  rw [registryAnswer]
  cases o.response with
  | some response => exact .done response
  | none =>
      cases o.offline with
      | true => exact .fail _
      | false => exact Query.notes_send _

theorem followReferral_eq (text : String) :
    followReferral i registry o text =
      match referralServer? o text with
      | some server => askReferral i registry o server
      | none => .done none := by
  rw [followReferral, referralServer?]
  cases o.followReferral && !o.offline with
  | true => cases findReferral text <;> rfl
  | false => rfl

theorem askReferral_apply (server : String × Nat) (σ : Services) :
    askReferral i registry o server σ =
      (match ((referralQuery i o server).send σ).1 with
        | .ok text => .ok (some text)
        | .error e =>
          if o.ignoreReferralFailure && isReferralFailure e then .ok none else .error e,
        ((referralQuery i o server).send σ).2) := by
  rw [askReferral, ask_referral, Exchange.bind_of_ok (Exchange.outcome_apply _ σ)]
  cases ((referralQuery i o server).send σ).1 with
  | ok text => rfl
  | error e =>
      show (if _ then _ else _ : Exchange (Option String)) _ = (if _ then _ else _, _)
      cases o.ignoreReferralFailure && isReferralFailure e <;> rfl

theorem notes_askReferral (server : String × Nat) :
    Notes (referralQuery i o server).Admits (askReferral i registry o server) := by
  intro σ
  rw [askReferral_apply]
  exact Query.notes_send _ σ

theorem notes_followReferral (text : String) :
    Notes (fun e => ∃ server, referralServer? o text = some server ∧
      (referralQuery i o server).Admits e) (followReferral i registry o text) := by
  rw [followReferral_eq]
  cases referralServer? o text with
  | none => exact .done _
  | some server => exact (notes_askReferral i registry o server).mono fun e he => ⟨server, rfl, he⟩

variable {i registry o} {σ σ' : Services} {text : String}

theorem noted_lookup_of_ok (h : registryAnswer i registry o σ = (.ok text, σ')) :
    (lookup i registry o).noted σ =
      (registryAnswer i registry o).noted σ ++ (followReferral i registry o text).noted σ' := by
  have hfollow (text : String) : Notes (fun _ => True) (followReferral i registry o text >>=
      fun referral => pure (resultOf i registry o text referral)) :=
    ((notes_followReferral i registry o text).mono fun _ _ => trivial).bind fun _ => .done _
  rw [lookup_eq, ((notes_registryAnswer i registry o).mono fun _ _ => trivial).noted_bind hfollow h,
    Exchange.noted_bind_pure]

theorem mem_noted_lookup {e : Event} (he : e ∈ (lookup i registry o).noted σ) :
    e ∈ (registryAnswer i registry o).noted σ ∨
      ∃ text σ', registryAnswer i registry o σ = (.ok text, σ') ∧
        e ∈ (followReferral i registry o text).noted σ' := by
  rcases hanswer : registryAnswer i registry o σ with ⟨result, σ'⟩
  cases result with
  | error e =>
      rw [lookup_eq, Exchange.noted_bind_of_error hanswer] at he
      exact .inl he
  | ok text =>
      rw [noted_lookup_of_ok hanswer, List.mem_append] at he
      exact he.imp_right fun he => ⟨text, σ', rfl, he⟩

theorem exchange_mem_noted_followReferral {server : String × Nat}
    (hserver : referralServer? o text = some server)
    (hblocked : isBlocked server.1 o.blocked = false) (σ : Services) :
    (referralQuery i o server).exchange ∈ (followReferral i registry o text).noted σ := by
  rw [followReferral_eq, hserver]
  show _ ∈ (askReferral i registry o server).noted σ
  rw [Exchange.noted, askReferral_apply]
  exact Query.exchange_mem_noted_send hblocked σ

theorem isBlocked_eq_false_iff {server : String} {additional : List String} :
    isBlocked server additional = false ↔ server ∉ blockedServers ∧ server ∉ additional := by
  rw [← Bool.not_eq_true, Query.isBlocked_iff, not_or]

theorem Query.Admits.eq_of_whois {q : Query} {server text : String} {port : Nat}
    (h : q.Admits (.whois server port text)) :
    (server, port) = (q.server, q.port) ∧ server ∉ blockedServers ∧ server ∉ q.blocked := by
  rcases h with ⟨heq, hblocked⟩ | heq
  · obtain ⟨rfl, rfl, -⟩ := Event.whois.inj heq
    exact ⟨rfl, isBlocked_eq_false_iff.1 hblocked⟩
  · cases heq

/-- A lookup asks the server of the registry and that of the referral, but never one that is named
among the servers that must not be asked. The server of the referral is asked unless it is named
there. -/
theorem lookup_avoids_blocked (i : Inquiry) (registry : Registry) (o : Options) (σ : Services) :
    (∀ server port text, Event.whois server port text ∈ (lookup i registry o).noted σ →
      server ∉ blockedServers ∧ server ∉ o.blocked ∧
      ((server, port) = (registry.whoisServer, 43) ∨
        ∃ answer, (registryAnswer i registry o σ).1 = .ok answer ∧
          referralServer? o answer = some (server, port))) ∧
    ∀ answer server port, (registryAnswer i registry o σ).1 = .ok answer →
      referralServer? o answer = some (server, port) →
      server ∉ blockedServers → server ∉ o.blocked →
        Event.whois server port (i.address ++ "\r\n") ∈ (lookup i registry o).noted σ := by
  constructor
  · intro server port text hmem
    rcases mem_noted_lookup hmem with hmem | ⟨answer, σ', hanswer, hmem⟩
    · obtain ⟨heq, hserver, hextra⟩ :=
        ((notes_registryAnswer i registry o).allowed_of_mem hmem).eq_of_whois
      exact ⟨hserver, hextra, .inl heq⟩
    · obtain ⟨asked, hasked, hadmits⟩ :=
        (notes_followReferral i registry o answer).allowed_of_mem hmem
      obtain ⟨heq, hserver, hextra⟩ := hadmits.eq_of_whois
      exact ⟨hserver, hextra, .inr ⟨answer, by rw [hanswer], by rw [hasked, heq]; rfl⟩⟩
  · intro answer server port hanswer hasked hserver hextra
    have hrun : registryAnswer i registry o σ = (.ok answer, (registryAnswer i registry o σ).2) :=
      Prod.ext hanswer rfl
    rw [noted_lookup_of_ok hrun]
    exact List.mem_append_right _ (exchange_mem_noted_followReferral hasked
      (isBlocked_eq_false_iff.2 ⟨hserver, hextra⟩) _)

theorem findReferral_of_find {text : String} {m : Pattern.Match}
    (hfirst : referralLine.find text.toList 0 = some m) (hlt : m.whole.start < m.whole.stop)
    (hnone : referralLine.find text.toList m.whole.stop = none) :
    findReferral text = referral? (trimmedValue m text.toList) := by
  have hfound : referralLine.findAll text.toList = [m] := by
    rw [Pattern.findAll, Pattern.findAllFrom_of_eq_some (Nat.zero_le _) hfirst hlt,
      Pattern.findAllFrom_of_eq_none hnone]
  rw [findReferral, hfound]
  cases h : referral? (trimmedValue m text.toList) <;> simp [h]

/-- The address 8.8.8.8 with the settings that are the default. -/
def publicInquiry : Inquiry :=
  ⟨⟨⟨.v4, 134744072, (by decide : 134744072 < 4294967296)⟩, by decide⟩, {}⟩

theorem lookup_avoids_blocked_listed :
    let o : Options := {
      response := some "ReferralServer: rwhois://a:1"
      followReferral := true
      blocked := ["a"] }
    ∀ port text, Event.whois "a" port text ∉ (lookup publicInquiry .arin o).noted {} := by
  intro o port text hmem
  obtain ⟨-, hextra, -⟩ := (lookup_avoids_blocked publicInquiry .arin o {}).1 "a" port text hmem
  exact hextra (by decide)

theorem findReferral_capitals :
    findReferral "ReferralServer: rwhois://ROOT.RWHOIS.NET:4321" =
      some ("ROOT.RWHOIS.NET", 4321) := by
  let cs := "ReferralServer: rwhois://ROOT.RWHOIS.NET:4321".toList
  let m : Pattern.Match := ⟨⟨0, 45⟩, [("val", ⟨16, 45⟩)]⟩
  have hfirst : referralLine.find cs 0 = some m := by
    rw [Pattern.find_eq_head?]
    decide +kernel
  have hnone : referralLine.find cs 45 = none := by
    rw [Pattern.find_eq_head?]
    decide +kernel
  rw [findReferral_of_find hfirst (by decide) hnone]
  decide +kernel

/-- A server that must not be asked is asked if its name is spelt in capitals. -/
theorem lookup_asks_capitals :
    let o : Options := {
      response := some "ReferralServer: rwhois://ROOT.RWHOIS.NET:4321"
      followReferral := true }
    "root.rwhois.net" ∈ blockedServers ∧
      Text.toAsciiUpper "root.rwhois.net" = "ROOT.RWHOIS.NET" ∧
      Event.whois "ROOT.RWHOIS.NET" 4321 "8.8.8.8\r\n" ∈
        (lookup publicInquiry .arin o).noted {} := by
  intro o
  let response := "ReferralServer: rwhois://ROOT.RWHOIS.NET:4321"
  have hanswer : registryAnswer publicInquiry .arin o {} = (.ok response, {}) := rfl
  have hasked : referralServer? o response = some ("ROOT.RWHOIS.NET", 4321) :=
    findReferral_capitals
  have hmem : (referralQuery publicInquiry o ("ROOT.RWHOIS.NET", 4321)).exchange ∈
      (followReferral publicInquiry .arin o response).noted {} :=
    exchange_mem_noted_followReferral hasked (by decide) {}
  have hexchange : (referralQuery publicInquiry o ("ROOT.RWHOIS.NET", 4321)).exchange =
      .whois "ROOT.RWHOIS.NET" 4321 "8.8.8.8\r\n" := by decide +kernel
  refine ⟨by decide, by decide +kernel, ?_⟩
  rw [noted_lookup_of_ok hanswer, ← hexchange]
  exact List.mem_append_right _ hmem

end IpRegistry.Whois
