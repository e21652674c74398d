import IpRegistry.Proofs.Whois.Lookup

namespace IpRegistry.Whois

/-- No outcome is an end, and the last one that is allowed says that queries come too fast. -/
def KeepsLimiting (outcomes : List Outcome) : Prop :=
  (∀ o ∈ outcomes, o.isTerminal = false) ∧ outcomes.getLast?.any Outcome.isLimited = true

/-- The server of the referral is asked, and says to the end that queries come too fast. -/
def ReferralLimited (o : Options) (answer : String) (σ : Services) : Prop :=
  ∃ server port, o.offline = false ∧ findReferral answer = some (server, port) ∧
    server ∉ blockedServers ∧ server ∉ o.blocked ∧
    KeepsLimiting (outcomes σ server (max 1 o.retryCount))

/-- The server of the referral gives an answer, before it has been asked too often. -/
def Answers (o : Options) (server : String) (σ : Services) (bytes : List UInt8) : Prop :=
  (outcomes σ server (max 1 o.retryCount)).findSome? Outcome.terminal? = some bytes ∧
    reportsError bytes = false

namespace Query

variable {q : Query} {outcomes : List Outcome}

theorem verdict_of_keepsLimiting (h : KeepsLimiting outcomes) :
    q.verdict outcomes = .error (.whoisRateLimited q.subject) := by
  have hnone : outcomes.findSome? Outcome.terminal? = none := by
    rw [List.findSome?_eq_none_iff]
    intro o ho
    exact Option.isNone_iff_eq_none.1 (Option.isSome_eq_false_iff.1 (h.1 o ho))
  rw [verdict, hnone]
  exact if_pos h.2

theorem verdict_of_not_keepsLimiting (h : ¬KeepsLimiting outcomes) :
    q.verdict outcomes = .error q.failure ∨
      ∃ bytes, outcomes.findSome? Outcome.terminal? = some bytes ∧ reportsError bytes = false ∧
        q.verdict outcomes = .ok (Text.asciiOnly bytes) := by
  cases hfind : outcomes.findSome? Outcome.terminal? with
  | some bytes =>
      have hverdict : q.verdict outcomes =
          if reportsError bytes then .error q.failure else .ok (Text.asciiOnly bytes) := by
        rw [verdict, hfind]
      rw [hverdict]
      cases hreports : reportsError bytes with
      | true => exact .inl rfl
      | false => exact .inr ⟨bytes, rfl, hreports, rfl⟩
  | none =>
      have hlast : ¬outcomes.getLast?.any Outcome.isLimited = true := by
        intro hlast
        refine h ⟨fun o ho => ?_, hlast⟩
        rw [Outcome.isTerminal, List.findSome?_eq_none_iff.1 hfind o ho]
        rfl
      rw [verdict, hfind]
      exact .inl (if_neg hlast)

end Query

section Referral

variable {i : Inquiry} {registry : Registry} {o : Options} {server : String × Nat} {σ : Services}

theorem send_referralQuery (hblocked : isBlocked server.1 o.blocked = false) :
    ((referralQuery i o server).send σ).1 =
      (referralQuery i o server).verdict (outcomes σ server.1 (max 1 o.retryCount)) := by
  rw [Query.send_of_not_isBlocked hblocked]
  rfl

theorem askReferral_of_keepsLimiting (hblocked : isBlocked server.1 o.blocked = false)
    (h : KeepsLimiting (outcomes σ server.1 (max 1 o.retryCount))) :
    (askReferral i registry o server σ).1 = .error (.whoisRateLimited i.address) := by
  rw [askReferral_apply, send_referralQuery hblocked, Query.verdict_of_keepsLimiting h]
  show (if o.ignoreReferralFailure && false then _ else _) = _
  rw [Bool.and_false]
  rfl

/-- Apart from a server that keeps saying that queries come too fast, failures are ignored. -/
theorem askReferral_of_not_keepsLimiting (i : Inquiry) (registry : Registry)
    (hignore : o.ignoreReferralFailure = true)
    (h : isBlocked server.1 o.blocked = false →
      ¬KeepsLimiting (outcomes σ server.1 (max 1 o.retryCount))) :
    (askReferral i registry o server σ).1 = .ok none ∨
      ∃ bytes, Answers o server.1 σ bytes ∧
        (askReferral i registry o server σ).1 = .ok (some (Text.asciiOnly bytes)) := by
  rw [askReferral_apply, hignore]
  cases hblocked : isBlocked server.1 o.blocked with
  | true =>
      rw [Query.send_of_isBlocked hblocked]
      exact .inl rfl
  | false =>
      rw [send_referralQuery hblocked]
      rcases Query.verdict_of_not_keepsLimiting (q := referralQuery i o server) (h hblocked) with
        hverdict | ⟨bytes, hfind, hreports, hverdict⟩
      · rw [hverdict]
        exact .inl rfl
      · rw [hverdict]
        exact .inr ⟨bytes, ⟨hfind, hreports⟩, rfl⟩

/-- The services when the answer of the registry is there decide what comes of the referral. -/
theorem lookup_fst {text : String} {σ' : Services}
    (h : registryAnswer i registry o σ = (.ok text, σ')) :
    (lookup i registry o σ).1 =
      ((followReferral i registry o text σ').1.map (resultOf i registry o text)) := by
  rw [lookup_eq, Exchange.bind_of_ok h, Exchange.bind_pure_fst]

theorem exists_answer_of_lookup {σ' : Services} {r : Result} (hfollow : o.followReferral = false)
    (h : lookup i registry o σ = (.ok r, σ')) :
    ∃ text, registryAnswer i registry o σ = (.ok text, σ') ∧
      r = resultOf i registry o text none := by
  rw [lookup_eq] at h
  rcases hanswer : registryAnswer i registry o σ with ⟨result, τ⟩
  cases result with
  | error e =>
      rw [Exchange.bind_of_error hanswer] at h
      cases h
  | ok text =>
      have hnone : followReferral i registry o text = .done none := by
        rw [followReferral, hfollow]
        rfl
      rw [Exchange.bind_of_ok hanswer, hnone] at h
      obtain ⟨hr, rfl⟩ := Prod.mk.inj h
      exact ⟨text, rfl, (Except.ok.inj hr).symm⟩

end Referral

/-- The options to follow a referral and to ignore the failures of its server. -/
def Options.lenient (o : Options) : Options :=
  { o with followReferral := true, ignoreReferralFailure := true }

section Lenient

variable {i : Inquiry} {registry : Registry} {o : Options} {σ σ' : Services} {answer : String}

theorem referralServer?_lenient {server : String × Nat} :
    referralServer? o.lenient answer = some server ↔
      o.offline = false ∧ findReferral answer = some server :=
  referralServer?_eq_some.trans (and_iff_right rfl)

theorem lookup_lenient_of_referralLimited (h : registryAnswer i registry o σ = (.ok answer, σ'))
    (hlimited : ReferralLimited o answer σ') :
    (lookup i registry o.lenient σ).1 = .error (.whoisRateLimited i.address) := by
  obtain ⟨server, port, hoffline, hfind, hserver, hextra, hkeeps⟩ := hlimited
  have hasked : referralServer? o.lenient answer = some (server, port) :=
    referralServer?_lenient.2 ⟨hoffline, hfind⟩
  have hfailed : (askReferral i registry o.lenient (server, port) σ').1 =
      .error (.whoisRateLimited i.address) :=
    askReferral_of_keepsLimiting (isBlocked_eq_false_iff.2 ⟨hserver, hextra⟩) hkeeps
  rw [lookup_fst (o := o.lenient) h, followReferral_eq, hasked]
  show Except.map _ (askReferral i registry o.lenient (server, port) σ').1 = _
  rw [hfailed]
  rfl

theorem followReferral_lenient_of_not_referralLimited (i : Inquiry) (registry : Registry)
    (hnot : ¬ReferralLimited o answer σ') :
    (followReferral i registry o.lenient answer σ').1 = .ok none ∨
      ∃ server port bytes, findReferral answer = some (server, port) ∧ Answers o server σ' bytes ∧
        (followReferral i registry o.lenient answer σ').1 = .ok (some (Text.asciiOnly bytes)) := by
  rw [followReferral_eq]
  cases hasked : referralServer? o.lenient answer with
  | none => exact .inl rfl
  | some server =>
      obtain ⟨hoffline, hfind⟩ := referralServer?_lenient.1 hasked
      have hkeeps (hblocked : isBlocked server.1 o.blocked = false) :
          ¬KeepsLimiting (outcomes σ' server.1 (max 1 o.retryCount)) := by
        intro hkeeps
        obtain ⟨hserver, hextra⟩ := isBlocked_eq_false_iff.1 hblocked
        exact hnot ⟨server.1, server.2, hoffline, hfind, hserver, hextra, hkeeps⟩
      rcases askReferral_of_not_keepsLimiting i registry (o := o.lenient) rfl hkeeps with
        hask | ⟨bytes, hanswers, hask⟩
      · exact .inl hask
      · exact .inr ⟨server.1, server.2, bytes, hfind, hanswers, hask⟩

end Lenient

/-- If the lookup that follows no referral succeeds, then the one that follows a referral and ignores
its failures finds the same and perhaps what the server of the referral has answered. Only a server
that says to the end that queries come too fast makes it fail. -/
theorem lookup_isolates_referral {i : Inquiry} {registry : Registry} {o : Options}
    {σ σ' : Services} {r : Result}
    (h : lookup i registry { o with followReferral := false } σ = (.ok r, σ')) :
    let followed :=
      lookup i registry { o with followReferral := true, ignoreReferralFailure := true } σ
    ∃ answer, registryAnswer i registry o σ = (.ok answer, σ') ∧
      (ReferralLimited o answer σ' → followed.1 = .error (.whoisRateLimited i.address)) ∧
      (¬ReferralLimited o answer σ' →
        ∃ r', followed.1 = .ok r' ∧ r'.query = r.query ∧ r'.allocations = r.allocations ∧
          r'.raw = r.raw ∧
          (r'.referral = none ∨
            ∃ server port bytes, findReferral answer = some (server, port) ∧
              Answers o server σ' bytes ∧
              r'.referral = some (referralAllocation (Text.asciiOnly bytes) o.wanted))) := by
  intro followed
  obtain ⟨answer, hanswer, rfl⟩ := exists_answer_of_lookup rfl h
  refine ⟨answer, hanswer, lookup_lenient_of_referralLimited hanswer, ?_⟩
  intro hnot
  have hfollowed : followed.1 = (followReferral i registry o.lenient answer σ').1.map
      (resultOf i registry o.lenient answer) :=
    lookup_fst (o := o.lenient) hanswer
  rcases followReferral_lenient_of_not_referralLimited i registry hnot with
    hnone | ⟨server, port, bytes, hfind, hanswers, hsome⟩
  · exact ⟨_, hfollowed.trans (congrArg (Except.map _) hnone), rfl, rfl, rfl, .inl rfl⟩
  · exact ⟨_, hfollowed.trans (congrArg (Except.map _) hsome), rfl, rfl, rfl,
      .inr ⟨server, port, bytes, hfind, hanswers, rfl⟩⟩

theorem findReferral_plain : findReferral "ReferralServer: rwhois://a:1" = some ("a", 1) := by
  let cs := "ReferralServer: rwhois://a:1".toList
  let m : Pattern.Match := ⟨⟨0, 28⟩, [("val", ⟨16, 28⟩)]⟩
  have hfirst : referralLine.find cs 0 = some m := by
    rw [Pattern.find_eq_head?]
    decide +kernel
  have hnone : referralLine.find cs 28 = none := by
    rw [Pattern.find_eq_head?]
    decide +kernel
  rw [findReferral_of_find hfirst (by decide) hnone]
  decide +kernel

/-- A response with a referral to the server `a`. -/
def referring : Options where
  retryCount := 1
  response := some "ReferralServer: rwhois://a:1"

theorem lookup_isolates_referral_refused :
    let o := { referring with followReferral := true, ignoreReferralFailure := true }
    ∃ r, (lookup publicInquiry .arin o {}).1 = .ok r ∧ r.query = "8.8.8.8" := by
  intro o
  have hplain : lookup publicInquiry .arin { referring with followReferral := false } {} =
      (.ok (resultOf publicInquiry .arin referring "ReferralServer: rwhois://a:1" none), {}) := rfl
  obtain ⟨answer, hanswer, -, hisolated⟩ := lookup_isolates_referral hplain
  obtain rfl : "ReferralServer: rwhois://a:1" = answer :=
    Except.ok.inj (congrArg Prod.fst hanswer)
  have hnot : ¬ReferralLimited referring "ReferralServer: rwhois://a:1" {} := by
    rintro ⟨server, port, -, hfind, -, -, -, hlast⟩
    obtain ⟨rfl, rfl⟩ := Prod.mk.inj (Option.some.inj (findReferral_plain.symm.trans hfind))
    exact absurd hlast (by decide)
  obtain ⟨r, hr, hquery, -⟩ := hisolated hnot
  exact ⟨r, hr, hquery.trans (by decide +kernel)⟩

/-- The server `a` keeps saying that queries come too fast. -/
def limiting : Services where
  whois := { standing :=
    [("a", some ("Query rate limit exceeded".toList.map fun c => UInt8.ofNat c.toNat))] }

theorem lookup_limited_by_referral :
    (∃ r, (lookup publicInquiry .arin { referring with followReferral := false } limiting).1 =
      .ok r) ∧
    (lookup publicInquiry .arin
      { referring with followReferral := true, ignoreReferralFailure := true } limiting).1 =
        .error (.whoisRateLimited "8.8.8.8") := by
  have hlimited : ReferralLimited referring "ReferralServer: rwhois://a:1" limiting :=
    ⟨"a", 1, rfl, findReferral_plain, by decide, by decide, by decide +kernel, by decide +kernel⟩
  have haddress : publicInquiry.address = "8.8.8.8" := by decide +kernel
  refine ⟨⟨_, rfl⟩, ?_⟩
  rw [← haddress]
  exact lookup_lenient_of_referralLimited rfl hlimited

end IpRegistry.Whois
