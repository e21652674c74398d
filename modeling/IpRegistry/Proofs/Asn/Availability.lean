import IpRegistry.Proofs.Asn.Lookup
import IpRegistry.Proofs.Exchange.Steady

namespace IpRegistry

namespace Exchange

variable {α β : Type}

theorem bind_fst_eq_error {x : Exchange α} {f : α → Exchange β} {σ : Services} {e : LookupError}
    (h : ((x >>= f) σ).1 = .error e) :
    (x σ).1 = .error e ∨ ∃ a σ', x σ = (.ok a, σ') ∧ (f a σ').1 = .error e := by
  rcases hrun : x σ with ⟨result, σ'⟩
  cases result with
  | error other =>
      rw [bind_of_error hrun] at h
      exact .inl (congrArg Except.error (Except.error.inj h))
  | ok a =>
      rw [bind_of_ok hrun] at h
      exact .inr ⟨a, σ', rfl, h⟩

end Exchange

namespace Whois

/-- The standing answer of a server says that queries come too fast. -/
def Throttles (σ : Services) (server : String) : Prop :=
  ∃ bytes, σ.whois.standing.lookup server = some (some bytes) ∧ mentions bytes rateLimitMark = true

theorem isLimited_iff {o : Option Outcome} :
    Outcome.isLimited o.join = true ↔
      ∃ bytes, o = some (some bytes) ∧ mentions bytes rateLimitMark = true := by
  rcases o with - | - | bytes <;> simp [Outcome.isLimited]

namespace Query

variable {q : Query} {σ : Services}

theorem verdict_replicate_eq_limited_iff {o : Outcome} (n : Nat)
    (hfailure : q.failure ≠ .whoisRateLimited q.subject) :
    q.verdict (List.replicate (n + 1) o) = .error (.whoisRateLimited q.subject) ↔
      o.isLimited = true := by
  cases hterminal : o.isTerminal with
  | true =>
      obtain ⟨bytes, hbytes⟩ := Option.isSome_iff_exists.1 hterminal
      rw [List.replicate_succ, verdict_of_terminal? q hbytes, Outcome.isLimited_of_isTerminal hterminal]
      split <;> simp [hfailure]
  | false =>
      have hnone : (List.replicate (n + 1) o).findSome? Outcome.terminal? = none := by
        rw [Outcome.isTerminal, Option.isSome_eq_false_iff, Option.isNone_iff_eq_none] at hterminal
        rw [List.findSome?_eq_none_iff]
        intro other hother
        rw [List.eq_of_mem_replicate hother, hterminal]
      rw [verdict, hnone, List.getLast?_replicate, if_neg (Nat.succ_ne_zero n), Option.any_some]
      cases o.isLimited <;> simp [hfailure]

/-- A server with a standing answer only gives the same answer to each attempt. -/
theorem outcomes_of_isSteady (hσ : σ.IsSteady) (server : String) (n : Nat) :
    outcomes σ server n = List.replicate n (σ.whois.standing.lookup server).join := by
  rw [outcomes, Script.upcoming_of_queued_eq_nil hσ.whois, List.map_replicate]

theorem send_eq_limited_iff (hσ : σ.IsSteady) (hserver : isBlocked q.server q.blocked = false)
    (hfailure : q.failure ≠ .whoisRateLimited q.subject) :
    (q.send σ).1 = .error (.whoisRateLimited q.subject) ↔ Throttles σ q.server := by
  obtain ⟨n, hn⟩ : ∃ n, max 1 q.retryCount = n + 1 := ⟨max 1 q.retryCount - 1, by omega⟩
  rw [send_of_not_isBlocked hserver, hn, outcomes_of_isSteady hσ,
    verdict_replicate_eq_limited_iff n hfailure, isLimited_iff, Throttles]

theorem verdict_eq_error {outcomes : List Outcome} {e : LookupError}
    (h : q.verdict outcomes = .error e) : e = q.failure ∨ e = .whoisRateLimited q.subject := by
  rw [verdict] at h
  split at h
  · split at h
    · exact .inl (Except.error.inj h).symm
    · cases h
  · split at h
    · exact .inr (Except.error.inj h).symm
    · exact .inl (Except.error.inj h).symm

end Query

end Whois

namespace Asn

open Exchange (Repeatable bind_fst_eq_error ofExcept_apply)

variable {i : Inquiry} {o : Options} {methods : List Method} {method : Method} {σ τ : Services}
  {record : Record} {t : Trial} {e : LookupError}

theorem Layout.read_eq_error {layout : Layout} {line : List Char} (h : layout.read line = .error e) :
    e.kind = .asnParse ∨ e.kind = .asnRegistry := by
  rw [read] at h
  split at h
  · rw [← Except.error.inj h]
    exact .inl rfl
  · split at h
    · rename_i other hregistry
      rw [Registry.parse] at hregistry
      split at hregistry
      · cases hregistry
      · rw [← Except.error.inj h, ← Except.error.inj hregistry]
        exact .inr rfl
    · cases h

theorem readOrigin_eq_error {texts : List String} (h : readOrigin texts = .error e) :
    e.kind = .asnParse ∨ e.kind = .asnRegistry := by
  have hrecords : texts.mapM readDns = .error e := by
    rw [readOrigin] at h
    cases hrecords : texts.mapM readDns with
    | error other =>
        rw [hrecords] at h
        exact congrArg _ (Except.error.inj h)
    | ok records =>
        rw [hrecords] at h
        cases h
  obtain ⟨text, -, hfails⟩ := exists_of_mapM_eq_error hrecords
  exact Layout.read_eq_error hfails

theorem readWhois_eq_error {answer : String} (h : readWhois answer = .error e) :
    e.kind = .asnParse ∨ e.kind = .asnRegistry := by
  rw [readWhois] at h
  exact Layout.read_eq_error h

theorem askTexts_eq_error {name subject : String} (h : (askTexts name subject σ).1 = .error e) :
    e.kind = .asnLookup := by
  rw [askTexts_eq, Exchange.bind_of_ok (Exchange.askTexts_apply name σ)] at h
  cases hanswer : (σ.texts.lookup name).getD (.error .nxDomain) with
  | ok texts =>
      rw [hanswer] at h
      cases h
  | error failure =>
      rw [hanswer] at h
      rw [← Except.error.inj h]
      cases failure <;> rfl

theorem originServer_not_isBlocked : Whois.isBlocked originServer [] = false := by
  decide

theorem askWhois_eq_error {retryCount : Nat} (h : (askWhois i retryCount σ).1 = .error e) :
    e.kind = .asnLookup ∨ e = .whoisRateLimited i.address := by
  rw [askWhois_eq, Whois.Query.send_of_not_isBlocked originServer_not_isBlocked] at h
  rcases Whois.Query.verdict_eq_error h with rfl | rfl
  · exact .inl rfl
  · exact .inr rfl

theorem askHttp_eq_error {retryCount : Nat} (h : (askHttp i retryCount σ).1 = .error e) :
    e.kind = .asnLookup := by
  rcases bind_fst_eq_error h with hfetch | ⟨result, σ', -, hresult⟩
  · cases hfetch
  · cases result with
    | ok document => cases hresult
    | error other =>
        rw [← Except.error.inj hresult]
        rfl

theorem readHttp_eq_error {organisations : List (String × Registry)} {document : Json}
    (h : readHttp organisations document = .error e) : e.kind = .asnRegistry := by
  rw [readHttp] at h
  split at h
  · cases h
  · rw [← Except.error.inj h]
    rfl

/-- A method fails because nothing was found, because an answer cannot be read, or because a WHOIS
server limits the rate of queries. -/
theorem findBy_eq_error (h : (findBy i o method σ).1 = .error e) :
    isAbsence e = true ∨ (e.kind = .asnParse ∧ method ≠ .http) ∨
      (e = .whoisRateLimited i.address ∧ method = .whois) := by
  have habsence : e.kind = .asnLookup ∨ e.kind = .asnRegistry → isAbsence e = true := by
    rw [isAbsence, Bool.or_eq_true, beq_iff_eq, beq_iff_eq]
    exact id
  cases method with
  | dns =>
      rcases bind_fst_eq_error h with hask | ⟨texts, σ', -, hread⟩
      · exact .inl (habsence (.inl (askTexts_eq_error hask)))
      rcases bind_fst_eq_error hread with horigin | ⟨best, σ'', -, hbest⟩
      · simp only [ofExcept_apply] at horigin
        exact (readOrigin_eq_error horigin).elim (fun hkind => .inr (.inl ⟨hkind, by decide⟩))
          fun hkind => .inl (habsence (.inr hkind))
      · cases best with
        | some record => cases hbest
        | none =>
            rw [← Except.error.inj hbest]
            exact .inl rfl
  | whois =>
      rcases bind_fst_eq_error h with hask | ⟨answer, σ', -, hread⟩
      · exact (askWhois_eq_error hask).elim (fun hkind => .inl (habsence (.inl hkind)))
          fun hlimited => .inr (.inr ⟨hlimited, rfl⟩)
      rcases bind_fst_eq_error hread with hparse | ⟨record, σ'', -, hdone⟩
      · simp only [ofExcept_apply] at hparse
        exact (readWhois_eq_error hparse).elim (fun hkind => .inr (.inl ⟨hkind, by decide⟩))
          fun hkind => .inl (habsence (.inr hkind))
      · cases hdone
  | http =>
      rcases bind_fst_eq_error h with hask | ⟨document, σ', -, hread⟩
      · exact .inl (habsence (.inl (askHttp_eq_error hask)))
      rcases bind_fst_eq_error hread with hparse | ⟨record, σ'', -, hdone⟩
      · simp only [ofExcept_apply] at hparse
        exact .inl (habsence (.inr (readHttp_eq_error hparse)))
      · cases hdone

theorem findBy_whois_eq_limited_iff (hσ : σ.IsSteady) :
    (findBy i o .whois σ).1 = .error (.whoisRateLimited i.address) ↔
      Whois.Throttles σ originServer := by
  have hsend : (askWhois i o.retryCount σ).1 = .error (.whoisRateLimited i.address) ↔
      Whois.Throttles σ originServer :=
    Whois.Query.send_eq_limited_iff hσ originServer_not_isBlocked nofun
  rw [← hsend]
  constructor
  · intro h
    rcases bind_fst_eq_error h with hask | ⟨answer, σ', -, hread⟩
    · exact hask
    rcases bind_fst_eq_error hread with hparse | ⟨record, σ'', -, hdone⟩
    · simp only [ofExcept_apply] at hparse
      rcases readWhois_eq_error hparse with hkind | hkind <;> cases hkind
    · cases hdone
  · intro h
    exact congrArg Prod.fst (Exchange.bind_of_error (Prod.ext h rfl))

theorem repeatable_askTexts (name subject : String) : Repeatable (askTexts name subject) := by
  rw [askTexts_eq]
  refine .bind (.askTexts name) ?_
  rintro (failure | texts)
  · exact .fail _
  · exact .done _

theorem repeatable_askHttp (i : Inquiry) (retryCount : Nat) : Repeatable (askHttp i retryCount) := by
  have hfetch : Exchange.Obeys (fun _ => True)
      (Web.fetchJson (networksUrl i) [("Accept", "application/json")] (i.patience retryCount)) :=
    Web.obeys_fetchJson trivial fun _ => trivial
  refine .bind hfetch.browses.repeatable.outcome ?_
  rintro (failure | document)
  · exact .fail _
  · exact .done _

theorem repeatable_findBy (i : Inquiry) (o : Options) (method : Method) :
    Repeatable (findBy i o method) := by
  cases method with
  | dns =>
      refine .bind (repeatable_askTexts _ _) fun texts => .bind (.ofExcept _) ?_
      rintro (- | record)
      · exact .fail _
      · exact .done _
  | whois =>
      rw [findBy, askWhois_eq]
      exact .bind (Whois.Query.repeatable_send _) fun answer => .bind (.ofExcept _) fun _ => .done _
  | http =>
      exact .bind (repeatable_askHttp i _) fun document => .bind (.ofExcept _) fun _ => .done _

/-- The failure of a trial is that an answer cannot be read. -/
def Trial.isUnreadable (i : Inquiry) (o : Options) (t : Trial) : Bool :=
  match t.result i o with
  | .ok _ => false
  | .error e => e.kind = .asnParse

/-- On servers with standing answers a method finds the same after others as on its own. -/
theorem Trial.result_of_mem (hσ : σ.IsSteady) (ht : t ∈ trials i o methods σ) :
    t.result i o = (findBy i o t.method σ).1 := by
  have hsame : ∀ (methods : List Method) (τ : Services), Services.SameAnswers σ τ →
      ∀ t ∈ trials i o methods τ, Services.SameAnswers σ t.services := by
    intro methods
    induction methods with
    | nil => exact fun τ _ => List.forall_mem_nil _
    | cons method methods ih =>
        intro τ hτ
        have hleft := (repeatable_findBy i o method τ (hτ.isSteady hσ)).1
        exact List.forall_mem_cons.2 ⟨hτ, ih _ (hτ.trans hleft)⟩
  exact (repeatable_findBy i o t.method σ hσ).2 _ (hsame methods σ (.refl σ) t ht)

theorem Trial.isDecisive_eq_false_iff (t : Trial) :
    t.isDecisive i o = false ↔ ∃ e, t.result i o = .error e ∧ isAbsence e = true := by
  rw [isDecisive]
  cases t.result i o with
  | ok found => simp
  | error e => simp [isAbsence, or_iff_not_imp_left]

/-- The trials up to the decisive one are that one and others that find nothing. -/
theorem mem_tried_iff (h : (trials i o methods σ).find? (Trial.isDecisive i o) = some t) :
    t ∈ tried i o methods σ ∧
      ∀ other ∈ tried i o methods σ, other = t ∨ other.isDecisive i o = false := by
  induction methods generalizing σ with
  | nil => cases h
  | cons method methods ih =>
      rw [trials, List.find?_cons] at h
      cases hfirst : Trial.isDecisive i o ⟨method, σ⟩ with
      | true =>
          rw [hfirst] at h
          rw [tried_of_decisive hfirst, ← Option.some.inj h]
          exact ⟨List.mem_singleton_self _, fun other hother => .inl (List.mem_singleton.1 hother)⟩
      | false =>
          rw [hfirst] at h
          obtain ⟨hmem, hothers⟩ := ih h
          rw [tried_of_not_decisive hfirst]
          exact ⟨List.mem_cons_of_mem _ hmem, List.forall_mem_cons.2 ⟨.inr hfirst, hothers⟩⟩

theorem findBy_of_lookup_alone
    (h : (lookup i { o with methods := [method] } σ).1 = .ok record) :
    ∃ found, (findBy i o method σ).1 = .ok found := by
  let alone : Options := { o with methods := [method] }
  have hsame : findBy i alone method = findBy i o method := by cases method <;> rfl
  cases hresult : (findBy i o method σ).1 with
  | ok found => exact ⟨found, rfl⟩
  | error e =>
      have hfails : ∃ other, (findFirst i alone alone.methods σ).1 = .error other := by
        cases hdecisive : Trial.isDecisive i alone ⟨method, σ⟩ with
        | true =>
            refine ⟨e, ?_⟩
            rw [findFirst_of_decisive hdecisive, hsame, hresult]
        | false => exact ⟨.asnMethodsExhausted, by rw [findFirst_of_not_decisive hdecisive]; rfl⟩
      obtain ⟨other, hother⟩ := hfails
      rw [lookup_of_error (List.cons_ne_nil _ _) (Prod.ext hother rfl)] at h
      cases h

/-- Where servers have standing answers only and one of the methods finds a record on its own, the
lookup fails only if a method before it cannot read its answer, or asks a WHOIS server that limits
the rate of queries: this failure is not taken for a sign that nothing was found. -/
theorem lookup_finds_iff (hσ : σ.IsSteady) (hmem : method ∈ o.methods)
    (halone : (lookup i { o with methods := [method] } σ).1 = .ok record) :
    let asked := tried i o o.methods σ
    ((∃ found, (lookup i o σ).1 = .ok found) ↔
      (∀ t ∈ asked, t.isUnreadable i o = false) ∧
      ((∃ t ∈ asked, t.method = .whois) → ¬Whois.Throttles σ originServer)) ∧
    ∀ e, (lookup i o σ).1 = .error e → ∃ t ∈ asked, t.result i o = .error e ∧
      (e.kind = .asnParse ∧ t.method ≠ .http ∨
        e = .whoisRateLimited i.address ∧ t.method = .whois ∧ Whois.Throttles σ originServer) := by
  intro asked
  have hmethods : o.methods ≠ [] := List.ne_nil_of_mem hmem
  obtain ⟨found, hfound⟩ := findBy_of_lookup_alone halone
  obtain ⟨t, ht⟩ : ∃ t, (trials i o o.methods σ).find? (Trial.isDecisive i o) = some t := by
    rw [← Option.isSome_iff_exists, List.find?_isSome]
    rw [← map_method_trials (i := i) (o := o) o.methods σ] at hmem
    obtain ⟨t, htrial, rfl⟩ := List.mem_map.1 hmem
    refine ⟨t, htrial, ?_⟩
    rw [Trial.isDecisive, Trial.result_of_mem hσ htrial, hfound]
  obtain ⟨hasked, hothers⟩ := mem_tried_iff ht
  have hfirst : findFirst i o o.methods σ = (t.result i o, t.left i o) := findFirst_of_find? ht
  have halike : t.result i o = (findBy i o t.method σ).1 :=
    Trial.result_of_mem hσ (List.mem_of_find?_eq_some ht)
  have hdecisive : t.isDecisive i o = true := List.find?_some ht
  cases hresult : t.result i o with
  | ok found =>
      rw [hresult] at hfirst
      have hlookup := lookup_of_ok hmethods hfirst
      have habsence : ∀ other ∈ asked, ∀ e, other.result i o = .error e → isAbsence e = true := by
        intro other hother e he
        rcases hothers other hother with rfl | habsent
        · rw [hresult] at he
          cases he
        · obtain ⟨e', he', habsence⟩ := (Trial.isDecisive_eq_false_iff other).1 habsent
          rwa [Except.error.inj (he.symm.trans he')]
      refine ⟨⟨fun _ => ⟨?_, ?_⟩, fun _ => ⟨_, congrArg Prod.fst hlookup⟩⟩, ?_⟩
      · intro other hother
        rw [Trial.isUnreadable]
        cases he : other.result i o with
        | ok found => rfl
        | error e =>
            have h := habsence other hother e he
            rw [isAbsence, Bool.or_eq_true, beq_iff_eq, beq_iff_eq] at h
            rcases h with hkind | hkind <;> simp [hkind]
      · rintro ⟨other, hother, hwhois⟩ hthrottles
        have hlimited : other.result i o = .error (.whoisRateLimited i.address) := by
          rw [Trial.result_of_mem hσ (List.mem_of_mem_take hother), hwhois]
          exact (findBy_whois_eq_limited_iff hσ).2 hthrottles
        cases habsence other hother _ hlimited
      · intro e he
        rw [hlookup] at he
        cases he
  | error e =>
      rw [hresult] at hfirst halike
      have hlookup := lookup_of_error hmethods hfirst
      have hwhy : e.kind = .asnParse ∧ t.method ≠ .http ∨
          e = .whoisRateLimited i.address ∧ t.method = .whois ∧ Whois.Throttles σ originServer := by
        rcases findBy_eq_error halike.symm with habsence | hparse | ⟨rfl, hwhois⟩
        · rw [(Trial.isDecisive_eq_false_iff t).2 ⟨e, hresult, habsence⟩] at hdecisive
          cases hdecisive
        · exact .inl hparse
        · rw [hwhois] at halike
          exact .inr ⟨rfl, hwhois, (findBy_whois_eq_limited_iff hσ).1 halike.symm⟩
      refine ⟨⟨?_, ?_⟩, ?_⟩
      · rintro ⟨found, hok⟩
        rw [hlookup] at hok
        cases hok
      · rintro ⟨hparse, hwhois⟩
        rcases hwhy with ⟨hkind, -⟩ | ⟨-, hmethod, hthrottles⟩
        · have hreadable := hparse t hasked
          rw [Trial.isUnreadable, hresult] at hreadable
          exact absurd hkind (of_decide_eq_false hreadable)
        · exact absurd hthrottles (hwhois ⟨t, hasked, hmethod⟩)
      · intro other hother
        rw [hlookup] at hother
        obtain rfl : e = other := Except.error.inj hother
        exact ⟨t, hasked, hresult, hwhy⟩

/-- No texts are known, and the document about the networks of the address names the organisation of
one; the WHOIS server refuses connections or gives the same answer to each query. -/
def documented (i : Inquiry) (answer : Option String) : Services where
  whois := { standing := [(originServer, answer.map Text.bytesOf)] }
  web := { standing := [(networksUrl i, some ⟨200, Text.bytesOf
    "\x7b\"nets\":\x7b\"net\":\x7b\"orgRef\":\x7b\"@handle\":\"ARIN\"\x7d\x7d\x7d\x7d"⟩)] }

theorem lookup_finds_iff_refused :
    let i : Inquiry := ⟨⟨⟨.v4, 134744072, by decide⟩, by decide⟩, {}⟩
    ∃ found, (lookup i {} (documented i none)).1 = .ok found := by
  intro i
  have hsteady : (documented i none).IsSteady := ⟨rfl, rfl⟩
  have halone : (lookup i { methods := [.http] } (documented i none)).1 =
      .ok { registry := .arin, source := .http } := by
    decide +kernel
  refine (lookup_finds_iff (o := {}) hsteady (by decide) halone).1.2 ⟨by decide +kernel, ?_⟩
  rintro - ⟨bytes, hbytes, -⟩
  have hrefuses : (documented i none).whois.standing.lookup originServer = some none := rfl
  rw [hrefuses] at hbytes
  cases hbytes

/-- A WHOIS server that says to each query that they come too fast keeps a document from being asked
for that names the registry. -/
theorem lookup_limited_before_http :
    let i : Inquiry := ⟨⟨⟨.v4, 134744072, by decide⟩, by decide⟩, {}⟩
    let σ := documented i (some "Query rate limit exceeded")
    σ.IsSteady ∧
    (lookup i { methods := [.http] } σ).1 = .ok { registry := .arin, source := .http } ∧
    (∀ t ∈ tried i {} [.dns, .whois, .http] σ, t.isUnreadable i {} = false) ∧
    (lookup i {} σ).1 = .error (.whoisRateLimited "8.8.8.8") := by
  intro i σ
  exact ⟨⟨rfl, rfl⟩, by decide +kernel, by decide +kernel, by decide +kernel⟩

end Asn

end IpRegistry
