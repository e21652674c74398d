import IpRegistry.Asn.Lookup
import IpRegistry.Proofs.Rdap.Lookup
import IpRegistry.Proofs.Traverse
import IpRegistry.Proofs.Whois.Retries

namespace IpRegistry.Asn

open Exchange (Notes exists_of_bind_fst ofExcept_apply)

variable {i : Inquiry} {o : Options} {σ : Services} {record : Record} {answer : String}

/-- The query for the line about the address. -/
def originQuery (i : Inquiry) (retryCount : Nat) : Whois.Query where
  server := originServer
  text := " -r -a -c -p -f " ++ i.address ++ "\r\n"
  retryCount := retryCount
  purpose := .asn
  subject := i.address

/-- The request for the document about the networks of the address. -/
def networksRequest (i : Inquiry) : Web.Request where
  url := networksUrl i
  headers := [("Accept", "application/json")]

/-- What a method may do for the address: it asks at one place, and it may pause to ask again. -/
def Method.Asks (i : Inquiry) : Method → Event → Prop
  | .dns, e => e = .name i.target.dnsZone
  | .whois, e => e = (originQuery i 0).exchange ∨ e = .sleep Whois.rateLimitPause
  | .http, e => e = .web (networksRequest i) ∨ e = .sleep i.config.rateLimitTimeout

theorem askTexts_eq (name subject : String) :
    askTexts name subject = Exchange.askTexts name >>= fun
      | .ok texts => .done texts
      | .error failure => .fail <|
        match failure.label? with
        | some label => .asnDnsFailed label subject
        | none => .asnFailed subject := by
  rw [askTexts]
  congr 1
  funext result
  cases result with
  | ok texts => rfl
  | error failure => cases failure <;> rfl

/-- The texts of a name, if it is answered for. -/
def textsOf? (σ : Services) (name : String) : Option (List String) :=
  (σ.texts.lookup name).bind Except.toOption

theorem toOption_askTexts (name subject : String) :
    (askTexts name subject σ).1.toOption = textsOf? σ name := by
  rw [askTexts_eq, Exchange.bind_of_ok (Exchange.askTexts_apply name σ), textsOf?]
  cases σ.texts.lookup name with
  | none => rfl
  | some answer => cases answer <;> rfl

theorem askTexts_snd (name subject : String) :
    (askTexts name subject σ).2 = σ.note (.name name) := by
  rw [askTexts_eq, Exchange.bind_of_ok (Exchange.askTexts_apply name σ)]
  cases (σ.texts.lookup name).getD (.error .nxDomain) <;> rfl

theorem notes_askTexts {allowed : Event → Prop} {name : String} (h : allowed (.name name))
    (subject : String) : Notes allowed (askTexts name subject) := by
  rw [askTexts_eq]
  refine .bind (.askTexts h) ?_
  rintro (failure | texts)
  · exact .fail _
  · exact .done _

theorem notes_askOrigin : Notes (Method.Asks i .dns) (askOrigin i) := by
  have hzone : Method.Asks i .dns (.name i.target.dnsZone) := rfl
  exact notes_askTexts hzone _

theorem askWhois_eq (i : Inquiry) (retryCount : Nat) :
    askWhois i retryCount = (originQuery i retryCount).send :=
  rfl

theorem notes_askWhois (retryCount : Nat) :
    Notes (Method.Asks i .whois) (askWhois i retryCount) := by
  rw [askWhois_eq]
  refine (Whois.Query.notes_send (originQuery i retryCount)).mono ?_
  rintro e (⟨rfl, -⟩ | rfl)
  · exact .inl rfl
  · exact .inr rfl

theorem notes_askHttp (retryCount : Nat) : Notes (Method.Asks i .http) (askHttp i retryCount) := by
  refine .bind (Notes.outcome (Web.obeys_fetchJson (.inl rfl) fun _ => .inr rfl).notes) ?_
  rintro (e | document)
  · exact .fail _
  · exact .done _

theorem notes_findBy (method : Method) : Notes (method.Asks i) (findBy i o method) := by
  cases method with
  | dns =>
      refine .bind notes_askOrigin fun texts => .bind (.ofExcept _) ?_
      rintro (- | record)
      · exact .fail _
      · exact .done _
  | whois =>
      exact .bind (notes_askWhois _) fun answer => .bind (.ofExcept _) fun record => .done _
  | http =>
      exact .bind (notes_askHttp _) fun document => .bind (.ofExcept _) fun record => .done _

/-- The services answer to a method, the record is read from it, and this is its text. -/
def Finds (i : Inquiry) (o : Options) (σ : Services) (record : Record) (answer : String) :
    Method → Prop
  | .dns => ∃ texts records, σ.texts.lookup i.target.dnsZone = some (.ok texts) ∧
      texts.mapM readDns = .ok records ∧ mostSpecific records = some record ∧
      answer = "\n".intercalate texts
  | .whois => ((originQuery i o.retryCount).send σ).1 = .ok answer ∧ readWhois answer = .ok record
  | .http => ∃ document,
      (Web.fetchJson (networksUrl i) [("Accept", "application/json")]
        (i.patience o.retryCount) σ).1 = .ok document ∧
      readHttp o.organisations document = .ok record ∧ answer = document.render

theorem lookup_of_askTexts {name subject : String} {texts : List String}
    (h : (askTexts name subject σ).1 = .ok texts) : σ.texts.lookup name = some (.ok texts) := by
  have hfirst : textsOf? σ name = some texts := by
    rw [← toOption_askTexts name subject, h]
    rfl
  obtain ⟨found, hlookup, htexts⟩ := Option.bind_eq_some_iff.1 hfirst
  cases found with
  | error failure => cases htexts
  | ok found => rw [hlookup, Option.some.inj htexts]

theorem fetchJson_of_askHttp {retryCount : Nat} {document : Json}
    (h : (askHttp i retryCount σ).1 = .ok document) :
    (Web.fetchJson (networksUrl i) [("Accept", "application/json")] (i.patience retryCount) σ).1 =
      .ok document := by
  obtain ⟨result, σ', hfetch, hresult⟩ := exists_of_bind_fst h
  cases result with
  | error e => cases hresult
  | ok found =>
      obtain rfl : found = document := Except.ok.inj hresult
      exact Except.ok.inj (congrArg Prod.fst hfetch)

theorem readOrigin_eq_ok {texts : List String} (h : readOrigin texts = .ok (some record)) :
    ∃ records, texts.mapM readDns = .ok records ∧ mostSpecific records = some record := by
  rw [readOrigin] at h
  cases hrecords : texts.mapM readDns with
  | error e =>
      rw [hrecords] at h
      cases h
  | ok records =>
      rw [hrecords] at h
      exact ⟨records, rfl, Except.ok.inj h⟩

theorem finds_of_findBy {method : Method}
    (h : (findBy i o method σ).1 = .ok (record, answer)) : Finds i o σ record answer method := by
  cases method with
  | dns =>
      obtain ⟨texts, σ', hask, hread⟩ := exists_of_bind_fst h
      obtain ⟨found, σ'', horigin, hfound⟩ := exists_of_bind_fst hread
      rw [ofExcept_apply] at horigin
      cases found with
      | none => cases hfound
      | some found =>
          obtain ⟨rfl, rfl⟩ := Prod.mk.inj (Except.ok.inj hfound)
          obtain ⟨records, hrecords, hbest⟩ := readOrigin_eq_ok (congrArg Prod.fst horigin)
          exact ⟨texts, records, lookup_of_askTexts (congrArg Prod.fst hask), hrecords, hbest, rfl⟩
  | whois =>
      obtain ⟨text, σ', hask, hread⟩ := exists_of_bind_fst h
      obtain ⟨found, σ'', hparse, hfound⟩ := exists_of_bind_fst hread
      rw [ofExcept_apply] at hparse
      obtain ⟨rfl, rfl⟩ := Prod.mk.inj (Except.ok.inj hfound)
      rw [askWhois_eq] at hask
      exact ⟨congrArg Prod.fst hask, congrArg Prod.fst hparse⟩
  | http =>
      obtain ⟨document, σ', hask, hread⟩ := exists_of_bind_fst h
      obtain ⟨found, σ'', hparse, hfound⟩ := exists_of_bind_fst hread
      rw [ofExcept_apply] at hparse
      obtain ⟨rfl, rfl⟩ := Prod.mk.inj (Except.ok.inj hfound)
      exact ⟨document, fetchJson_of_askHttp (congrArg Prod.fst hask), congrArg Prod.fst hparse, rfl⟩

theorem Layout.source_of_read {layout : Layout} {line : List Char}
    (h : layout.read line = .ok record) : record.source = layout.source := by
  rw [Layout.read] at h
  split at h
  · cases h
  · split at h
    · cases h
    · rw [← Except.ok.inj h]

theorem source_of_readWhois {s : String} (h : readWhois s = .ok record) :
    record.source = .whois := by
  rw [readWhois] at h
  exact Layout.source_of_read h

theorem source_of_readHttp {organisations : List (String × Registry)} {document : Json}
    (h : readHttp organisations document = .ok record) : record.source = .http := by
  rw [readHttp] at h
  split at h
  · rw [← Except.ok.inj h]
  · cases h

theorem moreSpecific_eq_or (held candidate : Record) :
    moreSpecific held candidate = held ∨ moreSpecific held candidate = candidate := by
  rw [moreSpecific]
  split
  · split
    · exact .inr rfl
    · exact .inl rfl
  · exact .inr rfl
  · exact .inl rfl

theorem foldl_moreSpecific_mem (held : Record) (records : List Record) :
    records.foldl moreSpecific held ∈ held :: records := by
  induction records generalizing held with
  | nil => exact List.mem_singleton_self held
  | cons candidate records ih =>
      have hmem := ih (moreSpecific held candidate)
      rw [List.mem_cons] at hmem
      rw [List.foldl_cons]
      rcases hmem with heq | hmem
      · rw [heq]
        rcases moreSpecific_eq_or held candidate with hheld | hcandidate
        · rw [hheld]
          exact List.mem_cons_self
        · rw [hcandidate]
          exact List.mem_cons_of_mem _ List.mem_cons_self
      · exact List.mem_cons_of_mem _ (List.mem_cons_of_mem _ hmem)

theorem mem_of_mostSpecific {records : List Record} (h : mostSpecific records = some record) :
    record ∈ records := by
  cases records with
  | nil => cases h
  | cons first records =>
      rw [← Option.some.inj h]
      exact foldl_moreSpecific_mem first records

theorem source_of_mapM_readDns {texts : List String} {records : List Record}
    (h : texts.mapM readDns = .ok records) : ∀ record ∈ records, record.source = .dns := by
  intro record hrecord
  obtain ⟨text, -, hread⟩ := exists_of_mapM_eq_ok h record hrecord
  exact Layout.source_of_read hread

/-- A record names the method that has found it. -/
theorem Finds.source_eq {method : Method} (h : Finds i o σ record answer method) :
    record.source = method := by
  cases method with
  | dns =>
      obtain ⟨texts, records, -, hrecords, hbest, -⟩ := h
      exact source_of_mapM_readDns hrecords record (mem_of_mostSpecific hbest)
  | whois => exact source_of_readWhois h.2
  | http =>
      obtain ⟨document, -, hread, -⟩ := h
      exact source_of_readHttp hread

end IpRegistry.Asn
