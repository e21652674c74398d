import IpRegistry.Proofs.Asn.Methods

namespace IpRegistry.Asn

open Exchange (Notes)

/-- A method that is tried, and the services when it is. -/
structure Trial where
  method : Method
  services : Services

namespace Trial

variable (i : Inquiry) (o : Options)

/-- What comes of a trial: a record with the answer that it was read from, or a failure. -/
def result (t : Trial) : Except LookupError (Record × String) :=
  (findBy i o t.method t.services).1

/-- The services after a trial. -/
def left (t : Trial) : Services :=
  (findBy i o t.method t.services).2

/-- What is asked in a trial. -/
def events (t : Trial) : List Event :=
  (findBy i o t.method).noted t.services

/-- A record is found, or the failure is another one than that there is none. -/
def isDecisive (t : Trial) : Bool :=
  match t.result i o with
  | .ok _ => true
  | .error e => e.kind ≠ .asnLookup ∧ e.kind ≠ .asnRegistry

end Trial

/-- The trials of all methods in their order, each with the services that the earlier ones leave. -/
def trials (i : Inquiry) (o : Options) : List Method → Services → List Trial
  | [], _ => []
  | method :: methods, σ => ⟨method, σ⟩ :: trials i o methods (Trial.left i o ⟨method, σ⟩)

/-- The trials up to the first one that is decisive. -/
def tried (i : Inquiry) (o : Options) (methods : List Method) (σ : Services) : List Trial :=
  let all := trials i o methods σ
  all.take (all.findIdx (Trial.isDecisive i o) + 1)

variable {i : Inquiry} {o : Options} {methods : List Method} {σ τ : Services} {t : Trial}
  {record : Record} {answer : String}

theorem map_method_trials (methods : List Method) (σ : Services) :
    (trials i o methods σ).map Trial.method = methods := by
  induction methods generalizing σ with
  | nil => rfl
  | cons method methods ih => rw [trials, List.map_cons, ih]

theorem tried_of_decisive {method : Method} (h : Trial.isDecisive i o ⟨method, σ⟩ = true) :
    tried i o (method :: methods) σ = [⟨method, σ⟩] := by
  rw [tried, trials, List.findIdx_cons, h]
  rfl

theorem tried_of_not_decisive {method : Method} (h : Trial.isDecisive i o ⟨method, σ⟩ = false) :
    tried i o (method :: methods) σ =
      ⟨method, σ⟩ :: tried i o methods (Trial.left i o ⟨method, σ⟩) := by
  rw [tried, trials, List.findIdx_cons, h]
  rfl

theorem findFirst_of_decisive {method : Method} (h : Trial.isDecisive i o ⟨method, σ⟩ = true) :
    findFirst i o (method :: methods) σ = findBy i o method σ := by
  rw [findFirst, Exchange.bind_of_ok (Exchange.outcome_apply _ σ)]
  rw [Trial.isDecisive, Trial.result] at h
  rcases hrun : findBy i o method σ with ⟨result, σ'⟩
  rw [hrun] at h
  cases result with
  | ok found => rfl
  | error e =>
      have habsence : isAbsence e = false := by simpa [isAbsence] using h
      show (if isAbsence e = true then _ else Exchange.fail e : Exchange _) σ' = _
      rw [habsence]
      rfl

theorem findFirst_of_not_decisive {method : Method}
    (h : Trial.isDecisive i o ⟨method, σ⟩ = false) :
    findFirst i o (method :: methods) σ =
      findFirst i o methods (Trial.left i o ⟨method, σ⟩) := by
  rw [findFirst, Exchange.bind_of_ok (Exchange.outcome_apply _ σ), Trial.left]
  rw [Trial.isDecisive, Trial.result] at h
  rcases hrun : findBy i o method σ with ⟨result, σ'⟩
  rw [hrun] at h
  cases result with
  | ok found => cases h
  | error e =>
      have habsence : isAbsence e = true := by
        simpa [isAbsence, or_iff_not_imp_left] using h
      show (if isAbsence e = true then _ else _ : Exchange _) σ' = _
      rw [habsence]
      rfl

theorem findFirst_of_find? (h : (trials i o methods σ).find? (Trial.isDecisive i o) = some t) :
    findFirst i o methods σ = (t.result i o, t.left i o) := by
  induction methods generalizing σ with
  | nil => cases h
  | cons method methods ih =>
      rw [trials, List.find?_cons] at h
      cases hfirst : Trial.isDecisive i o ⟨method, σ⟩ with
      | true =>
          rw [hfirst] at h
          obtain rfl : ⟨method, σ⟩ = t := Option.some.inj h
          exact findFirst_of_decisive hfirst
      | false =>
          rw [hfirst] at h
          rw [findFirst_of_not_decisive hfirst]
          exact ih h

theorem findFirst_of_none_decisive
    (h : ∀ t ∈ trials i o methods σ, t.isDecisive i o = false) :
    (findFirst i o methods σ).1 = .error .asnMethodsExhausted := by
  induction methods generalizing σ with
  | nil => rfl
  | cons method methods ih =>
      rw [trials, List.forall_mem_cons] at h
      rw [findFirst_of_not_decisive h.1]
      exact ih h.2

theorem events_findFirst (methods : List Method) (σ : Services) :
    (findFirst i o methods σ).2.events =
      σ.events ++ (tried i o methods σ).flatMap (Trial.events i o) := by
  induction methods generalizing σ with
  | nil => exact (List.append_nil _).symm
  | cons method methods ih =>
      have hfirst : (Trial.left i o ⟨method, σ⟩).events =
          σ.events ++ Trial.events i o ⟨method, σ⟩ :=
        (notes_findBy method).events_eq σ
      cases hdecisive : Trial.isDecisive i o ⟨method, σ⟩ with
      | true =>
          rw [findFirst_of_decisive hdecisive, tried_of_decisive hdecisive,
            List.flatMap_singleton]
          exact hfirst
      | false =>
          rw [findFirst_of_not_decisive hdecisive, tried_of_not_decisive hdecisive,
            List.flatMap_cons, ih, hfirst, List.append_assoc]

def descriptionName (asn : String) : String :=
  "AS" ++ bareNumber asn ++ "." ++ descriptionZone

/-- The name that is asked for the description of the first number of a record, if it has one. -/
def descriptionName? (record : Record) : Option String :=
  (record.asn.bind Text.firstWord?).map descriptionName

/-- The description in the first text of a name, if there is one that can be read. -/
def description? (σ : Services) (name : String) : Option String :=
  ((textsOf? σ name).bind List.head?).bind fun text =>
    (readVerboseDns text).toOption.bind Record.description

theorem askDescription_apply (asn : String) (σ : Services) :
    (askDescription asn σ).1.toOption = (textsOf? σ (descriptionName asn)).bind List.head? ∧
      (askDescription asn σ).2 = σ.note (.name (descriptionName asn)) := by
  have htexts := toOption_askTexts (σ := σ) (descriptionName asn) ("AS" ++ bareNumber asn)
  have hleft := askTexts_snd (σ := σ) (descriptionName asn) ("AS" ++ bareNumber asn)
  rw [← htexts, ← hleft]
  show ((askTexts (descriptionName asn) ("AS" ++ bareNumber asn) >>= _) σ).1.toOption = _ ∧
    ((askTexts (descriptionName asn) ("AS" ++ bareNumber asn) >>= _) σ).2 = _
  rw [Exchange.bind_apply]
  rcases askTexts (descriptionName asn) ("AS" ++ bareNumber asn) σ with ⟨result, σ'⟩
  cases result with
  | error e => exact ⟨rfl, rfl⟩
  | ok texts => cases texts <;> exact ⟨rfl, rfl⟩

theorem findDescription_apply (record : Record) (σ : Services) :
    findDescription record σ =
      (.ok ((descriptionName? record).bind (description? σ)),
        { σ with events := σ.events ++ (descriptionName? record).toList.map .name }) := by
  rw [findDescription, descriptionName?]
  cases record.asn.bind Text.firstWord? with
  | none =>
      show _ = (_, { σ with events := σ.events ++ [] })
      rw [List.append_nil]
      rfl
  | some asn =>
      obtain ⟨htext, hleft⟩ := askDescription_apply asn σ
      dsimp only
      rw [Exchange.bind_of_ok (Exchange.outcome_apply _ σ), hleft]
      show _ = (Except.ok (description? σ (descriptionName asn)), _)
      rw [description?, ← htext]
      cases (askDescription asn σ).1 <;> rfl

/-- Whether the lookup asks for a description when a method has found a record. -/
def Options.Describes (o : Options) (method : Method) : Prop :=
  o.describe = true ∧ method = .dns

instance (o : Options) (method : Method) : Decidable (o.Describes method) :=
  inferInstanceAs (Decidable (_ ∧ _))

/-- The record of a lookup. -/
def finished (o : Options) (τ : Services) (record : Record) (answer : String) : Record :=
  { record with
    description :=
      if o.Describes record.source then (descriptionName? record).bind (description? τ)
      else record.description
    raw := if o.keepRaw then some answer else none }

/-- What is asked when a method has found a record. -/
def asksAfter (o : Options) (record : Record) : List Event :=
  if o.Describes record.source then (descriptionName? record).toList.map .name else []

theorem lookup_of_nonempty (h : o.methods ≠ []) : lookup i o = do
    let (record, answer) ← findFirst i o o.methods
    let description ←
      if o.describe && record.source == .dns then findDescription record
      else pure record.description
    return { record with description, raw := if o.keepRaw then some answer else none } := by
  rw [lookup, List.isEmpty_eq_false_iff.2 h]
  rfl

theorem lookup_of_error {e : LookupError} (h : o.methods ≠ [])
    (hfirst : findFirst i o o.methods σ = (.error e, τ)) : lookup i o σ = (.error e, τ) := by
  rw [lookup_of_nonempty h, Exchange.bind_of_error hfirst]

theorem lookup_of_ok (h : o.methods ≠ [])
    (hfirst : findFirst i o o.methods σ = (.ok (record, answer), τ)) :
    lookup i o σ =
      (.ok (finished o τ record answer), { τ with events := τ.events ++ asksAfter o record }) := by
  rw [lookup_of_nonempty h, Exchange.bind_of_ok hfirst, finished, asksAfter]
  have hdescribes : (o.describe && record.source == .dns) = true ↔ o.Describes record.source := by
    rw [Bool.and_eq_true, beq_iff_eq, Options.Describes]
  show (if (o.describe && record.source == .dns) = true then _ else _ : Exchange Record) τ = _
  by_cases hasked : o.Describes record.source
  · rw [if_pos (hdescribes.2 hasked), if_pos hasked, if_pos hasked,
      Exchange.bind_of_ok (findDescription_apply record τ)]
    rfl
  · rw [if_neg (hdescribes.not.2 hasked), if_neg hasked, if_neg hasked, List.append_nil]
    rfl

theorem Trial.asks_of_mem {e : Event} (he : e ∈ t.events i o) : t.method.Asks i e :=
  (notes_findBy t.method).allowed_of_mem he

/-- The methods of a lookup are tried in their order, and only the ones up to the first that decides
are asked. If it finds a record, that is the record of the lookup, and one more name may be asked for
its description; if it fails, the lookup fails likewise. If no method decides, the lookup fails. -/
theorem lookup_falls_back {i : Inquiry} {o : Options} (σ : Services) (h : o.methods ≠ []) :
    let all := trials i o o.methods σ
    let asked := all.take (all.findIdx (Trial.isDecisive i o) + 1)
    let events := asked.flatMap (Trial.events i o)
    let exhausted : LookupError := .asnMethodsExhausted
    all.map Trial.method = o.methods ∧
    (∀ t ∈ asked, ∀ e ∈ t.events i o, t.method.Asks i e) ∧
    ((∀ t ∈ all, t.isDecisive i o = false) →
      (lookup i o σ).1 = .error exhausted ∧ exhausted.kind = .asnRegistry ∧
      exhausted.message = "ASN lookup failed with no more methods to try." ∧
      (lookup i o).noted σ = events) ∧
    ∀ t, all.find? (Trial.isDecisive i o) = some t →
      (∀ e, t.result i o = .error e →
        (lookup i o σ).1 = .error e ∧ (lookup i o).noted σ = events) ∧
      ∀ record answer, t.result i o = .ok (record, answer) →
        Finds i o t.services record answer t.method ∧ record.source = t.method ∧
        ∃ description,
          (lookup i o σ).1 = .ok { record with
            description, raw := if o.keepRaw then some answer else none } ∧
          (o.Describes t.method →
            description = (descriptionName? record).bind (description? (t.left i o)) ∧
            (lookup i o).noted σ = events ++ (descriptionName? record).toList.map .name) ∧
          (¬o.Describes t.method →
            description = record.description ∧ (lookup i o).noted σ = events) := by
  intro all asked events exhausted
  have hevents : (findFirst i o o.methods σ).2.events = σ.events ++ events :=
    events_findFirst o.methods σ
  refine ⟨map_method_trials o.methods σ, fun t _ e he => Trial.asks_of_mem he, ?_, ?_⟩
  · intro hnone
    have hfirst : findFirst i o o.methods σ =
        (.error exhausted, (findFirst i o o.methods σ).2) :=
      Prod.ext (findFirst_of_none_decisive hnone) rfl
    have hlookup := lookup_of_error h hfirst
    refine ⟨by rw [hlookup], rfl, rfl, ?_⟩
    apply Exchange.noted_of_append
    rw [hlookup, hevents]
  · intro t ht
    have hfirst : findFirst i o o.methods σ = (t.result i o, t.left i o) := findFirst_of_find? ht
    rw [hfirst] at hevents
    constructor
    · intro e he
      rw [he] at hfirst
      have hlookup := lookup_of_error h hfirst
      refine ⟨by rw [hlookup], ?_⟩
      apply Exchange.noted_of_append
      rw [hlookup, hevents]
    · intro record answer hfound
      rw [hfound] at hfirst
      have hlookup := lookup_of_ok h hfirst
      have hfinds : Finds i o t.services record answer t.method := finds_of_findBy hfound
      have hnoted : (lookup i o).noted σ = events ++ asksAfter o record := by
        apply Exchange.noted_of_append
        rw [hlookup]
        show (t.left i o).events ++ asksAfter o record = _
        rw [hevents, List.append_assoc]
      refine ⟨hfinds, hfinds.source_eq, (finished o (t.left i o) record answer).description,
        by rw [hlookup]; rfl, ?_, ?_⟩
      · intro hasked
        rw [← hfinds.source_eq] at hasked
        rw [hnoted, asksAfter, finished]
        exact ⟨if_pos hasked, congrArg _ (if_pos hasked)⟩
      · intro hasked
        rw [← hfinds.source_eq] at hasked
        rw [hnoted, asksAfter, finished]
        refine ⟨if_neg hasked, ?_⟩
        rw [if_neg hasked, List.append_nil]

/-- Texts about the address 8.8.8.8 and about the number that announces it. -/
def announced : Services where
  texts := [
    ("8.8.8.8.origin.asn.cymru.com", .ok ["15169 | 8.8.8.0/24 | US | arin | 1992-12-01"]),
    ("AS15169.asn.cymru.com", .ok ["15169 | US | arin | 2000-03-30 | GOOGLE, US"])]

theorem lookup_falls_back_announced :
    let i : Inquiry := ⟨⟨⟨.v4, 134744072, by decide⟩, by decide⟩, {}⟩
    let o : Options := { methods := [.whois, .dns, .http], retryCount := 1 }
    (lookup i o announced).1 = .ok {
      registry := .arin
      asn := some "15169"
      cidr := some "8.8.8.0/24"
      countryCode := some "US"
      date := some "1992-12-01"
      description := some "GOOGLE, US" } ∧
    (lookup i o).noted announced = [
      .whois "whois.cymru.com" 43 " -r -a -c -p -f 8.8.8.8\r\n",
      .name "8.8.8.8.origin.asn.cymru.com",
      .name "AS15169.asn.cymru.com"] := by
  intro i o
  let first : Trial := ⟨.whois, announced⟩
  let second : Trial := ⟨.dns, first.left i o⟩
  have hfirst : first.isDecisive i o = false := by decide +kernel
  have hsecond : second.isDecisive i o = true := by decide +kernel
  have hfind : (trials i o o.methods announced).find? (Trial.isDecisive i o) = some second := by
    show (first :: second :: _).find? (Trial.isDecisive i o) = some second
    rw [List.find?_cons_of_neg (by rw [hfirst]; decide), List.find?_cons_of_pos hsecond]
  have hresult : second.result i o = .ok ({
      registry := .arin
      asn := some "15169"
      cidr := some "8.8.8.0/24"
      countryCode := some "US"
      date := some "1992-12-01" }, "15169 | 8.8.8.0/24 | US | arin | 1992-12-01") := by
    decide +kernel
  obtain ⟨-, -, -, hdecisive⟩ := lookup_falls_back (i := i) (o := o) announced (by decide)
  obtain ⟨-, -, description, hlookup, hdescribed, -⟩ := (hdecisive second hfind).2 _ _ hresult
  obtain ⟨hdescription, hnoted⟩ := hdescribed ⟨rfl, rfl⟩
  constructor
  · rw [hlookup, hdescription]
    decide +kernel
  · rw [hnoted]
    decide +kernel

end IpRegistry.Asn
