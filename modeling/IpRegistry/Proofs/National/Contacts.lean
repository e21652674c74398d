import IpRegistry.National.Lookup
import IpRegistry.Proofs.Exchange.Steady
import IpRegistry.Proofs.Field
import IpRegistry.Proofs.Networks
import IpRegistry.Proofs.Web.Retries
import Mathlib

namespace IpRegistry

namespace Web

variable {σ τ : Services} {request : Request} {patience : Patience} {text : String}

/-- Where web servers have standing answers only, a text comes with the first reply or not at all. -/
theorem fetchText_of_fetched (hσ : σ.web.queued = [])
    (h : (fetchText request patience σ).1 = .ok text) (hτ : τ.web = σ.web) :
    fetchText request patience τ = (.ok text, τ.note (.web request)) := by
  obtain ⟨n, hn⟩ : ∃ n, max patience.retryCount 1 = n + 1 :=
    ⟨max patience.retryCount 1 - 1, by omega⟩
  have hmeanings : meanings request acceptText σ (n + 1) = List.replicate (n + 1)
      (meaning request.url acceptText
        ((σ.web.standing.lookup request.url).getD (some Exchange.notFound))) := by
    rw [meanings, outcomes, Script.upcoming_of_queued_eq_nil hσ, List.map_replicate,
      List.map_replicate]
  have htake : τ.web.take request.url = (σ.web.standing.lookup request.url, σ.web) := by
    rw [hτ, Script.take_of_queued_eq_nil hσ]
  have hasked : asked request τ = τ.note (.web request) := by
    rw [asked, htake, ← hτ]
    rfl
  rw [fetchText, fetch, hn, attempt_eq, hmeanings] at h
  rw [fetchText, fetch, hn, attempt_succ, htake, hasked]
  dsimp only at h ⊢
  generalize meaning request.url acceptText _ = m at h ⊢
  have hfails (hend : m.isEnd = false) :
      verdict request.url none (List.replicate (n + 1) m) ≠ .ok text := by
    rw [verdict_of_forall fun other hother => by rwa [List.eq_of_mem_replicate hother]]
    split <;>
      · intro heq
        cases heq
  cases m with
  | settled result =>
      rw [List.replicate_succ, verdict_of_settled] at h
      rw [h]
  | limited => exact absurd h (hfails rfl)
  | failed other => exact absurd h (hfails rfl)

end Web

namespace National

variable {i : Inquiry} {registry : NationalRegistry} {n : Nat} {σ τ τ' : Services} {key page : String}
  {events : List Event} {met : List String} {known : KnownContacts}

/-- The page of a contact, if it is found: JPNIC gives a page about it, for KRNIC the key is the
page. -/
def contactPage? (i : Inquiry) (registry : NationalRegistry) (retryCount : Nat) (σ : Services)
    (key : String) : Option String :=
  (askContactPage i registry retryCount key σ).1.toOption

/-- The contact of a key, if its page is found and can be read. -/
def contact? (i : Inquiry) (registry : NationalRegistry) (retryCount : Nat) (σ : Services)
    (key : String) : Option Contact :=
  (contactPage? i registry retryCount σ key).bind (Contact.ofPage? registry)

/-- What is asked for to find the contact of a key. -/
def contactRequests (registry : NationalRegistry) (key : String) : List Event :=
  match registry with
  | .jpnic => [.web (pageRequest .jpnic key none)]
  | .krnic => []

theorem flatMap_contactRequests (registry : NationalRegistry) (keys : List String) :
    keys.flatMap (contactRequests registry) =
      match registry with
      | .jpnic => keys.map fun key => .web (pageRequest .jpnic key none)
      | .krnic => [] := by
  cases registry with
  | jpnic => exact List.map_eq_flatMap.symm
  | krnic => exact List.flatMap_eq_nil_iff.2 fun _ _ => rfl

theorem ofPage?_eq_none_iff :
    Contact.ofPage? registry page = none ↔
      (contactTable registry).LeavesCalendar (page.toList ++ ['\n']) {} none := by
  rw [Contact.ofPage?, Option.map_eq_none_iff, Field.Table.extract?_eq_none_iff]

theorem askContactPage_spec (hσ : σ.web.queued = [])
    (hpage : contactPage? i registry n σ key = some page) (hτ : τ.web = σ.web) :
    ∃ τ', askContactPage i registry n key τ = (.ok page, τ') ∧ τ'.web = σ.web ∧
      τ'.events = τ.events ++ contactRequests registry key := by
  cases registry with
  | krnic =>
      obtain rfl : key = page := Option.some.inj hpage
      exact ⟨τ, rfl, hτ, (List.append_nil _).symm⟩
  | jpnic =>
      have hfetched : (Web.fetchText (pageRequest .jpnic key none) (i.patience n) σ).1 =
          .ok page := by
        cases hresult : (Web.fetchText (pageRequest .jpnic key none) (i.patience n) σ).1 with
        | error e =>
            rw [contactPage?, askContactPage, hresult] at hpage
            cases hpage
        | ok text =>
            rw [contactPage?, askContactPage, hresult] at hpage
            rw [Option.some.inj hpage]
      exact ⟨_, Web.fetchText_of_fetched hσ hfetched hτ, hτ, rfl⟩

theorem askContact_spec (hσ : σ.web.queued = [])
    (hpage : (contactPage? i registry n σ key).isSome = true) (hτ : τ.web = σ.web) :
    ∃ τ', (askContact i registry n key).run τ = (.ok (contact? i registry n σ key), τ') ∧
      τ'.web = σ.web ∧ τ'.events = τ.events ++ contactRequests registry key := by
  obtain ⟨page, hpage⟩ := Option.isSome_iff_exists.1 hpage
  obtain ⟨τ', hask, hweb, hevents⟩ := askContactPage_spec hσ hpage hτ
  refine ⟨τ', ?_, hweb, hevents⟩
  rw [askContact, Exchange.run_bind_of_some (Exchange.run_liftM_of_ok hask), Exchange.run_getM,
    contact?, hpage, Option.bind_some]

/-- The contacts of the keys that have been met are known, each of them has been asked for once since
some events, and web servers have the answers that they had at first. -/
structure Resolved (i : Inquiry) (registry : NationalRegistry) (retryCount : Nat) (σ : Services)
    (events : List Event) (met : List String) (known : KnownContacts) (τ : Services) : Prop where
  web : τ.web = σ.web
  events_eq : τ.events = events ++ met.flatMap (contactRequests registry)
  known : ∀ key, known.lookup key =
    if key ∈ met then contact? i registry retryCount σ key else none

/-- The contacts of all the keys are found and can be read. -/
def AllRead (i : Inquiry) (registry : NationalRegistry) (retryCount : Nat) (σ : Services)
    (keys : List String) : Prop :=
  ∀ key ∈ keys, (contact? i registry retryCount σ key).isSome = true

/-- The search takes some keys one after the other and asks for the contacts of those that have not
been met. It has a result if all these contacts can be read, and breaks off at the page of the first
one that cannot. -/
structure Finds {α : Type} (i : Inquiry) (registry : NationalRegistry) (retryCount : Nat)
    (σ : Services) (events : List Event) (keys : List String) (x : ContactSearch α)
    (result : α → Prop) : Prop where
  finishes : ∀ met known τ, Resolved i registry retryCount σ events met known τ →
    AllRead i registry retryCount σ keys →
    ∃ a known' τ', (x.run known).run τ = (.ok (some (a, known')), τ') ∧ result a ∧
      Resolved i registry retryCount σ events (keys.foldl Field.adjoin met) known' τ'
  breaks : ∀ met known τ, Resolved i registry retryCount σ events met known τ →
    ∀ front key back, keys = front ++ key :: back → AllRead i registry retryCount σ front →
    (contactPage? i registry retryCount σ key).isSome = true →
    contact? i registry retryCount σ key = none →
    ∃ τ', (x.run known).run τ = (.ok none, τ') ∧
      τ'.events = events ++
        (front.foldl Field.adjoin met ++ [key]).flatMap (contactRequests registry)

namespace Finds

variable {α β : Type} {keys more : List String} {x : ContactSearch α} {f : α → ContactSearch β}
  {result : α → Prop} {outcome : β → Prop}

theorem pure (a : α) : Finds i registry n σ events [] (pure a : ContactSearch α) (· = a) where
  finishes _ known τ h _ := ⟨a, known, τ, rfl, rfl, h⟩
  breaks _ _ _ _ _ _ _ hkeys := absurd hkeys (by simp)

theorem bind (hx : Finds i registry n σ events keys x result)
    (hf : ∀ a, AllRead i registry n σ keys → result a →
      Finds i registry n σ events more (f a) outcome) :
    Finds i registry n σ events (keys ++ more) (x >>= f) outcome where
  finishes met known τ h hread := by
    obtain ⟨hkeys, hmore⟩ := List.forall_mem_append.1 hread
    obtain ⟨a, known₁, τ₁, hrun, ha, h₁⟩ := hx.finishes met known τ h hkeys
    obtain ⟨b, known₂, τ₂, hrun', hb, h₂⟩ := (hf a hkeys ha).finishes _ known₁ τ₁ h₁ hmore
    refine ⟨b, known₂, τ₂, ?_, hb, ?_⟩
    · rw [StateT.run_bind, Exchange.run_bind_of_some hrun, hrun']
    · rwa [List.foldl_append]
  breaks met known τ h front key back hkeys hfront hpage hkey := by
    have hlater : ∀ front', front = keys ++ front' → more = front' ++ key :: back →
        ∃ τ', ((x >>= f).run known).run τ = (.ok none, τ') ∧ τ'.events = events ++
          (front.foldl Field.adjoin met ++ [key]).flatMap (contactRequests registry) := by
      rintro front' rfl hmore
      obtain ⟨hkeys, hfront⟩ := List.forall_mem_append.1 hfront
      obtain ⟨a, known₁, τ₁, hrun, ha, h₁⟩ := hx.finishes met known τ h hkeys
      obtain ⟨τ₂, hrun', hevents⟩ :=
        (hf a hkeys ha).breaks _ known₁ τ₁ h₁ front' key back hmore hfront hpage hkey
      refine ⟨τ₂, ?_, ?_⟩
      · rw [StateT.run_bind, Exchange.run_bind_of_some hrun, hrun']
      · rwa [List.foldl_append]
    obtain ⟨front', hfirst, hmore⟩ | ⟨back', hfirst, hback⟩ := List.append_eq_append_iff.1 hkeys
    · exact hlater front' hfirst hmore
    · cases back' with
      | nil =>
          rw [List.append_nil] at hfirst
          exact hlater [] (by rw [hfirst, List.append_nil]) hback.symm
      | cons k back' =>
          obtain ⟨rfl, -⟩ := List.cons.inj hback
          obtain ⟨τ₁, hrun, hevents⟩ :=
            hx.breaks met known τ h front key back' hfirst hfront hpage hkey
          refine ⟨τ₁, ?_, hevents⟩
          rw [StateT.run_bind, Exchange.run_bind_of_none hrun]

theorem mono {outcome : α → Prop} (hx : Finds i registry n σ events keys x result)
    (himp : ∀ a, AllRead i registry n σ keys → result a → outcome a) :
    Finds i registry n σ events keys x outcome where
  finishes met known τ h hread := by
    obtain ⟨a, known', τ', hrun, ha, h'⟩ := hx.finishes met known τ h hread
    exact ⟨a, known', τ', hrun, himp a hread ha, h'⟩
  breaks := hx.breaks

end Finds

theorem run_get_bind {α : Type} (f : KnownContacts → ContactSearch α) (known : KnownContacts)
    (τ : Services) : ((get >>= f).run known).run τ = ((f known).run known).run τ :=
  rfl

theorem findContact_of_known {c : Contact} (h : known.lookup key = some c) :
    ((findContact i registry n key).run known).run τ = (.ok (some (c, known)), τ) := by
  rw [findContact, run_get_bind, h]
  rfl

theorem findContact_of_unknown {c : Option Contact} (h : known.lookup key = none)
    (hask : (askContact i registry n key).run τ = (.ok c, τ')) :
    ((findContact i registry n key).run known).run τ =
      (.ok (c.map fun c => (c, known.insert key c)), τ') := by
  rw [findContact, run_get_bind, h]
  cases c with
  | none => exact Exchange.run_bind_of_none (Exchange.run_bind_of_none hask)
  | some c =>
      have hlift : ((liftM (askContact i registry n key) : ContactSearch Contact).run known).run τ =
          (.ok (some (c, known)), τ') := Exchange.run_bind_of_some hask
      exact Exchange.run_bind_of_some hlift

theorem findContact_spec (hσ : σ.web.queued = []) (key : String) :
    Finds i registry n σ events [key] (findContact i registry n key)
      (contact? i registry n σ key = some ·) where
  finishes met known τ h hread := by
    obtain ⟨c, hc⟩ := Option.isSome_iff_exists.1 (hread key List.mem_cons_self)
    have hpage : (contactPage? i registry n σ key).isSome = true := by
      obtain ⟨page, hpage, -⟩ := Option.bind_eq_some_iff.1 hc
      exact Option.isSome_of_eq_some hpage
    have hlookup := h.known key
    rw [List.foldl_cons, List.foldl_nil]
    by_cases hmem : key ∈ met
    · rw [if_pos hmem, hc] at hlookup
      refine ⟨c, known, τ, findContact_of_known hlookup, hc, ?_⟩
      rwa [Field.adjoin, if_pos (List.contains_iff_mem.2 hmem)]
    · rw [if_neg hmem] at hlookup
      obtain ⟨τ', hask, hweb, hevents⟩ := askContact_spec hσ hpage h.web
      rw [hc] at hask
      refine ⟨c, known.insert key c, τ', ?_, hc, ?_⟩
      · rw [findContact_of_unknown hlookup hask, Option.map_some]
      · rw [Field.adjoin, if_neg (List.contains_iff_mem.not.2 hmem)]
        refine ⟨hweb, ?_, ?_⟩
        · rw [hevents, h.events_eq, List.append_assoc, List.flatMap_append, List.flatMap_singleton]
        · intro k
          rw [Keyed.lookup_insert, h.known k]
          by_cases hk : k = key
          · rw [if_pos hk, if_pos (by rw [hk]; simp), hk, hc]
          · simp [hk]
  breaks met known τ h front key' back hkeys hfront hpage hkey := by
    obtain ⟨rfl, rfl⟩ : front = [] ∧ key' = key := by
      cases front with
      | nil => exact ⟨rfl, (List.cons.inj hkeys).1.symm⟩
      | cons k front => simp at hkeys
    have hlookup : known.lookup key' = none := by rw [h.known key', hkey, ite_self]
    obtain ⟨τ', hask, -, hevents⟩ := askContact_spec hσ hpage h.web
    rw [hkey] at hask
    refine ⟨τ', ?_, ?_⟩
    · rw [findContact_of_unknown hlookup hask, Option.map_none]
    · rw [hevents, h.events_eq, List.append_assoc, List.foldl_nil, List.flatMap_append,
        List.flatMap_singleton]

theorem lastContact_spec (hσ : σ.web.queued = []) (keys : List String) (last : Option Contact) :
    Finds i registry n σ events keys (lastContact i registry n keys last)
      (· = (keys.getLast?.bind (contact? i registry n σ)).or last) := by
  induction keys generalizing last with
  | nil => exact .pure last
  | cons key keys ih =>
      refine Finds.bind (findContact_spec hσ key) fun c _ hc => (ih (some c)).mono ?_
      rintro _ hread rfl
      rw [List.getLast?_cons]
      cases hlast : keys.getLast? with
      | none => simp [hc]
      | some k =>
          obtain ⟨c', hc'⟩ := Option.isSome_iff_exists.1 (hread k (List.mem_of_getLast? hlast))
          simp [hc']

/-- The keys of the contacts that an entry names. -/
def Entry.keys (e : Entry) : List String :=
  e.adminKeys ++ e.techKeys

/-- The allocation of an entry, with the contact of the last key of each role. -/
def Entry.resolved (contact? : String → Option Contact) (e : Entry) : Allocation :=
  { e.allocation with
    contacts :=
      { admin := e.adminKeys.getLast?.bind contact?
        tech := e.techKeys.getLast?.bind contact? } }

theorem resolve_spec (hσ : σ.web.queued = []) (entries : List Entry) :
    Finds i registry n σ events (entries.flatMap Entry.keys) (resolve i registry n entries)
      (· = entries.map (Entry.resolved (contact? i registry n σ))) := by
  induction entries with
  | nil => exact .pure []
  | cons e entries ih =>
      rw [List.flatMap_cons, Entry.keys, List.append_assoc]
      refine (lastContact_spec hσ e.adminKeys none).bind fun admin _ hadmin =>
        (lastContact_spec hσ e.techKeys none).bind fun tech _ htech => ?_
      rw [← List.append_nil (entries.flatMap Entry.keys)]
      refine ih.bind fun allocations _ hrest => (Finds.pure _).mono ?_
      rintro _ - rfl
      rw [Option.or_none] at hadmin htech
      rw [hrest, hadmin, htech]
      rfl

/-- The request for the page about an address. -/
def addressRequest (i : Inquiry) (registry : NationalRegistry) : Web.Request :=
  pageRequest registry i.address ((formField? registry).map fun field => [(field, i.address)])

theorem findPage_spec {o : Options} (hσ : σ.web.queued = [])
    (h : (findPage i registry o σ).1 = .ok page) :
    ∃ τ, findPage i registry o σ = (.ok page, τ) ∧ τ.web = σ.web ∧
      τ.events = σ.events ++
        if o.response.isSome then [] else [.web (addressRequest i registry)] := by
  rw [findPage] at h ⊢
  cases hresponse : o.response with
  | some response =>
      rw [hresponse] at h
      exact ⟨σ, Prod.ext h rfl, rfl, (List.append_nil _).symm⟩
  | none =>
      rw [hresponse] at h
      cases hoffline : o.offline with
      | true =>
          rw [hoffline] at h
          cases h
      | false =>
          rw [hoffline] at h
          exact ⟨_, Web.fetchText_of_fetched hσ h rfl, rfl, rfl⟩

section

variable {o : Options}

/-- What a lookup that has its page goes on with. -/
theorem run_lookup (hpage : findPage i registry o σ = (.ok page, τ)) :
    (lookup i registry o).run σ = ((entries? registry page o.wanted).getM >>= fun found =>
      (if o.offline then pure (found.map Entry.allocation)
        else (resolve i registry o.retryCount found).run' []) >>= fun allocations =>
      (pure {
        query := i.address
        allocations
        raw := if o.keepRaw then some page else none } : OptionT Exchange Result)).run τ := by
  rw [lookup, Exchange.run_bind_of_some (Exchange.run_liftM_of_ok hpage)]
  cases o.offline <;> rfl

theorem run_lookup_of_none (hpage : findPage i registry o σ = (.ok page, τ))
    (hentries : entries? registry page o.wanted = none) :
    (lookup i registry o).run σ = (.ok none, τ) := by
  rw [run_lookup hpage, hentries]
  rfl

theorem run_lookup_of_resolve {found : List Entry} {allocations : Option (List Allocation)}
    (hpage : findPage i registry o σ = (.ok page, τ))
    (hentries : entries? registry page o.wanted = some found) (hoffline : o.offline = false)
    (hresolve : ((resolve i registry o.retryCount found).run' []).run τ = (.ok allocations, τ')) :
    (lookup i registry o).run σ = (.ok (allocations.map fun allocations =>
      { query := i.address
        allocations
        raw := if o.keepRaw then some page else none }), τ') := by
  rw [run_lookup hpage, hentries, hoffline, Exchange.run_bind_of_some (Exchange.run_getM _ τ)]
  cases allocations with
  | none => exact Exchange.run_bind_of_none hresolve
  | some allocations => exact Exchange.run_bind_of_some hresolve

theorem run_lookup_of_no_page (hoffline : o.offline = true) (h : o.response = none) :
    (lookup i registry o).run σ = (.error .responseRequired, σ) := by
  have hfind : findPage i registry o σ = (.error .responseRequired, σ) := by
    rw [findPage, h, hoffline]
    rfl
  exact Exchange.run_bind_of_error (Exchange.run_liftM_of_error hfind)

theorem run_lookup_of_given (hoffline : o.offline = true) (h : o.response = some page) :
    (lookup i registry o).run σ = (.ok ((allocations? registry page o.wanted).map
      fun allocations =>
        { query := i.address
          allocations
          raw := if o.keepRaw then some page else none }), σ) := by
  have hfind : findPage i registry o σ = (.ok page, σ) := by
    rw [findPage, h]
    rfl
  rw [run_lookup hfind, hoffline, allocations?]
  cases entries? registry page o.wanted <;> rfl

end

/-- A wanted date of a section of the page leads out of the calendar. -/
def PageLeavesCalendar (registry : NationalRegistry) (page : String)
    (wanted : Option (List String)) : Prop :=
  let cs := page.toList ++ ['\n']
  let sections := (headers registry cs).map Whois.Header.span
  ∃ index < sections.length,
    (table registry).LeavesCalendar cs (Field.sectionBounds sections index) wanted

theorem entries?_eq_none_iff {wanted : Option (List String)} :
    entries? registry page wanted = none ↔ PageLeavesCalendar registry page wanted := by
  rw [entries?, mapM_eq_none_iff]
  constructor
  · rintro ⟨read, hread, rfl⟩
    obtain ⟨index, hindex, hnone⟩ := List.mem_mapIdx.1 hread
    refine ⟨index, (List.length_map Whois.Header.span).symm ▸ hindex, ?_⟩
    rwa [← Field.Table.extract?_eq_none_iff, ← Option.map_eq_none_iff]
  · rintro ⟨index, hindex, hleaves⟩
    rw [List.length_map] at hindex
    refine ⟨none, List.mem_mapIdx.2 ⟨index, hindex, ?_⟩, rfl⟩
    rw [Option.map_eq_none_iff, Field.Table.extract?_eq_none_iff]
    exact hleaves

theorem contacts_of_mem_entries {wanted : Option (List String)} {found : List Entry} {e : Entry}
    (h : entries? registry page wanted = some found) (he : e ∈ found) :
    e.allocation.contacts = {} := by
  obtain ⟨read, hread, heq⟩ := exists_of_mapM h he
  obtain ⟨index, hindex, rfl⟩ := List.mem_mapIdx.1 hread
  obtain ⟨fields, -, rfl⟩ := Option.map_eq_some_iff.1 heq
  rfl

theorem eraseContacts_resolved (contact? : String → Option Contact) {wanted : Option (List String)}
    {found : List Entry} (h : entries? registry page wanted = some found) :
    some ((found.map (Entry.resolved contact?)).map fun a => { a with contacts := {} }) =
      allocations? registry page wanted := by
  rw [allocations?, h, Option.map_some, List.map_map]
  refine congrArg some (List.map_congr_left fun e he => ?_)
  have hcontacts := contacts_of_mem_entries h he
  show { e.allocation with contacts := {} } = e.allocation
  rw [← hcontacts]

/-- Only the dates of JPNIC are shifted. -/
theorem eq_jpnic_of_leavesCalendar {t : Field.Table} {cs : List Char} {b : Field.Bounds}
    {wanted : Option (List String)} (ht : t = table registry ∨ t = contactTable registry)
    (h : t.LeavesCalendar cs b wanted) : registry = .jpnic := by
  cases registry with
  | jpnic => rfl
  | krnic =>
      refine absurd h (Field.Table.not_leavesCalendar_of_unshifted fun policy hpolicy => ?_)
      obtain rfl | rfl := ht <;> exact Option.some.inj hpolicy ▸ rfl

/-- Where servers have standing answers only, and the page and all contacts are found, a lookup gives
the allocations that the page describes, with the contact of the last key of each role. The page
about a contact is asked for once, in the order in which its key comes first in the entries, the
administrative role before the technical one. But a page of JPNIC with a date that leads out of the
calendar cannot be read: the lookup breaks off at the first such page, that of the address or that of
a contact. Offline nothing is asked for, and there are no contacts. -/
theorem lookup_resolves (i : Inquiry) (registry : NationalRegistry) (o : Options) :
    (o.offline = false → ∀ σ page, σ.web.queued = [] → (findPage i registry o σ).1 = .ok page →
      let asked : List Event :=
        if o.response.isSome then [] else [.web (addressRequest i registry)]
      let requests (keys : List String) : List Event :=
        match registry with
        | .jpnic => keys.map fun key => .web (pageRequest .jpnic key none)
        | .krnic => []
      let page? := contactPage? i registry o.retryCount σ
      let contact? (key : String) := (page? key).bind (Contact.ofPage? registry)
      (entries? registry page o.wanted = none →
        ((lookup i registry o).run σ).1 = .ok none ∧ (lookup i registry o).run.noted σ = asked) ∧
      ∀ found, entries? registry page o.wanted = some found →
        let keys := found.flatMap fun e => e.adminKeys ++ e.techKeys
        ((∀ key ∈ keys, (contact? key).isSome = true) →
          ∃ result, ((lookup i registry o).run σ).1 = .ok (some result) ∧
            result.query = i.address ∧ result.raw = (if o.keepRaw then some page else none) ∧
            some (result.allocations.map fun a => { a with contacts := {} }) =
              allocations? registry page o.wanted ∧
            result.allocations.map Allocation.contacts = found.map (fun e =>
              { admin := e.adminKeys.getLast?.bind contact?
                tech := e.techKeys.getLast?.bind contact? }) ∧
            (lookup i registry o).run.noted σ = asked ++ requests (Field.distinct keys)) ∧
        ∀ front key back, keys = front ++ key :: back →
          (∀ key ∈ front, (contact? key).isSome = true) → (page? key).isSome = true →
          contact? key = none →
          ((lookup i registry o).run σ).1 = .ok none ∧
            (lookup i registry o).run.noted σ = asked ++ requests (Field.distinct front ++ [key])) ∧
    (∀ page wanted, entries? registry page wanted = none ↔
      registry = .jpnic ∧ PageLeavesCalendar registry page wanted) ∧
    (∀ page, Contact.ofPage? registry page = none ↔
      registry = .jpnic ∧
        (contactTable registry).LeavesCalendar (page.toList ++ ['\n']) {} none) ∧
    (o.offline = true → ∀ σ,
      ((lookup i registry o).run σ).2 = σ ∧
      (o.response = none → ((lookup i registry o).run σ).1 = .error .responseRequired) ∧
      ∀ page, o.response = some page →
        ((lookup i registry o).run σ).1 = .ok ((allocations? registry page o.wanted).map
          fun allocations =>
            { query := i.address
              allocations
              raw := if o.keepRaw then some page else none }) ∧
        ∀ allocations ∈ allocations? registry page o.wanted,
          ∀ a ∈ allocations, a.contacts = {}) := by
  refine ⟨?_, fun page wanted => ?_, fun page => ?_, ?_⟩
  · intro hoffline σ page hσ hpage asked requests page? contact?
    obtain ⟨τ, hfind, hweb, hevents⟩ := findPage_spec hσ hpage
    have hrequests (keys : List String) :
        keys.flatMap (contactRequests registry) = requests keys := flatMap_contactRequests ..
    constructor
    · intro hnone
      have hrun := run_lookup_of_none hfind hnone
      exact ⟨congrArg Prod.fst hrun, Exchange.noted_of_append (by rw [hrun, hevents])⟩
    · intro found hfound keys
      have hstart : Resolved i registry o.retryCount σ τ.events [] [] τ :=
        ⟨hweb, (List.append_nil _).symm, fun key => by rw [if_neg List.not_mem_nil]; rfl⟩
      have hresolve : Finds i registry o.retryCount σ τ.events (found.flatMap Entry.keys)
          (resolve i registry o.retryCount found) (· = found.map (Entry.resolved contact?)) :=
        resolve_spec hσ found
      refine ⟨fun hread => ?_, fun front key back hkeys hfront hkeyPage hkey => ?_⟩
      · obtain ⟨allocations, known, τ', hresolved, rfl, hend⟩ :=
          hresolve.finishes [] [] τ hstart hread
        have hdone : ((resolve i registry o.retryCount found).run' []).run τ =
            (.ok (some (found.map (Entry.resolved contact?))), τ') :=
          Exchange.run_bind_of_some hresolved
        have hrun := run_lookup_of_resolve hfind hfound hoffline hdone
        refine ⟨_, congrArg Prod.fst hrun, rfl, rfl, eraseContacts_resolved _ hfound, ?_, ?_⟩
        · rw [List.map_map]
          rfl
        · apply Exchange.noted_of_append
          rw [hrun, hend.events_eq, hevents, List.append_assoc, hrequests]
          rfl
      · obtain ⟨τ', hbroken, hbreak⟩ :=
          hresolve.breaks [] [] τ hstart front key back hkeys hfront hkeyPage hkey
        have hrun := run_lookup_of_resolve hfind hfound hoffline
          (Exchange.run_bind_of_none hbroken : ((resolve i registry o.retryCount found).run' []).run τ =
            (.ok none, τ'))
        refine ⟨congrArg Prod.fst hrun, Exchange.noted_of_append ?_⟩
        rw [hrun, hbreak, hevents, List.append_assoc, hrequests]
        rfl
  · rw [entries?_eq_none_iff, iff_and_self]
    rintro ⟨index, -, hleaves⟩
    exact eq_jpnic_of_leavesCalendar (.inl rfl) hleaves
  · rw [ofPage?_eq_none_iff, iff_and_self]
    exact eq_jpnic_of_leavesCalendar (.inr rfl)
  · intro hoffline σ
    cases hresponse : o.response with
    | none =>
        rw [run_lookup_of_no_page hoffline hresponse]
        exact ⟨rfl, fun _ => rfl, nofun⟩
    | some page =>
        rw [run_lookup_of_given hoffline hresponse]
        refine ⟨rfl, nofun, ?_⟩
        intro given hgiven
        obtain rfl := Option.some.inj hgiven
        refine ⟨rfl, fun allocations hallocations a ha => ?_⟩
        obtain ⟨found, hfound, rfl⟩ := Option.map_eq_some_iff.1 hallocations
        obtain ⟨e, he, rfl⟩ := List.mem_map.1 ha
        exact contacts_of_mem_entries hfound he

/-- A page about one block, whose contacts have the same key. -/
def sharedPage : String :=
  "[Network Number] <A>1.0.0.0/8</A>\n[Administrative Contact] <A>X</A>\n[Technical Contact] <A>X</A>\n"

theorem keys_sharedPage :
    (entries? .jpnic sharedPage (some ["contact_admin", "contact_tech"])).map (fun found =>
      found.map fun e => (e.adminKeys, e.techKeys)) = some [(["X"], ["X"])] := by
  decide_cbv

/-- Two roles with one key, whose contact is asked for once. -/
theorem lookup_resolves_shared :
    let i : Inquiry := ⟨⟨⟨.v4, 134744072, by decide⟩, by decide⟩, {}⟩
    let o : Options :=
      { response := some sharedPage, wanted := some ["contact_admin", "contact_tech"] }
    let σ : Services :=
      { web := { standing := [(url .jpnic "X", some ⟨200, Text.bytesOf "[Title] Chair\n"⟩)] } }
    let chair : Contact := { title := some "Chair" }
    ∃ result, ((lookup i .jpnic o).run σ).1 = .ok (some result) ∧
      result.allocations.map Allocation.contacts = [⟨some chair, some chair⟩] ∧
      (lookup i .jpnic o).run.noted σ = [.web (pageRequest .jpnic "X" none)] := by
  intro i o σ chair
  obtain ⟨found, hfound, hkeys⟩ := Option.map_eq_some_iff.1 keys_sharedPage
  obtain ⟨e, rfl, hroles⟩ := List.map_eq_singleton_iff.1 hkeys
  obtain ⟨hadmin, htech⟩ := Prod.mk.inj hroles
  have hpage : contactPage? i .jpnic 3 σ "X" = some "[Title] Chair\n" := by
    decide +kernel
  have hcontact : (contactPage? i .jpnic 3 σ "X").bind (Contact.ofPage? .jpnic) = some chair := by
    rw [hpage]
    decide_cbv
  have hnamed : ([e].flatMap fun e => e.adminKeys ++ e.techKeys) = ["X", "X"] := by
    rw [List.flatMap_singleton, hadmin, htech]
    rfl
  obtain ⟨result, hresult, -, -, -, hcontacts, hnoted⟩ :=
    (((lookup_resolves i .jpnic o).1 rfl σ sharedPage rfl rfl).2 [e] hfound).1 (by
      rw [hnamed]
      intro key hkey
      obtain rfl : key = "X" := by simpa using hkey
      exact Option.isSome_iff_exists.2 ⟨_, hcontact⟩)
  refine ⟨result, hresult, ?_, ?_⟩
  · rw [hcontacts, List.map_singleton, hadmin, htech]
    show [Contacts.mk ((contactPage? i .jpnic 3 σ "X").bind (Contact.ofPage? .jpnic))
      ((contactPage? i .jpnic 3 σ "X").bind (Contact.ofPage? .jpnic))] = _
    rw [hcontact]
  · rw [hnoted, hnamed]
    decide

/-- A page about one block, which was assigned in the first hours of the calendar. -/
def earlyPage : String :=
  "[Network Number] <A>1.0.0.0/8</A>\n[Network Name] N\n[Assigned Date] -262143/01/01 00:00:00(JST)\n"

/-- At a date in the first hours of the calendar a lookup breaks off, online and offline. -/
theorem lookup_before_calendar :
    let i : Inquiry := ⟨⟨⟨.v4, 134744072, by decide⟩, by decide⟩, {}⟩
    ∀ offline σ, (lookup i .jpnic { response := some earlyPage, offline }).run σ = (.ok none, σ) := by
  intro i offline σ
  have hentries : (entries? .jpnic earlyPage none).isNone = true := by decide_cbv
  exact run_lookup_of_none rfl (Option.isNone_iff_eq_none.1 hentries)

end National

end IpRegistry
