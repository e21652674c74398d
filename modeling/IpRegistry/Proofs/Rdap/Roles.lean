import IpRegistry.Proofs.Rdap.Reach

namespace IpRegistry

namespace Rdap

/-- The roles that a document gives to a handle: those of the first entity inside it that has the
handle and any roles. -/
def rolesFor (handle : String) (document : Json) : Option (List String) :=
  (childrenOf document).findSome? fun child =>
    if textMember? child "handle" = some handle then (child.get? "roles").bind texts? else none

/-- The roles that the first of some documents that gives any to a handle gives to it. -/
def assigned (handle : String) (documents : List Json) : Option (List String) :=
  documents.findSome? (rolesFor handle)

theorem lookup_childRoles (handle : String) (document : Json) :
    (childRoles document).lookup handle = rolesFor handle document := by
  rw [childRoles, rolesFor]
  induction childrenOf document with
  | nil => rfl
  | cons child children ih =>
      rw [List.findSome?_cons, ← ih, List.filterMap_cons]
      cases hhandle : textMember? child "handle" with
      | none => simp
      | some other =>
          cases hroles : (child.get? "roles").bind texts? with
          | none => simp
          | some roles =>
              by_cases heq : other = handle
              · simp [heq]
              · have hne : (handle == other) = false := beq_false_of_ne (Ne.symm heq)
                simp [heq, hne, List.lookup_cons]

/-- An entity whose document is processed, and whether it was fetched. -/
structure Visit where
  handle : String
  document : Json
  fetched : Bool

/-- What is stored for a visit behind some documents: the entity of its own document, which if it was
fetched has the roles that the documents before it give to its handle, if they give any. -/
def Visit.entity (v : Visit) (earlier : List Json) (e : Entity) : Entity :=
  if v.fetched then { e with roles := (assigned v.handle earlier).or e.roles } else e

/-- The documents of some visits come one after the other from the servers, but for those that are
not fetched. -/
inductive Served (g : Guide) : Services → List Visit → Services → Prop
  | nil (σ : Services) : Served g σ [] σ
  | embedded {σ σ' : Services} {handle : String} {document : Json} {visits : List Visit}
    (hrest : Served g σ visits σ') : Served g σ (⟨handle, document, false⟩ :: visits) σ'
  | fetched {σ σ₁ σ' : Services} {handle : String} {document : Json} {visits : List Visit}
    (hfetch : Web.fetchJson (g.service.entityUrl handle) Web.registrationHeaders g.patience σ =
      (.ok document, σ₁))
    (hrest : Served g σ₁ visits σ') : Served g σ (⟨handle, document, true⟩ :: visits) σ'

theorem Served.append {g : Guide} {σ σ₁ σ' : Services} {visits more : List Visit}
    (h : Served g σ visits σ₁) (h' : Served g σ₁ more σ') : Served g σ (visits ++ more) σ' := by
  induction h with
  | nil => exact h'
  | embedded _ ih => exact .embedded (ih h')
  | fetched hfetch _ ih => exact .fetched hfetch (ih h')

/-- The entities of some visits behind a network are stored, each as it was when it was processed. -/
structure Stored (network : Json) (visits : List Visit) (objects : Keyed String Entity) : Prop where
  keys : objects.map Prod.fst = visits.map Visit.handle
  nodup : (visits.map Visit.handle).Nodup
  entity : ∀ before v after, visits = before ++ v :: after → ∃ e, Entity.parse v.document = .ok e ∧
    objects.lookup v.handle = some (v.entity (network :: before.map Visit.document) e)

theorem Stored.not_mem_of_mem {network : Json} {visits more : List Visit}
    {objects : Keyed String Entity} {v : Visit} (h : Stored network (visits ++ more) objects)
    (hv : v ∈ more) : v.handle ∉ visits.map Visit.handle := by
  have hnodup := h.nodup
  rw [List.map_append, List.nodup_append] at hnodup
  intro hmem
  exact hnodup.2.2 _ hmem _ (List.mem_map_of_mem hv) rfl

theorem Stored.not_mem_of_lookup {network : Json} {visits : List Visit}
    {objects : Keyed String Entity} {handle : String} (h : Stored network visits objects)
    (hnone : objects.lookup handle = none) : handle ∉ visits.map Visit.handle := by
  rw [← h.keys, Keyed.mem_keys_iff, hnone]
  exact Bool.false_ne_true

theorem Stored.add {network : Json} {visits : List Visit} {objects : Keyed String Entity} {v : Visit}
    {e : Entity} (h : Stored network visits objects) (hnew : v.handle ∉ visits.map Visit.handle)
    (hparse : Entity.parse v.document = .ok e) :
    Stored network (visits ++ [v])
      (objects.insert v.handle (v.entity (network :: visits.map Visit.document) e)) where
  keys := by
    rw [Keyed.insert, Keyed.keys_update_of_not_mem (by rwa [h.keys]), h.keys, List.map_append]
    rfl
  nodup := by
    rw [List.map_append, List.nodup_append]
    refine ⟨h.nodup, List.nodup_singleton _, ?_⟩
    rintro k hk _ hv rfl
    exact hnew (List.mem_singleton.1 hv ▸ hk)
  entity := by
    intro before v' after heq
    rw [Keyed.lookup_insert]
    rcases after.eq_nil_or_concat with rfl | ⟨after, last, rfl⟩
    · obtain ⟨rfl, hlast⟩ := List.append_inj' heq rfl
      cases hlast
      exact ⟨e, hparse, if_pos rfl⟩
    · obtain ⟨rfl, -⟩ : visits = before ++ v' :: after ∧ [v] = [last] :=
        List.append_inj' (by simpa using heq) rfl
      obtain ⟨e', hparse', hlookup⟩ := h.entity before v' after rfl
      refine ⟨e', hparse', ?_⟩
      rw [if_neg, hlookup]
      rintro hv
      simp [hv] at hnew

namespace Walk

/-- A walk behind some visits: it knows the roles that the documents so far give. -/
structure Recorded (network : Json) (visits : List Visit) (w : Walk) : Prop where
  stored : Stored network visits w.objects
  roles : ∀ handle, w.roles.lookup handle =
    assigned handle (network :: visits.map Visit.document)

variable {g : Guide} {network : Json} {visits : List Visit} {w w' : Walk} {handle : String}
  {σ σ' : Services}

theorem recorded_start (network : Json) : Recorded network [] (startOf network) where
  stored := ⟨rfl, .nil, by simp⟩
  roles handle := by
    simp [startOf, learn, assigned, lookup_childRoles]

theorem Recorded.add {v : Visit} {e : Entity} (h : Recorded network visits w)
    (hnew : v.handle ∉ visits.map Visit.handle) (hparse : Entity.parse v.document = .ok e) :
    Recorded network (visits ++ [v]) ((w.learn v.document).add v.handle
      (v.entity (network :: visits.map Visit.document) e)) where
  stored := h.stored.add hnew hparse
  roles handle := by
    show (w.roles ++ childRoles v.document).lookup handle = _
    rw [List.lookup_append, h.roles, lookup_childRoles, List.map_append, ← List.cons_append,
      assigned, assigned, List.findSome?_append]
    simp

theorem exists_visit_of_fetch (hw : Recorded network visits w)
    (hnew : handle ∉ visits.map Visit.handle) (h : w.fetch g handle σ = (.ok w', σ')) :
    ∃ v, v.handle = handle ∧ v.fetched = true ∧ Served g σ [v] σ' ∧
      Recorded network (visits ++ [v]) w' := by
  obtain ⟨document, σ₁, hfetch, hstep⟩ := Exchange.exists_of_bind h
  cases hparse : Entity.parse document with
  | error e =>
      rw [hparse] at hstep
      cases hstep
  | ok e =>
      rw [hparse] at hstep
      cases hstep
      have hadd := hw.add (v := ⟨handle, document, true⟩) hnew hparse
      rw [Visit.entity, if_pos rfl, ← hw.roles] at hadd
      exact ⟨_, rfl, rfl, .fetched hfetch (.nil _), hadd⟩

theorem recorded_take {document : Json} (hw : Recorded network visits w)
    (hnew : handle ∉ visits.map Visit.handle) (h : w.take handle document σ = (.ok w', σ')) :
    σ = σ' ∧ Recorded network (visits ++ [⟨handle, document, false⟩]) w' := by
  rw [take] at h
  cases hparse : Entity.parse document with
  | error e =>
      rw [hparse] at h
      cases h
  | ok e =>
      rw [hparse] at h
      cases h
      exact ⟨rfl, hw.add (v := ⟨handle, document, false⟩) hnew hparse⟩

variable {complete : Bool} {documents : List Json} {root : Json} {found found' : List String}

/-- A visit of an entity inside a network that is not excluded: unless the entity is fetched, its
document is the one inside the network. -/
structure VisitsRoot (g : Guide) (complete : Bool) (documents : List Json) (v : Visit) : Prop where
  not_excluded : v.handle ∉ g.excluded
  embedded : embedded? complete documents v.handle = if v.fetched then none else some v.document

theorem VisitsRoot.cons {v : Visit} (h : VisitsRoot g complete documents v)
    (hroot : textMember? root "handle" = some handle) (hne : v.handle ≠ handle) :
    VisitsRoot g complete (root :: documents) v where
  not_excluded := h.not_excluded
  embedded := by rw [embedded?_cons_of_ne complete documents hroot hne, h.embedded]

theorem exists_visit_of_root (documents : List Json) (hw : Recorded network visits w)
    (hnew : handle ∉ visits.map Visit.handle) (hexcluded : handle ∉ g.excluded)
    (hroot : textMember? root "handle" = some handle)
    (h : (if complete && !hasContact root then w.fetch g handle else w.take handle root) σ =
      (.ok w', σ')) :
    ∃ v, v.handle = handle ∧ Served g σ [v] σ' ∧ Recorded network (visits ++ [v]) w' ∧
      VisitsRoot g complete (root :: documents) v := by
  have hself := embedded?_cons_self complete documents hroot
  split at h
  · rename_i hfetch
    obtain ⟨v, rfl, hfetched, hserved, hw'⟩ := exists_visit_of_fetch hw hnew h
    exact ⟨v, rfl, hserved, hw', hexcluded, by rw [hself, if_pos hfetch, if_pos hfetched]⟩
  · rename_i htake
    obtain ⟨rfl, hw'⟩ := recorded_take hw hnew h
    refine ⟨_, rfl, .embedded (.nil _), hw', hexcluded, ?_⟩
    rw [hself, if_neg htake]
    rfl

/-- Going through the entities inside a network visits those that are not excluded, each handle once
and in the order in which it comes first. -/
theorem exists_visits_of_roots (hw : Recorded network visits w)
    (hfound : visits.map Visit.handle = found)
    (h : roots g complete documents found w σ = (.ok (found', w'), σ')) :
    ∃ more, Served g σ more σ' ∧ Recorded network (visits ++ more) w' ∧
      (visits ++ more).map Visit.handle = found' ∧
      (∀ v ∈ more, VisitsRoot g complete documents v) ∧
      found' = ((handlesOf documents).filter fun h =>
        !g.excluded.contains h).foldl Field.adjoin found := by
  induction documents generalizing visits found w σ with
  | nil =>
      cases h
      exact ⟨[], .nil _, by rwa [List.append_nil], by rwa [List.append_nil], nofun, rfl⟩
  | cons root documents ih =>
      rw [roots] at h
      cases hroot : textMember? root "handle" with
      | none =>
          rw [hroot] at h
          cases h
      | some handle =>
          rw [hroot] at h
          simp only at h
          have hcons : handlesOf (root :: documents) = handle :: handlesOf documents :=
            List.filterMap_cons_some hroot
          split at h
          · rename_i hknown
            rw [Bool.or_eq_true, List.contains_iff_mem, List.contains_iff_mem] at hknown
            obtain ⟨more, hserved, hw', hhandles, hmore, hfold⟩ := ih hw hfound h
            refine ⟨more, hserved, hw', hhandles, fun v hv => (hmore v hv).cons hroot ?_, ?_⟩
            · rintro rfl
              have hnew := hw'.stored.not_mem_of_mem hv
              rw [hfound] at hnew
              exact hknown.elim hnew (hmore v hv).not_excluded
            · rw [hcons, Field.foldl_adjoin_of_known hknown, hfold]
          · rename_i hknown
            rw [Bool.or_eq_true, List.contains_iff_mem, List.contains_iff_mem, not_or] at hknown
            obtain ⟨hnew, hexcluded⟩ := hknown
            have hrun : ((if complete && !hasContact root then w.fetch g handle
                else w.take handle root) >>= roots g complete documents (found ++ [handle])) σ =
                (.ok (found', w'), σ') := by
              revert h
              cases complete && !hasContact root <;> exact id
            obtain ⟨w₁, σ₁, hstep, hrest⟩ := Exchange.exists_of_bind hrun
            obtain ⟨v, rfl, hvisit, hw₁, hv⟩ :=
              exists_visit_of_root documents hw (by rwa [hfound]) hexcluded hroot hstep
            obtain ⟨more, hserved, hw', hhandles, hmore, hfold⟩ :=
              ih hw₁ (by rw [List.map_append, hfound]; rfl) hrest
            rw [List.append_assoc] at hw' hhandles
            refine ⟨v :: more, hvisit.append hserved, hw', hhandles, ?_, ?_⟩
            · refine List.forall_mem_cons.2 ⟨hv, fun v' hv' => (hmore v' hv').cons hroot ?_⟩
              intro heq
              rw [← List.singleton_append, ← List.append_assoc] at hw'
              apply hw'.stored.not_mem_of_mem hv'
              simp [heq]
            · rw [hcons, Field.foldl_adjoin_of_new hnew hexcluded, hfold]

theorem exists_visits_of_fetchAll {handles fetched : List String} (hw : Recorded network visits w)
    (h : fetchAll g handles w σ = (.ok (fetched, w'), σ')) :
    ∃ more, Served g σ more σ' ∧ Recorded network (visits ++ more) w' ∧
      ∀ v ∈ more, v.fetched = true := by
  induction handles generalizing visits w σ fetched with
  | nil =>
      cases h
      exact ⟨[], .nil _, by rwa [List.append_nil], nofun⟩
  | cons handle handles ih =>
      rw [fetchAll] at h
      split at h
      · exact ih hw h
      · rename_i hsettled
        rw [isSettled, Bool.or_eq_true, not_or, Option.not_isSome_iff_eq_none] at hsettled
        obtain ⟨w₁, σ₁, hfetch, hrest⟩ := Exchange.exists_of_bind h
        obtain ⟨⟨fetched', w₂⟩, σ₂, hfetches, hdone⟩ := Exchange.exists_of_bind hrest
        cases hdone
        obtain ⟨v, -, hfetched, hvisit, hw₁⟩ :=
          exists_visit_of_fetch hw (hw.stored.not_mem_of_lookup hsettled.1) hfetch
        obtain ⟨more, hserved, hw₂, hmore⟩ := ih hw₁ hfetches
        rw [List.append_assoc] at hw₂
        exact ⟨v :: more, hvisit.append hserved, hw₂, List.forall_mem_cons.2 ⟨hfetched, hmore⟩⟩

theorem exists_visits_of_descend {depth : Nat} {handles : List String}
    (hw : Recorded network visits w) (h : descend g depth handles w σ = (.ok w', σ')) :
    ∃ more, Served g σ more σ' ∧ Recorded network (visits ++ more) w' ∧
      ∀ v ∈ more, v.fetched = true := by
  induction depth generalizing visits handles w σ with
  | zero =>
      cases h
      exact ⟨[], .nil _, by rwa [List.append_nil], nofun⟩
  | succ depth ih =>
      rw [descend_succ] at h
      obtain ⟨⟨fetched, w₁⟩, σ₁, hlevel, hrest⟩ := Exchange.exists_of_bind h
      obtain ⟨visited, hserved, hw₁, hvisited⟩ := exists_visits_of_fetchAll hw hlevel
      obtain ⟨more, hserved', hw', hmore⟩ := ih hw₁ hrest
      rw [List.append_assoc] at hw'
      exact ⟨visited ++ more, hserved.append hserved', hw',
        List.forall_mem_append.2 ⟨hvisited, hmore⟩⟩

end Walk

/-- A lookup processes the network, the entities inside it that are not excluded, in their order, and
then those that it fetches behind them. Each entity that it gives is the one of its own document; if
it was fetched, it has the roles that the first document before its own that gives its handle any
gives to it, and its own roles if none does. -/
theorem lookup_assigns_roles {target : Target} {registry : Option Registry} {o : Options} {r : Result}
    {σ σ' : Services} (h : lookup target registry o σ = (.ok r, σ')) :
    ∃ service document σ₁ roots below,
      serviceOf registry o.bootstrap = .ok service ∧
      networkDocument service target o σ = (.ok document, σ₁) ∧
      Served (guide service o) σ₁ (roots ++ below) σ' ∧
      r.entities = rootsOf o document ∧ roots.map Visit.handle = r.entities ∧
      (∀ v ∈ roots, embedded? o.completeRoots (childrenOf document) v.handle =
        if v.fetched then none else some v.document) ∧
      (∀ v ∈ below, v.fetched = true) ∧
      Stored document (roots ++ below) r.objects := by
  cases hservice : serviceOf registry o.bootstrap with
  | error e =>
      rw [lookup_eq_of_error hservice] at h
      cases h
  | ok service =>
      rw [lookup_eq_of_service hservice] at h
      obtain ⟨document, σ₁, hdocument, hexpand⟩ := Exchange.exists_of_bind h
      obtain ⟨network, σ₂, hnetwork, hwalk⟩ := Exchange.exists_of_bind hexpand
      obtain ⟨⟨entities, w⟩, σ₃, hroots, hwalk⟩ := Exchange.exists_of_bind hwalk
      obtain ⟨w', σ₄, hdescend, hdone⟩ := Exchange.exists_of_bind hwalk
      cases hdone
      rw [Exchange.ofExcept_apply] at hnetwork
      obtain ⟨-, rfl⟩ := Prod.mk.inj hnetwork
      obtain ⟨roots, hserved, hw, hhandles, hembedded, hentities⟩ :=
        Walk.exists_visits_of_roots (Walk.recorded_start document) rfl hroots
      obtain ⟨below, hserved', hw', hbelow⟩ := Walk.exists_visits_of_descend hw hdescend
      exact ⟨service, document, σ₁, roots, below, rfl, hdocument, hserved.append hserved', hentities,
        hhandles, fun v hv => (hembedded v hv).embedded, hbelow, hw'.stored⟩

/-- A network that brings the contact of one of its entities, which gives roles to the other one. -/
def assigningNetwork : Json :=
  .object [("handle", .text "N"), ("entities", .array [
    .object [("handle", .text "A"), ("vcardArray", .array [.text "vcard", .array []]),
      ("roles", .array [.text "registrant"]),
      ("entities", .array [.object [("handle", .text "B"), ("roles", .array [.text "abuse"])]])],
    .object [("handle", .text "B"), ("roles", .array [])]])]

/-- Entities that are fetched: the first one gives roles to one that is stored already. -/
def assigningEntity (handle : String) : String :=
  if handle = "B" then
    "\x7b\"handle\":\"B\",\"entities\":[\x7b\"handle\":\"A\",\"roles\":[\"x\"]\x7d," ++
      "\x7b\"handle\":\"C\"\x7d]\x7d"
  else "\x7b\"handle\":\"C\",\"roles\":[\"own\"]\x7d"

def assigningServices : Services where
  web := { standing := ["B", "C"].map fun handle =>
    ("http://rdap.arin.net/registry/entity/" ++ handle, some (replyOf (assigningEntity handle))) }

def assigningOptions : Options where
  response := some assigningNetwork
  depth := 1

/-- The entity that the network brings keeps its roles, the next one has the roles that it gives, and
the last one has its own. -/
theorem lookup_assigns_roles_inTurn :
    ∃ r σ', lookup publicTarget (some .arin) assigningOptions assigningServices = (.ok r, σ') ∧
      r.objects.map (fun entry => (entry.1, entry.2.roles)) =
        [("A", some ["registrant"]), ("B", some ["abuse"]), ("C", some ["own"])] ∧
      ∃ visits, Stored assigningNetwork visits r.objects ∧
        Served (guide (.registry .arin) assigningOptions) assigningServices visits σ' := by
  have hroles : (lookup publicTarget (some .arin) assigningOptions assigningServices).1.toOption.map
      (fun r => r.objects.map fun entry => (entry.1, entry.2.roles)) =
        some [("A", some ["registrant"]), ("B", some ["abuse"]), ("C", some ["own"])] := by
    decide +kernel
  rcases hlookup : lookup publicTarget (some .arin) assigningOptions assigningServices with
    ⟨result, σ'⟩
  rw [hlookup] at hroles
  cases result with
  | error e => cases hroles
  | ok r =>
      obtain ⟨service, document, σ₁, roots, below, hservice, hdocument, hserved, -, -, -, -, hstored⟩ :=
        lookup_assigns_roles hlookup
      cases hservice
      cases hdocument
      exact ⟨r, σ', rfl, Option.some.inj hroles, roots ++ below, hstored, hserved⟩

end Rdap

end IpRegistry
