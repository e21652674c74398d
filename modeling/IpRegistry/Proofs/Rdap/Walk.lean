import IpRegistry.Proofs.Field
import IpRegistry.Proofs.Rdap.Lookup

namespace IpRegistry

open Exchange (Yields)

theorem Web.fetchJson_of_answer {σ : Services} {url : String} {headers : List (String × String)}
    {patience : Patience} {reply : Reply} {document : Json}
    (h : (σ.web.take url).1 = some (some reply)) (hsuccess : reply.isSuccess = true)
    (hbody : acceptJson reply.body = .ready document) :
    fetchJson url headers patience σ = (.ok document, (Exchange.askWeb { url, headers } σ).2) := by
  have hask : Exchange.askWeb { url, headers } σ =
      (.ok (some reply), (Exchange.askWeb { url, headers } σ).2) := by
    refine Prod.ext ?_ rfl
    show Except.ok ((σ.web.take url).1.getD _) = _
    rw [h]
    rfl
  have hlimit : reply.status ≠ 429 := by
    rw [Reply.isSuccess, Bool.and_eq_true, decide_eq_true_eq, decide_eq_true_eq] at hsuccess
    omega
  obtain ⟨tries, htries⟩ : ∃ tries, max patience.retryCount 1 = tries + 1 :=
    ⟨max patience.retryCount 1 - 1, by omega⟩
  rw [fetchJson, fetch, htries, attempt, Exchange.bind_of_ok hask]
  show (if reply.status = 429 then _ else _ : Exchange Json) _ = _
  rw [if_neg hlimit, if_pos hsuccess, hbody]
  rfl

namespace Rdap

def handlesOf (documents : List Json) : List String :=
  documents.filterMap fun document => textMember? document "handle"

/-- The handles that a document refers to. -/
def referrals (document : Json) : List String :=
  Field.distinct (handlesOf (childrenOf document))

theorem entities_of_parse {document : Json} {e : Entity} (h : Entity.parse document = .ok e) :
    e.entities.getD [] = referrals document := by
  cases document with
  | object members =>
      rw [Entity.parse] at h
      split at h
      · cases h
      · split at h
        · cases h
        · cases h
          show (nonempty? (referrals _)).getD [] = _
          rw [nonempty?]
          split
          · rename_i hempty
            exact (List.isEmpty_iff.1 hempty).symm
          · rfl
  | _ => cases h

theorem Service.entityUrl_injective (s : Service) : Function.Injective s.entityUrl := by
  intro h h' heq
  have hlists := congrArg String.toList heq
  exact String.toList_inj.1 (by simpa [Service.entityUrl] using hlists)

/-- The next answer for the entity of a handle brings a document. -/
def Delivers (s : Service) (handle : String) (document : Json) (σ : Services) : Prop :=
  ∃ reply : Web.Reply, (σ.web.take (s.entityUrl handle)).1 = some (some reply) ∧
    reply.isSuccess = true ∧ Web.acceptJson reply.body = .ready document

namespace Walk

variable {g : Guide} {needed : String → Prop} {site : String → Json} {w w' : Walk}
  {handle : String} {σ : Services}

/-- A walk that has found some entities more: those that were found before are as they were, and the
new ones are not excluded and refer to what their documents refer to. -/
structure Finds (excluded : List String) (source : String → Json) (w : Walk)
    (found : List String) (w' : Walk) : Prop where
  kept : ∀ h e, w.objects.lookup h = some e → w'.objects.lookup h = some e
  only : ∀ h e, w'.objects.lookup h = some e → w.objects.lookup h = some e ∨ h ∈ found
  new : ∀ h ∈ found, w.objects.lookup h = none ∧ h ∉ excluded ∧
    ∃ e, w'.objects.lookup h = some e ∧ e.entities.getD [] = referrals (source h)
  nodup : found.Nodup

namespace Finds

variable {excluded : List String} {source : String → Json} {w'' : Walk} {found more : List String}

theorem refl (excluded : List String) (source : String → Json) (w : Walk) :
    Finds excluded source w [] w where
  kept _ _ h := h
  only _ _ h := .inl h
  new _ h := absurd h List.not_mem_nil
  nodup := .nil

theorem single {e : Entity} (hobjects : w'.objects = w.objects.insert handle e)
    (hnew : w.objects.lookup handle = none) (hexcluded : handle ∉ excluded)
    (he : e.entities.getD [] = referrals (source handle)) :
    Finds excluded source w [handle] w' := by
  have hlookup (h : String) : w'.objects.lookup h =
      if h = handle then some e else w.objects.lookup h := by
    rw [hobjects, Keyed.lookup_insert]
  refine ⟨fun h e' hh => ?_, fun h e' hh => ?_, fun h hh => ?_, List.nodup_singleton handle⟩
  · rw [hlookup, if_neg, hh]
    rintro rfl
    rw [hnew] at hh
    cases hh
  · rw [hlookup] at hh
    split at hh
    · rename_i heq
      exact .inr (List.mem_singleton.2 heq)
    · exact .inl hh
  · obtain rfl := List.mem_singleton.1 hh
    exact ⟨hnew, hexcluded, e, by rw [hlookup, if_pos rfl], he⟩

theorem congr {other : String → Json} (h : Finds excluded source w found w')
    (heq : ∀ k ∈ found, other k = source k) : Finds excluded other w found w' where
  kept := h.kept
  only := h.only
  new k hk := by
    rw [heq k hk]
    exact h.new k hk
  nodup := h.nodup

theorem lookup_eq_none (h : Finds excluded source w found w') {k : String}
    (hk : w'.objects.lookup k = none) : w.objects.lookup k = none := by
  cases hw : w.objects.lookup k with
  | none => rfl
  | some e =>
      rw [h.kept k e hw] at hk
      cases hk

theorem trans (h : Finds excluded source w found w') (h' : Finds excluded source w' more w'') :
    Finds excluded source w (found ++ more) w'' := by
  refine ⟨fun k e hk => h'.kept k e (h.kept k e hk), fun k e hk => ?_, fun k hk => ?_, ?_⟩
  · rw [List.mem_append]
    rcases h'.only k e hk with hk | hk
    · exact (h.only k e hk).imp_right .inl
    · exact .inr (.inr hk)
  · rcases List.mem_append.1 hk with hk | hk
    · obtain ⟨hw, hexcluded, e, he, hrefers⟩ := h.new k hk
      exact ⟨hw, hexcluded, e, h'.kept k e he, hrefers⟩
    · obtain ⟨hw, hnew⟩ := h'.new k hk
      exact ⟨h.lookup_eq_none hw, hnew⟩
  · refine List.nodup_append.2 ⟨h.nodup, h'.nodup, ?_⟩
    rintro k hk _ hk' rfl
    obtain ⟨-, -, e, he, -⟩ := h.new k hk
    have hw := (h'.new k hk').1
    rw [he] at hw
    cases hw

theorem isSome_iff (h : Finds excluded source w found w') (k : String) :
    (w'.objects.lookup k).isSome = true ↔ (w.objects.lookup k).isSome = true ∨ k ∈ found := by
  rw [Option.isSome_iff_exists, Option.isSome_iff_exists]
  constructor
  · rintro ⟨e, he⟩
    exact (h.only k e he).imp_left fun hw => ⟨e, hw⟩
  · rintro (⟨e, he⟩ | hk)
    · exact ⟨e, h.kept k e he⟩
    · obtain ⟨-, -, e, he, -⟩ := h.new k hk
      exact ⟨e, he⟩

end Finds

/-- The needed entities that a walk has not found are still to be delivered. -/
def Awaits (g : Guide) (needed : String → Prop) (site : String → Json) (w : Walk)
    (σ : Services) : Prop :=
  ∀ handle, needed handle → w.objects.lookup handle = none →
    Delivers g.service handle (site handle) σ

theorem Awaits.mono (h : Awaits g needed site w σ)
    (hnone : ∀ k, w'.objects.lookup k = none → w.objects.lookup k = none) :
    Awaits g needed site w' σ :=
  fun k hk hw => h k hk (hnone k hw)

/-- What a walk asks for when it fetches entities. -/
def fetches (g : Guide) (handles : List String) : List IpRegistry.Event :=
  handles.map fun handle => .web (entityRequest g.service handle)

theorem exists_fetch (source : String → Json) (hneeded : needed handle)
    (hparse : ∃ e, Entity.parse (site handle) = .ok e) (hnew : w.objects.lookup handle = none)
    (hexcluded : handle ∉ g.excluded) (hsource : source handle = site handle) :
    ∃ w', Yields (w.Awaits g needed site) (w.fetch g handle) (fetches g [handle]) w'
        (w'.Awaits g needed site) ∧ Finds g.excluded source w [handle] w' := by
  obtain ⟨e, he⟩ := hparse
  let stored : Entity := { e with roles := (w.roles.lookup handle).or e.roles }
  have hfinds : Finds g.excluded source w [handle] ((w.learn (site handle)).add handle stored) := by
    refine .single (e := stored) rfl hnew hexcluded ?_
    have hrefers := entities_of_parse he
    rw [hsource]
    exact hrefers
  refine ⟨_, ?_, hfinds⟩
  intro σ hσ
  obtain ⟨reply, hreply, hsuccess, hbody⟩ := hσ handle hneeded hnew
  refine ⟨(Exchange.askWeb (entityRequest g.service handle) σ).2, ?_, rfl, ?_⟩
  · rw [fetch, Exchange.bind_of_ok (Web.fetchJson_of_answer hreply hsuccess hbody), he]
    rfl
  · intro k hk hnone
    obtain ⟨reply, hreply, hgood⟩ := hσ k hk (hfinds.lookup_eq_none hnone)
    refine ⟨reply, ?_, hgood⟩
    have hne : k ≠ handle := by
      rintro rfl
      obtain ⟨-, -, e, he, -⟩ := hfinds.new k (List.mem_singleton_self k)
      rw [he] at hnone
      cases hnone
    have hurl : g.service.entityUrl k ≠ g.service.entityUrl handle :=
      fun heq => hne (g.service.entityUrl_injective heq)
    rw [← hreply]
    exact σ.web.take_fst_of_ne hurl

theorem exists_take (source : String → Json) {document : Json}
    (hparse : ∃ e, Entity.parse document = .ok e) (hnew : w.objects.lookup handle = none)
    (hexcluded : handle ∉ g.excluded) (hsource : source handle = document) :
    ∃ w', Yields (w.Awaits g needed site) (w.take handle document) [] w'
        (w'.Awaits g needed site) ∧ Finds g.excluded source w [handle] w' := by
  obtain ⟨e, he⟩ := hparse
  have hfinds : Finds g.excluded source w [handle] ((w.learn document).add handle e) := by
    refine .single (e := e) rfl hnew hexcluded ?_
    rw [hsource]
    exact entities_of_parse he
  refine ⟨_, fun σ hσ => ⟨σ, ?_, (List.append_nil _).symm, ?_⟩, hfinds⟩
  · rw [take, he]
    rfl
  · exact hσ.mono fun _ => hfinds.lookup_eq_none

/-- Fetching what is not settled finds all handles that are not excluded. -/
theorem exists_fetchAll (handles : List String) (w : Walk)
    (hneeded : ∀ h ∈ handles, h ∉ g.excluded → w.objects.lookup h = none →
      needed h ∧ ∃ e, Entity.parse (site h) = .ok e) :
    ∃ fetched w', Yields (w.Awaits g needed site) (fetchAll g handles w) (fetches g fetched)
        (fetched, w') (w'.Awaits g needed site) ∧
      Finds g.excluded site w fetched w' ∧ fetched ⊆ handles ∧
      ∀ h ∈ handles, h ∉ g.excluded → (w'.objects.lookup h).isSome = true := by
  induction handles generalizing w with
  | nil =>
      exact ⟨[], w, .done _ _, .refl .., List.Subset.refl _, fun h hh => absurd hh List.not_mem_nil⟩
  | cons handle handles ih =>
      have hrest := fun h hh => hneeded h (List.mem_cons_of_mem _ hh)
      rw [fetchAll]
      split
      · rename_i hsettled
        obtain ⟨fetched, w', hyields, hfinds, hsub, hall⟩ := ih w hrest
        refine ⟨fetched, w', hyields, hfinds, List.subset_cons_of_subset _ hsub, ?_⟩
        intro h hh hexcluded
        rcases List.mem_cons.1 hh with rfl | hh
        · rw [isSettled, Bool.or_eq_true, List.contains_iff_mem] at hsettled
          exact (hfinds.isSome_iff h).2 (.inl (hsettled.resolve_right hexcluded))
        · exact hall h hh hexcluded
      · rename_i hsettled
        rw [isSettled, Bool.or_eq_true, List.contains_iff_mem, not_or, Bool.not_eq_true,
          Option.isSome_eq_false_iff, Option.isNone_iff_eq_none] at hsettled
        obtain ⟨hnew, hexcluded⟩ := hsettled
        obtain ⟨hneed, hparse⟩ := hneeded handle List.mem_cons_self hexcluded hnew
        obtain ⟨w₁, hyields, hfinds⟩ :=
          exists_fetch site hneed hparse hnew hexcluded rfl
        obtain ⟨fetched, w₂, hyields', hfinds', hsub, hall⟩ := ih w₁ fun h hh hexcluded hnone =>
          hrest h hh hexcluded (hfinds.lookup_eq_none hnone)
        refine ⟨handle :: fetched, w₂, ?_, hfinds.trans hfinds', ?_, ?_⟩
        · have hevents : fetches g (handle :: fetched) =
              fetches g [handle] ++ (fetches g fetched ++ []) := by
            rw [List.append_nil]
            rfl
          rw [hevents]
          exact hyields.bind (hyields'.bind (.done _ _))
        · exact List.cons_subset_cons _ hsub
        · intro h hh hexcluded
          rcases List.mem_cons.1 hh with rfl | hh
          · exact ((hfinds.trans hfinds').isSome_iff h).2 (.inr List.mem_cons_self)
          · exact hall h hh hexcluded

end Walk

/-- The document inside a network from which the entity of a handle is read: the first one with the
handle, unless the entity is fetched. -/
def embedded? (complete : Bool) (documents : List Json) (handle : String) : Option Json :=
  (documents.find? fun root => textMember? root "handle" == some handle).filter fun root =>
    !(complete && !hasContact root)

/-- The document from which the entity of a handle is read. -/
def sourceOf (complete : Bool) (documents : List Json) (site : String → Json) (handle : String) :
    Json :=
  (embedded? complete documents handle).getD (site handle)

section

variable (complete : Bool) (documents : List Json) {root : Json} {handle : String}

theorem embedded?_cons_self (h : textMember? root "handle" = some handle) :
    embedded? complete (root :: documents) handle =
      if complete && !hasContact root then none else some root := by
  rw [embedded?, List.find?_cons_of_pos (by rw [h]; exact BEq.rfl), Option.filter_some]
  cases complete && !hasContact root <;> rfl

theorem embedded?_cons_of_ne {other : String} (h : textMember? root "handle" = some handle)
    (hne : other ≠ handle) :
    embedded? complete (root :: documents) other = embedded? complete documents other := by
  have hother : ¬(textMember? root "handle" == some other) = true := by
    rw [h, beq_iff_eq, Option.some.injEq]
    exact hne.symm
  exact congrArg (Option.filter _) (List.find?_cons_of_neg hother)

theorem mem_handlesOf_of_embedded? (h : embedded? complete documents handle = some root) :
    handle ∈ handlesOf documents := by
  obtain ⟨hfind, -⟩ := Option.filter_eq_some_iff.1 h
  have hroot := List.find?_some hfind
  exact List.mem_filterMap.2 ⟨root, List.mem_of_find?_eq_some hfind, eq_of_beq hroot⟩

end

namespace Walk

variable {g : Guide} {needed : String → Prop} {site : String → Json} {complete : Bool}

/-- The first entity with a handle is read from its document or fetched. -/
theorem exists_root {documents : List Json} {root : Json} {handle : String} {w : Walk}
    (hroot : textMember? root "handle" = some handle)
    (hembedded : ∀ document, embedded? complete (root :: documents) handle = some document →
      ∃ e, Entity.parse document = .ok e)
    (hneeded : embedded? complete (root :: documents) handle = none →
      needed handle ∧ ∃ e, Entity.parse (site handle) = .ok e)
    (hnew : w.objects.lookup handle = none) (hexcluded : handle ∉ g.excluded) :
    ∃ fetched w', Yields (w.Awaits g needed site)
        (if complete && !hasContact root then w.fetch g handle else w.take handle root)
        (fetches g fetched) w' (w'.Awaits g needed site) ∧
      Finds g.excluded (sourceOf complete (root :: documents) site) w [handle] w' ∧
      fetched.Sublist [handle] := by
  have hself := embedded?_cons_self complete documents hroot
  split at hself
  · rename_i hfetch
    obtain ⟨hneed, hparse⟩ := hneeded hself
    obtain ⟨w', hyields, hfinds⟩ := exists_fetch (sourceOf complete (root :: documents) site) hneed
      hparse hnew hexcluded (by rw [sourceOf, hself]; rfl)
    rw [if_pos hfetch]
    exact ⟨[handle], w', hyields, hfinds, List.Sublist.refl _⟩
  · rename_i htake
    obtain ⟨w', hyields, hfinds⟩ := exists_take (sourceOf complete (root :: documents) site)
      (hembedded root hself) hnew hexcluded (by rw [sourceOf, hself]; rfl)
    rw [if_neg htake]
    exact ⟨[], w', hyields, hfinds, List.nil_sublist _⟩

/-- The entities inside a network have handles, and those whose handles are neither found nor excluded
can be read or are needed. -/
structure Legible (g : Guide) (needed : String → Prop) (site : String → Json) (complete : Bool)
    (documents : List Json) (found : List String) : Prop where
  handles : ∀ root ∈ documents, ∃ handle, textMember? root "handle" = some handle
  embedded : ∀ h ∉ found, h ∉ g.excluded → ∀ root,
    embedded? complete documents h = some root → ∃ e, Entity.parse root = .ok e
  fetched : ∀ h ∈ handlesOf documents, h ∉ found → h ∉ g.excluded →
    embedded? complete documents h = none → needed h ∧ ∃ e, Entity.parse (site h) = .ok e

section

variable {documents : List Json} {root : Json} {handle : String} {found known : List String}

theorem Legible.tail (h : Legible g needed site complete (root :: documents) found)
    (hroot : textMember? root "handle" = some handle) (hsub : found ⊆ known)
    (hne : ∀ k ∉ known, k ∉ g.excluded → k ≠ handle) :
    Legible g needed site complete documents known where
  handles other hother := h.handles other (List.mem_cons_of_mem _ hother)
  embedded k hk hexcluded := by
    rw [← embedded?_cons_of_ne complete documents hroot (hne k hk hexcluded)]
    exact h.embedded k (fun hmem => hk (hsub hmem)) hexcluded
  fetched k hmem hk hexcluded := by
    have hcons : handlesOf (root :: documents) = handle :: handlesOf documents :=
      List.filterMap_cons_some hroot
    rw [← embedded?_cons_of_ne complete documents hroot (hne k hk hexcluded)]
    exact h.fetched k (hcons ▸ List.mem_cons_of_mem _ hmem) (fun hmem => hk (hsub hmem)) hexcluded

/-- What is found behind an entity is what is found with it in front. -/
theorem Finds.cons {w w' : Walk} {more : List String}
    (h : Finds g.excluded (sourceOf complete documents site) w more w')
    (hroot : textMember? root "handle" = some handle)
    (hkeys : ∀ k, (w.objects.lookup k).isSome = true ↔ k ∈ known)
    (hne : ∀ k ∉ known, k ∉ g.excluded → k ≠ handle) :
    Finds g.excluded (sourceOf complete (root :: documents) site) w more w' := by
  refine h.congr fun k hk => ?_
  obtain ⟨hnone, hexcluded, -⟩ := h.new k hk
  have hk' : k ∉ known := by
    rw [← hkeys k, hnone]
    exact Bool.false_ne_true
  rw [sourceOf, sourceOf, embedded?_cons_of_ne complete documents hroot (hne k hk' hexcluded)]

end

/-- Going through the entities inside a network finds those that are not excluded, each handle once
and in the order in which it comes first. -/
theorem exists_roots {documents : List Json} {found : List String} {w : Walk}
    (hlegible : Legible g needed site complete documents found)
    (hkeys : ∀ h, (w.objects.lookup h).isSome = true ↔ h ∈ found) :
    ∃ fetched more w', Yields (w.Awaits g needed site) (roots g complete documents found w)
        (fetches g fetched) (found ++ more, w') (w'.Awaits g needed site) ∧
      Finds g.excluded (sourceOf complete documents site) w more w' ∧ fetched.Sublist more ∧
      found ++ more = ((handlesOf documents).filter fun h =>
        !g.excluded.contains h).foldl Field.adjoin found := by
  induction documents generalizing found w with
  | nil =>
      refine ⟨[], [], w, ?_, .refl .., List.Sublist.refl _, List.append_nil found⟩
      rw [List.append_nil]
      exact .done _ _
  | cons root documents ih =>
      obtain ⟨handle, hroot⟩ := hlegible.handles root List.mem_cons_self
      have hcons : handlesOf (root :: documents) = handle :: handlesOf documents :=
        List.filterMap_cons_some hroot
      rw [roots, hroot, hcons]
      by_cases hknown : (found.contains handle || g.excluded.contains handle) = true
      · have hne : ∀ k ∉ found, k ∉ g.excluded → k ≠ handle := by
          rintro k hk hexcluded rfl
          rw [Bool.or_eq_true, List.contains_iff_mem, List.contains_iff_mem] at hknown
          exact hknown.elim hk hexcluded
        obtain ⟨fetched, more, w', hyields, hfinds, hfetched, hfold⟩ :=
          ih (hlegible.tail hroot (List.Subset.refl _) hne) hkeys
        refine ⟨fetched, more, w', ?_, hfinds.cons hroot hkeys hne, hfetched, ?_⟩
        · show Yields _ (if _ then _ else _) _ _ _
          rwa [if_pos hknown]
        · rw [Bool.or_eq_true, List.contains_iff_mem, List.contains_iff_mem] at hknown
          rw [hfold, Field.foldl_adjoin_of_known hknown]
      · have hboth := hknown
        rw [Bool.or_eq_true, List.contains_iff_mem, List.contains_iff_mem, not_or] at hboth
        obtain ⟨hfound, hexcluded⟩ := hboth
        have hnew : w.objects.lookup handle = none := by
          rw [← Option.not_isSome_iff_eq_none, hkeys]
          exact hfound
        obtain ⟨asked, w₁, hyields, hfinds, hasked⟩ := exists_root hroot
          (hlegible.embedded handle hfound hexcluded)
          (hlegible.fetched handle (hcons ▸ List.mem_cons_self) hfound hexcluded) hnew hexcluded
        have hkeys₁ (k : String) :
            (w₁.objects.lookup k).isSome = true ↔ k ∈ found ++ [handle] := by
          rw [hfinds.isSome_iff, hkeys, List.mem_append]
        have hne : ∀ k ∉ found ++ [handle], k ∉ g.excluded → k ≠ handle := by
          rintro k hk - rfl
          exact hk (List.mem_append_right _ (List.mem_singleton_self k))
        obtain ⟨fetched, more, w', hyields', hfinds', hfetched, hfold⟩ :=
          ih (hlegible.tail hroot (List.subset_append_left ..) hne) hkeys₁
        rw [List.append_assoc] at hyields' hfold
        refine ⟨asked ++ fetched, handle :: more, w', ?_,
          hfinds.trans (hfinds'.cons hroot hkeys₁ hne), hasked.append hfetched, ?_⟩
        · show Yields _ (if _ then _ else _) _ _ _
          have hthen := hyields.bind hyields'
          rw [if_neg hknown, fetches, List.map_append]
          revert hthen
          cases complete && !hasContact root <;> exact id
        · rw [Field.foldl_adjoin_of_new hfound hexcluded, ← hfold]
          rfl

end Walk

end Rdap

end IpRegistry
