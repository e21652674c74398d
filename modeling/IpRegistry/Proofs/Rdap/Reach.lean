import IpRegistry.Proofs.Keyed
import IpRegistry.Proofs.Rdap.Requests
import IpRegistry.Proofs.Rdap.Walk

namespace IpRegistry.Rdap

open Exchange (Yields Obeys)

/-- A root, or a handle that can be reached from the roots in at most `n` steps from a handle to one
of its children that is not excluded. -/
def Near (children : String → List String) (excluded roots : List String) :
    (n : Nat) → String → Prop
  | 0, h => h ∈ roots
  | n + 1, h =>
    Near children excluded roots n h ∨
      ∃ parent, Near children excluded roots n parent ∧ h ∈ children parent ∧ h ∉ excluded

section

variable {children : String → List String} {excluded roots : List String} {m n : Nat} {h : String}

theorem Near.mono (hle : m ≤ n) (hnear : Near children excluded roots m h) :
    Near children excluded roots n h := by
  induction hle with
  | refl => exact hnear
  | step _ ih => exact .inl ih

theorem Near.not_mem_excluded (hroots : ∀ h ∈ roots, h ∉ excluded)
    (hnear : Near children excluded roots n h) : h ∉ excluded := by
  induction n generalizing h with
  | zero => exact hroots h hnear
  | succ n ih =>
      rcases hnear with hnear | ⟨_, _, _, hexcluded⟩
      · exact ih hnear
      · exact hexcluded

/-- A set of handles that is closed under children holds all that can be reached. -/
theorem Near.mem_of_closed {known : List String} (hroots : ∀ h ∈ roots, h ∈ known)
    (hclosed : ∀ parent ∈ known, ∀ child ∈ children parent, child ∉ excluded → child ∈ known)
    (hnear : Near children excluded roots n h) : h ∈ known := by
  induction n generalizing h with
  | zero => exact hroots h hnear
  | succ n ih =>
      rcases hnear with hnear | ⟨parent, hparent, hchild, hexcluded⟩
      · exact ih hnear
      · exact hclosed parent (ih hparent) h hchild hexcluded

/-- Only the children of handles that are near matter. -/
theorem near_congr {others : String → List String}
    (heq : ∀ h, Near children excluded roots n h → others h = children h) (hle : m ≤ n) :
    Near others excluded roots m h ↔ Near children excluded roots m h := by
  induction m generalizing h with
  | zero => exact Iff.rfl
  | succ m ih =>
      have hm : m ≤ n := Nat.le_of_succ_le hle
      rw [Near, Near, ih hm]
      refine or_congr_right (exists_congr fun parent => ?_)
      rw [ih hm]
      refine and_congr_right fun hparent => ?_
      rw [heq parent (hparent.mono hm)]

end

namespace Walk

/-- A walk that has found what can be reached in at most `n` steps: the entities refer to the
children of their handles, and only those that were found last may have children outside. -/
structure Explored (children : String → List String) (excluded roots : List String) (n : Nat)
    (latest : List String) (w : Walk) : Prop where
  isSome_iff : ∀ h, (w.objects.lookup h).isSome = true ↔ Near children excluded roots n h
  entities_eq : ∀ h e, w.objects.lookup h = some e → e.entities.getD [] = children h
  near_latest : ∀ h ∈ latest, Near children excluded roots n h
  closed : ∀ h, Near children excluded roots n h → h ∉ latest → ∀ child ∈ children h,
    child ∉ excluded → Near children excluded roots n child

variable {g : Guide} {needed : String → Prop} {source site : String → Json} {roots : List String}
  {latest : List String} {n : Nat} {w : Walk}

theorem Explored.mem_children {children : String → List String} {excluded : List String}
    (hw : Explored children excluded roots n latest w) {child : String} :
    child ∈ w.children latest ↔ ∃ parent ∈ latest, child ∈ children parent := by
  rw [Walk.children, List.mem_flatMap]
  refine exists_congr fun parent => and_congr_right fun hparent => ?_
  have hfound := (hw.isSome_iff parent).2 (hw.near_latest parent hparent)
  obtain ⟨e, he⟩ := Option.isSome_iff_exists.1 hfound
  rw [he, ← hw.entities_eq parent e he]
  rfl

section

variable (hsource : ∀ h ∉ roots, h ∉ g.excluded → source h = site h)

include hsource

/-- One level: fetching the children of the entities that were found last. -/
theorem exists_level
    (hneeded : ∀ h, Near (fun k => referrals (source k)) g.excluded roots (n + 1) h → h ∉ roots →
      needed h ∧ ∃ e, Entity.parse (site h) = .ok e)
    (hw : Explored (fun k => referrals (source k)) g.excluded roots n latest w) :
    ∃ fetched w', Yields (w.Awaits g needed site) (fetchAll g (w.children latest) w)
        (fetches g fetched) (fetched, w') (w'.Awaits g needed site) ∧
      Finds g.excluded source w fetched w' ∧
      Explored (fun k => referrals (source k)) g.excluded roots (n + 1) fetched w' := by
  have hroots : ∀ h, w.objects.lookup h = none → h ∉ roots := by
    intro h hnone hmem
    have hsome := (hw.isSome_iff h).2 (Near.mono (Nat.zero_le n) hmem)
    rw [hnone] at hsome
    cases hsome
  have hchild : ∀ h ∈ w.children latest, h ∉ g.excluded →
      Near (fun k => referrals (source k)) g.excluded roots (n + 1) h := by
    intro h hmem hexcluded
    obtain ⟨parent, hparent, hrefers⟩ := hw.mem_children.1 hmem
    exact .inr ⟨parent, hw.near_latest parent hparent, hrefers, hexcluded⟩
  obtain ⟨fetched, w', hyields, hfinds, hsub, hall⟩ := exists_fetchAll (w.children latest) w
    fun h hmem hexcluded hnone => hneeded h (hchild h hmem hexcluded) (hroots h hnone)
  have hfinds : Finds g.excluded source w fetched w' := by
    refine hfinds.congr fun h hh => ?_
    obtain ⟨hnone, hexcluded, -⟩ := hfinds.new h hh
    exact hsource h (hroots h hnone) hexcluded
  have hnear : ∀ h, (w'.objects.lookup h).isSome = true ↔
      Near (fun k => referrals (source k)) g.excluded roots (n + 1) h := by
    intro h
    rw [hfinds.isSome_iff, hw.isSome_iff]
    constructor
    · rintro (hnear | hmem)
      · exact .inl hnear
      · exact hchild h (hsub hmem) (hfinds.new h hmem).2.1
    · rintro (hnear | ⟨parent, hparent, hrefers, hexcluded⟩)
      · exact .inl hnear
      · by_cases hlatest : parent ∈ latest
        · have hsome := hall h (hw.mem_children.2 ⟨parent, hlatest, hrefers⟩) hexcluded
          rwa [hfinds.isSome_iff, hw.isSome_iff] at hsome
        · exact .inl (hw.closed parent hparent hlatest h hrefers hexcluded)
  refine ⟨fetched, w', hyields, hfinds, hnear, ?_, ?_, ?_⟩
  · intro h e he
    rcases hfinds.only h e he with hold | hmem
    · exact hw.entities_eq h e hold
    · obtain ⟨-, -, e', he', hrefers⟩ := hfinds.new h hmem
      rw [he] at he'
      rwa [Option.some.inj he']
  · exact fun h hh => (hnear h).1 ((hfinds.isSome_iff h).2 (.inr hh))
  · intro h hh hlatest child hrefers hexcluded
    have hold := ((hfinds.isSome_iff h).1 ((hnear h).2 hh)).resolve_right hlatest
    exact .inr ⟨h, (hw.isSome_iff h).1 hold, hrefers, hexcluded⟩

end

theorem descend_nil (g : Guide) (depth : Nat) (w : Walk) : descend g depth [] w = .done w := by
  cases depth <;> rfl

/-- A walk that ends early would find nothing more. -/
theorem descend_succ (g : Guide) (depth : Nat) (handles : List String) (w : Walk) :
    descend g (depth + 1) handles w =
      fetchAll g (w.children handles) w >>= fun found => descend g depth found.1 found.2 := by
  rw [descend]
  congr 1
  funext found
  obtain ⟨fetched, w'⟩ := found
  cases fetched with
  | nil => exact (descend_nil g depth w').symm
  | cons _ _ => rfl

section

variable (hsource : ∀ h ∉ roots, h ∉ g.excluded → source h = site h)

include hsource

/-- All levels together. -/
theorem exists_descend (depth : Nat)
    (hneeded : ∀ h, Near (fun k => referrals (source k)) g.excluded roots (n + depth) h →
      h ∉ roots → needed h ∧ ∃ e, Entity.parse (site h) = .ok e)
    (hw : Explored (fun k => referrals (source k)) g.excluded roots n latest w) :
    ∃ fetched w' latest', Yields (w.Awaits g needed site) (descend g depth latest w)
        (fetches g fetched) w' (w'.Awaits g needed site) ∧
      Finds g.excluded source w fetched w' ∧
      Explored (fun k => referrals (source k)) g.excluded roots (n + depth) latest' w' := by
  induction depth generalizing n latest w with
  | zero => exact ⟨[], w, latest, .done _ _, .refl .., hw⟩
  | succ depth ih =>
      rw [show n + (depth + 1) = n + 1 + depth by omega] at hneeded ⊢
      obtain ⟨fetched, w₁, hyields, hfinds, hw₁⟩ := exists_level hsource
        (fun h hnear => hneeded h (hnear.mono (Nat.le_add_right _ _))) hw
      obtain ⟨more, w₂, latest', hyields', hfinds', hw₂⟩ := ih hneeded hw₁
      refine ⟨fetched ++ more, w₂, latest', ?_, hfinds.trans hfinds', hw₂⟩
      rw [descend_succ, fetches, List.map_append]
      exact hyields.bind hyields'

/-- Going deeper keeps what is found on the way. -/
theorem exists_descend_both (depth further : Nat)
    (hneeded : ∀ h,
      Near (fun k => referrals (source k)) g.excluded roots (n + (depth + further)) h →
        h ∉ roots → needed h ∧ ∃ e, Entity.parse (site h) = .ok e)
    (hw : Explored (fun k => referrals (source k)) g.excluded roots n latest w) :
    ∃ fetched w₁ fetched' w₂ latest',
      Yields (w.Awaits g needed site) (descend g depth latest w) (fetches g fetched) w₁
        (w₁.Awaits g needed site) ∧
      Yields (w.Awaits g needed site) (descend g (depth + further) latest w) (fetches g fetched') w₂
        (w₂.Awaits g needed site) ∧
      Finds g.excluded source w fetched' w₂ ∧
      Explored (fun k => referrals (source k)) g.excluded roots (n + (depth + further)) latest' w₂ ∧
      ∀ h e, w₁.objects.lookup h = some e → w₂.objects.lookup h = some e := by
  induction depth generalizing n latest w with
  | zero =>
      rw [Nat.zero_add] at hneeded ⊢
      obtain ⟨fetched, w', latest', hyields, hfinds, hw'⟩ :=
        exists_descend hsource further hneeded hw
      exact ⟨[], w, fetched, w', latest', .done _ _, hyields, hfinds, hw', hfinds.kept⟩
  | succ depth ih =>
      rw [show depth + 1 + further = depth + further + 1 by omega]
      rw [show n + (depth + 1 + further) = n + 1 + (depth + further) by omega] at hneeded
      rw [show n + (depth + further + 1) = n + 1 + (depth + further) by omega]
      obtain ⟨fetched, w', hyields, hfinds, hw'⟩ := exists_level hsource
        (fun h hnear => hneeded h (hnear.mono (Nat.le_add_right _ _))) hw
      obtain ⟨more, w₁, more', w₂, latest', hyields₁, hyields₂, hfinds₂, hw₂, hkept⟩ :=
        ih hneeded hw'
      refine ⟨fetched ++ more, w₁, fetched ++ more', w₂, latest', ?_, ?_, hfinds.trans hfinds₂,
        hw₂, hkept⟩
      · rw [descend_succ, fetches, List.map_append]
        exact hyields.bind hyields₁
      · rw [descend_succ, fetches, List.map_append]
        exact hyields.bind hyields₂

end

end Walk

/-- The document of the network: the given response, or what the service answers. -/
def networkDocument (service : Service) (target : Target) (o : Options) : Exchange Json :=
  match o.response with
  | some document => pure document
  | none =>
    Web.fetchJson (service.networkUrl target.text) Web.registrationHeaders o.patience

/-- The handles of the entities inside a network that are not excluded, each of them once and in the
order in which it comes first. -/
def rootsOf (o : Options) (document : Json) : List String :=
  Field.distinct ((handlesOf (childrenOf document)).filter fun h => !o.excluded.contains h)

/-- What the entity of a handle refers to. -/
def childrenAt (o : Options) (document : Json) (site : String → Json) (handle : String) :
    List String :=
  referrals (sourceOf o.completeRoots (childrenOf document) site handle)

/-- The document is one of a network, the entities inside it have handles and those that are not
fetched can be read, and all entities that a lookup fetches are delivered when they are asked for
and can be read. -/
structure Readable (service : Service) (o : Options) (document : Json) (site : String → Json)
    (σ : Services) : Prop where
  network : ∃ network, Network.parse document = .ok network
  handles : ∀ root ∈ childrenOf document, ∃ handle, textMember? root "handle" = some handle
  embedded : ∀ h ∉ o.excluded, ∀ root,
    embedded? o.completeRoots (childrenOf document) h = some root →
      ∃ e, Entity.parse root = .ok e
  delivered : ∀ h, Near (childrenAt o document site) o.excluded (rootsOf o document) o.depth h →
    embedded? o.completeRoots (childrenOf document) h = none →
      Delivers service h (site h) σ ∧ ∃ e, Entity.parse (site h) = .ok e

/-- The handles that the entity of a handle refers to in a result. -/
def Result.children (r : Result) (handle : String) : List String :=
  ((r.objects.lookup handle).bind Entity.entities).getD []

/-- The event is a request to the URL. -/
def asksFor (url : String) : IpRegistry.Event → Bool
  | .web request => request.url == url
  | _ => false

theorem countP_fetches (g : Guide) (handle : String) (handles : List String) :
    (Walk.fetches g handles).countP (asksFor (g.service.entityUrl handle)) =
      handles.count handle := by
  rw [Walk.fetches, List.countP_map, List.count]
  refine List.countP_congr fun other _ => ?_
  show (g.service.entityUrl other == g.service.entityUrl handle) = true ↔ (other == handle) = true
  rw [beq_iff_eq, beq_iff_eq, g.service.entityUrl_injective.eq_iff]

variable {target : Target} {registry : Option Registry} {o : Options} {service : Service}
  {document : Json} {site : String → Json} {σ σ' : Services}

theorem obeys_networkDocument (service : Service) (target : Target) (o : Options) :
    Obeys (fun e => ∀ handle, asksFor (service.entityUrl handle) e = false)
      (networkDocument service target o) := by
  rw [networkDocument]
  cases o.response with
  | some document => exact .done document
  | none =>
      refine Web.obeys_fetchJson (fun handle => ?_) fun _ _ => rfl
      rw [asksFor, beq_eq_false_iff_ne]
      intro heq
      have hserves := Service.servesNetwork_entityUrl service handle
      rw [← heq, Service.servesNetwork_iff.2 ⟨_, rfl⟩] at hserves
      cases hserves

/-- What a lookup fetches apart from the network. -/
def IsFetched (o : Options) (document : Json) (site : String → Json) (handle : String) : Prop :=
  Near (childrenAt o document site) o.excluded (rootsOf o document) o.depth handle ∧
    embedded? o.completeRoots (childrenOf document) handle = none

def startOf (document : Json) : Walk :=
  ({} : Walk).learn document

/-- Asking for the network changes nothing for the entities. -/
theorem awaits_start (h : Readable service o document site σ)
    (hdocument : networkDocument service target o σ = (.ok document, σ')) :
    (startOf document).Awaits (guide service o) (IsFetched o document site) site σ' := by
  intro handle hneeded _
  obtain ⟨reply, hreply, hgood⟩ := (h.delivered handle hneeded.1 hneeded.2).1
  refine ⟨reply, ?_, hgood⟩
  have hsame := (obeys_networkDocument service target o).take_fst_eq (service.entityUrl handle)
    (fun request hrequest => ne_of_beq_false (hrequest handle)) σ
  rw [hdocument] at hsame
  exact hsame.trans hreply

theorem mem_rootsOf {handle : String} :
    handle ∈ rootsOf o document ↔
      handle ∈ handlesOf (childrenOf document) ∧ handle ∉ o.excluded := by
  rw [rootsOf, Field.mem_distinct, List.mem_filter, Bool.not_eq_true', Bool.eq_false_iff, ne_eq,
    List.contains_iff_mem]

theorem exists_explored_roots (h : Readable service o document site σ) :
    ∃ fetched w, Yields
        ((startOf document).Awaits (guide service o) (IsFetched o document site) site)
        (Walk.roots (guide service o) o.completeRoots (childrenOf document) [] (startOf document))
        (Walk.fetches (guide service o) fetched) (rootsOf o document, w)
        (w.Awaits (guide service o) (IsFetched o document site) site) ∧
      fetched.Sublist (rootsOf o document) ∧
      w.Explored (childrenAt o document site) o.excluded (rootsOf o document) 0
        (rootsOf o document) := by
  have hlegible : Walk.Legible (guide service o) (IsFetched o document site) site o.completeRoots
      (childrenOf document) [] := by
    refine ⟨h.handles, fun handle _ => h.embedded handle, fun handle hhandle _ hexcluded hnone => ?_⟩
    have hneeded : IsFetched o document site handle :=
      ⟨Near.mono (Nat.zero_le _) (mem_rootsOf.2 ⟨hhandle, hexcluded⟩), hnone⟩
    exact ⟨hneeded, (h.delivered handle hneeded.1 hnone).2⟩
  obtain ⟨fetched, roots, w, hyields, hfinds, hfetched, hroots⟩ :=
    Walk.exists_roots (w := startOf document) hlegible fun handle =>
      iff_of_false (by simp [startOf, Walk.learn]) List.not_mem_nil
  rw [List.nil_append] at hyields hroots
  obtain rfl : roots = rootsOf o document := hroots
  have hkeys (handle : String) :
      (w.objects.lookup handle).isSome = true ↔ handle ∈ rootsOf o document := by
    rw [hfinds.isSome_iff]
    exact or_iff_right (by simp [startOf, Walk.learn])
  refine ⟨fetched, w, hyields, hfetched, hkeys, ?_, fun _ hh => hh,
    fun _ hh hnot => absurd hh hnot⟩
  intro handle e he
  obtain ⟨-, -, e', he', hrefers⟩ := hfinds.new handle ((hkeys handle).1 (by rw [he]; rfl))
  rw [he] at he'
  rwa [Option.some.inj he']

/-- What a lookup gives for the network and the entities that were found. -/
def resultOf (target : Target) (o : Options) (document : Json) (network : Network) (w : Walk) :
    Result where
  query := target.text
  network
  entities := rootsOf o document
  objects := w.objects
  raw := if o.keepRaw then some document else none

theorem yields_expand {before middle after : Services → Prop} {network : Network}
    {asked fetched : List IpRegistry.Event} {w w' : Walk}
    (hnetwork : Network.parse document = .ok network)
    (hroots : Yields before
      (Walk.roots (guide service o) o.completeRoots (childrenOf document) [] (startOf document))
      asked (rootsOf o document, w) middle)
    (hdescend : Yields middle (w.descend (guide service o) o.depth (rootsOf o document)) fetched w'
      after) :
    Yields before (expand target o service document) (asked ++ fetched)
      (resultOf target o document network w') after := by
  have hevents : asked ++ fetched = [] ++ (asked ++ (fetched ++ [])) := by simp
  rw [expand, hnetwork, hevents]
  exact (Yields.done network before).bind (hroots.bind (hdescend.bind (.done _ _)))

/-- A lookup and one that goes deeper: both succeed, the deeper one finds what can be reached,
fetches each entity once, and keeps what the other one finds. -/
theorem exists_expand (target : Target) {depth further : Nat}
    (h : Readable service o document site σ) (hdepth : depth + further = o.depth) :
    ∃ network fetched w₁ fetched' w₂ latest,
      Yields ((startOf document).Awaits (guide service o) (IsFetched o document site) site)
        (expand target { o with depth } service document)
        (Walk.fetches (guide service o) fetched) (resultOf target o document network w₁)
        (w₁.Awaits (guide service o) (IsFetched o document site) site) ∧
      Yields ((startOf document).Awaits (guide service o) (IsFetched o document site) site)
        (expand target o service document)
        (Walk.fetches (guide service o) fetched') (resultOf target o document network w₂)
        (w₂.Awaits (guide service o) (IsFetched o document site) site) ∧
      fetched'.Nodup ∧ (∀ handle ∈ fetched', handle ∉ o.excluded) ∧
      w₂.Explored (childrenAt o document site) o.excluded (rootsOf o document) o.depth latest ∧
      ∀ handle e, w₁.objects.lookup handle = some e → w₂.objects.lookup handle = some e := by
  obtain ⟨network, hnetwork⟩ := h.network
  obtain ⟨asked, w, hroots, hasked, hw⟩ := exists_explored_roots h
  have hnone : ∀ handle ∉ rootsOf o document, handle ∉ o.excluded →
      embedded? o.completeRoots (childrenOf document) handle = none := by
    intro handle hhandle hexcluded
    refine Option.eq_none_iff_forall_ne_some.2 fun root hroot => hhandle ?_
    exact mem_rootsOf.2 ⟨mem_handlesOf_of_embedded? _ _ hroot, hexcluded⟩
  have hsource : ∀ handle ∉ rootsOf o document, handle ∉ o.excluded →
      sourceOf o.completeRoots (childrenOf document) site handle = site handle := by
    intro handle hhandle hexcluded
    rw [sourceOf, hnone handle hhandle hexcluded, Option.getD_none]
  have hneeded : ∀ handle,
      Near (childrenAt o document site) o.excluded (rootsOf o document) (0 + (depth + further))
        handle → handle ∉ rootsOf o document →
      IsFetched o document site handle ∧ ∃ e, Entity.parse (site handle) = .ok e := by
    intro handle hnear hhandle
    rw [Nat.zero_add, hdepth] at hnear
    have hexcluded := hnear.not_mem_excluded fun _ hroot => (mem_rootsOf.1 hroot).2
    have hfetched := hnone handle hhandle hexcluded
    exact ⟨⟨hnear, hfetched⟩, (h.delivered handle hnear hfetched).2⟩
  obtain ⟨fetched, w₁, fetched', w₂, latest, hyields, hyields', hfinds, hw₂, hkept⟩ :=
    Walk.exists_descend_both (g := guide service o) hsource depth further hneeded hw
  rw [hdepth] at hyields'
  rw [Nat.zero_add, hdepth] at hw₂
  refine ⟨network, asked ++ fetched, w₁, asked ++ fetched', w₂, latest, ?_, ?_, ?_, ?_, hw₂, hkept⟩
  · rw [Walk.fetches, List.map_append]
    exact yields_expand (o := { o with depth }) hnetwork hroots hyields
  · rw [Walk.fetches, List.map_append]
    exact yields_expand hnetwork hroots hyields'
  · refine List.nodup_append.2 ⟨(Field.nodup_distinct _).sublist hasked, hfinds.nodup, ?_⟩
    rintro handle hhandle _ hhandle' rfl
    have hsome := (hw.isSome_iff handle).2 (hasked.subset hhandle)
    rw [(hfinds.new handle hhandle').1] at hsome
    cases hsome
  · intro handle hhandle
    rcases List.mem_append.1 hhandle with hhandle | hhandle
    · exact (mem_rootsOf.1 (hasked.subset hhandle)).2
    · exact (hfinds.new handle hhandle).2.1

theorem lookup_apply (hservice : serviceOf registry o.bootstrap = .ok service)
    (hdocument : networkDocument service target o σ = (.ok document, σ')) :
    lookup target registry o σ = expand target o service document σ' := by
  rw [lookup_eq_of_service hservice]
  exact Exchange.bind_of_ok hdocument

/-- What is asked for an entity is asked behind the network. -/
theorem countP_noted_lookup (hservice : serviceOf registry o.bootstrap = .ok service)
    (hdocument : networkDocument service target o σ = (.ok document, σ')) {fetched : List String}
    (hexpand : (expand target o service document).noted σ' =
      Walk.fetches (guide service o) fetched) (handle : String) :
    ((lookup target registry o).noted σ).countP (asksFor (service.entityUrl handle)) =
      fetched.count handle := by
  have hnetwork := obeys_networkDocument service target o
  have hnone : ((networkDocument service target o).noted σ).countP
      (asksFor (service.entityUrl handle)) = 0 := by
    refine List.countP_eq_zero.2 fun e he => ?_
    rw [hnetwork.allowed_of_mem he handle]
    exact Bool.false_ne_true
  have hnoted : (lookup target registry o).noted σ =
      (networkDocument service target o).noted σ ++ Walk.fetches (guide service o) fetched := by
    rw [lookup_eq_of_service hservice, ← hexpand]
    exact Exchange.noted_bind_of_ok (hnetwork.mono fun _ _ => trivial)
      (fun _ => obeys_expand fun _ _ _ => trivial) hdocument
  rw [hnoted, List.countP_append, hnone, Nat.zero_add]
  exact countP_fetches (guide service o) handle fetched

/-- A lookup of a network whose entities are delivered succeeds. It gives the handles of the
entities inside the network, finds exactly the entities that can be reached from those in as many
steps as its depth allows, asks for each of them at most once and for no excluded one, and keeps what
a lookup of less depth finds. -/
theorem lookup_explores (hservice : serviceOf registry o.bootstrap = .ok service)
    (hdocument : networkDocument service target o σ = (.ok document, σ'))
    (h : Readable service o document site σ) :
    ∃ r, (lookup target registry o σ).1 = .ok r ∧
      r.entities = rootsOf o document ∧
      (∀ handle, handle ∈ r.objects.map Prod.fst ↔
        Near r.children o.excluded r.entities o.depth handle) ∧
      (∀ handle, ((lookup target registry o).noted σ).countP
        (asksFor (service.entityUrl handle)) ≤ 1) ∧
      (∀ handle ∈ o.excluded, handle ∉ r.objects.map Prod.fst ∧
        ((lookup target registry o).noted σ).countP (asksFor (service.entityUrl handle)) = 0) ∧
      ∀ depth ≤ o.depth, ∃ r', (lookup target registry { o with depth } σ).1 = .ok r' ∧
        r'.entities = r.entities ∧
        ∀ handle e, r'.objects.lookup handle = some e → r.objects.lookup handle = some e := by
  have hawaits := awaits_start h hdocument
  obtain ⟨network, -, -, fetched, w, latest, -, hyields, hnodup, hwanted, hw, -⟩ :=
    exists_expand target h (Nat.add_zero o.depth)
  obtain ⟨σ'', hrun, hevents, -⟩ := hyields σ' hawaits
  let r := resultOf target o document network w
  have hcount := countP_noted_lookup hservice hdocument
    (Exchange.noted_of_append (by rw [hrun, hevents]))
  have hchildren : ∀ handle,
      Near (childrenAt o document site) o.excluded (rootsOf o document) o.depth handle →
        r.children handle = childrenAt o document site handle := by
    intro handle hnear
    obtain ⟨e, he⟩ := Option.isSome_iff_exists.1 ((hw.isSome_iff handle).2 hnear)
    rw [← hw.entities_eq handle e he]
    exact congrArg (fun found => (Option.bind found Entity.entities).getD []) he
  have hkeys (handle : String) : handle ∈ r.objects.map Prod.fst ↔
      Near r.children o.excluded (rootsOf o document) o.depth handle := by
    rw [Keyed.mem_keys_iff, near_congr hchildren (Nat.le_refl _)]
    exact hw.isSome_iff handle
  have hlookup : (lookup target registry o σ).1 = .ok r := by
    rw [lookup_apply hservice hdocument, hrun]
  refine ⟨r, hlookup, rfl, hkeys, fun handle => ?_, fun handle hexcluded => ⟨?_, ?_⟩,
    fun depth hdepth => ?_⟩
  · rw [hcount]
    exact List.nodup_iff_count_le_one.1 hnodup handle
  · intro hmem
    exact ((hkeys handle).1 hmem).not_mem_excluded (fun _ hroot => (mem_rootsOf.1 hroot).2)
      hexcluded
  · rw [hcount, List.count_eq_zero]
    exact fun hmem => hwanted handle hmem hexcluded
  · obtain ⟨further, hfurther⟩ := Nat.exists_eq_add_of_le hdepth
    obtain ⟨network', _, w₁, _, w₂, _, hyields₁, hyields₂, -, -, -, hkept⟩ :=
      exists_expand target h hfurther.symm
    obtain ⟨_, hrun₁, -⟩ := hyields₁ σ' hawaits
    obtain ⟨_, hrun₂, -⟩ := hyields₂ σ' hawaits
    have hsame : resultOf target o document network' w₂ = r := by
      have hpair := hrun₂.symm.trans hrun
      exact Except.ok.inj (Prod.mk.inj hpair).1
    refine ⟨resultOf target o document network' w₁, ?_, rfl, ?_⟩
    · rw [lookup_apply (o := { o with depth }) hservice hdocument, hrun₁]
    · intro handle e he
      rw [← hsame]
      exact hkept handle e he

/-- A reply that brings a text. -/
def replyOf (text : String) : Web.Reply :=
  ⟨200, text.toList.map fun c => UInt8.ofNat c.toNat⟩

/-- The document that a text writes. -/
def documentOf (text : String) : Json :=
  (Json.parse? (String.ofList (Text.decodeUtf8 (replyOf text).body))).getD .null

theorem acceptJson_replyOf {text : String}
    (h : (Json.parse? (String.ofList (Text.decodeUtf8 (replyOf text).body))).map
      Web.hasRateLimitNotice = some false) :
    Web.acceptJson (replyOf text).body = .ready (documentOf text) := by
  obtain ⟨document, hdocument, hnotice⟩ := Option.map_eq_some_iff.1 h
  rw [Web.acceptJson, documentOf, hdocument]
  show (if Web.hasRateLimitNotice document then _ else _) = _
  rw [hnotice]
  rfl

/-- A network that brings the contact of one of its entities. -/
def cyclicNetwork : Json :=
  .object [("handle", .text "N"), ("entities", .array [
    .object [("handle", .text "A"), ("vcardArray", .array [.text "vcard", .array []]),
      ("entities", .array [.object [("handle", .text "B")]])],
    .object [("handle", .text "B")], .object [("handle", .text "X")],
    .object [("handle", .text "A")]])]

/-- Entities that refer to each other and to one that is excluded. -/
def cyclicEntity (handle : String) : String :=
  if handle = "B" then
    "\x7b\"handle\":\"B\",\"entities\":[\x7b\"handle\":\"A\"\x7d,\x7b\"handle\":\"C\"\x7d]\x7d"
  else
    "\x7b\"handle\":\"C\",\"entities\":[\x7b\"handle\":\"B\"\x7d,\x7b\"handle\":\"X\"\x7d]\x7d"

def cyclicServices : Services where
  web := { standing := [
    ("http://rdap.arin.net/registry/entity/B", some (replyOf (cyclicEntity "B"))),
    ("http://rdap.arin.net/registry/entity/C", some (replyOf (cyclicEntity "C")))] }

def publicTarget : Target :=
  ⟨⟨.v4, 134744072, by decide⟩, by decide⟩

def cyclicOptions : Options where
  response := some cyclicNetwork
  depth := 2
  excluded := ["X"]

theorem exists_ok {ε α : Type} {x : Except ε α} (h : x.toOption.isSome = true) :
    ∃ a, x = .ok a := by
  cases x with
  | ok a => exact ⟨a, rfl⟩
  | error e => cases h

theorem readable_cyclic : Readable (.registry .arin) cyclicOptions cyclicNetwork
    (fun handle => documentOf (cyclicEntity handle)) cyclicServices where
  network := exists_ok (by decide +kernel)
  handles root hroot := by
    have hall : ((childrenOf cyclicNetwork).all fun root =>
      (textMember? root "handle").isSome) = true := by decide +kernel
    exact Option.isSome_iff_exists.1 (List.all_eq_true.1 hall root hroot)
  embedded h _ root hroot := by
    have hall : ((childrenOf cyclicNetwork).all fun root =>
      (Entity.parse root).toOption.isSome) = true := by decide +kernel
    obtain ⟨hfind, -⟩ := Option.filter_eq_some_iff.1 hroot
    exact exists_ok (List.all_eq_true.1 hall root (List.mem_of_find?_eq_some hfind))
  delivered h hnear hfetched := by
    have hmem : h ∈ ["A", "B", "C"] := by
      refine hnear.mem_of_closed ?_ ?_
      · decide +kernel
      · decide +kernel
    simp only [List.mem_cons, List.not_mem_nil, or_false] at hmem
    rcases hmem with rfl | rfl | rfl
    · have hsome : (embedded? cyclicOptions.completeRoots
        (childrenOf cyclicNetwork) "A").isSome = true := by decide +kernel
      rw [hfetched] at hsome
      cases hsome
    · exact ⟨⟨replyOf (cyclicEntity "B"), by decide +kernel, rfl,
        acceptJson_replyOf (by decide +kernel)⟩, exists_ok (by decide +kernel)⟩
    · exact ⟨⟨replyOf (cyclicEntity "C"), by decide +kernel, rfl,
        acceptJson_replyOf (by decide +kernel)⟩, exists_ok (by decide +kernel)⟩

/-- Entities that refer to each other: two around a network, the second one fetched, and a third one
behind it. -/
theorem lookup_explores_cycle :
    serviceOf (some .arin) cyclicOptions.bootstrap = .ok (.registry .arin) ∧
    networkDocument (.registry .arin) publicTarget cyclicOptions cyclicServices =
      (.ok cyclicNetwork, cyclicServices) ∧
    Readable (.registry .arin) cyclicOptions cyclicNetwork
      (fun handle => documentOf (cyclicEntity handle)) cyclicServices ∧
    ∃ r, (lookup publicTarget (some .arin) cyclicOptions cyclicServices).1 = .ok r ∧
      r.entities = ["A", "B"] ∧
      ∀ handle, handle ∈ r.objects.map Prod.fst ↔ Near r.children ["X"] ["A", "B"] 2 handle := by
  obtain ⟨r, hlookup, hentities, hkeys, -⟩ :=
    @lookup_explores publicTarget (some .arin) cyclicOptions (.registry .arin) cyclicNetwork
      (fun handle => documentOf (cyclicEntity handle)) cyclicServices cyclicServices rfl rfl
      readable_cyclic
  have hroots : rootsOf cyclicOptions cyclicNetwork = ["A", "B"] := by decide +kernel
  rw [hroots] at hentities
  refine ⟨rfl, rfl, readable_cyclic, r, hlookup, hentities, ?_⟩
  rw [← hentities]
  exact hkeys

end IpRegistry.Rdap
