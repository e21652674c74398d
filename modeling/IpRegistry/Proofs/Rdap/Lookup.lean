import IpRegistry.Proofs.Exchange
import IpRegistry.Rdap.Lookup

namespace IpRegistry

open Exchange (Browses Obeys)

namespace Web

variable {allowed : Event → Prop}

theorem obeys_attempt {α : Type} {request : Request} {pause : Nat} {accept : List UInt8 → Body α}
    {tries : Nat} (hrequest : allowed (.web request)) (hpause : 1 < tries → allowed (.sleep pause))
    (status : Option Nat) : Obeys allowed (attempt request pause accept tries status) := by
  induction tries generalizing status with
  | zero => exact .fail _
  | succ tries ih =>
      have hagain : ∀ status, Obeys allowed (attempt request pause accept tries status) :=
        ih fun h => hpause (by omega)
      have hlimited : Obeys allowed (if tries = 0 then .fail (.httpRateLimited request.url)
          else do
            Exchange.sleep pause
            attempt request pause accept tries status : Exchange α) := by
        split
        · exact .fail _
        · exact .bind (.sleep pause (hpause (by omega))) fun _ => hagain status
      rw [attempt]
      refine .bind (.askWeb request hrequest) fun reply => ?_
      cases reply with
      | none => exact hagain status
      | some reply =>
          show Obeys allowed (if reply.status = 429 then _ else _)
          split
          · exact hlimited
          · split
            · cases accept reply.body with
              | ready a => exact .done a
              | limited => exact hlimited
              | invalid => exact .fail _
            · exact hagain _

theorem obeys_fetchJson {url : String} {headers : List (String × String)} {patience : Patience}
    (hrequest : allowed (.web { url, headers }))
    (hpause : 1 < patience.retryCount → allowed (.sleep patience.pause)) :
    Obeys allowed (fetchJson url headers patience) :=
  obeys_attempt hrequest (fun h => hpause (by omega)) _

end Web

namespace Rdap

def networkRequest (s : Service) (address : String) : Web.Request where
  url := s.networkUrl address
  headers := Web.registrationHeaders

def entityRequest (s : Service) (handle : String) : Web.Request where
  url := s.entityUrl handle
  headers := Web.registrationHeaders

/-- What a walk may do: it fetches entities, and pauses if it may try again. -/
def Guide.Admits (g : Guide) : IpRegistry.Event → Prop
  | .web request => ∃ handle, request = entityRequest g.service handle
  | .sleep ms => ms = g.patience.pause ∧ 1 < g.patience.retryCount
  | _ => False

/-- An entity inside a network is fetched when the network does not bring its contact. -/
def isFetched (excluded : List String) (complete : Bool) (document : Json) : Bool :=
  complete && !hasContact document &&
    (textMember? document "handle").any fun handle => !excluded.contains handle

namespace Walk

variable {g : Guide} {allowed : IpRegistry.Event → Prop}

theorem obeys_fetch (w : Walk) (handle : String) : Obeys g.Admits (w.fetch g handle) :=
  .bind (Web.obeys_fetchJson ⟨handle, rfl⟩ fun h => ⟨rfl, h⟩) fun document =>
    .bind (.ofExcept (Entity.parse document)) fun _ => .done _

theorem obeys_take (w : Walk) (handle : String) (document : Json) :
    Obeys allowed (w.take handle document) :=
  .bind (.ofExcept (Entity.parse document)) fun _ => .done _

theorem obeys_roots {complete : Bool} {documents : List Json}
    (h : ∀ document ∈ documents, isFetched g.excluded complete document = true →
      ∀ e, g.Admits e → allowed e) (found : List String) (w : Walk) :
    Obeys allowed (roots g complete documents found w) := by
  induction documents generalizing found w with
  | nil => exact .done _
  | cons document documents ih =>
      have hrest := ih fun other hother => h other (List.mem_cons_of_mem _ hother)
      rw [roots]
      split
      · exact .fail _
      · rename_i handle hhandle
        split
        · exact hrest found w
        · rename_i hnew
          split
          · rename_i hcomplete
            have hfetched : isFetched g.excluded complete document = true := by
              rw [isFetched, hcomplete, hhandle]
              simp only [Bool.or_eq_true, not_or] at hnew
              simp only [Option.any_some, hnew.2, Bool.not_false, Bool.true_and]
            refine .bind ?_ fun w => hrest _ w
            exact (obeys_fetch w handle).mono (h document List.mem_cons_self hfetched)
          · exact .bind (obeys_take w handle document) fun w => hrest _ w

theorem obeys_fetchAll (handles : List String) (w : Walk) :
    Obeys g.Admits (fetchAll g handles w) := by
  induction handles generalizing w with
  | nil => exact .done _
  | cons handle handles ih =>
      rw [fetchAll]
      split
      · exact ih w
      · exact .bind (obeys_fetch w handle) fun w => .bind (ih w) fun _ => .done _

theorem obeys_descend (depth : Nat) (handles : List String) (w : Walk) :
    Obeys g.Admits (descend g depth handles w) := by
  induction depth generalizing handles w with
  | zero => exact .done _
  | succ depth ih =>
      rw [descend]
      refine .bind (obeys_fetchAll _ w) fun result => ?_
      show Obeys g.Admits (if result.1.isEmpty then _ else _)
      split
      · exact .done _
      · exact ih _ _

end Walk

def guide (service : Service) (o : Options) : Guide :=
  ⟨service, o.patience, o.excluded⟩

/-- What a lookup does with the document of a network. -/
def expand (target : Target) (o : Options) (service : Service) (document : Json) :
    Exchange Result := do
  let network ← .ofExcept (Network.parse document)
  let start := ({} : Walk).learn document
  let (entities, walk) ←
    Walk.roots (guide service o) o.completeRoots (childrenOf document) [] start
  let walk ← walk.descend (guide service o) o.depth entities
  return {
    query := target.text
    network
    entities
    objects := walk.objects
    raw := if o.keepRaw then some document else none }

theorem lookup_eq_of_service {target : Target} {registry : Option Registry} {o : Options}
    {service : Service} (h : serviceOf registry o.bootstrap = .ok service) :
    lookup target registry o =
      (match o.response with
      | some document => pure document
      | none => Web.fetchJson (service.networkUrl target.text) Web.registrationHeaders
          o.patience) >>= expand target o service := by
  rw [lookup, h]
  cases o.response <;> rfl

theorem lookup_eq_of_error {target : Target} {registry : Option Registry} {o : Options}
    {e : LookupError} (h : serviceOf registry o.bootstrap = .error e) :
    lookup target registry o = .fail e := by
  rw [lookup, h]
  rfl

variable {target : Target} {registry : Option Registry} {o : Options} {service : Service}
  {allowed : IpRegistry.Event → Prop}

theorem obeys_expand {document : Json}
    (h : 0 < o.depth ∨ (childrenOf document).any (isFetched o.excluded o.completeRoots) = true →
      ∀ e, (guide service o).Admits e → allowed e) :
    Obeys allowed (expand target o service document) := by
  refine .bind (.ofExcept _) fun network => .bind (Walk.obeys_roots ?_ _ _) fun found =>
    .bind ?_ fun walk => .done _
  · intro child hchild hfetched
    exact h (.inr (List.any_eq_true.2 ⟨child, hchild, hfetched⟩))
  · cases hdepth : o.depth with
    | zero => exact .done _
    | succ depth =>
        exact (Walk.obeys_descend _ _ _).mono (h (.inl (by omega)))

theorem obeys_lookup (h : serviceOf registry o.bootstrap = .ok service) :
    Obeys (fun e => e = .web (networkRequest service target.text) ∨ (guide service o).Admits e)
      (lookup target registry o) := by
  rw [lookup_eq_of_service h]
  refine .bind ?_ fun document => obeys_expand fun _ e he => .inr he
  cases o.response with
  | some document => exact .done _
  | none => exact Web.obeys_fetchJson (.inl rfl) fun h => .inr ⟨rfl, h⟩

theorem browses_lookup (target : Target) (registry : Option Registry) (o : Options) :
    Browses (lookup target registry o) := by
  cases h : serviceOf registry o.bootstrap with
  | ok service => exact (obeys_lookup h).browses
  | error e =>
      rw [lookup_eq_of_error h]
      exact .fail e

end Rdap

end IpRegistry
