import IpRegistry.Rdap.Record
import IpRegistry.Rdap.Walk
import IpRegistry.Target

namespace IpRegistry.Rdap

/-- What a lookup does; a given response is read instead of asking for one. -/
structure Options where
  patience : Web.Patience := ⟨3, 120000⟩
  depth : Nat := 0
  excluded : List String := []
  response : Option Json := none
  bootstrap : Bool := false
  completeRoots : Bool := true
  keepRaw : Bool := false

/-- The network of an address, the handles of the entities inside it, and all entities that were
found, by their handles. -/
structure Result where
  query : String
  network : Network
  entities : List String
  objects : Keyed String Entity
  raw : Option Json := none

def objectsToJson : Keyed String Entity → Json :=
  .ofKeyed Entity.toJson

def objectsOfJson? : Json → Option (Keyed String Entity) :=
  Json.keyedOf Entity.ofJson?

def Result.toJson (r : Result) : Json :=
  .ofMembers ([("query", .text r.query), ("network", r.network.toJson),
      ("entities", .ofTexts r.entities), ("objects", objectsToJson r.objects)] ++
    Json.member? "raw" id r.raw)

/-- The service that is asked: a registry must be known unless the lookup is sent on. -/
def serviceOf (registry : Option Registry) (bootstrap : Bool) : Except LookupError Service :=
  if bootstrap then .ok .bootstrap
  else
    match registry with
    | some r => .ok (.registry r)
    | none => .error .registryRequired

def lookup (target : Target) (registry : Option Registry) (o : Options) : Exchange Result := do
  let service ← .ofExcept (serviceOf registry o.bootstrap)
  let document ← match o.response with
    | some document => pure document
    | none => Web.fetchJson (service.networkUrl target.text) Web.registrationHeaders o.patience
  let network ← .ofExcept (Network.parse document)
  let guide : Guide := ⟨service, o.patience, o.excluded⟩
  let start := ({} : Walk).learn document
  let (entities, walk) ← Walk.roots guide o.completeRoots (childrenOf document) [] start
  let walk ← walk.descend guide o.depth entities
  return {
    query := target.text
    network
    entities
    objects := walk.objects
    raw := if o.keepRaw then some document else none }

end IpRegistry.Rdap
