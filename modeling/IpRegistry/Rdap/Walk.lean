import IpRegistry.Keyed
import IpRegistry.Rdap.Object
import IpRegistry.Rdap.Service
import IpRegistry.Web.Fetch

namespace IpRegistry.Rdap

/-- Whom a walk asks, how patiently, and the handles that it leaves out. -/
structure Guide where
  service : Service
  patience : Web.Patience
  excluded : List String

/-- What a walk has found: entities by their handles, and the roles that documents gave to the
entities inside them, of which the first ones of a handle count. -/
structure Walk where
  objects : Keyed String Entity := []
  roles : List (String × List String) := []

namespace Walk

/-- The walk knows the roles that a document gives as well. -/
def learn (w : Walk) (document : Json) : Walk :=
  { w with roles := w.roles ++ childRoles document }

def add (w : Walk) (handle : String) (e : Entity) : Walk :=
  { w with objects := w.objects.insert handle e }

def isSettled (w : Walk) (g : Guide) (handle : String) : Bool :=
  (w.objects.lookup handle).isSome || g.excluded.contains handle

/-- The handles that the entities of some handles refer to. -/
def children (w : Walk) (handles : List String) : List String :=
  handles.flatMap fun handle => ((w.objects.lookup handle).bind Entity.entities).getD []

/-- Fetches an entity. The roles that are known for its handle replace its own. -/
def fetch (w : Walk) (g : Guide) (handle : String) : Exchange Walk := do
  let document ← Web.fetchJson (g.service.entityUrl handle) Web.registrationHeaders g.patience
  let entity ← .ofExcept (Entity.parse document)
  let roles := (w.roles.lookup handle).or entity.roles
  return (w.learn document).add handle { entity with roles }

def take (w : Walk) (handle : String) (document : Json) : Exchange Walk := do
  let entity ← .ofExcept (Entity.parse document)
  return (w.learn document).add handle entity

/-- Finds the entities inside a network, and gives their handles. Those without a contact are fetched
if `complete` is set. -/
def roots (g : Guide) (complete : Bool) :
    List Json → List String → Walk → Exchange (List String × Walk)
  | [], found, w => .done (found, w)
  | document :: documents, found, w =>
    match textMember? document "handle" with
    | none => .fail .entityWithoutHandle
    | some handle =>
      if found.contains handle || g.excluded.contains handle then
        roots g complete documents found w
      else do
        let w ←
          if complete && !hasContact document then w.fetch g handle
          else w.take handle document
        roots g complete documents (found ++ [handle]) w

/-- Fetches the entities that are not settled, and gives their handles. -/
def fetchAll (g : Guide) : List String → Walk → Exchange (List String × Walk)
  | [], w => .done ([], w)
  | handle :: handles, w =>
    if w.isSettled g handle then fetchAll g handles w
    else do
      let w ← w.fetch g handle
      let (fetched, w) ← fetchAll g handles w
      return (handle :: fetched, w)

def descend (g : Guide) : (depth : Nat) → List String → Walk → Exchange Walk
  | 0, _, w => .done w
  | depth + 1, handles, w => do
    let (fetched, w) ← fetchAll g (w.children handles) w
    if fetched.isEmpty then return w else descend g depth fetched w

end Walk

end IpRegistry.Rdap
