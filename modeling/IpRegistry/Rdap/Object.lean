import IpRegistry.Cidr.Collapse
import IpRegistry.Field
import IpRegistry.Rdap.Contact
import IpRegistry.Whois.Header

namespace IpRegistry.Rdap

/-- A notice or a remark. -/
structure Notice where
  title : Option String := none
  description : Option String := none
  links : Option (List String) := none
  deriving DecidableEq, Repr

/-- Something that happened to an object. -/
structure Event where
  action : Option String := none
  timestamp : Option String := none
  actor : Option String := none
  deriving DecidableEq, Repr

/-- What networks and entities have in common. -/
structure Common where
  status : Option (List String) := none
  links : Option (List String) := none
  notices : Option (List Notice) := none
  remarks : Option (List Notice) := none
  events : Option (List Event) := none
  deriving DecidableEq, Repr

/-- A network. -/
structure Network where
  handle : String
  name : Option String := none
  cidr : Option String := none
  startAddress : Option String := none
  endAddress : Option String := none
  ipVersion : Option String := none
  kind : Option String := none
  country : Option String := none
  parentHandle : Option String := none
  common : Common := {}
  deriving DecidableEq, Repr

/-- An entity: a person or an organisation, with the handles of the entities it refers to. -/
structure Entity where
  handle : String
  roles : Option (List String) := none
  contact : Option Contact := none
  entities : Option (List String) := none
  eventsActor : Option (List Event) := none
  common : Common := {}
  deriving DecidableEq, Repr

def textMember? (document : Json) (name : String) : Option String :=
  (document.get? name).bind Json.asText?

/-- The texts of an array, if there are any. -/
def texts? (j : Json) : Option (List String) :=
  j.asArray?.bind fun items => nonempty? (items.filterMap Json.asText?)

/-- The distinct targets of an array of links, if there are any. -/
def links? (j : Json) : Option (List String) :=
  j.asArray?.bind fun items =>
    nonempty? (Field.distinct (items.filterMap fun link => textMember? link "href"))

def objectsOf (items : List Json) : List Json :=
  items.filter fun j => j.asObject?.isSome

def Notice.ofDocument (document : Json) : Notice where
  title := textMember? document "title"
  description := ((document.get? "description").bind texts?).map fun lines => "\n".intercalate lines
  links := (document.get? "links").bind links?

/-- The notices of an array, if it holds any objects. -/
def notices? (j : Json) : Option (List Notice) :=
  j.asArray?.bind fun items => nonempty? ((objectsOf items).map Notice.ofDocument)

def Event.ofDocument (document : Json) : Event where
  action := textMember? document "eventAction"
  timestamp := textMember? document "eventDate"
  actor := textMember? document "eventActor"

/-- The events of an array, if it holds any objects. -/
def events? (j : Json) : Option (List Event) :=
  j.asArray?.bind fun items => nonempty? ((objectsOf items).map Event.ofDocument)

def Common.ofDocument (document : Json) : Common where
  status := (document.get? "status").bind texts?
  links := (document.get? "links").bind links?
  notices := (document.get? "notices").bind notices?
  remarks := (document.get? "remarks").bind notices?
  events := (document.get? "events").bind events?

/-- An end of the range of a network. Unless the network is marked as version 6, zeros that pad the
bytes of a dotted address are removed. -/
def endAddress? (document : Json) (name : String) : Option String :=
  (textMember? document name).map fun s =>
    if textMember? document "ipVersion" = some "v6" then s
    else if s.toList.contains '.' then Cidr.stripOctetZeros s
    else s

/-- The texts of the shortest list of blocks from one end to the other, with a comma and a space
between them. -/
def coverText? (start stop : Option String) : Option String := do
  let start ← start
  let stop ← stop
  let blocks ← (Cidr.coverTexts start stop).toOption
  return ", ".intercalate blocks

def Network.parse (document : Json) : Except LookupError Network :=
  match document with
  | .object _ =>
    match textMember? document "handle" with
    | none => .error .networkWithoutHandle
    | some handle =>
      let startAddress := endAddress? document "startAddress"
      let endAddress := endAddress? document "endAddress"
      .ok {
        handle
        name := textMember? document "name"
        cidr := coverText? startAddress endAddress
        startAddress
        endAddress
        ipVersion := textMember? document "ipVersion"
        kind := textMember? document "type"
        country := textMember? document "country"
        parentHandle := textMember? document "parentHandle"
        common := .ofDocument document }
  | _ => .error .networkNotObject

def childrenOf (document : Json) : List Json :=
  ((document.get? "entities").bind Json.asArray?).getD []

/-- The contact of a document, if it has one. -/
def contactOf (document : Json) : Except LookupError (Option Contact) :=
  match document.get? "vcardArray" with
  | none => .ok none
  | some (.array (_ :: properties :: _)) => (Contact.parse properties).map some
  | some _ => .error .contactNotList

def Entity.parse (document : Json) : Except LookupError Entity :=
  match document with
  | .object _ =>
    match textMember? document "handle" with
    | none => .error .entityWithoutHandle
    | some handle =>
      match contactOf document with
      | .error e => .error e
      | .ok contact =>
        .ok {
          handle
          roles := (document.get? "roles").bind texts?
          contact
          entities := nonempty? (Field.distinct
            ((childrenOf document).filterMap fun child => textMember? child "handle"))
          eventsActor := (document.get? "asEventActor").bind events?
          common := .ofDocument document }
  | _ => .error .entityNotObject

def hasContact (document : Json) : Bool :=
  (document.get? "vcardArray").isSome

/-- The roles that a document gives to the entities inside it, by their handles. -/
def childRoles (document : Json) : List (String × List String) :=
  (childrenOf document).filterMap fun child => do
    let handle ← textMember? child "handle"
    let roles ← (child.get? "roles").bind texts?
    return (handle, roles)

end IpRegistry.Rdap
