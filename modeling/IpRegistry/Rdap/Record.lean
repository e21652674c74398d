import IpRegistry.Rdap.Object

namespace IpRegistry.Rdap

namespace Notice

def toJson (n : Notice) : Json :=
  .ofMembers [("title", .ofText? n.title), ("description", .ofText? n.description),
    ("links", .ofTexts? n.links)]

def reader : Json.Reader Notice := do
  let title ← .optional "title" Json.asText?
  let description ← .optional "description" Json.asText?
  let links ← .optional "links" Json.asTexts?
  return { title, description, links }

end Notice

namespace Event

def toJson (e : Event) : Json :=
  .ofMembers [("action", .ofText? e.action), ("timestamp", .ofText? e.timestamp),
    ("actor", .ofText? e.actor)]

def reader : Json.Reader Event := do
  let action ← .optional "action" Json.asText?
  let timestamp ← .optional "timestamp" Json.asText?
  let actor ← .optional "actor" Json.asText?
  return { action, timestamp, actor }

end Event

def noticesToJson : Option (List Notice) → Json :=
  .ofOption (.ofList Notice.toJson)

def eventsToJson : Option (List Event) → Json :=
  .ofOption (.ofList Event.toJson)

namespace Common

def members (c : Common) : List (String × Json) :=
  [("status", .ofTexts? c.status), ("links", .ofTexts? c.links),
    ("notices", noticesToJson c.notices), ("remarks", noticesToJson c.remarks),
    ("events", eventsToJson c.events)]

def reader : Json.Reader Common := do
  let status ← .optional "status" Json.asTexts?
  let links ← .optional "links" Json.asTexts?
  let notices ← .optional "notices" (Json.listOf Notice.reader.read?)
  let remarks ← .optional "remarks" (Json.listOf Notice.reader.read?)
  let events ← .optional "events" (Json.listOf Event.reader.read?)
  return { status, links, notices, remarks, events }

end Common

namespace Network

def toJson (n : Network) : Json :=
  .ofMembers <| [
    ("handle", .text n.handle),
    ("name", .ofText? n.name),
    ("cidr", .ofText? n.cidr),
    ("start_address", .ofText? n.startAddress),
    ("end_address", .ofText? n.endAddress),
    ("ip_version", .ofText? n.ipVersion),
    ("type", .ofText? n.kind),
    ("country", .ofText? n.country),
    ("parent_handle", .ofText? n.parentHandle)] ++ n.common.members

def reader : Json.Reader Network := do
  let handle ← .required "handle" Json.asText?
  let name ← .optional "name" Json.asText?
  let cidr ← .optional "cidr" Json.asText?
  let startAddress ← .optional "start_address" Json.asText?
  let endAddress ← .optional "end_address" Json.asText?
  let ipVersion ← .optional "ip_version" Json.asText?
  let kind ← .optional "type" Json.asText?
  let country ← .optional "country" Json.asText?
  let parentHandle ← .optional "parent_handle" Json.asText?
  let common ← Common.reader
  return { handle, name, cidr, startAddress, endAddress, ipVersion, kind, country, parentHandle,
           common }

def ofJson? : Json → Option Network :=
  reader.readObject?

end Network

namespace Entity

def toJson (e : Entity) : Json :=
  .ofMembers <| [
    ("handle", .text e.handle),
    ("roles", .ofTexts? e.roles),
    ("contact", .ofOption Contact.toJson e.contact),
    ("entities", .ofTexts? e.entities),
    ("events_actor", eventsToJson e.eventsActor)] ++ e.common.members

def reader : Json.Reader Entity := do
  let handle ← .required "handle" Json.asText?
  let roles ← .optional "roles" Json.asTexts?
  let contact ← .optional "contact" Contact.reader.read?
  let entities ← .optional "entities" Json.asTexts?
  let eventsActor ← .optional "events_actor" (Json.listOf Event.reader.read?)
  let common ← Common.reader
  return { handle, roles, contact, entities, eventsActor, common }

def ofJson? : Json → Option Entity :=
  reader.readObject?

end Entity

end IpRegistry.Rdap
