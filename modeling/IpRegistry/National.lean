import IpRegistry.Json.Record
import IpRegistry.National.Tables
import IpRegistry.Whois.Header

/-!
The allocations that a page of a national registry describes, and the contacts that it names.
-/

namespace IpRegistry.National

open Pattern

/-- A person or an office that answers for an allocation. -/
structure Contact where
  name : Option String := none
  email : Option String := none
  replyEmail : Option String := none
  organization : Option String := none
  division : Option String := none
  title : Option String := none
  phone : Option String := none
  fax : Option String := none
  updated : Option String := none
  deriving DecidableEq, Repr

namespace Contact

def ofFields (fields : Field.Map) : Contact where
  name := fields.text? "name"
  email := fields.text? "email"
  replyEmail := fields.text? "reply_email"
  organization := fields.text? "organization"
  division := fields.text? "division"
  title := fields.text? "title"
  phone := fields.text? "phone"
  fax := fields.text? "fax"
  updated := fields.text? "updated"

/-- The contact that a page describes, unless its date leads out of the calendar. -/
def ofPage? (registry : NationalRegistry) (page : String) : Option Contact :=
  ((contactTable registry).extract? (page.toList ++ ['\n']) {} none).map ofFields

def toJson (c : Contact) : Json :=
  .ofMembers [
    ("name", .ofText? c.name),
    ("email", .ofText? c.email),
    ("reply_email", .ofText? c.replyEmail),
    ("organization", .ofText? c.organization),
    ("division", .ofText? c.division),
    ("title", .ofText? c.title),
    ("phone", .ofText? c.phone),
    ("fax", .ofText? c.fax),
    ("updated", .ofText? c.updated)]

def reader : Json.Reader Contact := do
  let name ← .optional "name" Json.asText?
  let email ← .optional "email" Json.asText?
  let replyEmail ← .optional "reply_email" Json.asText?
  let organization ← .optional "organization" Json.asText?
  let division ← .optional "division" Json.asText?
  let title ← .optional "title" Json.asText?
  let phone ← .optional "phone" Json.asText?
  let fax ← .optional "fax" Json.asText?
  let updated ← .optional "updated" Json.asText?
  return { name, email, replyEmail, organization, division, title, phone, fax, updated }

end Contact

/-- The contacts of an allocation by their roles. -/
structure Contacts where
  admin : Option Contact := none
  tech : Option Contact := none
  deriving DecidableEq, Repr

namespace Contacts

def toJson (c : Contacts) : Json :=
  .ofMembers [("admin", .ofOption Contact.toJson c.admin), ("tech", .ofOption Contact.toJson c.tech)]

def reader : Json.Reader Contacts := do
  let admin ← .optional "admin" Contact.reader.read?
  let tech ← .optional "tech" Contact.reader.read?
  return { admin, tech }

end Contacts

/-- What a page says about a block. -/
structure Allocation where
  cidr : Option String := none
  name : Option String := none
  handle : Option String := none
  range : Option String := none
  country : Option String := none
  address : Option String := none
  postalCode : Option String := none
  nameservers : Option (List String) := none
  created : Option String := none
  updated : Option String := none
  contacts : Contacts := {}
  deriving DecidableEq, Repr

namespace Allocation

def toJson (a : Allocation) : Json :=
  .ofMembers [
    ("cidr", .ofText? a.cidr),
    ("name", .ofText? a.name),
    ("handle", .ofText? a.handle),
    ("range", .ofText? a.range),
    ("country", .ofText? a.country),
    ("address", .ofText? a.address),
    ("postal_code", .ofText? a.postalCode),
    ("nameservers", .ofTexts? a.nameservers),
    ("created", .ofText? a.created),
    ("updated", .ofText? a.updated),
    ("contacts", a.contacts.toJson)]

def reader : Json.Reader Allocation := do
  let cidr ← .optional "cidr" Json.asText?
  let name ← .optional "name" Json.asText?
  let handle ← .optional "handle" Json.asText?
  let range ← .optional "range" Json.asText?
  let country ← .optional "country" Json.asText?
  let address ← .optional "address" Json.asText?
  let postalCode ← .optional "postal_code" Json.asText?
  let nameservers ← .optional "nameservers" Json.asTexts?
  let created ← .optional "created" Json.asText?
  let updated ← .optional "updated" Json.asText?
  let contacts ← .required "contacts" Contacts.reader.read?
  return { cidr, name, handle, range, country, address, postalCode, nameservers, created, updated,
           contacts }

end Allocation

/-- A section of a page: the blocks, the range that goes with them, and where the header stands. -/
abbrev Header := Whois.Header

/-- Lines of JPNIC that give a block as the text of a link. -/
def jpnicLine : Pattern :=
  concat [lineStart, many false notNewline, Pattern.ofText "[Network Number]", Field.blanks,
    atLeastOne false notNewline, Pattern.ofText ">", group "val" (atLeastOne false notNewline),
    Pattern.ofText "</A>", lineEnd]

/-- The header that a line of a page of JPNIC begins. -/
def jpnicHeader? (cs : List Char) (m : Match) : Option Header :=
  match Cidr.parse (Whois.trimmedValue m cs) with
  | .ok block => some ⟨[block], some (Cidr.rangeText block.first block.last), m.whole⟩
  | .error _ => none

/-- Lines of KRNIC that give a range, with something behind it, or a block. -/
def krnicLine : Pattern :=
  let part (name : String) := group name (atLeastOne false notNewline)
  let blank := one inlineBlank
  concat [lineStart, Pattern.ofText "IPv4 Address", atLeastOne true Text.isBlank, Pattern.ofText ":",
    Field.blanks,
    group "val" (alt
      (concat [part "first", blank, Pattern.ofText "-", blank, part "last", blank,
        atLeastOne false notNewline])
      (atLeastOne true notNewline)),
    lineEnd]

/-- The blocks of a line of a page of KRNIC, with their range as text. -/
def krnicBlocks (cs : List Char) (m : Match) : Except CidrError (List Cidr × String) :=
  match m.text? cs "first", m.text? cs "last" with
  | some first, some last =>
    let first := String.ofList first
    let last := String.ofList last
    (Whois.coveringBlocks first last).map fun blocks =>
      (blocks, Text.trim first ++ " - " ++ Text.trim last)
  | _, _ =>
    let value := Whois.trimmedValue m cs
    (Cidr.parse value).map fun block => ([block], value)

/-- The header that a line of a page of KRNIC begins. -/
def krnicHeader? (cs : List Char) (m : Match) : Option Header :=
  match krnicBlocks cs m with
  | .ok (blocks, range) => some ⟨blocks, some range, m.whole⟩
  | .error _ => none

def headers (registry : NationalRegistry) (cs : List Char) : List Header :=
  match registry with
  | .jpnic => (jpnicLine.findAll cs).filterMap (jpnicHeader? cs)
  | .krnic => (krnicLine.findAll cs).filterMap (krnicHeader? cs)

/-- The keys of the contacts that a field names: one on each line for JPNIC, whose contacts are pages
of their own, and the whole text for KRNIC, where it is the contact itself. -/
def contactKeys (registry : NationalRegistry) (field : Option String) : List String :=
  match field with
  | none => []
  | some s =>
    match registry with
    | .jpnic =>
      ((Text.lines s.toList).map fun line => Text.trim (String.ofList line)).filter (· != "")
    | .krnic => [s]

/-- An allocation with the keys of its contacts by their roles. -/
structure Entry where
  allocation : Allocation
  adminKeys : List String
  techKeys : List String

def Entry.ofFields (registry : NationalRegistry) (header : Header) (fields : Field.Map) : Entry where
  allocation :=
    { cidr := some (Whois.blockList header.blocks)
      name := fields.text? "name"
      handle := fields.text? "handle"
      range := header.range
      country := some registry.countryCode
      address := fields.text? "address"
      postalCode := fields.text? "postal_code"
      nameservers := fields.list? "nameservers"
      created := fields.text? "created"
      updated := fields.text? "updated" }
  adminKeys := contactKeys registry (fields.text? "contact_admin")
  techKeys := contactKeys registry (fields.text? "contact_tech")

/-- The entries of a page of a registry, with the wanted fields. There are none if the shift of one of
their dates leads out of the calendar. -/
def entries? (registry : NationalRegistry) (page : String) (wanted : Option (List String)) :
    Option (List Entry) :=
  let cs := page.toList ++ ['\n']
  let found := headers registry cs
  let sections := found.map Whois.Header.span
  let read (index : Nat) (header : Header) : Option Entry :=
    ((table registry).extract? cs (Field.sectionBounds sections index) wanted).map
      (.ofFields registry header)
  (found.mapIdx read).mapM id

/-- The allocations of a page of a registry, without their contacts. -/
def allocations? (registry : NationalRegistry) (page : String) (wanted : Option (List String)) :
    Option (List Allocation) :=
  (entries? registry page wanted).map fun found => found.map Entry.allocation

end IpRegistry.National
