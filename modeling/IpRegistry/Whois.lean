import IpRegistry.Json.Record
import IpRegistry.Whois.Header
import IpRegistry.Whois.Tables

/-!
The allocations that a WHOIS answer describes, one for each section, and the referral that it may
give to another server.
-/

namespace IpRegistry.Whois

/-- What a section says about its blocks. -/
structure Allocation where
  cidr : Option String := none
  name : Option String := none
  handle : Option String := none
  range : Option String := none
  description : Option String := none
  country : Option String := none
  state : Option String := none
  city : Option String := none
  address : Option String := none
  postalCode : Option String := none
  emails : Option (List String) := none
  created : Option String := none
  updated : Option String := none
  deriving DecidableEq, Repr

namespace Allocation

/-- The allocation with the fields that were found; the others stay as they are. -/
def apply (a : Allocation) (fields : Field.Map) : Allocation where
  cidr := (fields.text? "cidr").or a.cidr
  name := (fields.text? "name").or a.name
  handle := (fields.text? "handle").or a.handle
  range := a.range
  description := (fields.text? "description").or a.description
  country := (fields.text? "country").or a.country
  state := (fields.text? "state").or a.state
  city := (fields.text? "city").or a.city
  address := (fields.text? "address").or a.address
  postalCode := (fields.text? "postal_code").or a.postalCode
  emails := (fields.list? "emails").or a.emails
  created := (fields.text? "created").or a.created
  updated := (fields.text? "updated").or a.updated

def toJson (a : Allocation) : Json :=
  .ofMembers [
    ("cidr", .ofText? a.cidr),
    ("name", .ofText? a.name),
    ("handle", .ofText? a.handle),
    ("range", .ofText? a.range),
    ("description", .ofText? a.description),
    ("country", .ofText? a.country),
    ("state", .ofText? a.state),
    ("city", .ofText? a.city),
    ("address", .ofText? a.address),
    ("postal_code", .ofText? a.postalCode),
    ("emails", .ofTexts? a.emails),
    ("created", .ofText? a.created),
    ("updated", .ofText? a.updated)]

def reader : Json.Reader Allocation := do
  let cidr ← .optional "cidr" Json.asText?
  let name ← .optional "name" Json.asText?
  let handle ← .optional "handle" Json.asText?
  let range ← .optional "range" Json.asText?
  let description ← .optional "description" Json.asText?
  let country ← .optional "country" Json.asText?
  let state ← .optional "state" Json.asText?
  let city ← .optional "city" Json.asText?
  let address ← .optional "address" Json.asText?
  let postalCode ← .optional "postal_code" Json.asText?
  let emails ← .optional "emails" Json.asTexts?
  let created ← .optional "created" Json.asText?
  let updated ← .optional "updated" Json.asText?
  return { cidr, name, handle, range, description, country, state, city, address, postalCode,
           emails, created, updated }

def ofJson? : Json → Option Allocation :=
  reader.read?

end Allocation

/-- The allocations that an answer of a registry describes, with the wanted fields. -/
def allocations (registry : Registry) (answer : String) (wanted : Option (List String)) :
    List Allocation :=
  let cs := answer.toList
  let found := headers registry cs
  let sections := found.map Header.span
  found.mapIdx fun index header =>
    let fields := (table registry).extract cs (Field.sectionBounds sections index) wanted
    ({ cidr := some (blockList header.blocks), range := header.range } : Allocation).apply fields

/-- The allocation that an answer of a referral server describes. -/
def referralAllocation (answer : String) (wanted : Option (List String)) : Allocation :=
  ({} : Allocation).apply (referralTable.extract answer.toList {} wanted)

def referralLine : Pattern :=
  headerLine ["ReferralServer"]
    (.group "val" (.concat [.atLeastOne true Pattern.notNewline, .ofText ":",
      .atLeastOne true Char.isDigit]))

def referral? (value : String) : Option (String × Nat) := do
  let rest ← Text.dropStart? "rwhois://".toList value.toList
  let (host, port) ← Text.splitFirst? [':'] rest
  let port ← Text.unsigned? (2 ^ 16) (Text.trim (String.ofList port))
  return (String.ofList host, port)

/-- The first referral of an answer that can be followed. -/
def findReferral (answer : String) : Option (String × Nat) :=
  let cs := answer.toList
  (referralLine.findAll cs).findSome? fun m => referral? (trimmedValue m cs)

end IpRegistry.Whois
