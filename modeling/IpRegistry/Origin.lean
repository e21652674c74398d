import IpRegistry.Asn.Number
import IpRegistry.Json.Record
import IpRegistry.Whois.Header
import IpRegistry.Whois.Tables

/-!
The routes that an autonomous system originates, as a routing registry lists them: in a plain answer,
one field a line, or in a web page, where a break ends a field.
-/

namespace IpRegistry.Origin

open Pattern

/-- The forms of an answer. -/
inductive Form where
  | plain
  | page
  deriving DecidableEq, Repr

/-- A route. -/
structure Route where
  cidr : Option String := none
  description : Option String := none
  maintainer : Option String := none
  updated : Option String := none
  source : Option String := none
  deriving DecidableEq, Repr

namespace Route

def toJson (r : Route) : Json :=
  .ofMembers [
    ("cidr", .ofText? r.cidr),
    ("description", .ofText? r.description),
    ("maintainer", .ofText? r.maintainer),
    ("updated", .ofText? r.updated),
    ("source", .ofText? r.source)]

def reader : Json.Reader Route := do
  let cidr ← .optional "cidr" Json.asText?
  let description ← .optional "description" Json.asText?
  let maintainer ← .optional "maintainer" Json.asText?
  let updated ← .optional "updated" Json.asText?
  let source ← .optional "source" Json.asText?
  return { cidr, description, maintainer, updated, source }

def ofJson? : Json → Option Route :=
  reader.read?

end Route

def fieldEnd : Form → Pattern
  | .plain => Field.newline
  | .page => Pattern.ofText "<br>"

def table (form : Form) : Field.Table :=
  let field (name key : String) : Field.Spec :=
    ⟨name, Field.keyed [key] [Field.shortValue, fieldEnd form], .text⟩
  Whois.contiguousTable [field "description" "descr", field "maintainer" "mnt-by",
    field "updated" "changed", field "source" "source"] none

def routeLine : Form → Pattern
  | .plain => Whois.headerLine ["route6", "route"] Whois.wholeValue
  | .page =>
    concat [oneOf [Pattern.ofText "route6", Pattern.ofText "route"], Pattern.ofText ":", Field.blanks,
      group "val" (atLeastOne false notNewline), Pattern.ofText "<br>"]

/-- A section of an answer: its block and where its header stands. -/
structure Header where
  block : Cidr
  span : Span
  deriving DecidableEq, Repr

/-- The headers of the routes whose value is a block. -/
def headers (form : Form) (cs : List Char) : List Header :=
  ((routeLine form).findAll cs).filterMap fun m =>
    match Cidr.parse (Whois.trimmedValue m cs) with
    | .ok block => some ⟨block, m.whole⟩
    | .error _ => none

def routes (form : Form) (answer : String) (wanted : Option (List String)) : List Route :=
  let cs := answer.toList
  let found := headers form cs
  let sections := found.map Header.span
  found.mapIdx fun index header =>
    let fields := (table form).extract cs (Field.sectionBounds sections index) wanted
    { cidr := some header.block.text
      description := fields.text? "description"
      maintainer := fields.text? "maintainer"
      updated := fields.text? "updated"
      source := fields.text? "source" }

end IpRegistry.Origin
