import IpRegistry.Asn.Record
import IpRegistry.Json.Record

namespace IpRegistry.Asn

def isPadding (c : Char) : Bool :=
  c == ' ' || c == '"' || c == '\n' || c == '\r'

def clean (field : List Char) : String :=
  String.ofList (Text.strip isPadding field)

/-- A field, or nothing if it is empty. -/
def field? (fields : List (List Char)) (index : Nat) : Option String :=
  let s := clean (fields[index]?.getD [])
  if s = "" then none else some s

/-- Where the fields of a record stand in a line. -/
structure Layout where
  count : Nat
  asn : Nat
  cidr : Option Nat
  countryCode : Nat
  registry : Nat
  date : Nat
  description : Option Nat
  source : Method
  deriving DecidableEq, Repr

namespace Layout

def terse : Layout := ⟨5, 0, some 1, 2, 3, 4, none, .dns⟩

def verbose : Layout := ⟨5, 0, none, 1, 2, 3, some 4, .dns⟩

def whois : Layout := ⟨7, 0, some 2, 3, 4, 5, some 6, .whois⟩

/-- Reads a line; a line with too few fields is refused before an unknown registry is. -/
def read (layout : Layout) (line : List Char) : Except LookupError Record :=
  let fields := line.splitOn '|'
  if fields.length < layout.count then
    .error (.tooFewFields (String.ofList line) layout.count fields.length)
  else
    match Registry.parse (clean (fields[layout.registry]?.getD [])) with
    | .error e => .error e
    | .ok registry => .ok {
        registry
        asn := field? fields layout.asn
        cidr := layout.cidr.bind (field? fields)
        countryCode := (field? fields layout.countryCode).map Text.toUpper
        date := field? fields layout.date
        description := layout.description.bind (field? fields)
        source := layout.source }

end Layout

def readDns (s : String) : Except LookupError Record :=
  Layout.terse.read s.toList

/-- Reads an answer of the domain name system that describes a number. -/
def readVerboseDns (s : String) : Except LookupError Record :=
  Layout.verbose.read s.toList

/-- Reads the first line with a vertical bar of a WHOIS answer, or the whole answer if there is none. -/
def readWhois (s : String) : Except LookupError Record :=
  let line := ((Text.lines s.toList).find? fun line => line.contains '|').getD s.toList
  Layout.whois.read line

def organisations : List (String × Registry) := [
  ("ARIN", .arin),
  ("VR-ARIN", .arin),
  ("RIPE", .ripencc),
  ("APNIC", .apnic),
  ("LACNIC", .lacnic),
  ("AFRINIC", .afrinic),
  ("DNIC", .arin)]

/-- The registry of an organisation; of the additional ones the last one of its name counts, before
the known ones. The case of letters does not matter. -/
def registryOf? (additional : List (String × Registry)) (handle : String) : Option Registry :=
  let known := additional.reverse.map (fun o => (Text.toUpper o.1, o.2)) ++ organisations
  known.lookup (Text.toUpper handle)

def networksOf (document : Json) : List Json :=
  match (document.get? "nets").bind (Json.get? "net") with
  | some (.array nets) => nets
  | some (.object members) => [.object members]
  | _ => []

/-- The registry of the last network of a document whose organisation is known. -/
def readHttp (additional : List (String × Registry)) (document : Json) : Except LookupError Record :=
  let registry? := (networksOf document).reverse.findSome? fun net =>
    (((net.get? "orgRef").bind (Json.get? "@handle")).bind Json.asText?).bind
      (registryOf? additional)
  match registry? with
  | some registry => .ok { registry, source := .http }
  | none => .error .registryNotFound

/-- The record with more fixed bits in its announced block; the held one on ties. -/
def moreSpecific (held candidate : Record) : Record :=
  match candidate.prefixLen?, held.prefixLen? with
  | some c, some h => if h < c then candidate else held
  | some _, none => candidate
  | none, _ => held

/-- The first record with the most fixed bits in its announced block. -/
def mostSpecific : List Record → Option Record
  | [] => none
  | r :: rs => some (rs.foldl moreSpecific r)

namespace Record

def members (r : Record) : List (String × Json) :=
  [("asn_registry", .text r.registry.name),
    ("asn", .ofText? r.asn),
    ("asn_cidr", .ofText? r.cidr),
    ("asn_country_code", .ofText? r.countryCode),
    ("asn_date", .ofText? r.date),
    ("asn_description", .ofText? r.description)] ++
  Json.member? "raw" .text r.raw ++
  [("asn_source", .text r.source.name)]

def toJson (r : Record) : Json :=
  .ofMembers r.members

def reader (place : Json.Place) : Json.Reader Record := do
  let registry ← .required "asn_registry" (Json.caseOf place Registry.ofName?)
  let asn ← .optional "asn" Json.asText?
  let cidr ← .optional "asn_cidr" Json.asText?
  let countryCode ← .optional "asn_country_code" Json.asText?
  let date ← .optional "asn_date" Json.asText?
  let description ← .optional "asn_description" Json.asText?
  let raw ← .withDefault none "raw" (Json.nullable Json.asText?)
  let source ← .withDefault .dns "asn_source" (Json.caseOf place Method.ofName?)
  return { registry, asn, cidr, countryCode, date, description, raw, source }

def ofJson? : Json → Option Record :=
  (reader .alone).read?

end Record

end IpRegistry.Asn
