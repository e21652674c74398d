import IpRegistry.Asn.Answer
import IpRegistry.National.Lookup
import IpRegistry.Rdap.Lookup
import IpRegistry.Whois.Lookup

/-!
What the combined lookups find out about an address. The members of the record of its autonomous
system stand among the members of a report.
-/

namespace IpRegistry

/-- The autonomous system of an address, the allocations of the regional registry with the one of its
referral, and those of the national registry. -/
structure WhoisReport where
  query : String
  asn : Asn.Record
  allocations : List Whois.Allocation
  referral : Option Whois.Allocation := none
  national : Option National.Result := none
  raw : Option String := none
  rawReferral : Option String := none
  deriving DecidableEq, Repr

/-- The autonomous system of an address, if it was asked for, the registration data, and the
allocations of the national registry. -/
structure RdapReport where
  query : String
  asn : Option Asn.Record := none
  network : Rdap.Network
  entities : List String
  objects : Keyed String Rdap.Entity
  national : Option National.Result := none
  raw : Option Json := none

namespace WhoisReport

def members (r : WhoisReport) : List (String × Json) :=
  [("query", .text r.query)] ++ r.asn.members ++
  [("nets", .ofList Whois.Allocation.toJson r.allocations),
    ("referral", .ofOption Whois.Allocation.toJson r.referral),
    ("nir", .ofOption National.Result.toJson r.national)] ++
  Json.member? "raw" .text r.raw ++ Json.member? "raw_referral" .text r.rawReferral

def toJson (r : WhoisReport) : Json :=
  .ofMembers r.members

/-- The names of the members that are not those of the autonomous system. -/
def ownNames : List String := ["query", "nets", "referral", "nir", "raw", "raw_referral"]

def reader : Json.Reader WhoisReport := do
  let query ← .required "query" Json.asText?
  let asn ← .among ownNames (Asn.Record.reader .among)
  let allocations ← .required "nets" (Json.listOf Whois.Allocation.ofJson?)
  let referral ← .optional "referral" Whois.Allocation.ofJson?
  let national ← .optional "nir" National.Result.ofJson?
  let raw ← .withDefault none "raw" (Json.nullable Json.asText?)
  let rawReferral ← .withDefault none "raw_referral" (Json.nullable Json.asText?)
  return { query, asn, allocations, referral, national, raw, rawReferral }

def ofJson? : Json → Option WhoisReport :=
  reader.readObject?

end WhoisReport

namespace RdapReport

def ofResult (asn : Option Asn.Record) (r : Rdap.Result) (national : Option National.Result) :
    RdapReport :=
  { query := r.query, asn, network := r.network, entities := r.entities, objects := r.objects,
    national, raw := r.raw }

def members (r : RdapReport) : List (String × Json) :=
  [("query", .text r.query)] ++ (r.asn.map Asn.Record.members).getD [] ++
  [("network", r.network.toJson), ("entities", .ofTexts r.entities),
    ("objects", Rdap.objectsToJson r.objects),
    ("nir", .ofOption National.Result.toJson r.national)] ++
  Json.member? "raw" id r.raw

def toJson (r : RdapReport) : Json :=
  .ofMembers r.members

/-- The names of the members that are not those of the autonomous system. -/
def ownNames : List String := ["query", "network", "entities", "objects", "nir", "raw"]

/-- Reads a report; members that are not those of an autonomous system do not matter. -/
def reader : Json.Reader RdapReport := do
  let query ← .required "query" Json.asText?
  let asn ← .attempt (.among ownNames (Asn.Record.reader .among))
  let network ← .required "network" Rdap.Network.ofJson?
  let entities ← .required "entities" Json.asTexts?
  let objects ← .required "objects" Rdap.objectsOfJson?
  let national ← .optional "nir" National.Result.ofJson?
  let raw ← .withDefault none "raw" (Json.nullable some)
  return { query, asn, network, entities, objects, national, raw }

def ofJson? : Json → Option RdapReport :=
  reader.readObject?

end RdapReport

end IpRegistry
