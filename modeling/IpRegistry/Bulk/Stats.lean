import IpRegistry.Json.Record
import IpRegistry.Keyed
import IpRegistry.Registry

namespace IpRegistry.Bulk

/-- The addresses of a registry whose lookup failed, those that were asked for too fast at least once,
and how many addresses the registry has. -/
structure RegistryStats where
  failed : List String := []
  rateLimited : List String := []
  total : Nat := 0
  deriving DecidableEq, Repr

/-- How many addresses were given, how many different ones, how many have a registry, the course of
the lookups at the registries, and the given addresses without a registry. -/
structure Stats where
  inputTotal : Nat
  uniqueTotal : Nat
  lookupTotal : Nat
  registries : Keyed Registry RegistryStats
  unallocated : List String
  deriving DecidableEq, Repr

namespace RegistryStats

def toJson (s : RegistryStats) : Json :=
  .ofMembers [("failed", .ofTexts s.failed), ("rate_limited", .ofTexts s.rateLimited),
    ("total", .ofNat s.total)]

def reader : Json.Reader RegistryStats := do
  let failed ← .required "failed" Json.asTexts?
  let rateLimited ← .required "rate_limited" Json.asTexts?
  let total ← .required "total" Json.asNat?
  return { failed, rateLimited, total }

/-- The member of a registry. -/
def member (item : Registry × RegistryStats) : String × Json :=
  (item.1.name, item.2.toJson)

def ofMember? (name : String) (j : Json) : Option (Registry × RegistryStats) := do
  return (← Registry.ofName? name, ← reader.read? j)

end RegistryStats

namespace Stats

/-- The members of the statistics, with one for each registry. -/
def members (s : Stats) : List (String × Json) :=
  [("ip_input_total", .ofNat s.inputTotal), ("ip_unique_total", .ofNat s.uniqueTotal),
    ("ip_lookup_total", .ofNat s.lookupTotal)] ++
  s.registries.map RegistryStats.member ++
  [("unallocated_addresses", .ofTexts s.unallocated)]

def toJson (s : Stats) : Json :=
  .ofMembers s.members

/-- The names of the members that are not those of a registry. -/
def ownNames : List String :=
  ["ip_input_total", "ip_unique_total", "ip_lookup_total", "unallocated_addresses"]

def reader : Json.Reader Stats := do
  let inputTotal ← .required "ip_input_total" Json.asNat?
  let uniqueTotal ← .required "ip_unique_total" Json.asNat?
  let lookupTotal ← .required "ip_lookup_total" Json.asNat?
  let registries ← .others ownNames RegistryStats.ofMember?
  let unallocated ← .required "unallocated_addresses" Json.asTexts?
  return { inputTotal, uniqueTotal, lookupTotal, registries, unallocated }

def ofJson? : Json → Option Stats :=
  reader.readObject?

end Stats

end IpRegistry.Bulk
