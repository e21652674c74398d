import IpRegistry.Bulk.Schedule

/-!
The lookup of the registration data of many addresses: they are classified by registries first, and
then looked up within the windows of the registries.
-/

namespace IpRegistry.Bulk

/-- What a lookup of many addresses does. -/
structure Options where
  retryCount : Nat := 3
  asnRetryCount : Nat := 3
  depth : Nat := 0
  excluded : List String := []
  length : Nat := 60000
  keepRaw : Bool := false

/-- The reports of the addresses that were found, and the course of the lookups. -/
structure Result where
  reports : Keyed String RdapReport
  stats : Stats

namespace Result

def toJson (r : Result) : Json :=
  .ofMembers [("results", .ofKeyed RdapReport.toJson r.reports), ("stats", r.stats.toJson)]

def reader : Json.Reader Result := do
  let reports ← .required "results" (Json.keyedOf RdapReport.ofJson?)
  let stats ← .required "stats" Stats.ofJson?
  return { reports, stats }

def ofJson? : Json → Option Result :=
  reader.read?

end Result

/-- Looks up one address at the registry of its record, with one try. -/
def lookupOne (o : Options) (address : String) (record : Asn.Record) : Exchange RdapReport := do
  let target ← .ofExcept (Target.parse address)
  let found ← Rdap.lookup target (some record.registry) {
    patience := ⟨1, o.length⟩
    depth := o.depth
    excluded := o.excluded
    keepRaw := o.keepRaw }
  return .ofResult (some record) found none

def plan (o : Options) : Plan where
  tries := max o.retryCount 1
  length := o.length
  lookup := lookupOne o

/-- The statistics of the registries before the first lookup. -/
def totals (pending : Classified) : Keyed Registry RegistryStats :=
  Schedule.order.map fun r =>
    (r, { total := (pending.filter fun entry => entry.2.registry == r).length })

def unclassified (pending : Classified) (addresses : List String) : List String :=
  addresses.filter fun address => !pending.any fun entry => entry.1 == address

/-- Looks up addresses on a machine; white space around them does not matter. -/
def lookupOn {m : Type → Type} [Monad m] [MonadLiftT Exchange m] (k : Machine m)
    (addresses : List String) (o : Options) : m Result := do
  let trimmed := addresses.map Text.trim
  let unique := Field.distinct trimmed
  let pending := classify (← ask unique o.asnRetryCount) unique
  let schedule ← Schedule.run k (plan o) { pending, registries := totals pending }
  return {
    reports := schedule.reports
    stats := {
      inputTotal := addresses.length
      uniqueTotal := unique.length
      lookupTotal := pending.length
      registries := schedule.registries
      unallocated := unclassified pending trimmed } }

/-- Looks up addresses. Only a failure of the classification is a failure of the whole. -/
def lookup (addresses : List String) (o : Options) : Exchange Result :=
  lookupOn .endless addresses o

/-- Looks up addresses on a machine of some capacity. -/
def lookup? (c : Capacity) (addresses : List String) (o : Options) : OptionT Exchange Result :=
  lookupOn c.machine addresses o

end IpRegistry.Bulk
