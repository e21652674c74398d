import IpRegistry.Bulk.Classification
import IpRegistry.Bulk.Machine
import IpRegistry.Bulk.Stats
import IpRegistry.Bulk.Window
import IpRegistry.Report

namespace IpRegistry.Bulk

/-- How often an address is tried, how long a window lasts, and the lookup of an address. -/
structure Plan where
  tries : Nat
  length : Nat
  lookup : String → Asn.Record → Exchange RdapReport

/-- The pending addresses, the windows of the registries, how often addresses failed, the reports that
were found, and the course of the lookups at the registries. -/
structure Schedule where
  pending : Classified
  windows : Keyed Registry Window := []
  failures : Keyed String Nat := []
  limited : List String := []
  reports : Keyed String RdapReport := []
  registries : Keyed Registry RegistryStats

namespace Schedule

/-- The window of a registry admits no lookup and still lasts. -/
def isExhausted (s : Schedule) (now length : Nat) (r : Registry) : Bool :=
  match s.windows.lookup r with
  | some w => w.isExhausted now length
  | none => false

/-- A window of a registry that begins now, unless one still lasts. -/
def openWindow (s : Schedule) (now length : Nat) (r : Registry) : Schedule :=
  match s.windows.lookup r with
  | some w =>
    if w.isExpired now length then { s with windows := s.windows.insert r ⟨now, 0⟩ } else s
  | none => { s with windows := s.windows.insert r ⟨now, 0⟩ }

/-- Counts a lookup in the window of a registry, and says whether that is full then. -/
def count (s : Schedule) (now : Nat) (r : Registry) : Bool × Schedule :=
  let w := ((s.windows.lookup r).getD ⟨now, 0⟩).record
  (w.isFull, { s with windows := s.windows.insert r w })

def saturate (s : Schedule) (now : Nat) (r : Registry) : Schedule :=
  { s with windows := s.windows.insert r (.saturated now) }

def queue (s : Schedule) (r : Registry) : Classified :=
  s.pending.filter fun entry => entry.2.registry == r

/-- The address is not pending any more; of an address that is pending repeatedly, the first one. -/
def remove (s : Schedule) (address : String) : Schedule :=
  { s with pending := s.pending.eraseP fun entry => entry.1 == address }

def succeed (s : Schedule) (address : String) (report : RdapReport) : Schedule :=
  { s.remove address with reports := s.reports.insert address report }

def note (s : Schedule) (r : Registry) (f : RegistryStats → RegistryStats) : Schedule :=
  { s with registries := s.registries.update r {} f }

/-- How often the lookup of an address has failed. -/
def failuresOf (s : Schedule) (address : String) : Nat :=
  (s.failures.lookup address).getD 0

/-- The lookup of an address has failed; with the last try the address is given up. -/
def fail (s : Schedule) (tries : Nat) (r : Registry) (address : String) : Schedule :=
  let s := { s with failures := s.failures.update address 0 (· + 1) }
  if tries ≤ s.failuresOf address then
    (s.remove address).note r fun stats => { stats with failed := stats.failed ++ [address] }
  else s

def limit (s : Schedule) (r : Registry) (address : String) : Schedule :=
  if s.limited.contains address then s
  else
    ({ s with limited := s.limited ++ [address] } : Schedule).note r fun stats =>
      { stats with rateLimited := stats.rateLimited ++ [address] }

/-- A lookup has ended; says whether the registry may be asked for the next address. -/
def settle (s : Schedule) (tries now : Nat) (r : Registry) (address : String)
    (outcome : Except LookupError RdapReport) : Bool × Schedule :=
  let (full, s) := s.count now r
  match outcome with
  | .ok report => (!full, s.succeed address report)
  | .error e =>
    let s := s.fail tries r address
    (false, if e.isRateLimit then (s.limit r address).saturate now r else s)

variable {m : Type → Type} [Monad m] [MonadLiftT Exchange m] (k : Machine m)

def askAll (p : Plan) (r : Registry) : Classified → Schedule → m Schedule
  | [], s => return s
  | (address, record) :: queue, s => do
    let outcome ← (p.lookup address record).outcome
    let (more, s) := s.settle p.tries (← k.now) r address outcome
    k.hold (s.failuresOf address)
    if more then askAll p r queue s else return s

/-- The registries in the order of a pass. -/
def order : List Registry := [.lacnic, .ripencc, .apnic, .afrinic, .arin]

/-- The registry may be asked now. While LACNIC has pending addresses, the others must wait until its
window is full. -/
def mayAsk (s : Schedule) (now length : Nat) (r : Registry) : Bool :=
  (r == .lacnic || (s.queue .lacnic).isEmpty || s.isExhausted now length .lacnic) &&
    !s.isExhausted now length r

/-- One pass over registries, which says whether any was asked. -/
def pass (p : Plan) : List Registry → Schedule → m (Bool × Schedule)
  | [], s => return (false, s)
  | r :: rs, s => do
    let now ← k.now
    if s.mayAsk now p.length r then
      let queue := s.queue r
      let s ← askAll k p r queue (s.openWindow now p.length r)
      let (asked, s) ← pass p rs s
      return (!queue.isEmpty || asked, s)
    else pass p rs s

/-- How long it takes until the first window of a registry with pending addresses ends. -/
def wait (s : Schedule) (now length : Nat) : Nat :=
  let windows := s.pending.filterMap fun entry => s.windows.lookup entry.2.registry
  (windows.map fun w => w.remaining now length).min?.getD length

/-- At most so many passes, with waits after those in which nobody was asked. -/
def passes (p : Plan) : (most : Nat) → Schedule → m Schedule
  | 0, s => return s
  | most + 1, s =>
    if s.pending.isEmpty then return s
    else do
      let (asked, s) ← pass k p order s
      unless asked do
        Exchange.sleep (s.wait (← k.now) p.length)
      passes p most s

/-- A number of passes that suffices: each address is tried so often at most, and a pass in which
nobody is asked is followed by one in which somebody is. -/
def passLimit (p : Plan) (s : Schedule) : Nat :=
  2 * (s.pending.length * p.tries)

def run (p : Plan) (s : Schedule) : m Schedule :=
  passes k p (passLimit p s) s

end Schedule

end IpRegistry.Bulk
