import IpRegistry.Exchange

namespace IpRegistry.Bulk

/-- What the lookups of many addresses run on: a clock, and counters of failures. Reading the one and
counting with the others need not be possible at any time. -/
structure Machine (m : Type → Type) where
  now : m Nat
  hold (failures : Nat) : m Unit

/-- A machine whose clock and counters have no end. -/
def Machine.endless : Machine Exchange where
  now := Exchange.now
  hold _ := return

/-- The last time, in milliseconds, that the clock of a machine can tell, and the most failures that
its counters can hold. -/
structure Capacity where
  time : Nat
  failures : Nat := 4294967295

/-- A machine of some capacity, on which a computation breaks off when that is exceeded. -/
def Capacity.machine (c : Capacity) : Machine (OptionT Exchange) where
  now := do
    let now ← Exchange.now
    guard (now ≤ c.time)
    return now
  hold failures := guard (failures ≤ c.failures)

end IpRegistry.Bulk
