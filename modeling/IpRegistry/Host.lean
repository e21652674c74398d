import IpRegistry.Inquiry
import IpRegistry.Json.Record

/-!
The names of the host of an address.
-/

namespace IpRegistry

/-- A host: its first name, its other names and its addresses. -/
structure Host where
  name : String
  aliases : List String
  addresses : List String
  deriving DecidableEq, Repr

namespace Host

def toJson (h : Host) : Json :=
  .ofMembers [("hostname", .text h.name), ("aliases", .ofTexts h.aliases),
    ("addresses", .ofTexts h.addresses)]

/-- Tries a number of times to find the host; an answer without names ends it. -/
def attempt (i : Inquiry) : (tries : Nat) → Exchange Host
  | 0 => .fail (.hostFailed i.address)
  | tries + 1 => do
    match ← Exchange.askHosts i.target.address with
    | .ok (name :: aliases) => return { name, aliases, addresses := [i.address] }
    | .ok [] => .fail (.hostFailed i.address)
    | .error _ => attempt i tries

/-- Looks up the host of the address, with at least one try. -/
def lookup (i : Inquiry) (retryCount : Nat) : Exchange Host :=
  attempt i (max retryCount 1)

end Host

end IpRegistry
