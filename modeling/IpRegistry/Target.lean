import IpRegistry.Address.Parser
import IpRegistry.LookupError
import IpRegistry.Target.Reserved
import IpRegistry.Text.Blank

/-!
Targets of lookups: addresses without a special use, and the names under which they are asked for in
the domain name system.
-/

namespace IpRegistry

/-- An address that can be looked up. -/
structure Target where
  address : Address
  notReserved : address.reservation? = none
  deriving DecidableEq

namespace Target

/-- The target of an address that has no special use. -/
def of (a : Address) : Except LookupError Target :=
  match h : a.reservation? with
  | none => .ok ⟨a, h⟩
  | some r => .error (.reserved a r.name r.rfc)

/-- The target that a text writes; white space around it does not matter. -/
def parse (s : String) : Except LookupError Target :=
  match Address.parse? (Text.trim s) with
  | none => .error (.invalidAddress s)
  | some a => of a

def text (t : Target) : String :=
  t.address.text

/-- The labels of the bytes of a version 4 address, last byte first. -/
def octetLabels (a : Address) : List String :=
  a.octets.reverse.map toString

/-- The labels of groups of a version 6 address: one hexadecimal digit each, last digit first. -/
def nibbleLabels (groups : List Nat) : List String :=
  (groups.flatMap (Address.digitsOf 16 4)).reverse.map fun d => String.ofList (Nat.toDigits 16 d)

/-- The labels under which the origin of an address is asked for. Of a version 6 address the zero
groups at the end are left out. -/
def labels (t : Target) : List String :=
  match t.address.family with
  | .v4 => octetLabels t.address
  | .v6 => nibbleLabels ((t.address.groups.reverse.dropWhile (· == 0)).reverse)

def reversed (t : Target) : String :=
  ".".intercalate t.labels

def originZone : Family → String
  | .v4 => "origin.asn.cymru.com"
  | .v6 => "origin6.asn.cymru.com"

/-- The name under which the origin of the address is asked for. -/
def dnsZone (t : Target) : String :=
  t.reversed ++ "." ++ originZone t.address.family

/-- The name under which the host of the address is asked for. -/
def reversePointer (t : Target) : String :=
  match t.address.family with
  | .v4 => ".".intercalate (octetLabels t.address ++ ["in-addr", "arpa"])
  | .v6 => ".".intercalate (nibbleLabels t.address.groups ++ ["ip6", "arpa"])

end Target

end IpRegistry
