import IpRegistry.Address.Parser
import IpRegistry.Cidr
import IpRegistry.Cidr.Error
import IpRegistry.Text.Blank
import IpRegistry.Text.Split
import IpRegistry.Text.Unsigned

namespace IpRegistry.Cidr

def text (c : Cidr) : String :=
  c.first.text ++ "/" ++ toString c.prefixLen

/-- The block of the addresses that agree with `a` in the first `prefixLen` bits, if it has as many. -/
def new (a : Address) (prefixLen : Nat) : Except CidrError Cidr :=
  if h : prefixLen ≤ a.family.bits then .ok (containing a prefixLen h)
  else .error (.prefixTooLong prefixLen a.family.bits)

/-- The block with exactly this first address, whose text `written` is named in an error. -/
def strict (written : String) (a : Address) (prefixLen : Nat) : Except CidrError Cidr :=
  match new a prefixLen with
  | .error e => .error e
  | .ok c => if c.network = a.value then .ok c else .error (.hostBitsSet written prefixLen)

/-- Reads a block; white space around it does not matter. -/
def parse (s : String) : Except CidrError Cidr :=
  let s := Text.trim s
  match Text.splitFirst? ['/'] s.toList with
  | none =>
    match Address.parse? s with
    | none => .error (.invalidAddress s)
    | some a => strict s a a.family.bits
  | some (before, after) =>
    let written := String.ofList before
    match Address.parse? written with
    | none => .error (.invalidAddress written)
    | some a =>
      match Text.unsigned 256 after with
      | .error _ => .error (.unreadablePrefix (String.ofList after))
      | .ok prefixLen => strict written a prefixLen

end IpRegistry.Cidr
