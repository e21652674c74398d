import IpRegistry.LookupError
import IpRegistry.Text.Blank
import IpRegistry.Text.Unsigned

namespace IpRegistry

abbrev Asn := Nat

namespace Asn

def text (asn : Asn) : String :=
  "AS" ++ toString asn

/-- The characters after the letters AS of either case, if a text starts with them. -/
def dropLetters : List Char → List Char
  | a :: s :: rest =>
    if a.toLower = 'a' ∧ s.toLower = 's' then rest else a :: s :: rest
  | cs => cs

/-- The number of 32 bits that a text writes, with the letters or without. -/
def parse (s : String) : Except LookupError Asn :=
  match Text.unsigned (2 ^ 32) (dropLetters (Text.trim s).toList) with
  | .ok n => .ok n
  | .error _ => .error (.invalidAsn s)

end Asn

end IpRegistry
