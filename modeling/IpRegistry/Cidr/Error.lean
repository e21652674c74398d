import IpRegistry.Address.Printer

namespace IpRegistry

/-- Causes for which a block or a range is refused. -/
inductive CidrError where
  | unreadablePrefix (text : String)
  | unreadableEndpoint (text : String)
  | invalidAddress (text : String)
  | prefixTooLong (prefixLen limit : Nat)
  | hostBitsSet (address : String) (prefixLen : Nat)
  | familyMismatch (first last : Address)
  | invertedRange (first last : Address)
  deriving DecidableEq, Repr

def CidrError.message : CidrError → String
  | unreadablePrefix text => "Invalid CIDR notation: Invalid prefix: " ++ text
  | unreadableEndpoint text => "Invalid CIDR notation: " ++ text
  | invalidAddress text => "Invalid IP address: " ++ text
  | prefixTooLong n limit => s!"Invalid prefix length: {n} (must be 0-{limit})"
  | hostBitsSet address n => s!"{address}/{n} has host bits set"
  | familyMismatch first last =>
    "Range endpoints are not the same address family: " ++ first.text ++ " - " ++ last.text
  | invertedRange first last =>
    "Range start " ++ first.text ++ " is greater than end " ++ last.text

end IpRegistry
