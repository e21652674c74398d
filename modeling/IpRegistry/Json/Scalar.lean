import IpRegistry.Asn.Number
import IpRegistry.Cidr.Format
import IpRegistry.Json.Record
import IpRegistry.Target

namespace IpRegistry

namespace Cidr

def toJson (c : Cidr) : Json :=
  .text c.text

def ofJson? (j : Json) : Option Cidr :=
  j.asText?.bind fun s => (parse s).toOption

end Cidr

namespace Target

def toJson (t : Target) : Json :=
  .text t.text

def ofJson? (j : Json) : Option Target :=
  j.asText?.bind fun s => (parse s).toOption

end Target

namespace Asn

def toJson (asn : Asn) : Json :=
  .ofNat asn

/-- Reads a number of 32 bits. -/
def ofJson? (j : Json) : Option Asn :=
  j.asNat?.filter (· < 2 ^ 32)

end Asn

end IpRegistry
