import IpRegistry.Registry
import IpRegistry.Text.Blank
import IpRegistry.Text.Split
import IpRegistry.Text.Unsigned

namespace IpRegistry.Asn

/-- The ways of asking for the autonomous system of an address. -/
inductive Method where
  | dns
  | whois
  | http
  deriving DecidableEq, Repr

def Method.name : Method → String
  | dns => "dns"
  | whois => "whois"
  | http => "http"

def Method.ofName? (s : String) : Option Method :=
  [dns, whois, http].find? fun m => m.name == s

/-- The registry of an address and, where they are known, the number of its autonomous system, the
announced block, the country, the date, the description and the answer they were read from. -/
structure Record where
  registry : Registry
  asn : Option String := none
  cidr : Option String := none
  countryCode : Option String := none
  date : Option String := none
  description : Option String := none
  raw : Option String := none
  source : Method := .dns
  deriving DecidableEq, Repr

namespace Record

def isPartial (r : Record) : Bool :=
  r.source == .http

def prefixLen? (r : Record) : Option Nat := do
  let cidr ← r.cidr
  let (_, length) ← Text.splitLastAt? '/' cidr.toList
  Text.unsigned? 256 (Text.trim (String.ofList length))

def national? (r : Record) : Option NationalRegistry :=
  r.countryCode.bind NationalRegistry.ofCountryCode?

end Record

end IpRegistry.Asn
