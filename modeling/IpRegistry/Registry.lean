import IpRegistry.LookupError
import IpRegistry.Text.Uppercase

/-!
The five regional registries, and the national registries of two countries.
-/

namespace IpRegistry

/-- A regional registry. -/
inductive Registry where
  | arin
  | ripencc
  | apnic
  | lacnic
  | afrinic
  deriving DecidableEq, Repr

namespace Registry

def all : List Registry := [arin, ripencc, apnic, lacnic, afrinic]

def name : Registry → String
  | arin => "arin"
  | ripencc => "ripencc"
  | apnic => "apnic"
  | lacnic => "lacnic"
  | afrinic => "afrinic"

def ofName? (s : String) : Option Registry :=
  all.find? fun r => r.name == s

/-- The registry of a name; another text is an unknown registry. -/
def parse (s : String) : Except LookupError Registry :=
  match ofName? s with
  | some r => .ok r
  | none => .error (.unknownRegistry s)

def whoisServer : Registry → String
  | arin => "whois.arin.net"
  | ripencc => "whois.ripe.net"
  | apnic => "whois.apnic.net"
  | lacnic => "whois.lacnic.net"
  | afrinic => "whois.afrinic.net"

end Registry

/-- A national registry. -/
inductive NationalRegistry where
  | jpnic
  | krnic
  deriving DecidableEq, Repr

namespace NationalRegistry

def all : List NationalRegistry := [jpnic, krnic]

def name : NationalRegistry → String
  | jpnic => "jpnic"
  | krnic => "krnic"

def countryCode : NationalRegistry → String
  | jpnic => "JP"
  | krnic => "KR"

/-- The registry of a name; another text is an unknown registry. -/
def parse (s : String) : Except LookupError NationalRegistry :=
  match all.find? fun r => r.name == s with
  | some r => .ok r
  | none => .error (.unknownNational s)

/-- The registry that serves the country of a code, in ASCII letters of either case. -/
def ofCountryCode? (code : String) : Option NationalRegistry :=
  all.find? fun r => r.countryCode == Text.toAsciiUpper code

end NationalRegistry

end IpRegistry
