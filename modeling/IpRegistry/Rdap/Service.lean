import IpRegistry.Registry

namespace IpRegistry.Rdap

/-- A service: that of a registry, or the one that sends on to the right registry. -/
inductive Service where
  | registry (r : Registry)
  | bootstrap
  deriving DecidableEq, Repr

namespace Service

def base : Service → String
  | bootstrap => "http://rdap.arin.net/bootstrap"
  | registry .arin => "http://rdap.arin.net/registry"
  | registry .ripencc => "http://rdap.db.ripe.net"
  | registry .apnic => "http://rdap.apnic.net"
  | registry .lacnic => "http://rdap.lacnic.net/rdap"
  | registry .afrinic => "http://rdap.afrinic.net/rdap"

def networkUrl (s : Service) (address : String) : String :=
  s.base ++ "/ip/" ++ address

def entityUrl (s : Service) (handle : String) : String :=
  s.base ++ "/entity/" ++ handle

end Service

end IpRegistry.Rdap
