import IpRegistry.Address.Printer

/-!
Why a lookup fails. Each cause has a kind, which is what callers act on, and a wording.
-/

namespace IpRegistry

/-- Kinds of failures. -/
inductive ErrorKind where
  | argument
  | reservedAddress
  | asnLookup
  | asnRegistry
  | asnParse
  | asnOriginLookup
  | whoisLookup
  | whoisRateLimit
  | blacklist
  | httpLookup
  | httpRateLimit
  | hostLookup
  | invalidNetwork
  | invalidEntity
  | invalidContact
  deriving DecidableEq, Repr

def ErrorKind.name : ErrorKind → String
  | argument => "net"
  | reservedAddress => "ip_defined"
  | asnLookup => "asn_lookup"
  | asnRegistry => "asn_registry"
  | asnParse => "asn_parse"
  | asnOriginLookup => "asn_origin_lookup"
  | whoisLookup => "whois_lookup"
  | whoisRateLimit => "whois_rate_limit"
  | blacklist => "blacklist"
  | httpLookup => "http_lookup"
  | httpRateLimit => "http_rate_limit"
  | hostLookup => "host_lookup"
  | invalidNetwork => "invalid_network_object"
  | invalidEntity => "invalid_entity_object"
  | invalidContact => "invalid_entity_contact_object"

/-- Causes of a failed lookup. A subject is the address or number that was looked up. -/
inductive LookupError where
  | invalidAddress (text : String)
  | invalidAsn (text : String)
  | unknownNational (text : String)
  | noMethods
  | responseRequired
  | registryRequired
  | reserved (address : Address) (name rfc : String)
  | asnFailed (subject : String)
  | asnDnsFailed (failure subject : String)
  | bulkFailed
  | unknownRegistry (text : String)
  | registryNotFound
  | asnMethodsExhausted
  | tooFewFields (line : String) (expected found : Nat)
  | originFailed (subject : String)
  | originMethodsExhausted
  | whoisFailed (subject : String)
  | whoisRateLimited (subject : String)
  | blacklisted (server : String)
  | httpFailed (url : String) (status : Option Nat)
  | httpRateLimited (url : String)
  | hostFailed (address : String)
  | networkNotObject
  | networkWithoutHandle
  | entityNotObject
  | entityWithoutHandle
  | contactNotList
  deriving DecidableEq, Repr

namespace LookupError

def kind : LookupError → ErrorKind
  | invalidAddress _ | invalidAsn _ | unknownNational _ | noMethods | responseRequired
  | registryRequired => .argument
  | reserved .. => .reservedAddress
  | asnFailed _ | asnDnsFailed .. | bulkFailed => .asnLookup
  | unknownRegistry _ | registryNotFound | asnMethodsExhausted => .asnRegistry
  | tooFewFields .. => .asnParse
  | originFailed _ | originMethodsExhausted => .asnOriginLookup
  | whoisFailed _ => .whoisLookup
  | whoisRateLimited _ => .whoisRateLimit
  | blacklisted _ => .blacklist
  | httpFailed .. => .httpLookup
  | httpRateLimited _ => .httpRateLimit
  | hostFailed _ => .hostLookup
  | networkNotObject | networkWithoutHandle => .invalidNetwork
  | entityNotObject | entityWithoutHandle => .invalidEntity
  | contactNotList => .invalidContact

/-- The failure is that a server kept limiting the rate of queries. -/
def isRateLimit (e : LookupError) : Bool :=
  e.kind == .whoisRateLimit || e.kind == .httpRateLimit

/-- What is said after the subject of a lookup that was limited. -/
def rateLimitAdvice : String :=
  "Rate limit exceeded, wait and try again (possibly a temporary block)."

def message : LookupError → String
  | invalidAddress text => text ++ " is not a valid IP address"
  | invalidAsn text => "Invalid ASN: " ++ text
  | unknownNational text => "Unknown NIR: " ++ text
  | noMethods => "methods argument requires at least one of dns, whois, http."
  | responseRequired => "response argument required when is_offline is set"
  | registryRequired => "asn_registry is required unless bootstrap is set"
  | reserved address name rfc =>
    "IPv" ++ toString address.family.version ++ " address " ++ address.text ++
      " is already defined as " ++ name ++ " via " ++ rfc ++ "."
  | asnFailed subject => "ASN lookup failed for " ++ subject ++ "."
  | asnDnsFailed failure subject =>
    "ASN lookup failed (DNS " ++ failure ++ ") for " ++ subject ++ "."
  | bulkFailed => "ASN bulk lookup failed."
  | unknownRegistry text => "ASN registry " ++ text ++ " is not known."
  | registryNotFound => "ASN registry lookup failed."
  | asnMethodsExhausted => "ASN lookup failed with no more methods to try."
  | tooFewFields line expected found =>
    "Parsing failed for \"" ++ line ++ "\" with exception: expected " ++ toString expected ++
      " fields, found " ++ toString found ++ "."
  | originFailed subject => "ASN origin WHOIS lookup failed for " ++ subject ++ "."
  | originMethodsExhausted => "ASN origin lookup failed with no more methods to try."
  | whoisFailed subject => "WHOIS lookup failed for " ++ subject ++ "."
  | whoisRateLimited subject => "Whois lookup failed for " ++ subject ++ ". " ++ rateLimitAdvice
  | blacklisted server => "The server " ++ server ++ " is blacklisted."
  | httpFailed url none => "HTTP lookup failed for " ++ url ++ "."
  | httpFailed url (some status) =>
    "HTTP lookup failed for " ++ url ++ " with error code " ++ toString status ++ "."
  | httpRateLimited url => "HTTP lookup failed for " ++ url ++ ". " ++ rateLimitAdvice
  | hostFailed address => "Host lookup failed for " ++ address ++ "."
  | networkNotObject | entityNotObject => "JSON result must be a dict."
  | networkWithoutHandle | entityWithoutHandle => "Handle missing, json output not parsed."
  | contactNotList => "JSON result must be a list."

end LookupError

end IpRegistry
