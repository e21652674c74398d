import IpRegistry.Inquiry
import IpRegistry.Whois
import IpRegistry.Whois.Query

namespace IpRegistry.Whois

/-- What a lookup does; a given response is read instead of asking for one, and an offline lookup
asks nobody. -/
structure Options where
  retryCount : Nat := 3
  response : Option String := none
  followReferral : Bool := false
  ignoreReferralFailure : Bool := false
  blocked : List String := []
  wanted : Option (List String) := none
  offline : Bool := false
  keepRaw : Bool := false

/-- The allocations for an address and the one of the referral, and what they were read from. -/
structure Result where
  query : String
  allocations : List Allocation
  raw : Option String := none
  referral : Option Allocation := none
  rawReferral : Option String := none
  deriving DecidableEq, Repr

namespace Result

def toJson (r : Result) : Json :=
  .ofMembers ([("query", .text r.query), ("nets", .ofList Allocation.toJson r.allocations)] ++
    Json.member? "raw" .text r.raw ++
    [("referral", .ofOption Allocation.toJson r.referral)] ++
    Json.member? "raw_referral" .text r.rawReferral)

def reader : Json.Reader Result := do
  let query ← .required "query" Json.asText?
  let allocations ← .required "nets" (Json.listOf Allocation.ofJson?)
  let raw ← .withDefault none "raw" (Json.nullable Json.asText?)
  let referral ← .optional "referral" Allocation.ofJson?
  let rawReferral ← .withDefault none "raw_referral" (Json.nullable Json.asText?)
  return { query, allocations, raw, referral, rawReferral }

def ofJson? : Json → Option Result :=
  reader.read?

end Result

/-- Asks for the address at the server of a registry, or at another one; only the server of ARIN
takes the flags for a full answer. -/
def ask (i : Inquiry) (registry : Registry) (server : Option (String × Nat)) (retryCount : Nat)
    (blocked : List String) : Exchange String :=
  let flags := if registry = .arin ∧ server = none then "n + " else ""
  let (host, port) := server.getD (registry.whoisServer, 43)
  Query.send {
    server := host
    port
    text := flags ++ i.address ++ "\r\n"
    retryCount
    purpose := .whois
    subject := i.address
    blocked }

/-- The failure says that the server of a referral must not be asked or does not answer. -/
def isReferralFailure (e : LookupError) : Bool :=
  e.kind == .blacklist || e.kind == .whoisLookup

/-- Asks the server of a referral; there may be no answer if failures are ignored. -/
def askReferral (i : Inquiry) (registry : Registry) (o : Options) (server : String × Nat) :
    Exchange (Option String) := do
  match ← (ask i registry (some server) o.retryCount o.blocked).outcome with
  | .ok text => return some text
  | .error e =>
    if o.ignoreReferralFailure && isReferralFailure e then return none else .fail e

/-- The answer to the referral of a response, if there is one and it is to be followed. -/
def followReferral (i : Inquiry) (registry : Registry) (o : Options) (response : String) :
    Exchange (Option String) :=
  if o.followReferral && !o.offline then
    match findReferral response with
    | some server => askReferral i registry o server
    | none => .done none
  else .done none

/-- Looks up the allocations that a registry has for the address. -/
def lookup (i : Inquiry) (registry : Registry) (o : Options) : Exchange Result := do
  let response ← match o.response with
    | some response => pure response
    | none =>
      if o.offline then .fail .responseRequired
      else ask i registry none o.retryCount o.blocked
  let referral ← followReferral i registry o response
  return {
    query := i.address
    allocations := allocations registry response o.wanted
    raw := if o.keepRaw then some response else none
    referral := referral.map fun text => referralAllocation text o.wanted
    rawReferral := if o.keepRaw then referral else none }

end IpRegistry.Whois
