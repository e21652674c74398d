import IpRegistry.Inquiry
import IpRegistry.Origin
import IpRegistry.Whois.Query

namespace IpRegistry.Origin

/-- The ways of asking for routes. -/
inductive Method where
  | whois
  | http
  deriving DecidableEq, Repr

def Method.ofName? : String → Option Method
  | "whois" => some whois
  | "http" => some http
  | _ => none

/-- What a lookup does; a given response is read instead of asking for one. -/
structure Options where
  methods : List Method := [.whois, .http]
  retryCount : Nat := 3
  response : Option (Form × String) := none
  wanted : Option (List String) := none
  keepRaw : Bool := false

/-- The routes of an autonomous system, and the response they were read from. -/
structure Result where
  query : String
  routes : List Route
  raw : Option String := none
  deriving DecidableEq, Repr

def Result.toJson (r : Result) : Json :=
  .ofMembers ([("query", .text r.query), ("nets", .ofList Route.toJson r.routes)] ++
    Json.member? "raw" .text r.raw)

def routeServer : String := "whois.radb.net"

/-- Asks a WHOIS server for the routes of a number. -/
def askWhois (asn : String) (retryCount : Nat) (server : String) (port : Nat) : Exchange String :=
  Whois.Query.send {
    server
    port
    text := " -i origin " ++ asn ++ "\r\n"
    retryCount
    purpose := .origin
    subject := asn }

/-- The request for the page with the routes of a number. -/
def pageRequest (asn : String) : Web.Request where
  url := "http://www.radb.net/query"
  method := .post
  headers := Web.pageHeaders
  form := some [("advanced_query", "1"), ("query", "Query"), ("-T option", "inet-rtr"),
    ("ip_option", ""), ("-i", "1"), ("-i option", "origin"), ("keywords", asn)]

def askBy (i : Inquiry) (retryCount : Nat) (asn : String) : Method → Exchange (Form × String)
  | .whois => do return (.plain, ← askWhois asn retryCount routeServer 43)
  | .http => do return (.page, ← Web.fetchText (pageRequest asn) (i.patience retryCount))

/-- The first response that is not blank. -/
def askFirst (i : Inquiry) (retryCount : Nat) (asn : String) :
    List Method → Exchange (Form × String)
  | [] => .fail .originMethodsExhausted
  | method :: methods => do
    match ← (askBy i retryCount asn method).outcome with
    | .ok (form, text) =>
      if Text.isBlankText text then askFirst i retryCount asn methods else return (form, text)
    | .error _ => askFirst i retryCount asn methods

/-- Looks up the routes of a number, written with the letters AS or without. -/
def lookup (i : Inquiry) (asn : String) (o : Options) : Exchange Result := do
  let query := (← .ofExcept (Asn.parse asn)).text
  let (form, text) ← match o.response with
    | some response => pure response
    | none => askFirst i o.retryCount query o.methods
  return {
    query
    routes := routes form text o.wanted
    raw := if o.keepRaw then some text else none }

end IpRegistry.Origin
