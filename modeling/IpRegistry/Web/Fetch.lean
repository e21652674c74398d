import IpRegistry.Exchange
import IpRegistry.Json.Parser
import IpRegistry.Text.Utf8

namespace IpRegistry.Web

/-- What to do with the body of a reply. -/
inductive Body (α : Type) where
  | ready (a : α)
  | limited
  | invalid

/-- How often a request is tried, and how long to wait when requests come too fast. -/
structure Patience where
  retryCount : Nat
  pause : Nat

/-- Tries a request a number of times; `status` is the last status that was no success. -/
def attempt {α : Type} (request : Request) (pause : Nat) (accept : List UInt8 → Body α) :
    (tries : Nat) → (status : Option Nat) → Exchange α
  | 0, status => .fail (.httpFailed request.url status)
  | tries + 1, status => do
    let limited : Exchange α :=
      if tries = 0 then .fail (.httpRateLimited request.url)
      else do
        Exchange.sleep pause
        attempt request pause accept tries status
    match ← Exchange.askWeb request with
    | none => attempt request pause accept tries status
    | some reply =>
      if reply.status = 429 then limited
      else if reply.isSuccess then
        match accept reply.body with
        | .ready a => return a
        | .limited => limited
        | .invalid => .fail (.httpFailed request.url none)
      else attempt request pause accept tries (some reply.status)

def fetch {α : Type} (request : Request) (patience : Patience) (accept : List UInt8 → Body α) :
    Exchange α :=
  attempt request patience.pause accept (max patience.retryCount 1) none

/-- The document holds the notice that requests come too fast. -/
def hasRateLimitNotice (document : Json) : Bool :=
  (((document.get? "notices").bind Json.asArray?).getD []).any fun notice =>
    (notice.get? "title").bind Json.asText? == some "Rate Limit Notice"

def acceptJson (body : List UInt8) : Body Json :=
  match Json.parse? (String.ofList (Text.decodeUtf8 body)) with
  | none => .invalid
  | some document => if hasRateLimitNotice document then .limited else .ready document

def acceptText (body : List UInt8) : Body String :=
  .ready (Text.asciiOnly body)

def registrationHeaders : List (String × String) := [("Accept", "application/rdap+json")]

def pageHeaders : List (String × String) := [("Accept", "text/html")]

def fetchJson (url : String) (headers : List (String × String)) (patience : Patience) :
    Exchange Json :=
  fetch { url, headers } patience acceptJson

/-- Fetches the ASCII text of what a request asks for. -/
def fetchText (request : Request) (patience : Patience) : Exchange String :=
  fetch request patience acceptText

end IpRegistry.Web
