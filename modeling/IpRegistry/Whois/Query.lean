import IpRegistry.Exchange
import IpRegistry.Text.Split
import IpRegistry.Text.Utf8

namespace IpRegistry.Whois

def blockedServers : List String := ["root.rwhois.net"]

def isBlocked (server : String) (additional : List String) : Bool :=
  blockedServers.contains server || additional.contains server

/-- The purposes of a query; they decide how its failure is reported. -/
inductive Purpose where
  | whois
  | asn
  | origin
  deriving DecidableEq, Repr

def Purpose.failure (p : Purpose) (subject : String) : LookupError :=
  match p with
  | whois => .whoisFailed subject
  | asn => .asnFailed subject
  | origin => .originFailed subject

/-- A query, what it is about, how often it is tried, and further servers that must not be asked. -/
structure Query where
  server : String
  port : Nat := 43
  text : String
  retryCount : Nat
  purpose : Purpose
  subject : String
  blocked : List String := []

def rateLimitMark : String := "Query rate limit exceeded"

def errorMarks : List String := ["error 501", "error 230"]

/-- The kinds of answers. -/
inductive Answer where
  | limited
  | failed
  | text (s : String)
  deriving DecidableEq, Repr

def Answer.ofBytes (bytes : List UInt8) : Answer :=
  let s := Text.asciiOnly bytes
  if Text.occursIn rateLimitMark s then .limited
  else if errorMarks.any fun mark => Text.occursIn mark s then .failed
  else .text s

/-- How long to wait after an answer that says that queries come too fast. -/
def rateLimitPause : Nat := 1000

namespace Query

def attempt (q : Query) : (tries : Nat) → Exchange String
  | 0 => .fail (q.purpose.failure q.subject)
  | tries + 1 => do
    match ← Exchange.askWhois q.server q.port q.text with
    | none => q.attempt tries
    | some bytes =>
      match Answer.ofBytes bytes with
      | .limited =>
        if tries = 0 then .fail (.whoisRateLimited q.subject)
        else
          Exchange.sleep rateLimitPause
          q.attempt tries
      | .failed => .fail (q.purpose.failure q.subject)
      | .text s => return s

/-- Sends a query, at least once, unless its server must not be asked. -/
def send (q : Query) : Exchange String :=
  if isBlocked q.server q.blocked then .fail (.blacklisted q.server)
  else q.attempt (max q.retryCount 1)

end Query

end IpRegistry.Whois
