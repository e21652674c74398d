import IpRegistry.Asn.Answer
import IpRegistry.Asn.Question

namespace IpRegistry.Bulk

abbrev Classified := List (String × Asn.Record)

def ask (addresses : List String) (retryCount : Nat) : Exchange String := do
  let result ← (Whois.Query.send {
    server := Asn.originServer
    text := "begin\nverbose\n" ++ "\n".intercalate addresses ++ "\nend"
    retryCount
    purpose := .asn
    subject := "bulk" }).outcome
  match result with
  | .ok answer => return answer
  | .error e => .fail (if e.kind = .asnLookup then .bulkFailed else e)

/-- The record of a line, if the line is about a wanted address and names a registry. -/
def classifyLine? (wanted : List String) (line : List Char) : Option (String × Asn.Record) :=
  match line.splitOn '|' with
  | _ :: address :: _ =>
    let address := Text.trim (String.ofList address)
    if wanted.contains address then
      (Asn.readWhois (String.ofList line)).toOption.map (address, ·)
    else none
  | _ => none

/-- The records of the lines of an answer after the first one. -/
def classify (answer : String) (wanted : List String) : Classified :=
  ((Text.lines answer.toList).drop 1).filterMap (classifyLine? wanted)

end IpRegistry.Bulk
