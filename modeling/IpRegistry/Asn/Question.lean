import IpRegistry.Inquiry
import IpRegistry.Text.Split
import IpRegistry.Whois.Query

namespace IpRegistry.Asn

/-- Asks for the texts of a name on behalf of a subject. -/
def askTexts (name subject : String) : Exchange (List String) := do
  match ← Exchange.askTexts name with
  | .ok texts => return texts
  | .error failure =>
    match failure.label? with
    | some label => .fail (.asnDnsFailed label subject)
    | none => .fail (.asnFailed subject)

def askOrigin (i : Inquiry) : Exchange (List String) :=
  askTexts i.target.dnsZone i.address

/-- The letters AS in one case and a number, without the letters. -/
def bareNumber (asn : String) : String :=
  let s := Text.trim asn
  let rest := (Text.dropStart? "AS".toList s.toList).or (Text.dropStart? "as".toList s.toList)
  (rest.map String.ofList).getD s

def descriptionZone : String := "asn.cymru.com"

def askDescription (asn : String) : Exchange String := do
  let subject := "AS" ++ bareNumber asn
  match ← askTexts (subject ++ "." ++ descriptionZone) subject with
  | text :: _ => return text
  | [] => .fail (.asnFailed subject)

/-- The WHOIS server that is asked for the origins of addresses. -/
def originServer : String := "whois.cymru.com"

/-- Asks a WHOIS server for the line about the address. -/
def askWhois (i : Inquiry) (retryCount : Nat) : Exchange String :=
  Whois.Query.send {
    server := originServer
    text := " -r -a -c -p -f " ++ i.address ++ "\r\n"
    retryCount
    purpose := .asn
    subject := i.address }

/-- Where the document about the networks of the address is. -/
def networksUrl (i : Inquiry) : String :=
  "http://whois.arin.net/rest/nets;q=" ++ i.address ++
    "?showDetails=true&showARIN=true&showNonArinTopLevelNet=true&ext=netref2"

/-- Asks for the document about the networks of the address. -/
def askHttp (i : Inquiry) (retryCount : Nat) : Exchange Json := do
  let headers := [("Accept", "application/json")]
  match ← (Web.fetchJson (networksUrl i) headers (i.patience retryCount)).outcome with
  | .ok document => return document
  | .error _ => .fail (.asnFailed i.address)

end IpRegistry.Asn
