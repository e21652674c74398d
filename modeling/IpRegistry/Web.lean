/-!
Requests to web servers and their replies.
-/

namespace IpRegistry.Web

/-- Ways of asking a web server. -/
inductive Method where
  | get
  | post
  deriving DecidableEq, Repr

def Method.name : Method → String
  | get => "GET"
  | post => "POST"

/-- A request, with the form that it sends along. -/
structure Request where
  url : String
  method : Method := .get
  headers : List (String × String) := []
  form : Option (List (String × String)) := none
  deriving DecidableEq, Repr

/-- A reply: a status code and a body. -/
structure Reply where
  status : Nat
  body : List UInt8
  deriving DecidableEq, Repr

def Reply.isSuccess (r : Reply) : Bool :=
  200 ≤ r.status && r.status < 300

end IpRegistry.Web
