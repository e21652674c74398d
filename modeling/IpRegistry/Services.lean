import IpRegistry.Address
import IpRegistry.Web

/-!
The services that lookups ask, as scripts of their answers, with a clock and a record of what was
asked. A server first gives the answers that are queued for it, one each time, and after that its
standing answer.
-/

namespace IpRegistry

/-- The answers of servers of one kind by their names: queued ones and standing ones. -/
structure Script (α : Type) where
  queued : List (String × α) := []
  standing : List (String × α) := []

namespace Script

variable {α : Type}

def enqueue (s : Script α) (key : String) (a : α) : Script α :=
  { s with queued := s.queued ++ [(key, a)] }

def stand (s : Script α) (key : String) (a : α) : Script α :=
  { s with standing := (key, a) :: s.standing }

/-- The next answer of a server, if it has one, and what remains. -/
def take (s : Script α) (key : String) : Option α × Script α :=
  match s.queued.lookup key with
  | some a => (some a, { s with queued := s.queued.eraseP fun item => key == item.1 })
  | none => (s.standing.lookup key, s)

end Script

/-- Why a name is not answered for. -/
inductive NameFailure where
  | nxDomain
  | noNameservers
  | noAnswer
  | timeout
  | other (reason : String)
  deriving DecidableEq, Repr

/-- The short name of a failure, unless there is a reason of its own. -/
def NameFailure.label? : NameFailure → Option String
  | nxDomain => some "NXDOMAIN"
  | noNameservers => some "NoNameservers"
  | noAnswer => some "NoAnswer"
  | timeout => some "Timeout"
  | other _ => none

/-- The failure of a short name; another text is a reason of its own. -/
def NameFailure.ofText (s : String) : NameFailure :=
  ([nxDomain, noNameservers, noAnswer, timeout].find? fun f => f.label? == some s).getD (other s)

abbrev NameAnswer := Except NameFailure (List String)

/-- Something that was asked, or a wait of some milliseconds. -/
inductive Event where
  | whois (server : String) (port : Nat) (query : String)
  | web (request : Web.Request)
  | name (queried : String)
  | sleep (ms : Nat)
  deriving DecidableEq, Repr

/-- The services: WHOIS servers, which may refuse a connection, web servers, which may fail to reply,
the texts of names and the hosts of addresses, the milliseconds that have passed, and what has
happened so far. -/
structure Services where
  whois : Script (Option (List UInt8)) := {}
  web : Script (Option Web.Reply) := {}
  texts : List (String × NameAnswer) := []
  hosts : List (Address × NameAnswer) := []
  elapsed : Nat := 0
  events : List Event := []

namespace Services

def note (s : Services) (e : Event) : Services :=
  { s with events := s.events ++ [e] }

def advance (s : Services) (ms : Nat) : Services :=
  { s with elapsed := s.elapsed + ms }

end Services

end IpRegistry
