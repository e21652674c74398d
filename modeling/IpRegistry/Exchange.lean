import IpRegistry.LookupError
import IpRegistry.Services

/-!
Computations that ask services and may fail. Failure does not undo what was asked.
-/

namespace IpRegistry

def Exchange (α : Type) : Type :=
  Services → Except LookupError α × Services

namespace Exchange

variable {α β : Type}

def done (a : α) : Exchange α := fun s => (.ok a, s)

def fail (e : LookupError) : Exchange α := fun s => (.error e, s)

/-- One computation after another; a failure ends both. -/
def andThen (x : Exchange α) (f : α → Exchange β) : Exchange β := fun s =>
  match x s with
  | (.ok a, s) => f a s
  | (.error e, s) => (.error e, s)

instance : Monad Exchange where
  pure := done
  bind := andThen

def ofExcept : Except LookupError α → Exchange α
  | .ok a => done a
  | .error e => fail e

def outcome (x : Exchange α) : Exchange (Except LookupError α) := fun s =>
  let (result, s) := x s
  (.ok result, s)

/-- Sends a query to a WHOIS server; nothing comes back if the connection fails. -/
def askWhois (server : String) (port : Nat) (query : String) : Exchange (Option (List UInt8)) :=
  fun s =>
    let s := s.note (.whois server port query)
    let (answer, whois) := s.whois.take server
    (.ok answer.join, { s with whois })

/-- The reply to a URL that no server answers for. -/
def notFound : Web.Reply := ⟨404, []⟩

/-- Sends a request to a web server; nothing comes back if the connection fails. -/
def askWeb (request : Web.Request) : Exchange (Option Web.Reply) := fun s =>
  let s := s.note (.web request)
  let (answer, web) := s.web.take request.url
  (.ok (answer.getD (some notFound)), { s with web })

def askTexts (name : String) : Exchange NameAnswer := fun s =>
  let s := s.note (.name name)
  (.ok ((s.texts.lookup name).getD (.error .nxDomain)), s)

/-- Asks for the names of the host of an address, whose text is noted. -/
def askHosts (address : Address) : Exchange NameAnswer := fun s =>
  let s := s.note (.name address.text)
  (.ok ((s.hosts.lookup address).getD (.error .nxDomain)), s)

def now : Exchange Nat := fun s => (.ok s.elapsed, s)

def sleep (ms : Nat) : Exchange Unit := fun s =>
  (.ok (), (s.note (.sleep ms)).advance ms)

end Exchange

end IpRegistry
