import IpRegistry.Json.Binary64

/-!
JSON values. The members of an object are kept in the order of their names, each name once.
-/

namespace IpRegistry

/-- A JSON number: an integer that fits 64 bits, or a binary number. -/
inductive Json.Number where
  | natural (n : Nat)
  | negative (n : Nat)
  | binary (x : Json.Binary64)
  deriving DecidableEq, Repr

/-- A JSON value; `negative n` is the number `-n`. -/
inductive Json where
  | null
  | bool (b : Bool)
  | number (n : Json.Number)
  | text (s : String)
  | array (items : List Json)
  | object (members : List (String × Json))

namespace Json

instance : Inhabited Json := ⟨null⟩

/-- Puts a member into an ordered list; a member of the same name is replaced. -/
def insertMember (name : String) (value : Json) : List (String × Json) → List (String × Json)
  | [] => [(name, value)]
  | (n, v) :: rest =>
    if name < n then (name, value) :: (n, v) :: rest
    else if name = n then (name, value) :: rest
    else (n, v) :: insertMember name value rest

/-- The object with these members; of two members of one name the later one counts. -/
def ofMembers (members : List (String × Json)) : Json :=
  object (members.foldl (fun acc m => insertMember m.1 m.2 acc) [])

def get? (name : String) : Json → Option Json
  | object members => members.lookup name
  | _ => none

def asText? : Json → Option String
  | text s => some s
  | _ => none

def asArray? : Json → Option (List Json)
  | array items => some items
  | _ => none

def asObject? : Json → Option (List (String × Json))
  | object members => some members
  | _ => none

def asNat? : Json → Option Nat
  | number (.natural n) => some n
  | _ => none

end Json

end IpRegistry
