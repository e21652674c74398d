import IpRegistry.Json

namespace IpRegistry.Json

def ofOption {α : Type} (encode : α → Json) : Option α → Json
  | some a => encode a
  | none => null

def ofList {α : Type} (encode : α → Json) (items : List α) : Json :=
  array (items.map encode)

def ofText? : Option String → Json :=
  ofOption text

def ofTexts : List String → Json :=
  ofList text

def ofTexts? : Option (List String) → Json :=
  ofOption ofTexts

def ofNat (n : Nat) : Json :=
  number (.natural n)

/-- Values by names, as the members of an object. -/
def ofKeyed {α : Type} (encode : α → Json) (items : List (String × α)) : Json :=
  ofMembers (items.map fun (name, a) => (name, encode a))

/-- A member that is left out where there is no value. -/
def member? {α : Type} (name : String) (encode : α → Json) : Option α → List (String × Json)
  | some a => [(name, encode a)]
  | none => []

def nullable {α : Type} (decode : Json → Option α) : Json → Option (Option α)
  | null => some none
  | j => (decode j).map some

def listOf {α : Type} (decode : Json → Option α) : Json → Option (List α)
  | array items => items.mapM decode
  | _ => none

def asTexts? : Json → Option (List String) :=
  listOf asText?

def keyedOf {α : Type} (decode : Json → Option α) : Json → Option (List (String × α))
  | object members => members.mapM fun (name, j) => (decode j).map (name, ·)
  | _ => none

/-- Where a record stands: in a value of its own, or among the members of another record. -/
inductive Place where
  | alone
  | among
  deriving DecidableEq, Repr

/-- Reads one of several named cases: its name, or an object that holds null under it. Among the
members of another record, the object may hold an empty object as well. -/
def caseOf {α : Type} (place : Place) (ofName? : String → Option α) : Json → Option α
  | text name => ofName? name
  | object [(name, null)] => ofName? name
  | object [(name, object [])] => if place = .among then ofName? name else none
  | _ => none

/-- Where the members of a record are read from. -/
inductive Source where
  | named (members : List (String × Json))
  | positional (items : List Json)

/-- A reader of members of a record, one after another. -/
abbrev Reader := StateT Source Option

namespace Reader

variable {α : Type}

def required (name : String) (decode : Json → Option α) : Reader α := fun source =>
  match source with
  | .named members =>
    match members.lookup name with
    | some j => (decode j).map (·, .named members)
    | none => none
  | .positional (j :: items) => (decode j).map (·, .positional items)
  | .positional [] => none

/-- Reads a member that may be null and that an object may lack. -/
def optional (name : String) (decode : Json → Option α) : Reader (Option α) := fun source =>
  match source with
  | .named members =>
    match members.lookup name with
    | some j => (nullable decode j).map (·, .named members)
    | none => some (none, .named members)
  | .positional (j :: items) => (nullable decode j).map (·, .positional items)
  | .positional [] => none

/-- Reads a member that may be lacking, and has a given value then. -/
def withDefault (start : α) (name : String) (decode : Json → Option α) : Reader α := fun source =>
  match source with
  | .named members =>
    match members.lookup name with
    | some j => (decode j).map (·, .named members)
    | none => some (start, .named members)
  | .positional (j :: items) => (decode j).map (·, .positional items)
  | .positional [] => some (start, .positional [])

/-- Reads a record that stands among the members of another one, whose own members have the names
`own`. -/
def among (own : List String) (r : Reader α) : Reader α := fun source =>
  match source with
  | .named members =>
    (r.run (.named (members.filter fun m => !own.contains m.1))).map fun result => (result.1, source)
  | .positional _ => none

/-- Reads all members of an object whose names are not in `own`. -/
def others (own : List String) (decode : String → Json → Option α) : Reader (List α) := fun source =>
  match source with
  | .named members =>
    ((members.filter fun m => !own.contains m.1).mapM fun m => decode m.1 m.2).map (·, source)
  | .positional _ => none

/-- Reads what is there, if it can be read. -/
def attempt (r : Reader α) : Reader (Option α) := fun source =>
  match r.run source with
  | some (a, rest) => some (some a, rest)
  | none => some (none, source)

def readMembers? (r : Reader α) (members : List (String × Json)) : Option α :=
  (r.run (.named members)).map Prod.fst

def read? (r : Reader α) : Json → Option α
  | object members => r.readMembers? members
  | array items =>
    match r.run (.positional items) with
    | some (a, .positional []) => some a
    | _ => none
  | _ => none

/-- Reads a record from an object only. -/
def readObject? (r : Reader α) : Json → Option α
  | object members => r.readMembers? members
  | _ => none

end Reader

end IpRegistry.Json
