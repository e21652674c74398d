import IpRegistry.Json.Record
import IpRegistry.LookupError
import IpRegistry.Text.Blank

namespace IpRegistry.Rdap

/-- A value of a contact with the kinds that it is marked with, such as a telephone number. -/
structure ContactValue where
  kind : Option String
  value : String
  deriving DecidableEq, Repr

/-- What the properties of a contact say. -/
structure Contact where
  name : Option String := none
  kind : Option String := none
  address : Option (List ContactValue) := none
  phone : Option (List ContactValue) := none
  email : Option (List ContactValue) := none
  role : Option String := none
  title : Option String := none
  deriving DecidableEq, Repr

/-- The list, or nothing if it is empty. -/
def nonempty? {α : Type} (items : List α) : Option (List α) :=
  if items.isEmpty then none else some items

/-- The text, or nothing if it is empty. -/
def nonemptyText? (s : String) : Option String :=
  if s = "" then none else some s

/-- A text value without white space around it, unless it is blank. -/
def usableText? (j : Json) : Option String :=
  (j.asText?.map Text.trim).bind nonemptyText?

/-- The kinds that parameters give: a text as it is, or the texts of an array with commas between
them. -/
def kindOf? (parameters : Json) : Option String :=
  match parameters.get? "type" with
  | some (.text s) => some s
  | some (.array items) => nonemptyText? (",".intercalate (items.filterMap Json.asText?))
  | _ => none

def typedValue? (parameters value : Json) : Option ContactValue :=
  (usableText? value).map fun s => ⟨kindOf? parameters, s⟩

mutual

/-- The texts in nested arrays that are not blank, without white space around them, in order. -/
def components : Json → List String
  | .text s => (usableText? (.text s)).toList
  | .array items => componentsOfList items
  | _ => []

/-- The texts of several values, in order. -/
def componentsOfList : List Json → List String
  | [] => []
  | item :: items => components item ++ componentsOfList items

end

/-- A postal address: the label that the parameters give, or the components of the value. -/
def addressValue? (parameters value : Json) : Option ContactValue :=
  let label := (parameters.get? "label").bind usableText?
  let joined := nonemptyText? ("\n".intercalate (components value))
  (label.or joined).map fun s => ⟨kindOf? parameters, s⟩

/-- Puts a value at the end of a list that may not have begun. -/
def push {α : Type} (held : Option (List α)) (value : Option α) : Option (List α) :=
  match value with
  | none => held
  | some v => some (held.getD [] ++ [v])

namespace Contact

def addProperty (c : Contact) (property : Json) : Contact :=
  match property with
  | .array (.text name :: parameters :: _ :: value :: _) =>
    match name with
    | "fn" => { c with name := usableText? value }
    | "kind" => { c with kind := usableText? value }
    | "role" => { c with role := usableText? value }
    | "title" => { c with title := usableText? value }
    | "adr" => { c with address := push c.address (addressValue? parameters value) }
    | "tel" => { c with phone := push c.phone (typedValue? parameters value) }
    | "email" => { c with email := push c.email (typedValue? parameters value) }
    | _ => c
  | _ => c

def ofProperties (properties : List Json) : Contact :=
  properties.foldl addProperty {}

def parse (j : Json) : Except LookupError Contact :=
  match j with
  | .array properties => .ok (ofProperties properties)
  | _ => .error .contactNotList

end Contact

namespace ContactValue

def toJson (v : ContactValue) : Json :=
  .ofMembers [("type", .ofText? v.kind), ("value", .text v.value)]

def reader : Json.Reader ContactValue := do
  let kind ← .optional "type" Json.asText?
  let value ← .required "value" Json.asText?
  return { kind, value }

def listToJson : Option (List ContactValue) → Json :=
  .ofOption (.ofList toJson)

def listOfJson? : Json → Option (List ContactValue) :=
  Json.listOf reader.read?

end ContactValue

namespace Contact

def toJson (c : Contact) : Json :=
  .ofMembers [
    ("name", .ofText? c.name),
    ("kind", .ofText? c.kind),
    ("address", ContactValue.listToJson c.address),
    ("phone", ContactValue.listToJson c.phone),
    ("email", ContactValue.listToJson c.email),
    ("role", .ofText? c.role),
    ("title", .ofText? c.title)]

def reader : Json.Reader Contact := do
  let name ← .optional "name" Json.asText?
  let kind ← .optional "kind" Json.asText?
  let address ← .optional "address" ContactValue.listOfJson?
  let phone ← .optional "phone" ContactValue.listOfJson?
  let email ← .optional "email" ContactValue.listOfJson?
  let role ← .optional "role" Json.asText?
  let title ← .optional "title" Json.asText?
  return { name, kind, address, phone, email, role, title }

end Contact

end IpRegistry.Rdap
