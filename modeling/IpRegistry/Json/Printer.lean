import IpRegistry.Json
import IpRegistry.Text.Quoted

namespace IpRegistry.Json

/-- A character as it is written in a JSON text. -/
def escaped (c : Char) : List Char :=
  match c with
  | '"' => ['\\', '"']
  | '\\' => ['\\', '\\']
  | '\n' => ['\\', 'n']
  | '\r' => ['\\', 'r']
  | '\t' => ['\\', 't']
  | '\x08' => ['\\', 'b']
  | '\x0c' => ['\\', 'f']
  | _ =>
    if c.toNat < 0x20 then
      let digits := Text.hexDigits c.toNat
      ['\\', 'u'] ++ List.replicate (4 - digits.length) '0' ++ digits
    else [c]

def renderText (s : String) : List Char :=
  '"' :: s.toList.flatMap escaped ++ ['"']

def Number.render : Number → String
  | natural n => toString n
  | negative n => "-" ++ toString n
  | binary x => x.text

mutual

def renderValue : Json → List Char
  | null => "null".toList
  | bool true => "true".toList
  | bool false => "false".toList
  | number n => n.render.toList
  | text s => renderText s
  | array items => '[' :: renderItems items ++ [']']
  | object members => '\x7b' :: renderMembers members ++ ['\x7d']

def renderItems : List Json → List Char
  | [] => []
  | [item] => renderValue item
  | item :: items => renderValue item ++ ',' :: renderItems items

def renderMembers : List (String × Json) → List Char
  | [] => []
  | [(name, value)] => renderText name ++ ':' :: renderValue value
  | (name, value) :: members => renderText name ++ ':' :: renderValue value ++ ',' :: renderMembers members

end

def render (j : Json) : String :=
  String.ofList (renderValue j)

end IpRegistry.Json
