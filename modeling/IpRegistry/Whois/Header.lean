import IpRegistry.Cidr.Collapse
import IpRegistry.Field.Shape
import IpRegistry.Registry

namespace IpRegistry.Whois

open Pattern

/-- The texts of blocks, with a comma and a space between them. -/
def blockList (blocks : List Cidr) : String :=
  ", ".intercalate (blocks.map Cidr.text)

/-- A header: its blocks, the range that goes with them, and where it stands. -/
structure Header where
  blocks : List Cidr
  range : Option String
  span : Span
  deriving DecidableEq, Repr

/-- A line that begins with one of several keys, a colon and blanks. -/
def headerLine (keys : List String) (value : Pattern) : Pattern :=
  concat [lineStart, oneOf (keys.map Pattern.ofText), Pattern.ofText ":", Field.blanks, value, lineEnd]

def wholeValue : Pattern :=
  group "val" (atLeastOne true notNewline)

/-- A value that is the first and the last address of a range around a hyphen between blanks, or any
other value. -/
def rangeValue : Pattern :=
  let part (name : String) (greedy : Bool) := group name (atLeastOne greedy notNewline)
  let hyphen := concat [one inlineBlank, Pattern.ofText "-", one inlineBlank]
  group "val" (alt (concat [part "first" false, hyphen, part "last" true])
    (atLeastOne true notNewline))

def value (m : Match) (cs : List Char) : String :=
  String.ofList ((m.text? cs "val").getD [])

/-- The value of a header without white space around it. -/
def trimmedValue (m : Match) (cs : List Char) : String :=
  Text.trim (value m cs)

/-- The range of a block in prefix notation, or the text as it is. -/
def displayRange (s : String) : String :=
  if s.toList.contains '/' then
    match Cidr.parse s with
    | .ok block => Cidr.rangeText block.first block.last
    | .error _ => s
  else s

/-- The pieces of a text between commas that a space follows. -/
def listPieces (s : String) : List String :=
  (Text.splitOn ", ".toList s.toList).map String.ofList

/-- The shortest list of blocks from one address to another. -/
def coveringBlocks (first last : String) : Except CidrError (List Cidr) :=
  match Address.parse? (Text.trim first) with
  | none => .error (.invalidAddress first)
  | some a =>
    match Address.parse? (Text.trim last) with
    | none => .error (.invalidAddress last)
    | some b => (Cidr.summarize a b).map Cidr.collapse

def arinRange : Pattern :=
  headerLine ["NetRange"] wholeValue

def arinBlocks : Pattern :=
  headerLine ["CIDR"] wholeValue

/-- The last range whose line starts at `earliest` or later and before `before`. -/
def rangeBetween (ranges : List (Nat × String)) (earliest before : Nat) : Option String :=
  (ranges.reverse.find? fun r => r.1 < before && earliest ≤ r.1).map fun r => displayRange r.2

/-- The headers among lines of blocks, each with the last range between the line before it and
itself. -/
def arinHeadersFrom (cs : List Char) (ranges : List (Nat × String)) :
    (previousEnd : Nat) → List Match → List Header
  | _, [] => []
  | previousEnd, m :: rest =>
    let range := rangeBetween ranges previousEnd m.whole.start
    let later := arinHeadersFrom cs ranges m.whole.stop rest
    match (listPieces (value m cs)).mapM Cidr.parse with
    | .ok blocks => ⟨blocks, range, m.whole⟩ :: later
    | .error _ => later

def arinHeaders (cs : List Char) : List Header :=
  let ranges := (arinRange.findAll cs).map fun m => (m.whole.start, trimmedValue m cs)
  arinHeadersFrom cs ranges 0 (arinBlocks.findAll cs)

/-- The keys of the lines that give a block or a range. -/
def networkKeys : List String := ["inetnum", "inet6num", "route"]

def lacnicBlocks : Pattern :=
  headerLine networkKeys wholeValue

/-- Completes the address of a block of which trailing zero bytes have been left out. -/
def expandBlock (s : String) : String :=
  let cs := (Text.trim s).toList
  let dots := cs.count '.'
  if dots = 0 ∨ 3 ≤ dots then String.ofList cs
  else
    let zeros := (List.replicate (3 - dots) ['.', '0']).flatten
    match Text.splitFirst? ['/'] cs with
    | some (address, length) => String.ofList (address ++ zeros ++ '/' :: length)
    | none => String.ofList (cs ++ zeros)

/-- The header that a line of an answer of LACNIC begins. -/
def lacnicHeader? (cs : List Char) (m : Match) : Option Header :=
  let value := trimmedValue m cs
  match (listPieces value).mapM fun piece => Cidr.parse (expandBlock piece) with
  | .ok blocks => some ⟨blocks, some (displayRange value), m.whole⟩
  | .error _ => none

def lacnicHeaders (cs : List Char) : List Header :=
  (lacnicBlocks.findAll cs).filterMap (lacnicHeader? cs)

def otherBlocks : Pattern :=
  headerLine networkKeys rangeValue

/-- The blocks of a value that is a range or a block. -/
def rangeBlocks (cs : List Char) (m : Match) (value : String) : Except CidrError (List Cidr) :=
  match m.text? cs "first", m.text? cs "last" with
  | some first, some last => coveringBlocks (String.ofList first) (String.ofList last)
  | _, _ => (Cidr.parse value).map fun block => [block]

def otherHeader? (cs : List Char) (m : Match) : Option Header :=
  let value := trimmedValue m cs
  match rangeBlocks cs m value with
  | .ok blocks => some ⟨blocks, some (displayRange value), m.whole⟩
  | .error _ => none

/-- The headers of an answer of RIPE NCC, APNIC or AFRINIC. -/
def otherHeaders (cs : List Char) : List Header :=
  (otherBlocks.findAll cs).filterMap (otherHeader? cs)

def headers : Registry → List Char → List Header
  | .arin => arinHeaders
  | .lacnic => lacnicHeaders
  | _ => otherHeaders

end IpRegistry.Whois
