import IpRegistry.Json

namespace IpRegistry.Json

def isSpace (c : Char) : Bool :=
  c == ' ' || c == '\n' || c == '\t' || c == '\r'

def skipSpace (cs : List Char) : List Char :=
  cs.dropWhile isSpace

def hexValue? (c : Char) : Option Nat :=
  if c.isDigit then some (c.toNat - 48)
  else if 'a' ≤ c ∧ c ≤ 'f' then some (c.toNat - 87)
  else if 'A' ≤ c ∧ c ≤ 'F' then some (c.toNat - 55)
  else none

def readUnit : List Char → Option (Nat × List Char)
  | a :: b :: c :: d :: rest => do
    let a ← hexValue? a
    let b ← hexValue? b
    let c ← hexValue? c
    let d ← hexValue? d
    return (((a * 16 + b) * 16 + c) * 16 + d, rest)
  | _ => none

/-- Reads what follows a backslash and `u`: one character, written as one unit or as a pair. -/
def readEscapedUnit (cs : List Char) : Option (Char × List Char) := do
  let (high, rest) ← readUnit cs
  if 0xDC00 ≤ high ∧ high ≤ 0xDFFF then none
  else if 0xD800 ≤ high ∧ high ≤ 0xDBFF then
    match rest with
    | '\\' :: 'u' :: rest =>
      let (low, rest) ← readUnit rest
      if 0xDC00 ≤ low ∧ low ≤ 0xDFFF then
        return (Char.ofNat (0x10000 + (high - 0xD800) * 0x400 + (low - 0xDC00)), rest)
      else none
    | _ => none
  else return (Char.ofNat high, rest)

/-- The character that a letter after a backslash stands for. -/
def simpleEscape? : Char → Option Char
  | '"' => some '"'
  | '\\' => some '\\'
  | '/' => some '/'
  | 'b' => some '\x08'
  | 'f' => some '\x0c'
  | 'n' => some '\n'
  | 'r' => some '\r'
  | 't' => some '\t'
  | _ => none

/-- Reads a text after its opening quote; `acc` holds the characters so far in reverse. -/
def readText : (fuel : Nat) → (acc : List Char) → List Char → Option (String × List Char)
  | 0, _, _ => none
  | _ + 1, _, [] => none
  | fuel + 1, acc, c :: cs =>
    if c = '"' then some (String.ofList acc.reverse, cs)
    else if c = '\\' then
      match cs with
      | 'u' :: rest =>
        match readEscapedUnit rest with
        | none => none
        | some (d, rest) => readText fuel (d :: acc) rest
      | e :: rest =>
        match simpleEscape? e with
        | none => none
        | some d => readText fuel (d :: acc) rest
      | [] => none
    else if c.toNat < 0x20 then none
    else readText fuel (c :: acc) cs

/-- Takes digits while the number they write stays below `bound`; gives the number and the digits
that were not taken. -/
def accumulate (bound : Nat) : (acc : Nat) → List Char → Nat × List Char
  | acc, [] => (acc, [])
  | acc, c :: cs =>
    let next := acc * 10 + (c.toNat - 48)
    if next < bound then accumulate bound next cs else (acc, c :: cs)

/-- The parts of a number as written. -/
structure NumberText where
  negative : Bool
  whole : List Char
  fraction : Option (List Char)
  exponent : Option (Bool × List Char)

/-- Reads a run of digits that must not be empty. -/
def readDigits (cs : List Char) : Option (List Char × List Char) :=
  match cs.takeWhile Char.isDigit with
  | [] => none
  | digits => some (digits, cs.dropWhile Char.isDigit)

def readFraction : List Char → Option (Option (List Char) × List Char)
  | '.' :: cs => (readDigits cs).map fun r => (some r.1, r.2)
  | cs => some (none, cs)

/-- Reads an optional exponent as its sign and digits. -/
def readExponent : List Char → Option (Option (Bool × List Char) × List Char)
  | [] => some (none, [])
  | c :: cs =>
    if c = 'e' ∨ c = 'E' then
      match cs with
      | '-' :: cs => (readDigits cs).map fun r => (some (true, r.1), r.2)
      | '+' :: cs => (readDigits cs).map fun r => (some (false, r.1), r.2)
      | cs => (readDigits cs).map fun r => (some (false, r.1), r.2)
    else some (none, c :: cs)

def readNumberText (cs : List Char) : Option (NumberText × List Char) := do
  let (negative, cs) := match cs with
    | '-' :: cs => (true, cs)
    | cs => (false, cs)
  let (whole, cs) ← readDigits cs
  if whole.head? = some '0' ∧ 1 < whole.length then none
  else
    let (fraction, cs) ← readFraction cs
    let (exponent, cs) ← readExponent cs
    return (⟨negative, whole, fraction, exponent⟩, cs)

/-- The number that the parts write. Digits that do not fit 64 bits are not counted. -/
def NumberText.value? (t : NumberText) : Option Number :=
  let (significand, beyond) := accumulate (2 ^ 64) 0 t.whole
  if t.fraction = none ∧ t.exponent = none ∧ beyond = [] then
    if !t.negative then some (.natural significand)
    else if 0 < significand ∧ significand ≤ 2 ^ 63 then some (.negative significand)
    else (Binary64.ofParts? true significand 0).map .binary
  else
    let fraction := t.fraction.getD []
    let (significand, unused) := accumulate (2 ^ 64) significand fraction
    let shift : Int := (beyond.length : Int) - ((fraction.length : Int) - unused.length)
    match t.exponent with
    | none => (Binary64.ofParts? t.negative significand shift).map .binary
    | some (negativeExponent, digits) =>
      match accumulate (2 ^ 31) 0 digits with
      | (e, []) =>
        let e : Int := if negativeExponent then -(e : Int) else e
        (Binary64.ofParts? t.negative significand (shift + e)).map .binary
      | _ =>
        if significand ≠ 0 ∧ !negativeExponent then none
        else (Binary64.ofParts? t.negative 0 0).map .binary

mutual

/-- Reads a value; `depth` containers may still be opened around it. -/
def readValue : (fuel depth : Nat) → List Char → Option (Json × List Char)
  | 0, _, _ => none
  | fuel + 1, depth, cs =>
    match skipSpace cs with
    | '[' :: rest =>
      match depth with
      | 0 => none
      | depth + 1 =>
        match skipSpace rest with
        | ']' :: rest => some (array [], rest)
        | rest => (readItems fuel depth rest).map fun r => (array r.1, r.2)
    | '\x7b' :: rest =>
      match depth with
      | 0 => none
      | depth + 1 =>
        match skipSpace rest with
        | '\x7d' :: rest => some (object [], rest)
        | rest => (readMembers fuel depth rest).map fun r => (ofMembers r.1, r.2)
    | '"' :: rest => (readText rest.length [] rest).map fun r => (text r.1, r.2)
    | 'n' :: 'u' :: 'l' :: 'l' :: rest => some (null, rest)
    | 't' :: 'r' :: 'u' :: 'e' :: rest => some (bool true, rest)
    | 'f' :: 'a' :: 'l' :: 's' :: 'e' :: rest => some (bool false, rest)
    | rest => do
      let (parts, rest) ← readNumberText rest
      let n ← parts.value?
      return (number n, rest)

/-- Reads the items of an array and its closing bracket. -/
def readItems : (fuel depth : Nat) → List Char → Option (List Json × List Char)
  | 0, _, _ => none
  | fuel + 1, depth, cs => do
    let (item, rest) ← readValue fuel depth cs
    match skipSpace rest with
    | ',' :: rest =>
      let (items, rest) ← readItems fuel depth rest
      return (item :: items, rest)
    | ']' :: rest => return ([item], rest)
    | _ => none

/-- Reads the members of an object and its closing brace. -/
def readMembers : (fuel depth : Nat) → List Char → Option (List (String × Json) × List Char)
  | 0, _, _ => none
  | fuel + 1, depth, cs =>
    match skipSpace cs with
    | '"' :: rest => do
      let (name, rest) ← readText rest.length [] rest
      match skipSpace rest with
      | ':' :: rest =>
        let (value, rest) ← readValue fuel depth rest
        match skipSpace rest with
        | ',' :: rest =>
          let (members, rest) ← readMembers fuel depth rest
          return ((name, value) :: members, rest)
        | '\x7d' :: rest => return ([(name, value)], rest)
        | _ => none
      | _ => none
    | _ => none

end

def nestingLimit : Nat := 127

def parse? (s : String) : Option Json :=
  let cs := s.toList
  match readValue (2 * cs.length + 2) nestingLimit cs with
  | some (value, rest) => if skipSpace rest = [] then some value else none
  | none => none

end IpRegistry.Json
