import IpRegistry.Address

namespace IpRegistry.Address

def hexDigit? (c : Char) : Option Nat :=
  if c.isDigit then some (c.toNat - 48)
  else if 'a' ≤ c ∧ c ≤ 'f' then some (c.toNat - 87)
  else if 'A' ≤ c ∧ c ≤ 'F' then some (c.toNat - 55)
  else none

/-- The longest run of digits at the start, as values, and what follows it. -/
def takeDigits (digit? : Char → Option Nat) : List Char → List Nat × List Char
  | [] => ([], [])
  | c :: cs =>
    match digit? c with
    | none => ([], c :: cs)
    | some d => (d :: (takeDigits digit? cs).1, (takeDigits digit? cs).2)

/-- Reads a decimal byte: one to three digits, a leading zero only as the number zero. -/
def readOctet (cs : List Char) : Option (Nat × List Char) :=
  let (digits, rest) := takeDigits (fun c => if c.isDigit then some (c.toNat - 48) else none) cs
  let value := ofDigits 10 digits
  if digits = [] ∨ 3 < digits.length ∨ (digits.head? = some 0 ∧ 1 < digits.length) ∨ 256 ≤ value then
    none
  else some (value, rest)

def readChar (expected : Char) : List Char → Option (List Char)
  | [] => none
  | c :: cs => if c = expected then some cs else none

def readDotOctet (cs : List Char) : Option (Nat × List Char) :=
  (readChar '.' cs).bind readOctet

def readOctets (cs : List Char) : Option (List Nat × List Char) := do
  let (a, cs) ← readOctet cs
  let (b, cs) ← readDotOctet cs
  let (c, cs) ← readDotOctet cs
  let (d, cs) ← readDotOctet cs
  return ([a, b, c, d], cs)

def readGroup (cs : List Char) : Option (Nat × List Char) :=
  let (digits, rest) := takeDigits hexDigit? cs
  if digits = [] ∨ 4 < digits.length then none else some (ofDigits 16 digits, rest)

/-- What stands between groups: nothing before the first one, a colon before each other one. -/
def readSeparator (first : Bool) (cs : List Char) : Option (List Char) :=
  if first then some cs else readChar ':' cs

/-- The groups read so far, and whether the last two were written as a version 4 address. -/
structure GroupRun where
  groups : List Nat
  dotted : Bool

/-- Reads as many groups as there are, at most `limit`; the last two may be in dotted form. -/
def readGroups : (limit : Nat) → (first : Bool) → List Char → GroupRun × List Char
  | 0, _, cs => (⟨[], false⟩, cs)
  | limit + 1, first, cs =>
    match if limit = 0 then none else (readSeparator first cs).bind readOctets with
    | some (octets, rest) => (⟨[ofDigits 256 (octets.take 2), ofDigits 256 (octets.drop 2)], true⟩, rest)
    | none =>
      match (readSeparator first cs).bind readGroup with
      | none => (⟨[], false⟩, cs)
      | some (group, rest) =>
        let (run, rest) := readGroups limit false rest
        (⟨group :: run.groups, run.dotted⟩, rest)

/-- Reads a version 6 address as its eight groups. -/
def readSixGroups (cs : List Char) : Option (List Nat × List Char) :=
  let (front, rest) := readGroups 8 true cs
  if front.groups.length = 8 then some (front.groups, rest)
  else if front.dotted then none
  else
    match (readChar ':' rest).bind (readChar ':') with
    | none => none
    | some rest =>
      let (back, rest) := readGroups (7 - front.groups.length) true rest
      let zeros := List.replicate (8 - front.groups.length - back.groups.length) 0
      some (front.groups ++ zeros ++ back.groups, rest)

/-- Reads an address of either family; version 4 is tried first. -/
def read (cs : List Char) : Option (Address × List Char) :=
  match readOctets cs with
  | some (octets, rest) => some (ofNat .v4 (ofDigits 256 octets), rest)
  | none => (readSixGroups cs).map fun r => (ofNat .v6 (ofDigits 65536 r.1), r.2)

def parse? (s : String) : Option Address :=
  match read s.toList with
  | some (a, []) => some a
  | _ => none

end IpRegistry.Address
