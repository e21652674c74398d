import IpRegistry.Cidr.Format
import IpRegistry.Keyed
import IpRegistry.Pattern.Search

/-!
Counting the addresses and blocks that a text mentions, and the ports given with them.
-/

namespace IpRegistry.AddressTally

open Pattern

/-- How often an address is mentioned, and how often with which port. -/
structure Count where
  count : Nat := 0
  ports : Keyed Nat Nat := []
  deriving DecidableEq, Repr

/-- The counts of addresses and blocks by their canonical texts. -/
abbrev Counts := Keyed String Count

def Count.add (port : Option Nat) (c : Count) : Count where
  count := c.count + 1
  ports := match port with
    | some p => c.ports.update p 0 (· + 1)
    | none => c.ports

/-- A port or a number of fixed bits behind its mark. -/
def suffix (mark name : String) (most : Nat) : Pattern :=
  optional (seq (ofText mark) (group name (counted Text.isDigit 1 (most - 1))))

/-- A version 4 address, with the number of fixed bits or the port that may follow it. -/
def pattern4 : Pattern :=
  let octet := counted Text.isDigit 1 2
  let dot := ofText "."
  concat [
    group "address" (concat [wordBoundary, octet, dot, octet, dot, octet, dot, octet]),
    suffix "/" "length" 2,
    suffix ":" "port" 5]

def isHexDigit (c : Char) : Bool :=
  c.isDigit || ('a' ≤ c && c ≤ 'f') || ('A' ≤ c && c ≤ 'F')

def isHexOrColon (c : Char) : Bool :=
  isHexDigit c || c == ':'

/-- A character of the text of a version 6 address. -/
def isAddressChar (c : Char) : Bool :=
  isHexOrColon c || c == '.'

/-- A version 6 address in brackets with the port that may follow it, or one without brackets with
the number of fixed bits that may follow it. -/
def pattern6 : Pattern :=
  oneOf [
    concat [ofText "[", group "address" (atLeastOne true isAddressChar), ofText "]",
      suffix ":" "port" 5],
    concat [
      group "address" (concat [counted isHexDigit 0 4, ofText ":", many true isAddressChar,
        one isHexOrColon]),
      suffix "/" "length" 3]]

/-- What a match mentions: the canonical text of an address with its port, or of a block. -/
def mention? (family : Family) (cs : List Char) (m : Match) : Option (String × Option Nat) := do
  let group (name : String) := (m.text? cs name).map String.ofList
  let address ← (group "address").bind Address.parse?
  if address.family ≠ family then none
  else
    match (group "length").bind (Text.unsigned? 256) with
    | some prefixLen =>
      match Cidr.new address prefixLen with
      | .ok block => some (block.text, none)
      | .error _ => none
    | none => some (address.text, (group "port").bind (Text.unsigned? (2 ^ 16)))

/-- Everything that a text mentions: the version 4 addresses, then the version 6 addresses. -/
def mentions (s : String) : List (String × Option Nat) :=
  let cs := s.toList
  (pattern4.findAll cs).filterMap (mention? .v4 cs) ++
    (pattern6.findAll cs).filterMap (mention? .v6 cs)

/-- The addresses and blocks that a text mentions, with their counts. -/
def ofText (s : String) : Counts :=
  (mentions s).foldl (fun counts m => counts.update m.1 {} (Count.add m.2)) []

end IpRegistry.AddressTally
