import IpRegistry.Address
import IpRegistry.Text.Quoted

namespace IpRegistry.Address

def dotted (octets : List Nat) : String :=
  ".".intercalate (octets.map toString)

def colonSeparated (groups : List Nat) : String :=
  ":".intercalate (groups.map fun g => String.ofList (Text.hexDigits g))

def leadingZeros (groups : List Nat) : Nat :=
  (groups.takeWhile (· == 0)).length

/-- The start and the length of the longest run of zero groups, the first of the longest ones. -/
def longestZeroRun : List Nat → Nat × Nat
  | [] => (0, 0)
  | g :: gs =>
    let here := leadingZeros (g :: gs)
    let later := longestZeroRun gs
    if later.2 ≤ here then (0, here) else (later.1 + 1, later.2)

/-- The text of eight groups, with the longest run of zeros abbreviated. -/
def compressed (groups : List Nat) : String :=
  let run := longestZeroRun groups
  if run.2 ≤ 1 then colonSeparated groups
  else colonSeparated (groups.take run.1) ++ "::" ++ colonSeparated (groups.drop (run.1 + run.2))

/-- The version 6 address is the image of a version 4 address. -/
def isMapped (a : Address) : Bool :=
  a.value / 2 ^ 32 == 0xFFFF

def text (a : Address) : String :=
  match a.family with
  | .v4 => dotted a.octets
  | .v6 =>
    if a.isMapped then "::ffff:" ++ dotted (digitsOf 256 4 a.value)
    else compressed a.groups

end IpRegistry.Address
