/-!
IP addresses of both families as numbers below a power of two.
-/

-- A power of natural numbers is to mean the same where monoids are in scope.
attribute [instance (2000), default_instance 20000] instPowNat

namespace IpRegistry

/-- The two families of addresses. -/
inductive Family where
  | v4
  | v6
  deriving DecidableEq, Repr

namespace Family

def bits : Family → Nat
  | v4 => 32
  | v6 => 128

def version : Family → Nat
  | v4 => 4
  | v6 => 6

/-- The order of families puts version 4 first. -/
def le : Family → Family → Bool
  | v6, v4 => false
  | _, _ => true

end Family

/-- An address: its family and its value as a number. -/
structure Address where
  family : Family
  value : Nat
  value_lt : value < 2 ^ family.bits
  deriving DecidableEq, Repr

namespace Address

/-- The address of a family whose value is the number modulo the size of the family. -/
def ofNat (family : Family) (n : Nat) : Address where
  family := family
  value := n % 2 ^ family.bits
  value_lt := Nat.mod_lt _ (Nat.two_pow_pos _)

/-- Writing `value` to the base `radix` gives these digits, most significant first. -/
def digitsOf (radix : Nat) : (count value : Nat) → List Nat
  | 0, _ => []
  | count + 1, value => digitsOf radix count (value / radix) ++ [value % radix]

/-- The number that digits to the base `radix` write. -/
def ofDigits (radix : Nat) (digits : List Nat) : Nat :=
  digits.foldl (fun acc d => acc * radix + d) 0

/-- The four bytes of a version 4 address. -/
def octets (a : Address) : List Nat :=
  digitsOf 256 4 a.value

/-- The eight groups of sixteen bits of a version 6 address. -/
def groups (a : Address) : List Nat :=
  digitsOf 65536 8 a.value

end Address

end IpRegistry
