import IpRegistry.Address

/-!
Address blocks: all addresses of one family that agree in a number of leading bits.
-/

namespace IpRegistry

/-- A block: the family, the first address as a number, and how many leading bits are fixed. The bits
after those are zero in the first address. -/
@[ext]
structure Cidr where
  family : Family
  network : Nat
  prefixLen : Nat
  prefixLen_le : prefixLen ≤ family.bits
  aligned : 2 ^ (family.bits - prefixLen) ∣ network
  network_lt : network < 2 ^ family.bits
  deriving Repr

instance : DecidableEq Cidr := fun _ _ =>
  decidable_of_decidable_of_iff Cidr.ext_iff.symm

namespace Cidr

/-- The number of bits that are free in a block. -/
def hostBits (c : Cidr) : Nat :=
  c.family.bits - c.prefixLen

def count (c : Cidr) : Nat :=
  2 ^ c.hostBits

/-- The block of the addresses that agree with `a` in the first `prefixLen` bits. -/
def containing (a : Address) (prefixLen : Nat) (h : prefixLen ≤ a.family.bits) : Cidr where
  family := a.family
  network := a.value / 2 ^ (a.family.bits - prefixLen) * 2 ^ (a.family.bits - prefixLen)
  prefixLen := prefixLen
  prefixLen_le := h
  aligned := Nat.dvd_mul_left _ _
  network_lt := Nat.lt_of_le_of_lt (Nat.div_mul_le_self _ _) a.value_lt

/-- The first address. -/
def first (c : Cidr) : Address where
  family := c.family
  value := c.network
  value_lt := c.network_lt

theorem network_add_count_le (c : Cidr) : c.network + c.count ≤ 2 ^ c.family.bits := by
  obtain ⟨q, hq⟩ := c.aligned
  have hlt := c.network_lt
  have hsplit : 2 ^ c.family.bits = 2 ^ c.hostBits * 2 ^ c.prefixLen := by
    rw [← Nat.pow_add, hostBits, Nat.sub_add_cancel c.prefixLen_le]
  have hq' : c.network = 2 ^ c.hostBits * q := hq
  have : q < 2 ^ c.prefixLen := by
    rw [hq', hsplit] at hlt
    exact Nat.lt_of_mul_lt_mul_left hlt
  rw [count, hq', hsplit, ← Nat.mul_succ]
  exact Nat.mul_le_mul_left _ this

/-- The last address. -/
def last (c : Cidr) : Address where
  family := c.family
  value := c.network + (c.count - 1)
  value_lt := by
    have := c.network_add_count_le
    have : 0 < c.count := Nat.two_pow_pos _
    omega

/-- The number of addresses, or the largest number of 128 bits if there are more. -/
def size (c : Cidr) : Nat :=
  min c.count (2 ^ 128 - 1)

/-- The address agrees with the block in the fixed bits. -/
def contains (c : Cidr) (a : Address) : Bool :=
  a.family = c.family && a.value / 2 ^ c.hostBits == c.network / 2 ^ c.hostBits

instance : Membership Address Cidr where
  mem c a := c.contains a = true

/-- Blocks are ordered by family, then by first address, then by the number of fixed bits. -/
def le (a b : Cidr) : Bool :=
  if a.family = b.family then
    a.network < b.network || (a.network == b.network && a.prefixLen ≤ b.prefixLen)
  else a.family.le b.family

end Cidr

end IpRegistry
