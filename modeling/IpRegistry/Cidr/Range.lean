import IpRegistry.Cidr.Format

namespace IpRegistry.Cidr

/-- The largest `k ≤ limit` such that a block with `k` free bits can start at `first` and has at most
`count` addresses. -/
def freeBits (first count : Nat) : (limit : Nat) → Nat
  | 0 => 0
  | k + 1 => if 2 ^ (k + 1) ∣ first ∧ 2 ^ (k + 1) ≤ count then k + 1 else freeBits first count k

theorem freeBits_le (first count limit : Nat) : freeBits first count limit ≤ limit := by
  induction limit with
  | zero => exact Nat.le_refl 0
  | succ k ih =>
    unfold freeBits
    split <;> omega

theorem pow_freeBits_dvd (first count limit : Nat) : 2 ^ freeBits first count limit ∣ first := by
  induction limit with
  | zero => exact Nat.one_dvd first
  | succ k ih =>
    unfold freeBits
    split
    · rename_i h
      exact h.1
    · exact ih

theorem pow_freeBits_le {count : Nat} (first limit : Nat) (h : 0 < count) :
    2 ^ freeBits first count limit ≤ count := by
  induction limit with
  | zero => exact h
  | succ k ih =>
    unfold freeBits
    split
    · rename_i hk
      exact hk.2
    · exact ih

/-- The blocks that cover the `count` addresses from `first` on, each as large as can be. -/
def cover (family : Family) (first count : Nat) (h : first + count ≤ 2 ^ family.bits) : List Cidr :=
  if hc : count = 0 then []
  else
    let k := freeBits first count family.bits
    have hk : k ≤ family.bits := freeBits_le ..
    have hfit : 2 ^ k ≤ count := pow_freeBits_le first family.bits (Nat.pos_of_ne_zero hc)
    have hpos : 0 < 2 ^ k := Nat.two_pow_pos k
    { family
      network := first
      prefixLen := family.bits - k
      prefixLen_le := Nat.sub_le ..
      aligned := by
        rw [Nat.sub_sub_self hk]
        exact pow_freeBits_dvd ..
      network_lt := by omega } ::
      cover family (first + 2 ^ k) (count - 2 ^ k) (by omega)
termination_by count
decreasing_by exact Nat.sub_lt (Nat.pos_of_ne_zero hc) hpos

/-- The shortest list of blocks whose addresses are exactly those from `first` to `last`. -/
def summarize (first last : Address) : Except CidrError (List Cidr) :=
  if hf : first.family = last.family then
    if hle : first.value ≤ last.value then
      .ok (cover first.family first.value (last.value - first.value + 1) (by
        have := last.value_lt
        rw [← hf] at this
        omega))
    else .error (.invertedRange first last)
  else .error (.familyMismatch first last)

def rangeText (first last : Address) : String :=
  first.text ++ " - " ++ last.text

end IpRegistry.Cidr
