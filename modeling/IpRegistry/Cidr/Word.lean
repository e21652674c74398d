import IpRegistry.Cidr.Collapse

namespace IpRegistry

/-- A number of 128 bits. -/
abbrev Word := BitVec 128

namespace Word

def ofNat (n : Nat) : Word :=
  BitVec.ofNat 128 n

/-- The sum, if it fits. -/
def add? (a b : Word) : Option Word :=
  if a.toNat + b.toNat < 2 ^ 128 then some (a + b) else none

theorem toNat_add? {a b c : Word} (h : a.add? b = some c) : c.toNat = a.toNat + b.toNat := by
  unfold add? at h
  split at h
  · rename_i hfits
    rw [← Option.some.inj h, BitVec.toNat_add, Nat.mod_eq_of_lt hfits]
  · cases h

/-- The difference, unless it is negative. -/
def sub? (a b : Word) : Option Word :=
  if b.toNat ≤ a.toNat then some (a - b) else none

/-- The difference of two counts of bits, unless it is negative. -/
def less? (m n : Nat) : Option Nat :=
  if n ≤ m then some (m - n) else none

/-- The word whose only bit is the one at a place, if there is such a place. -/
def bit? (place : Nat) : Option Word :=
  if place < 128 then some (BitVec.twoPow 128 place) else none

/-- The word whose lowest bits are set, so many of them. -/
def lowest? (bits : Nat) : Option Word :=
  if 128 ≤ bits then some (BitVec.allOnes 128) else do (← bit? bits).sub? 1

end Word

namespace Cidr

/-- A block as a word and a number of fixed bits, which need not fit together. -/
structure WordBlock where
  family : Family
  network : Word
  prefixLen : Nat
  deriving DecidableEq, Repr

/-- A block with its first address as a word. -/
def wordBlock (c : Cidr) : WordBlock :=
  ⟨c.family, .ofNat c.network, c.prefixLen⟩

/-- A range of addresses of one family by its ends. -/
structure WordSpan where
  family : Family
  first : Word
  last : Word
  deriving DecidableEq, Repr

/-- How many bits may be free in a block that starts at `first`. -/
def wordAligned (bits : Nat) (first : Word) : Nat :=
  if first = 0 then bits else min first.ctz.toNat bits

/-- How many bits may be free in a block that is no longer than a range. -/
def wordFits? (first last : Word) : Option Nat := do
  let span ← last.sub? first
  if span = BitVec.allOnes 128 then some 128
  else do Word.less? 127 (← span.add? 1).clz.toNat

/-- How many bits are free in the largest block at the start of a range. -/
def wordFreeBits? (bits : Nat) (first last : Word) : Option Nat := do
  return min (wordAligned bits first) (← wordFits? first last)

/-- The last address of the block of so many free bits. -/
def wordBlockLast? (first : Word) (freeBits : Nat) : Option Word :=
  if 128 ≤ freeBits then some (BitVec.allOnes 128)
  else do first.add? (← (← Word.bit? freeBits).sub? 1)

theorem first_le_of_wordBlockLast? {first last : Word} {freeBits : Nat}
    (h : wordBlockLast? first freeBits = some last) : first.toNat ≤ last.toNat := by
  unfold wordBlockLast? at h
  split at h
  · rw [← Option.some.inj h, BitVec.toNat_allOnes]
    exact Nat.le_pred_of_lt first.isLt
  · obtain ⟨bit, -, hsize⟩ := Option.bind_eq_some_iff.1 h
    obtain ⟨size, -, hadd⟩ := Option.bind_eq_some_iff.1 hsize
    exact Nat.le.intro (Word.toNat_add? hadd).symm

/-- The blocks that cover a range, each as large as can be. -/
def wordCover? (family : Family) (first last : Word) : Option (List WordBlock) := do
  let freeBits ← wordFreeBits? family.bits first last
  let block : WordBlock := ⟨family, first, ← Word.less? family.bits freeBits⟩
  let blockLast ← (wordBlockLast? first freeBits).attach
  if last ≤ blockLast.val then return [block]
  else
    let next ← (blockLast.val.add? 1).attach
    return block :: (← wordCover? family next.val last)
termination_by 2 ^ 128 - first.toNat
decreasing_by
  -- The next block starts behind the last address of this one, as their sum fits.
  have hle := first_le_of_wordBlockLast? blockLast.property
  have heq := Word.toNat_add? next.property
  have hlt := next.val.isLt
  change next.val.toNat = blockLast.val.toNat + 1 at heq
  omega

/-- The bits of an address that are fixed in a block. -/
def wordMask? (family : Family) (prefixLen : Nat) : Option Word := do
  let hostMask ← Word.lowest? (← Word.less? family.bits prefixLen)
  return (← Word.lowest? family.bits) &&& ~~~hostMask

/-- The address, with the bits cleared that are free in the block, is the first one of the block. -/
def wordContains? (c : Cidr) (a : Address) : Option Bool := do
  if a.family = c.family then
    return Word.ofNat a.value &&& (← wordMask? c.family c.prefixLen) = Word.ofNat c.network
  else return false

def WordBlock.span? (b : WordBlock) : Option WordSpan := do
  let all ← Word.lowest? b.family.bits
  return ⟨b.family, b.network, b.network ||| (all &&& ~~~(← wordMask? b.family b.prefixLen))⟩

/-- The block of the addresses that agree with `a` in the first bits. Its mask is only formed if it has
as many bits. -/
def wordNew? (a : Address) (prefixLen : Nat) : Option (Except CidrError WordBlock) :=
  if prefixLen ≤ a.family.bits then do
    let mask ← wordMask? a.family prefixLen
    return .ok ⟨a.family, .ofNat a.value &&& mask, prefixLen⟩
  else some (.error (.prefixTooLong prefixLen a.family.bits))

/-- The number of addresses. The number of all addresses of 128 bits is no word, and gives the largest
one. -/
def WordBlock.size? (b : WordBlock) : Option Word := do
  let hostBits ← Word.less? b.family.bits b.prefixLen
  if 128 ≤ hostBits then return BitVec.allOnes 128 else Word.bit? hostBits

/-- The first and the last address of a range. -/
def WordSpan.ends (s : WordSpan) : Address × Address :=
  (.ofNat s.family s.first.toNat, .ofNat s.family s.last.toNat)

/-- A range overlaps or touches another one, which does not start before it. The predecessor of a start is
only formed if that lies above the end. -/
def WordSpan.touches? (s t : WordSpan) : Option Bool :=
  if s.family = t.family then
    if t.first ≤ s.last then some true else do return (← t.first.sub? 1) = s.last
  else some false

/-- The range up to the later one of the two ends. -/
def WordSpan.extend (s t : WordSpan) : WordSpan :=
  if s.last < t.last then { s with last := t.last } else s

/-- Joins each range to the one before it wherever they overlap or touch. -/
def wordJoin? (current : WordSpan) : List WordSpan → Option (List WordSpan)
  | [] => some [current]
  | s :: rest => do
    if ← current.touches? s then wordJoin? (current.extend s) rest
    else return current :: (← wordJoin? s rest)

def wordJoins? : List WordSpan → Option (List WordSpan)
  | [] => some []
  | s :: rest => wordJoin? s rest

/-- The shortest list of blocks with the same addresses, in ascending order. -/
def wordCollapse? (blocks : List Cidr) : Option (List WordBlock) := do
  let spans ← ((blocks.mergeSort le).map wordBlock).mapM WordBlock.span?
  let joined ← wordJoins? spans
  return (← joined.mapM fun s => wordCover? s.family s.first s.last).flatten

end Cidr

end IpRegistry
