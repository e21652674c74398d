import IpRegistry.Cidr.Range

namespace IpRegistry.Cidr

/-- A range of addresses of one family, as its first value and the number of its values. -/
structure Span where
  family : Family
  first : Nat
  count : Nat
  le_bits : first + count ≤ 2 ^ family.bits

def span (c : Cidr) : Span where
  family := c.family
  first := c.network
  count := c.count
  le_bits := c.network_add_count_le

/-- The range from the start of `a` to the later one of the two ends, when `b` starts inside `a` or
right after it. -/
def Span.join? (a b : Span) : Option Span :=
  if h : a.family = b.family ∧ b.first ≤ a.first + a.count then
    some
      { family := a.family
        first := a.first
        count := max a.count (b.first + b.count - a.first)
        le_bits := by
          have ha := a.le_bits
          have hb := b.le_bits
          rw [← h.1] at hb
          omega }
  else none

/-- Joins each range to the one before it wherever they overlap or touch. -/
def joinSpans (current : Span) : List Span → List Span
  | [] => [current]
  | s :: rest =>
    match current.join? s with
    | some joined => joinSpans joined rest
    | none => current :: joinSpans s rest

/-- The maximal ranges of a list of blocks, in ascending order. -/
def spans (blocks : List Cidr) : List Span :=
  match blocks.mergeSort le with
  | [] => []
  | c :: rest => joinSpans c.span (rest.map span)

/-- The shortest list of blocks with the same addresses, in ascending order. -/
def collapse (blocks : List Cidr) : List Cidr :=
  (spans blocks).flatMap fun s => cover s.family s.first s.count s.le_bits

/-- The address that an end of a range writes: an address, or the first address of a block. -/
def endpoint (s : String) : Except CidrError Address :=
  let s := Text.trim s
  match Address.parse? s with
  | some a => .ok a
  | none =>
    match Text.splitFirst? ['/'] s.toList with
    | none => .error (.invalidAddress s)
    | some (before, after) =>
      match Address.parse? (String.ofList before) with
      | none => .error (.invalidAddress s)
      | some a =>
        match Text.unsigned 256 after with
        | .error _ => .error (.unreadableEndpoint s)
        | .ok prefixLen => (new a prefixLen).map first

/-- The texts of the shortest list of blocks from one end to the other. -/
def coverTexts (start stop : String) : Except CidrError (List String) := do
  let first ← endpoint start
  let last ← endpoint stop
  let blocks ← summarize first last
  return (collapse blocks).map text

/-- The text with the leading zeros of each piece between dots removed. -/
def stripOctetZeros (s : String) : String :=
  let strip (piece : List Char) : List Char :=
    match piece.dropWhile (· == '0') with
    | [] => ['0']
    | rest => rest
  String.ofList (['.'].intercalate (((Text.trim s).toList.splitOn '.').map strip))

end IpRegistry.Cidr
