namespace IpRegistry.Json

/-- A binary number with eleven bits of exponent and fifty-two bits of fraction, as its bits. -/
structure Binary64 where
  bits : UInt64
  deriving DecidableEq, Repr

namespace Binary64

def isNegative (x : Binary64) : Bool :=
  x.bits.toNat / 2 ^ 63 == 1

/-- The magnitude of a finite number as `m` and `e` with the value `m * 2 ^ (e - 1075)`. -/
def magnitude (x : Binary64) : Nat × Nat :=
  let e := x.bits.toNat / 2 ^ 52 % 2 ^ 11
  let f := x.bits.toNat % 2 ^ 52
  if e = 0 then (f, 1) else (f + 2 ^ 52, e)

/-- A decimal number `digits * 10 ^ exponent`. -/
structure Decimal where
  digits : Nat
  exponent : Int
  deriving DecidableEq, Repr

/-- The number `a * 10 ^ e` over `b` as a fraction of natural numbers. -/
def scaled (a b : Nat) (e : Int) : Nat × Nat :=
  if 0 ≤ e then (a * 10 ^ e.toNat, b) else (a, b * 10 ^ (-e).toNat)

/-- The numbers that read as a given one: from `low` to `high` over `den`, with the ends if `closed`;
the number itself is `value` over `den`. -/
structure Interval where
  low : Nat
  value : Nat
  high : Nat
  den : Nat
  closed : Bool

/-- The interval of the numbers that round to `x`. -/
def interval (x : Binary64) : Interval :=
  let (m, e) := x.magnitude
  let up := 2 ^ (e - 1075)
  let lowGap := if m = 2 ^ 52 ∧ 1 < e then 1 else 2
  ⟨(4 * m - lowGap) * up, 4 * m * up, (4 * m + 2) * up, 4 * 2 ^ (1075 - e), m % 2 == 0⟩

/-- The number `n / 10 ^ shift` lies in the interval. -/
def Interval.holds (i : Interval) (n : Nat) (shift : Int) : Bool :=
  let (low, den) := scaled i.low i.den shift
  let (high, _) := scaled i.high i.den shift
  if i.closed then low ≤ n * den && n * den ≤ high else low < n * den && n * den < high

/-- The exponent `p` with `10 ^ (p - 1) ≤ value < 10 ^ p`, sought downwards from `p`. -/
def decimalExponent (i : Interval) : (fuel : Nat) → (p : Int) → Int
  | 0, p => p
  | fuel + 1, p =>
    let (num, den) := scaled i.value i.den (1 - p)
    if den ≤ num then p else decimalExponent i fuel (p - 1)

/-- Of the two neighbours of the value with `count` digits, the nearer one in the interval. -/
def candidate? (i : Interval) (p : Int) (count : Nat) : Option Decimal :=
  let shift := (count : Int) - p
  let (num, den) := scaled i.value i.den shift
  let below := num / den
  let twice := 2 * (num % den)
  let nearest := if twice < den || (twice == den && below % 2 == 0) then below else below + 1
  let other := if nearest = below then below + 1 else below
  if i.holds nearest shift then some ⟨nearest, -shift⟩
  else if i.holds other shift then some ⟨other, -shift⟩
  else none

/-- The candidate with the fewest digits, from `count` digits on. -/
def shortestFrom (i : Interval) (p : Int) : (fuel : Nat) → (count : Nat) → Decimal
  | 0, count => ⟨0, count⟩
  | fuel + 1, count => (candidate? i p count).getD (shortestFrom i p fuel (count + 1))

def Decimal.normalize (d : Decimal) : (fuel : Nat) → Decimal
  | 0 => d
  | fuel + 1 =>
    if d.digits ≠ 0 ∧ d.digits % 10 = 0 then
      Decimal.normalize ⟨d.digits / 10, d.exponent + 1⟩ fuel
    else d

/-- The shortest decimal number that reads back as `x`. -/
def shortest (x : Binary64) : Decimal :=
  let i := x.interval
  (shortestFrom i (decimalExponent i 700 310) 17 1).normalize 20

/-- The text of an exponent: its sign, which is never left out, and its digits. -/
def exponentText (e : Int) : List Char :=
  (if e < 0 then '-' else '+') :: Nat.toDigits 10 e.natAbs

/-- The text of a positive decimal number: positional while its point lies within sixteen digits on
the left and five zeros on the right, and with an exponent beyond that. -/
def Decimal.text (d : Decimal) : String :=
  let digits := Nat.toDigits 10 d.digits
  let point : Int := digits.length + d.exponent
  let zeros (n : Int) := List.replicate n.toNat '0'
  String.ofList <|
    if 0 ≤ d.exponent ∧ point ≤ 16 then digits ++ zeros d.exponent ++ ['.', '0']
    else if 0 < point ∧ point ≤ 16 then digits.take point.toNat ++ '.' :: digits.drop point.toNat
    else if -5 < point ∧ point ≤ 0 then '0' :: '.' :: zeros (-point) ++ digits
    else
      let fraction := if digits.length = 1 then [] else '.' :: digits.drop 1
      digits.take 1 ++ fraction ++ 'e' :: exponentText (point - 1)

def text (x : Binary64) : String :=
  let sign := if x.isNegative then "-" else ""
  if x.magnitude.1 = 0 then sign ++ "0.0" else sign ++ x.shortest.text

/-- The number nearest to an integer below `2 ^ 64`. -/
def ofNat (n : Nat) : Float :=
  n.toUInt64.toFloat

/-- Divides or multiplies by powers of ten until the exponent is used up; a number that is too large
has no result. -/
def scale (x : Float) (exponent : Int) : (fuel : Nat) → Option Float
  | 0 => some x
  | fuel + 1 =>
    if exponent.natAbs ≤ 308 then
      let power := Float.ofScientific 1 false exponent.natAbs
      if 0 ≤ exponent then
        let y := x * power
        if y.isInf then none else some y
      else some (x / power)
    else if x == 0 then some x
    else if 0 ≤ exponent then none
    else scale (x / 1e308) (exponent + 308) fuel

/-- The number `significand * 10 ^ exponent`, in one rounding of the significand and one of each
scaling step. -/
def ofParts? (negative : Bool) (significand : Nat) (exponent : Int) : Option Binary64 :=
  (scale (ofNat significand) exponent (exponent.natAbs / 308 + 1)).map fun x =>
    ⟨(if negative then -x else x).toBits⟩

end Binary64

end IpRegistry.Json
