namespace IpRegistry.Text

/-- Why a text is not a number. -/
inductive NumberError where
  | empty
  | invalidDigit
  | tooLarge
  deriving DecidableEq, Repr

def NumberError.message : NumberError → String
  | .empty => "cannot parse integer from empty string"
  | .invalidDigit => "invalid digit found in string"
  | .tooLarge => "number too large to fit in target type"

def digit? (c : Char) : Option Nat :=
  if c.isDigit then some (c.toNat - '0'.toNat) else none

/-- Continues a number with the digits of a text; what is wrong first from the left is reported. -/
def continueNumber (bound : Nat) : Nat → List Char → Except NumberError Nat
  | acc, [] => .ok acc
  | acc, c :: cs =>
    match digit? c with
    | none => .error .invalidDigit
    | some d =>
      if acc * 10 + d < bound then continueNumber bound (acc * 10 + d) cs else .error .tooLarge

/-- The number below `bound` that the characters write. -/
def unsigned (bound : Nat) : List Char → Except NumberError Nat
  | [] => .error .empty
  | ['+'] => .error .invalidDigit
  | '+' :: cs => continueNumber bound 0 cs
  | cs => continueNumber bound 0 cs

/-- The number below `bound` that a text writes, if it writes one. -/
def unsigned? (bound : Nat) (s : String) : Option Nat :=
  (unsigned bound s.toList).toOption

end IpRegistry.Text
