namespace IpRegistry.Text

/-- The number of bytes of the UTF-8 encoding. -/
def byteLength : List Char → Nat
  | [] => 0
  | c :: cs => c.utf8Size + byteLength cs

/-- The offset lies between two characters, at the start or at the end. -/
def isBoundary : List Char → Nat → Bool
  | _, 0 => true
  | [], _ + 1 => false
  | c :: cs, i => if i < c.utf8Size then false else isBoundary cs (i - c.utf8Size)

def floorBoundary : List Char → Nat → Nat
  | [], _ => 0
  | c :: cs, i => if i < c.utf8Size then 0 else c.utf8Size + floorBoundary cs (i - c.utf8Size)

/-- The least boundary that is at least the offset, or the offset itself beyond the end. -/
def ceilBoundary : List Char → Nat → Nat
  | [], i => i
  | c :: cs, i =>
    if i = 0 then 0
    else if i < c.utf8Size then c.utf8Size
    else c.utf8Size + ceilBoundary cs (i - c.utf8Size)

def takeBytes : List Char → Nat → List Char
  | [], _ => []
  | c :: cs, i => if i < c.utf8Size then [] else c :: takeBytes cs (i - c.utf8Size)

def dropBytes : List Char → Nat → List Char
  | [], _ => []
  | c :: cs, i => if i = 0 then c :: cs else dropBytes cs (i - c.utf8Size)

def slice (cs : List Char) (start stop : Nat) : List Char :=
  takeBytes (dropBytes cs start) (stop - start)

end IpRegistry.Text
