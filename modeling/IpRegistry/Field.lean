import IpRegistry.Calendar.Format
import IpRegistry.Pattern.Search
import IpRegistry.Text.Uppercase

/-!
Named fields of a text. A table gives one pattern for each field; the values of a field are what its
pattern captures inside a window of the text, and the kind of the field says how they become one.
-/

namespace IpRegistry

namespace Field

/-- How the captures of a field become its value: distinct texts joined by line feeds, a list of
distinct texts, the first text in upper case, or the first text as a normalized date. -/
inductive Kind where
  | text
  | list
  | country
  | timestamp
  deriving DecidableEq, Repr

/-- A field: its name, its pattern with the group `val` for the value and perhaps the group `stop` for
where it ends, and its kind. -/
structure Spec where
  name : String
  pattern : Pattern
  kind : Kind

/-- The fields of a text. In a contiguous table the values of a field that is not a list end at the
first match that does not begin right behind the one before it. -/
structure Table where
  fields : List Spec
  dates : Option Calendar.DatePolicy
  contiguous : Bool

/-- The names of the fields in the order of the table. -/
def Table.names (t : Table) : List String :=
  t.fields.map Spec.name

/-- A window of a text, as offsets; without an end it reaches to the end of the text. -/
structure Bounds where
  start : Nat := 0
  stop : Option Nat := none
  deriving DecidableEq, Repr

abbrev Section := Pattern.Span

/-- The window of a section: from the end of its header to the start of the next header. -/
def sectionBounds (sections : List Section) (index : Nat) : Bounds where
  start := (sections[index]?.map Pattern.Span.stop).getD 0
  stop := sections[index + 1]?.map Pattern.Span.start

/-- Looks for a match in a text at or after an offset. -/
abbrev Finder := List Char → Nat → Option Pattern.Match

/-- Where a match ends as far as its field goes: at the group `stop` if it has one. -/
def logicalEnd (m : Pattern.Match) : Nat :=
  ((m.group? "stop").map Pattern.Span.start).getD m.whole.stop

/-- Where the scan goes on after a match that was found from `pos` on. -/
def resume (window : List Char) (m : Pattern.Match) (pos : Nat) : Nat :=
  if m.whole.start < logicalEnd m then logicalEnd m
  else Text.ceilBoundary window (max m.whole.stop (pos + 1))

/-- The match begins one place behind the end of the previous one, if there was one. -/
def isAdjacent (previous : Option Nat) (m : Pattern.Match) : Bool :=
  match previous with
  | none => true
  | some stop => m.whole.start == stop + 1

/-- The captured value of a match, without white space around it. -/
def capture (window : List Char) (m : Pattern.Match) : Option String :=
  (m.text? window "val").map fun cs => String.ofList (Text.strip Text.isBlank cs)

/-- The captured values in a window from an offset on. -/
def scan (find : Finder) (window : List Char) (contiguous : Bool) (previous : Option Nat)
    (pos : Nat) : List String :=
  if pos ≤ Text.byteLength window then
    match find window pos with
    | none => []
    | some m =>
      if contiguous && !isAdjacent previous m then []
      else
        (capture window m).toList ++
          if pos < resume window m pos then
            scan find window contiguous (some (logicalEnd m)) (resume window m pos)
          else []
  else []
termination_by Text.byteLength window + 1 - pos

/-- The part of a text before the end of a window. -/
def Bounds.window (b : Bounds) (cs : List Char) : List Char :=
  Text.takeBytes cs (Text.floorBoundary cs (b.stop.getD (Text.byteLength cs)))

/-- The captured values of a pattern in a window, from left to right. -/
def values (find : Finder) (cs : List Char) (b : Bounds) (contiguous : Bool) : List String :=
  let window := b.window cs
  scan find window contiguous none (Text.floorBoundary window b.start)

/-- The value of a field. -/
inductive Value where
  | text (s : String)
  | list (items : List String)
  deriving DecidableEq, Repr

/-- The fields that were found, in the order of the table. -/
abbrev Map := List (String × Value)

/-- The items without repetitions, in the order of their first occurrence. -/
def distinct (items : List String) : List String :=
  items.foldl (fun seen item => if seen.contains item then seen else seen ++ [item]) []

def joined (texts : List String) : String :=
  Text.trim ("\n".intercalate (distinct texts))

/-- The value of a field of a kind, whose captures that are not blank are `first :: more`. -/
def Kind.value (kind : Kind) (dates : Option Calendar.DatePolicy) (first : String)
    (more : List String) : Value :=
  match kind with
  | country => .text (Text.toUpper first)
  | timestamp =>
    match dates with
    | some policy => .text ((policy.normalize first).getD first)
    | none => .text (joined (first :: more))
  | list => .list (distinct (first :: more))
  | text => .text (joined (first :: more))

/-- The captures of a field in a window that are not blank. -/
def Spec.captures (f : Spec) (contiguous : Bool) (cs : List Char) (b : Bounds) : List String :=
  (values f.pattern.find cs b (contiguous && f.kind != .list)).filter (· != "")

/-- The value of a field in a window, if it has one. -/
def Spec.extract? (f : Spec) (t : Table) (cs : List Char) (b : Bounds) : Option Value :=
  match f.captures t.contiguous cs b with
  | [] => none
  | first :: more => some (f.kind.value t.dates first more)

def isWanted (wanted : Option (List String)) (name : String) : Bool :=
  match wanted with
  | none => true
  | some names => names.contains name

/-- The fields of a table that a window holds, restricted to the wanted ones. -/
def Table.extract (t : Table) (cs : List Char) (b : Bounds) (wanted : Option (List String)) : Map :=
  (t.fields.filter fun f => isWanted wanted f.name).filterMap fun f =>
    (f.extract? t cs b).map fun v => (f.name, v)

/-- The value of a field of a kind, unless it is a date whose shift leads out of the calendar. -/
def Kind.value? (kind : Kind) (dates : Option Calendar.DatePolicy) (first : String)
    (more : List String) : Option Value :=
  if kind == timestamp && dates.any fun policy => policy.read first == .beyondCalendar then none
  else some (kind.value dates first more)

/-- The entry of a field, which is empty if the field has no value, unless its date leads out of the
calendar. -/
def Spec.item? (f : Spec) (t : Table) (cs : List Char) (b : Bounds) : Option Map :=
  match f.captures t.contiguous cs b with
  | [] => some []
  | first :: more => do return [(f.name, ← f.kind.value? t.dates first more)]

/-- The fields of a table that a window holds, restricted to the wanted ones. Nothing is read if the
shift of one of their dates leads out of the calendar. -/
def Table.extract? (t : Table) (cs : List Char) (b : Bounds) (wanted : Option (List String)) :
    Option Map := do
  return (← (t.fields.filter fun f => isWanted wanted f.name).mapM fun f => f.item? t cs b).flatten

def Map.text? (m : Map) (name : String) : Option String :=
  match m.lookup name with
  | some (.text s) => some s
  | _ => none

def Map.list? (m : Map) (name : String) : Option (List String) :=
  match m.lookup name with
  | some (.list items) => some items
  | _ => none

end Field

end IpRegistry
