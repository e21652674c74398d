import IpRegistry.Text.Blank
import IpRegistry.Text.Offset
import IpRegistry.Text.WordClass

/-!
Text patterns and what they match. A pattern is read from left to right; where it leaves a choice, an
order of preference is part of it, so the ways in which it can match from a place form a list
(`Pattern.outcomes`). A match of a search is the first way from the leftmost place that has one.
-/

namespace IpRegistry

/-- A pattern of characters. `many` is any number of characters of a class, as many as possible if
`greedy` and as few as possible if not; of two alternatives the first one is preferred. -/
inductive Pattern where
  | empty
  | one (cls : Char → Bool)
  | literal (cs : List Char)
  | seq (a b : Pattern)
  | alt (a b : Pattern)
  | many (greedy : Bool) (cls : Char → Bool)
  | group (name : String) (p : Pattern)
  | lineStart
  | lineEnd
  | wordBoundary

namespace Pattern

/-- A range of offsets, its end not included. -/
structure Span where
  start : Nat
  stop : Nat
  deriving DecidableEq, Repr

/-- A place in a text: the character before it, its offset, and the characters after it. -/
structure Cursor where
  before : Option Char
  pos : Nat
  rest : List Char

/-- The place behind the next characters `seen`, where `rest` remains. -/
def Cursor.skip (c : Cursor) (seen rest : List Char) : Cursor where
  before := seen.getLast?.or c.before
  pos := c.pos + Text.byteLength seen
  rest := rest

/-- The first place at or after an offset. -/
def Cursor.moveTo (pos : Nat) : (cs : List Char) → (c : Cursor) → Cursor
  | [], c => c
  | d :: ds, c => if pos ≤ c.pos then c else moveTo pos ds (c.skip [d] ds)

/-- The first place of a text at or after an offset. -/
def Cursor.at (cs : List Char) (pos : Nat) : Cursor :=
  moveTo pos cs ⟨none, 0, cs⟩

/-- A partial match: where it began, the place reached, the starts of the open groups and the groups
that are complete, latest first. -/
structure Thread where
  origin : Nat
  cursor : Cursor
  opened : List Nat
  groups : List (String × Span)

namespace Thread

def skip (t : Thread) (seen rest : List Char) : Thread :=
  { t with cursor := t.cursor.skip seen rest }

def one (cls : Char → Bool) (t : Thread) : Option Thread :=
  match t.cursor.rest with
  | c :: cs => if cls c then some (t.skip [c] cs) else none
  | [] => none

def literal (cs : List Char) (t : Thread) : Option Thread :=
  if cs.isPrefixOf t.cursor.rest then some (t.skip cs (t.cursor.rest.drop cs.length)) else none

def openGroup (t : Thread) : Thread :=
  { t with opened := t.cursor.pos :: t.opened }

/-- Completes the group that was opened last. -/
def closeGroup (name : String) (t : Thread) : Thread :=
  match t.opened with
  | [] => t
  | start :: opened => { t with opened, groups := (name, ⟨start, t.cursor.pos⟩) :: t.groups }

/-- The place is at the start of the text or behind a line feed. -/
def atLineStart (t : Thread) : Bool :=
  match t.cursor.before with
  | none => true
  | some c => c == '\n'

/-- The place is at the end of the text or before a line feed. -/
def atLineEnd (t : Thread) : Bool :=
  match t.cursor.rest with
  | [] => true
  | c :: _ => c == '\n'

/-- One of the characters around the place is a word character and the other is not. -/
def atWordBoundary (t : Thread) : Bool :=
  t.cursor.before.any Text.isWord != t.cursor.rest.head?.any Text.isWord

/-- The threads behind zero, one, two, … characters of a class. -/
def climb (cls : Char → Bool) : (rest : List Char) → (t : Thread) → List Thread
  | [], t => [t]
  | c :: cs, t => if cls c then t :: climb cls cs (t.skip [c] cs) else [t]

end Thread

/-- All ways in which a pattern matches from a thread, in the order of preference. -/
def outcomes : Pattern → Thread → List Thread
  | empty, t => [t]
  | one cls, t => (t.one cls).toList
  | literal cs, t => (t.literal cs).toList
  | seq a b, t => (a.outcomes t).flatMap b.outcomes
  | alt a b, t => a.outcomes t ++ b.outcomes t
  | many greedy cls, t =>
    let all := Thread.climb cls t.cursor.rest t
    if greedy then all.reverse else all
  | group name p, t => (p.outcomes t.openGroup).map (Thread.closeGroup name)
  | lineStart, t => if t.atLineStart then [t] else []
  | lineEnd, t => if t.atLineEnd then [t] else []
  | wordBoundary, t => if t.atWordBoundary then [t] else []

/-- A match: the range of the whole and the ranges of the groups. -/
structure Match where
  whole : Span
  groups : List (String × Span)
  deriving DecidableEq, Repr

/-- The range of a group that took part in the match. -/
def Match.group? (m : Match) (name : String) : Option Span :=
  m.groups.lookup name

def Thread.toMatch (t : Thread) : Match :=
  ⟨⟨t.origin, t.cursor.pos⟩, t.groups⟩

def ofText (s : String) : Pattern :=
  literal s.toList

def concat : List Pattern → Pattern
  | [] => empty
  | [p] => p
  | p :: ps => seq p (concat ps)

/-- The first of several alternatives that matches. -/
def oneOf : List Pattern → Pattern
  | [] => one fun _ => false
  | [p] => p
  | p :: ps => alt p (oneOf ps)

def atLeastOne (greedy : Bool) (cls : Char → Bool) : Pattern :=
  seq (one cls) (many greedy cls)

def optional (p : Pattern) : Pattern :=
  alt p empty

/-- At least `least` and at most `least + more` characters of a class, as many as possible. -/
def counted (cls : Char → Bool) : (least more : Nat) → Pattern
  | 0, 0 => empty
  | 0, more + 1 => optional (seq (one cls) (counted cls 0 more))
  | least + 1, more => seq (one cls) (counted cls least more)

def anyChar : Char → Bool := fun _ => true

def notNewline (c : Char) : Bool := c != '\n'

def inlineBlank (c : Char) : Bool := Text.isBlank c && c != '\n'

def notBlank (c : Char) : Bool := !Text.isBlank c

end Pattern

end IpRegistry
