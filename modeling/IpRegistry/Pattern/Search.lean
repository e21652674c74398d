import IpRegistry.Pattern
import Std.Data.HashSet

namespace IpRegistry.Pattern

/-- A sequence whose items are computed when they are asked for. -/
inductive Results (α : Type) where
  | done
  | next (a : α) (more : Unit → Results α)

namespace Results

variable {α β : Type}

def toList : Results α → List α
  | done => []
  | next a more => a :: (more ()).toList

/-- The first item. -/
def head? : Results α → Option α
  | done => none
  | next a _ => some a

def single (a : α) : Results α :=
  next a fun _ => done

def append : Results α → (Unit → Results α) → Results α
  | done, later => later ()
  | next a more, later => next a fun _ => (more ()).append later

/-- The items of a list, then those of a sequence. -/
def prepend : List α → (Unit → Results α) → Results α
  | [], later => later ()
  | a :: as, later => next a fun _ => prepend as later

def filterMap (f : α → Option β) : Results α → Results β
  | done => done
  | next a more =>
    match f a with
    | none => (more ()).filterMap f
    | some b => next b fun _ => (more ()).filterMap f

def flatMap (f : α → Results β) : Results α → Results β
  | done => done
  | next a more => (f a).append fun _ => (more ()).flatMap f

end Results

abbrev Seen := Std.HashSet Nat

/-- The threads behind zero, one, two, … characters of a class up to a place seen before, then what
follows. -/
def climbUnseen (cls : Char → Bool) (later : Seen → Results Thread) :
    (rest : List Char) → (t : Thread) → Seen → Results Thread
  | [], t, seen =>
    if seen.contains t.cursor.pos then later seen
    else .next t fun _ => later (seen.insert t.cursor.pos)
  | c :: cs, t, seen =>
    if seen.contains t.cursor.pos then later seen
    else .next t fun _ =>
      if cls c then climbUnseen cls later cs (t.skip [c] cs) (seen.insert t.cursor.pos)
      else later (seen.insert t.cursor.pos)

/-- The same threads as a list, the farthest one first, with the places seen after them. -/
def reachUnseen (cls : Char → Bool) :
    (rest : List Char) → (t : Thread) → Seen → List Thread → List Thread × Seen
  | [], t, seen, acc =>
    if seen.contains t.cursor.pos then (acc, seen) else (t :: acc, seen.insert t.cursor.pos)
  | c :: cs, t, seen, acc =>
    if seen.contains t.cursor.pos then (acc, seen)
    else if cls c then
      reachUnseen cls cs (t.skip [c] cs) (seen.insert t.cursor.pos) (t :: acc)
    else (t :: acc, seen.insert t.cursor.pos)

/-- Repeats a class from each thread in turn, as few times as possible. -/
def repeatLazily (cls : Char → Bool) : Results Thread → Seen → Results Thread
  | .done, _ => .done
  | .next t more, seen =>
    climbUnseen cls (fun seen => repeatLazily cls (more ()) seen) t.cursor.rest t seen

/-- Repeats a class from each thread in turn, as many times as possible. -/
def repeatGreedily (cls : Char → Bool) : Results Thread → Seen → Results Thread
  | .done, _ => .done
  | .next t more, seen =>
    let (threads, seen) := reachUnseen cls t.cursor.rest t seen []
    .prepend threads fun _ => repeatGreedily cls (more ()) seen

/-- The ways in which a pattern matches from the threads of a sequence, those of earlier threads
being preferred. -/
def run : Pattern → Results Thread → Results Thread
  | empty, threads => threads
  | one cls, threads => threads.filterMap (Thread.one cls)
  | literal cs, threads => threads.filterMap (Thread.literal cs)
  | seq a b, threads => b.run (a.run threads)
  | alt a b, threads =>
    threads.flatMap fun t => (a.run (.single t)).append fun _ => b.run (.single t)
  | many greedy cls, threads => if greedy then repeatGreedily cls threads ∅ else repeatLazily cls threads ∅
  | group name p, threads =>
    (p.run (threads.filterMap fun t => some t.openGroup)).filterMap fun t => some (t.closeGroup name)
  | lineStart, threads => threads.filterMap fun t => if t.atLineStart then some t else none
  | lineEnd, threads => threads.filterMap fun t => if t.atLineEnd then some t else none
  | wordBoundary, threads => threads.filterMap fun t => if t.atWordBoundary then some t else none

/-- A thread from every place, from left to right; `rest` is what follows the place of the cursor. -/
def startsFrom (c : Cursor) : (rest : List Char) → Results Thread
  | [] => .single ⟨c.pos, c, [], []⟩
  | d :: ds => .next ⟨c.pos, c, [], []⟩ fun _ => startsFrom (c.skip [d] ds) ds

/-- The first match at or after an offset of a text. -/
def find (p : Pattern) (cs : List Char) (pos : Nat) : Option Match :=
  let c := Cursor.at cs pos
  (p.run (startsFrom c c.rest)).head?.map Thread.toMatch

/-- Where the search goes on after a match: behind it, or one character on if it is empty. -/
def Match.resume (m : Match) (cs : List Char) : Nat :=
  if m.whole.start < m.whole.stop then m.whole.stop else Text.ceilBoundary cs (m.whole.stop + 1)

/-- The matches from an offset on, each beginning after the one before it. -/
def findAllFrom (p : Pattern) (cs : List Char) (pos : Nat) : List Match :=
  if pos ≤ Text.byteLength cs then
    match p.find cs pos with
    | none => []
    | some m =>
      if pos < m.resume cs then m :: findAllFrom p cs (m.resume cs) else [m]
  else []
termination_by Text.byteLength cs + 1 - pos

/-- All matches in a text, from left to right and without overlap. -/
def findAll (p : Pattern) (cs : List Char) : List Match :=
  p.findAllFrom cs 0

def Match.text? (m : Match) (cs : List Char) (name : String) : Option (List Char) :=
  (m.group? name).map fun span => Text.slice cs span.start span.stop

end IpRegistry.Pattern
