namespace IpRegistry.Bulk

/-- A window: when it began, and how many lookups it has counted. -/
structure Window where
  started : Nat
  count : Nat := 0
  deriving DecidableEq, Repr

namespace Window

def limit : Nat := 9

/-- The window has lasted as long as it should. -/
def isExpired (w : Window) (now length : Nat) : Bool :=
  length ≤ now - w.started

/-- The window has counted as many lookups as it admits. -/
def isFull (w : Window) : Bool :=
  limit ≤ w.count

/-- The window admits no lookup any more and still lasts. -/
def isExhausted (w : Window) (now length : Nat) : Bool :=
  w.isFull && !w.isExpired now length

/-- How long the window still lasts. -/
def remaining (w : Window) (now length : Nat) : Nat :=
  length - (now - w.started)

def record (w : Window) : Window :=
  { w with count := w.count + 1 }

def saturated (now : Nat) : Window :=
  ⟨now, limit⟩

theorem remaining_pos_iff (w : Window) (now length : Nat) :
    0 < w.remaining now length ↔ w.isExpired now length = false := by
  rw [remaining, isExpired, decide_eq_false_iff_not]
  omega

theorem isExpired_add_remaining (w : Window) (now length : Nat) (h : w.started ≤ now) :
    w.isExpired (now + w.remaining now length) length = true := by
  rw [isExpired, remaining, decide_eq_true_eq]
  omega

end Window

end IpRegistry.Bulk
