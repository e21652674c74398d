import IpRegistry.Proofs.Bulk.Windows
import IpRegistry.Proofs.Rdap.Requests

namespace IpRegistry.Bulk

open Rdap (Service)

/-- A window of the registry begins, an address is looked up there, or its service is asked for a
document. -/
inductive Mark where
  | start
  | lookup
  | request (url : String)
  deriving DecidableEq, Repr

namespace Mark

def isLookup : Mark → Bool
  | lookup => true
  | _ => false

def isRequest : Mark → Bool
  | request _ => true
  | _ => false

variable (counted : Mark → Bool)

def tally (n : Nat) (m : Mark) : Nat :=
  if m = start then 0 else n + if counted m then 1 else 0

/-- How many of some marks there are since the last beginning of a window, after `n` before them. -/
def since (n : Nat) (marks : List Mark) : Nat :=
  marks.foldl (tally counted) n

variable {counted}

theorem since_append (n : Nat) (marks more : List Mark) :
    since counted n (marks ++ more) = since counted (since counted n marks) more :=
  List.foldl_append

theorem since_of_not_mem {n : Nat} {marks : List Mark} (h : start ∉ marks) :
    since counted n marks = n + marks.countP counted := by
  induction marks generalizing n with
  | nil => rfl
  | cons m marks ih =>
      rw [List.mem_cons, not_or] at h
      have hm : tally counted n m = n + if counted m then 1 else 0 :=
        if_neg fun heq => h.1 heq.symm
      rw [List.countP_cons]
      refine (ih h.2).trans ?_
      rw [hm]
      omega

theorem since_concat_start (n : Nat) (marks : List Mark) :
    since counted n (marks ++ [start]) = 0 := by
  rw [since_append]
  rfl

theorem countP_le_of_since_le {limit : Nat} {marks part : List Mark}
    (h : ∀ before, before <+: marks → since counted 0 before ≤ limit) (hpart : part <:+: marks)
    (hstart : start ∉ part) : part.countP counted ≤ limit := by
  obtain ⟨before, rest, hmarks⟩ := hpart
  have hle := h (before ++ part) ⟨rest, hmarks⟩
  rw [since_append, since_of_not_mem hstart] at hle
  omega

end Mark

namespace World

variable (p : Plan) (r : Registry)

/-- The requests among some events that go to the service of a registry. -/
def requestsTo (events : List Event) : List String :=
  events.filterMap fun
    | .web request => if (Service.registry r).serves request.url then some request.url else none
    | _ => none

def noted (w : World) (m : Move) : List Event :=
  (w.step p m).services.events.drop w.services.events.length

/-- The lookup of a move and its requests. -/
def efforts (w : World) (m : Move) : List Mark :=
  (if m.asksAt r then [.lookup] else []) ++ (requestsTo r (w.noted p m)).map .request

def marks (w : World) (m : Move) : List Mark :=
  w.efforts p r m ++ if w.begins p r m then [.start] else []

def timeline : List Move → World → List Mark
  | [], _ => []
  | m :: moves, w => w.marks p r m ++ timeline moves (w.step p m)

/-- No more than one of the efforts of a lookup counts, and none of those of another move. -/
def CountsOnce (counted : Mark → Bool) (w : World) (m : Move) : Prop :=
  (w.efforts p r m).countP counted ≤ if m.asksAt r then 1 else 0

variable {p r} {w : World} {m : Move} {counted : Mark → Bool} {n : Nat}

theorem start_not_mem_efforts : .start ∉ w.efforts p r m := by
  rw [efforts]
  split <;> simp

theorem since_marks_le (h : w.CountsOnce p r counted m) (hn : n ≤ w.schedule.used r) :
    Mark.since counted n (w.marks p r m) ≤ (w.step p m).schedule.used r := by
  rw [marks, used_step]
  split
  · rw [Mark.since_concat_start]
    exact Nat.zero_le _
  · rw [List.append_nil, Mark.since_of_not_mem start_not_mem_efforts]
    exact Nat.add_le_add hn h

theorem since_le_of_prefix_marks (h : w.CountsOnce p r counted m) (hm : w.Respects p m)
    (hn : n ≤ w.schedule.used r) (hw : w.schedule.used r ≤ Window.limit) {before : List Mark}
    (hbefore : before <+: w.marks p r m) : Mark.since counted n before ≤ Window.limit := by
  have hefforts : before <+: w.efforts p r m →
      Mark.since counted n before ≤ Window.limit := by
    intro hshort
    rw [Mark.since_of_not_mem fun hmem => start_not_mem_efforts (hshort.subset hmem)]
    have hcount := Nat.le_trans hshort.countP_le h
    have hlimit := used_add_le hm hw
    omega
  rw [marks] at hbefore
  split at hbefore
  · rcases List.prefix_concat_iff.1 hbefore with rfl | hshort
    · rw [Mark.since_concat_start]
      exact Nat.zero_le _
    · exact hefforts hshort
  · rw [List.append_nil] at hbefore
    exact hefforts hbefore

theorem Follows.since_le {moves : List Move}
    (h : w.Follows p (fun w m => w.Respects p m ∧ w.CountsOnce p r counted m) moves)
    (hn : n ≤ w.schedule.used r) (hw : w.schedule.used r ≤ Window.limit) {before : List Mark}
    (hbefore : before <+: timeline p r moves w) : Mark.since counted n before ≤ Window.limit := by
  induction moves generalizing w n before with
  | nil =>
      rw [List.prefix_nil.1 hbefore]
      exact Nat.le_trans hn hw
  | cons m moves ih =>
      -- No more marks have been counted since the last beginning than the window counts lookups.
      obtain ⟨⟨hrespects, hcounts⟩, hrest⟩ := h
      rcases List.prefix_or_prefix_of_prefix hbefore (List.prefix_append _ _) with
        hmarks | ⟨later, rfl⟩
      · exact since_le_of_prefix_marks hcounts hrespects hn hw hmarks
      · rw [timeline, List.prefix_append_right_inj] at hbefore
        rw [Mark.since_append]
        exact ih hrest (since_marks_le hcounts hn) (used_step_le hrespects hw) hbefore

/-- Between two beginnings of windows of a registry there are no more marks of a kind than a window
admits lookups, if no lookup leaves more than one of them. -/
theorem Follows.countP_le {moves : List Move}
    (h : w.Follows p (fun w m => w.Respects p m ∧ w.CountsOnce p r counted m) moves)
    (hw : w.schedule.used r ≤ Window.limit) {part : List Mark}
    (hpart : part <:+: timeline p r moves w) (hstart : .start ∉ part) :
    part.countP counted ≤ Window.limit :=
  Mark.countP_le_of_since_le (fun _ => h.since_le (Nat.zero_le _) hw) hpart hstart

theorem countsOnce_isLookup (w : World) (m : Move) : w.CountsOnce p r Mark.isLookup m := by
  have hrequests : ((requestsTo r (w.noted p m)).map Mark.request).countP Mark.isLookup = 0 := by
    rw [List.countP_eq_zero]
    rintro _ hmem hlookup
    obtain ⟨url, -, rfl⟩ := List.mem_map.1 hmem
    cases hlookup
  rw [CountsOnce, efforts, List.countP_append, hrequests]
  split
  · exact Nat.le_refl 1
  · exact Nat.le_refl 0

end World

end IpRegistry.Bulk
