import IpRegistry.Services

namespace IpRegistry.Script

variable {α : Type}

/-- The answers that are queued for a server. -/
def queuedFor (s : Script α) (key : String) : List α :=
  (s.queued.filter fun item => key == item.1).map Prod.snd

/-- The next `count` answers of a server: those that are queued for it, then its standing answer. -/
def upcoming (s : Script α) (key : String) (count : Nat) : List (Option α) :=
  ((s.queuedFor key).map some ++ List.replicate count (s.standing.lookup key)).take count

/-- The script when a server has given some answers. -/
def after (s : Script α) (key : String) : (count : Nat) → Script α
  | 0 => s
  | count + 1 => (s.take key).2.after key count

@[simp] theorem length_upcoming (s : Script α) (key : String) (count : Nat) :
    (s.upcoming key count).length = count := by
  simp [upcoming]

theorem lookup_eq_head? (items : List (String × α)) (key : String) :
    items.lookup key = ((items.filter fun item => key == item.1).map Prod.snd).head? := by
  induction items with
  | nil => rfl
  | cons item items ih =>
      obtain ⟨k, a⟩ := item
      rw [List.lookup_cons, List.filter_cons]
      cases key == k with
      | true => rfl
      | false => exact ih

theorem filter_eraseP (p : String × α → Bool) (items : List (String × α)) :
    (items.eraseP p).filter p = (items.filter p).tail := by
  induction items with
  | nil => rfl
  | cons item items ih =>
      rw [List.eraseP_cons, List.filter_cons]
      cases hp : p item with
      | true => rfl
      | false => simpa [hp] using ih

theorem standing_take (s : Script α) (key : String) : (s.take key).2.standing = s.standing := by
  rw [take]
  split <;> rfl

theorem take_fst (s : Script α) (key : String) :
    (s.take key).1 = (s.queuedFor key).head?.or (s.standing.lookup key) := by
  rw [queuedFor, ← lookup_eq_head?, take]
  split
  · rename_i a ha
    rw [ha, Option.some_or]
  · rename_i hnone
    rw [hnone, Option.none_or]

theorem queuedFor_take (s : Script α) (key : String) :
    (s.take key).2.queuedFor key = (s.queuedFor key).tail := by
  rw [take]
  split
  · rw [queuedFor, queuedFor, filter_eraseP, List.map_tail]
  · rename_i hnone
    rw [lookup_eq_head?, List.head?_eq_none_iff] at hnone
    rw [queuedFor, hnone, List.tail_nil]

theorem filter_eraseP_of_disjoint {p q : String × α → Bool} (h : ∀ item, p item → ¬q item)
    (items : List (String × α)) : (items.eraseP q).filter p = items.filter p := by
  induction items with
  | nil => rfl
  | cons item items ih =>
      rw [List.eraseP_cons]
      cases hq : q item with
      | true =>
          have hp : ¬p item := fun hp => h item hp hq
          rw [cond_true, List.filter_cons_of_neg hp]
      | false => rw [cond_false, List.filter_cons, List.filter_cons, ih]

/-- What a server gives does not depend on what another one has given. -/
theorem take_fst_of_ne (s : Script α) {key other : String} (h : key ≠ other) :
    ((s.take other).2.take key).1 = (s.take key).1 := by
  rw [take_fst, take_fst, standing_take]
  congr 2
  rw [take]
  split
  · rw [queuedFor, queuedFor, filter_eraseP_of_disjoint]
    intro item hkey hother
    exact h ((eq_of_beq hkey).trans (eq_of_beq hother).symm)
  · rfl

theorem upcoming_succ (s : Script α) (key : String) (count : Nat) :
    s.upcoming key (count + 1) = (s.take key).1 :: (s.take key).2.upcoming key count := by
  rw [take_fst, upcoming, upcoming, queuedFor_take, standing_take]
  cases s.queuedFor key with
  | nil => simp [List.replicate_succ]
  | cons a more =>
      rw [List.replicate_succ', List.map_cons, List.cons_append, List.take_succ_cons,
        ← List.append_assoc, List.take_append_of_le_length (by simp)]
      rfl

end IpRegistry.Script
