import IpRegistry.Proofs.Bulk.Course
import IpRegistry.Proofs.Bulk.Schedule

namespace IpRegistry.Bulk

namespace World

variable (p : Plan)

/-- Each of the moves is allowed in the world in which it is made. -/
def Follows (allowed : World → Move → Prop) : World → List Move → Prop
  | _, [] => True
  | w, m :: moves => allowed w m ∧ Follows allowed (w.step p m) moves

variable {allowed : World → Move → Prop}

theorem follows_append {w : World} {moves more : List Move} :
    w.Follows p allowed (moves ++ more) ↔
      w.Follows p allowed moves ∧ (w.after p moves).Follows p allowed more := by
  induction moves generalizing w with
  | nil => simp [Follows, after]
  | cons m moves ih =>
      rw [List.cons_append, Follows, Follows, ih, and_assoc]
      rfl

theorem Follows.mono {w : World} {moves : List Move} (h : w.Follows p allowed moves)
    {permitted : World → Move → Prop} (himp : ∀ w m, allowed w m → permitted w m) :
    w.Follows p permitted moves := by
  induction moves generalizing w with
  | nil => trivial
  | cons m moves ih => exact ⟨himp w m h.1, ih h.2⟩

theorem Follows.and {permitted : World → Move → Prop} {w : World} {moves : List Move}
    (h : w.Follows p allowed moves) (h' : w.Follows p permitted moves) :
    w.Follows p (fun w m => allowed w m ∧ permitted w m) moves := by
  induction moves generalizing w with
  | nil => trivial
  | cons m moves ih => exact ⟨⟨h.1, h'.1⟩, ih h.2 h'.2⟩

/-- The registry is not asked while its window is full, and an address is asked for at its registry
while it is pending; nobody waits while some registry with pending addresses can be asked. -/
def Admits (w : World) : Move → Prop
  | .enter r => w.schedule.mayAsk w.services.elapsed p.length r = true
  | .ask r address record => (address, record) ∈ w.schedule.pending ∧ record.registry = r
  | .wait => w.schedule.pending ≠ [] ∧ ∀ entry ∈ w.schedule.pending,
      w.schedule.isExhausted w.services.elapsed p.length entry.2.registry = true

theorem follows_asks {r : Registry} {queue : Classified} {w : World}
    (hq : queue.Sublist w.schedule.pending) (hr : ∀ entry ∈ queue, entry.2.registry = r) :
    w.Follows p (Admits p) (asks p r queue w) := by
  induction queue generalizing w with
  | nil => trivial
  | cons entry queue ih =>
      obtain ⟨address, record⟩ := entry
      rw [asks]
      refine ⟨⟨hq.subset List.mem_cons_self, hr _ List.mem_cons_self⟩, ?_⟩
      split
      · rename_i hmore
        apply ih
        · show queue.Sublist (w.settled p r address record).2.pending
          rw [settled, Schedule.settle_pending_of_more _ _ _ _ _ hmore]
          simpa using hq.eraseP (p := fun entry => entry.1 == address)
        · intro entry hentry
          exact hr entry (List.mem_cons_of_mem _ hentry)
      · trivial

theorem follows_visit {w : World} {r : Registry}
    (h : w.schedule.mayAsk w.services.elapsed p.length r = true) :
    w.Follows p (Admits p) (w.visit p r) := by
  refine ⟨h, follows_asks p ?_ ?_⟩
  · show (w.schedule.queue r).Sublist (w.schedule.openWindow w.services.elapsed p.length r).pending
    rw [Schedule.openWindow_pending]
    exact List.filter_sublist
  · intro entry hentry
    exact ((Schedule.mem_queue _).1 hentry).2

theorem follows_passMoves
    (hvisit : ∀ {w : World} {r : Registry}, w.schedule.mayAsk w.services.elapsed p.length r = true →
      w.Follows p allowed (w.visit p r)) (rs : List Registry) (w : World) :
    w.Follows p allowed (passMoves p rs w) := by
  induction rs generalizing w with
  | nil => trivial
  | cons r rs ih =>
      rw [passMoves]
      split
      · rename_i hmay
        exact (follows_append p).2 ⟨hvisit hmay, ih _⟩
      · exact ih w

theorem asks_of_isEmpty {r : Registry} {queue : Classified} (h : queue.isEmpty = true) (w : World) :
    asks p r queue w = [] := by
  rw [List.isEmpty_iff.1 h]
  rfl

/-- In a pass in which nobody is asked, no registry with pending addresses may be asked. The
registries that are entered nevertheless have none, and their windows do not matter. -/
theorem mayAsk_of_quiet {rs : List Registry} {w : World}
    (h : (passMoves p rs w).any Move.isAsk = false) {r : Registry} (hr : r ∈ rs)
    (hqueue : (w.schedule.queue r).isEmpty = false) :
    w.schedule.mayAsk w.services.elapsed p.length r = false := by
  induction rs generalizing w with
  | nil => cases hr
  | cons q rs ih =>
      rw [passMoves] at h
      by_cases hmay : w.schedule.mayAsk w.services.elapsed p.length q = true
      · rw [if_pos hmay, List.any_append, Bool.or_eq_false_iff, any_isAsk_visit] at h
        have hempty : (w.schedule.queue q).isEmpty = true := by simpa using h.1
        have hne : r ≠ q := by
          rintro rfl
          rw [hempty] at hqueue
          cases hqueue
        rw [visit, asks_of_isEmpty p hempty] at h
        have hnext := ih h.2 ((List.mem_cons.1 hr).resolve_left hne)
        rw [← Schedule.mayAsk_openWindow _ _ _ q hempty hqueue]
        apply hnext
        rw [Schedule.queue] at hqueue ⊢
        simpa [after, step] using hqueue
      · rw [if_neg hmay] at h
        rcases List.mem_cons.1 hr with rfl | hmem
        · exact Bool.eq_false_iff.2 hmay
        · exact ih h hmem hqueue

theorem quiet_preserves {rs : List Registry} {w : World}
    (h : (passMoves p rs w).any Move.isAsk = false) :
    (w.after p (passMoves p rs w)).services = w.services ∧
      (w.after p (passMoves p rs w)).schedule.pending = w.schedule.pending ∧
      ∀ q, (w.schedule.queue q).isEmpty = false →
        (w.after p (passMoves p rs w)).schedule.windows.lookup q =
          w.schedule.windows.lookup q := by
  induction rs generalizing w with
  | nil => exact ⟨rfl, rfl, fun _ _ => rfl⟩
  | cons r rs ih =>
      rw [passMoves] at h ⊢
      by_cases hmay : w.schedule.mayAsk w.services.elapsed p.length r = true
      · rw [if_pos hmay, List.any_append, Bool.or_eq_false_iff, any_isAsk_visit] at h
        have hempty : (w.schedule.queue r).isEmpty = true := by simpa using h.1
        have hvisit : w.visit p r = [.enter r] := by rw [visit, asks_of_isEmpty p hempty]
        rw [if_pos hmay, after_append, hvisit]
        rw [hvisit] at h
        obtain ⟨hservices, hpending, hwindows⟩ := ih h.2
        have hqueue : (w.step p (.enter r)).schedule.queue = w.schedule.queue := by
          funext q
          simp [Schedule.queue, step]
        refine ⟨hservices, hpending.trans (Schedule.openWindow_pending _ _ _ _), ?_⟩
        intro q hq
        rw [hwindows q (by rw [← hq]; exact congrArg _ (congrFun hqueue q))]
        show (w.schedule.openWindow w.services.elapsed p.length r).windows.lookup q = _
        rw [Schedule.openWindow_windows_lookup, if_neg]
        rintro ⟨rfl, -⟩
        rw [hempty] at hq
        cases hq
      · rw [if_neg hmay] at h ⊢
        exact ih h

theorem isExhausted_of_quiet {w : World}
    (h : (passMoves p Schedule.order w).any Move.isAsk = false) {r : Registry}
    (hr : (w.schedule.queue r).isEmpty = false) :
    w.schedule.isExhausted w.services.elapsed p.length r = true :=
  Schedule.isExhausted_of_not_mayAsk _ _ _ _
    (fun _ hq => mayAsk_of_quiet p h (Schedule.mem_order _) hq) hr

theorem follows_turn {w : World} (hw : w.schedule.pending ≠ []) :
    w.Follows p (Admits p) (w.turn p) := by
  rw [turn]
  by_cases hasked : (passMoves p Schedule.order w).any Move.isAsk = true
  · rw [if_pos hasked]
    exact follows_passMoves p (follows_visit p) _ w
  · have hquiet := Bool.eq_false_iff.2 hasked
    obtain ⟨hservices, hpending, hwindows⟩ := quiet_preserves p hquiet
    rw [if_neg hasked]
    refine (follows_append p).2 ⟨follows_passMoves p (follows_visit p) _ w, ⟨?_, ?_⟩, trivial⟩
    · rwa [hpending]
    · intro entry hentry
      rw [hpending] at hentry
      have hqueue := w.schedule.queue_isEmpty_eq_false hentry
      rw [hservices, Schedule.isExhausted, hwindows _ hqueue]
      exact isExhausted_of_quiet p hquiet hqueue

/-- A run follows a rule if its visits do and the rule allows the waits that a run makes. -/
theorem follows_turns
    (hvisit : ∀ {w : World} {r : Registry}, w.schedule.mayAsk w.services.elapsed p.length r = true →
      w.Follows p allowed (w.visit p r))
    (hwait : ∀ {w : World}, w.Admits p .wait → allowed w .wait) (most : Nat) (w : World) :
    w.Follows p allowed (turns p most w) := by
  induction most generalizing w with
  | zero => trivial
  | succ most ih =>
      rw [turns]
      split
      · trivial
      · rename_i hpending
        rw [List.isEmpty_iff] at hpending
        refine (follows_append p).2 ⟨?_, ih _⟩
        have hadmits := follows_turn p hpending
        rw [turn] at hadmits ⊢
        split
        · exact follows_passMoves p hvisit _ w
        · rename_i hquiet
          rw [if_neg hquiet] at hadmits
          have hlast := ((follows_append p).1 hadmits).2.1
          exact (follows_append p).2 ⟨follows_passMoves p hvisit _ w, hwait hlast, trivial⟩

/-- A run makes each of its moves when the rule admits it. -/
theorem follows_moves (w : World) : w.Follows p (Admits p) (w.moves p) :=
  follows_turns p (follows_visit p) id _ w

theorem Follows.and_invariant {I : World → Prop} (hstep : ∀ w m, I w → I (w.step p m)) {w : World}
    {moves : List Move} (h : w.Follows p allowed moves) (hw : I w) :
    w.Follows p (fun w m => allowed w m ∧ I w) moves := by
  induction moves generalizing w with
  | nil => trivial
  | cons m moves ih => exact ⟨⟨h.1, hw⟩, ih h.2 (hstep w m hw)⟩

end World

end IpRegistry.Bulk
