import IpRegistry.Bulk.Schedule
import IpRegistry.Proofs.Exchange

namespace IpRegistry.Bulk

/-- A schedule and the services that it asks. -/
structure World where
  schedule : Schedule
  services : Services

/-- A move: a registry is entered, whose window begins unless one still lasts, an address is asked
for, or time passes until a window ends. -/
inductive Move where
  | enter (r : Registry)
  | ask (r : Registry) (address : String) (record : Asn.Record)
  | wait
  deriving DecidableEq, Repr

def Move.isAsk : Move → Bool
  | .ask .. => true
  | _ => false

theorem Machine.now_endless (σ : Services) : Machine.endless.now σ = (.ok σ.elapsed, σ) :=
  rfl

namespace World

variable (p : Plan)

/-- How the lookup of an address would end now, and whether its registry would then be asked again.
-/
def settled (w : World) (r : Registry) (address : String) (record : Asn.Record) :
    Bool × Schedule :=
  let (outcome, services) := p.lookup address record w.services
  w.schedule.settle p.tries services.elapsed r address outcome

def step (w : World) : Move → World
  | .enter r => ⟨w.schedule.openWindow w.services.elapsed p.length r, w.services⟩
  | .ask r address record =>
      ⟨(w.settled p r address record).2, (p.lookup address record w.services).2⟩
  | .wait =>
      let ms := w.schedule.wait w.services.elapsed p.length
      ⟨w.schedule, (w.services.note (.sleep ms)).advance ms⟩

def after (w : World) (moves : List Move) : World :=
  moves.foldl (step p) w

theorem after_append (w : World) (moves more : List Move) :
    w.after p (moves ++ more) = (w.after p moves).after p more :=
  List.foldl_append

theorem after_preserves {I : World → Prop} (hstep : ∀ w m, I w → I (w.step p m)) {w : World}
    (h : I w) (moves : List Move) : I (w.after p moves) := by
  induction moves generalizing w with
  | nil => exact h
  | cons m moves ih => exact ih (hstep w m h)

def asks (r : Registry) : Classified → World → List Move
  | [], _ => []
  | (address, record) :: queue, w =>
      .ask r address record ::
        if (w.settled p r address record).1 then asks r queue (w.step p (.ask r address record))
        else []

def visit (w : World) (r : Registry) : List Move :=
  .enter r :: asks p r (w.schedule.queue r) (w.step p (.enter r))

def passMoves : List Registry → World → List Move
  | [], _ => []
  | r :: rs, w =>
      if w.schedule.mayAsk w.services.elapsed p.length r then
        w.visit p r ++ passMoves rs (w.after p (w.visit p r))
      else passMoves rs w

def turn (w : World) : List Move :=
  let moves := passMoves p Schedule.order w
  if moves.any Move.isAsk then moves else moves ++ [.wait]

def turns : (most : Nat) → World → List Move
  | 0, _ => []
  | most + 1, w =>
      if w.schedule.pending.isEmpty then []
      else w.turn p ++ turns most (w.after p (w.turn p))

def moves (w : World) : List Move :=
  turns p (Schedule.passLimit p w.schedule) w

theorem askAll_eq (r : Registry) (queue : Classified) (w : World) :
    Schedule.askAll .endless p r queue w.schedule w.services =
      (.ok (w.after p (asks p r queue w)).schedule, (w.after p (asks p r queue w)).services) := by
  induction queue generalizing w with
  | nil => rfl
  | cons entry queue ih =>
      obtain ⟨address, record⟩ := entry
      have hask : Schedule.askAll .endless p r ((address, record) :: queue) w.schedule w.services =
          (if (w.settled p r address record).1 then
            Schedule.askAll .endless p r queue (w.settled p r address record).2
          else pure (w.settled p r address record).2) (p.lookup address record w.services).2 := by
        rw [Schedule.askAll]
        rfl
      rw [hask, asks]
      by_cases hmore : (w.settled p r address record).1 = true
      · rw [if_pos hmore, if_pos hmore]
        exact ih (w.step p (.ask r address record))
      · rw [if_neg hmore, if_neg hmore]
        rfl

theorem any_isAsk_asks (r : Registry) (queue : Classified) (w : World) :
    (asks p r queue w).any Move.isAsk = !queue.isEmpty := by
  cases queue <;> rfl

theorem any_isAsk_visit (w : World) (r : Registry) :
    (w.visit p r).any Move.isAsk = !(w.schedule.queue r).isEmpty :=
  any_isAsk_asks p r _ _

theorem pass_eq (rs : List Registry) (w : World) :
    Schedule.pass .endless p rs w.schedule w.services =
      (.ok ((passMoves p rs w).any Move.isAsk, (w.after p (passMoves p rs w)).schedule),
        (w.after p (passMoves p rs w)).services) := by
  induction rs generalizing w with
  | nil => rfl
  | cons r rs ih =>
      rw [Schedule.pass, Exchange.bind_of_ok (Machine.now_endless _), passMoves]
      by_cases hmay : w.schedule.mayAsk w.services.elapsed p.length r = true
      · rw [if_pos hmay, if_pos hmay]
        have hvisit : Schedule.askAll .endless p r (w.schedule.queue r)
            (w.schedule.openWindow w.services.elapsed p.length r) w.services =
            (.ok (w.after p (w.visit p r)).schedule, (w.after p (w.visit p r)).services) :=
          askAll_eq p r _ (w.step p (.enter r))
        rw [Exchange.bind_of_ok hvisit, Exchange.bind_of_ok (ih _), List.any_append,
          any_isAsk_visit, after_append]
        rfl
      · rw [if_neg hmay, if_neg hmay]
        exact ih w

theorem passes_eq (most : Nat) (w : World) :
    Schedule.passes .endless p most w.schedule w.services =
      (.ok (w.after p (turns p most w)).schedule, (w.after p (turns p most w)).services) := by
  induction most generalizing w with
  | zero => rfl
  | succ most ih =>
      rw [Schedule.passes, turns]
      by_cases hempty : w.schedule.pending.isEmpty = true
      · rw [if_pos hempty, if_pos hempty]
        rfl
      · rw [if_neg hempty, if_neg hempty, Exchange.bind_of_ok (pass_eq p _ w), after_append, turn]
        by_cases hasked : (passMoves p Schedule.order w).any Move.isAsk = true
        · rw [if_pos hasked]
          simp only [hasked]
          exact ih _
        · rw [if_neg hasked]
          simp only [hasked, after_append, Bool.false_eq_true, if_false]
          rw [Exchange.bind_of_ok (Machine.now_endless _)]
          exact ih ((w.after p (passMoves p Schedule.order w)).step p .wait)

/-- A run never fails, and leaves what its moves lead to. -/
theorem run_eq (w : World) :
    Schedule.run .endless p w.schedule w.services =
      (.ok (w.after p (w.moves p)).schedule, (w.after p (w.moves p)).services) :=
  passes_eq p _ w

end World

end IpRegistry.Bulk
