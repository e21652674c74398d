import IpRegistry.Proofs.Bulk.Capacity
import IpRegistry.Proofs.Bulk.Pace

namespace IpRegistry

/-- The milliseconds of the waits so far. -/
def Services.waits (σ : Services) : List Nat :=
  σ.events.filterMap Exchange.wait?

namespace Bulk

def Plan.Wakeful (p : Plan) : Prop :=
  ∀ address record σ, (p.lookup address record σ).2.waits = σ.waits

theorem plan_wakeful (o : Options) : (plan o).Wakeful := by
  intro address record σ
  have hobeys := obeys_plan_lookup o address record
  have hnone : (((plan o).lookup address record).noted σ).filterMap Exchange.wait? = [] := by
    rw [List.filterMap_eq_nil_iff]
    intro e he
    obtain ⟨request, rfl, -⟩ := hobeys.allowed_of_mem he
    rfl
  rw [Services.waits, Services.waits, hobeys.events_eq σ, List.filterMap_append, hnone,
    List.append_nil]

namespace Account

variable {tries copies : Nat} {a : Account}

/-- The address is pending no more often than in the beginning. It fails once for each time that it
was pending, and as often as it may beyond the last try that is not the last. -/
structure Bounded (tries copies : Nat) (a : Account) : Prop where
  records : a.records.length ≤ copies
  failures : a.failures + a.records.length ≤ tries - 1 + copies

theorem Bounded.settle (h : a.Bounded tries copies) (hopen : a.records ≠ []) (r : Registry)
    (outcome : Except LookupError RdapReport) : (a.settle tries r outcome).Bounded tries copies := by
  have hpos := List.length_pos_of_ne_nil hopen
  have hrecords := h.records
  have hfailures := h.failures
  have htail : a.remove.records.length = a.records.length - 1 := List.length_tail
  cases outcome with
  | ok report =>
      refine ⟨?_, ?_⟩
      · show a.remove.records.length ≤ copies
        omega
      · show a.failures + a.remove.records.length ≤ _
        omega
  | error e =>
      have hfail : (a.fail tries r).Bounded tries copies := by
        rw [fail]
        split
        · refine ⟨?_, ?_⟩
          · show a.remove.records.length ≤ copies
            omega
          · show a.failures + 1 + a.remove.records.length ≤ _
            omega
        · refine ⟨hrecords, ?_⟩
          show a.failures + 1 + a.records.length ≤ _
          omega
      rw [Account.settle, limit]
      split
      · split <;> exact ⟨hfail.records, hfail.failures⟩
      · exact hfail

end Account

namespace World

variable {p : Plan}

theorem Follows.bounded {w : World} {moves : List Move} (h : w.Follows p (Admits p) moves)
    {address : String} {copies : Nat} (hw : (w.schedule.account address).Bounded p.tries copies) :
    ((w.after p moves).schedule.account address).Bounded p.tries copies := by
  induction moves generalizing w with
  | nil => exact hw
  | cons m moves ih =>
      refine ih h.2 ?_
      cases m with
      | enter r => rwa [account_step_enter]
      | wait => exact hw
      | ask r asked other =>
          rw [account_step_ask]
          split
          · rename_i heq
            rw [heq] at hw ⊢
            exact hw.settle (List.ne_nil_of_mem (mem_records h.1.1)) r _
          · exact hw

variable (p)

/-- The moves of the pass that begins in a world. -/
def pass (w : World) : List Move :=
  passMoves p Schedule.order w

/-- Nobody is asked in the pass that begins in a world. -/
def isQuiet (w : World) : Bool :=
  !(w.pass p).any Move.isAsk

def passed (w : World) : World :=
  w.after p (w.pass p)

def rest (w : World) : Nat :=
  w.schedule.wait w.services.elapsed p.length

/-- Passes of a run by the worlds in which they begin, each with pending addresses, and the world in
which the last of them ends. -/
inductive Passes : World → List World → World → Prop
  | nil (w : World) : Passes w [] w
  | cons {w v : World} {ws : List World} (h : w.schedule.pending ≠ [])
    (rest : Passes (w.after p (w.turn p)) ws v) : Passes w (w :: ws) v

def lookupsOf (ws : List World) : Nat :=
  (ws.flatMap (pass p)).countP Move.isAsk

def quietOf (ws : List World) : List World :=
  ws.filter (isQuiet p)

variable {p} {w v : World} {ws : List World}

theorem turn_of_isQuiet (h : w.isQuiet p = true) : w.turn p = w.pass p ++ [.wait] := by
  rw [isQuiet, Bool.not_eq_true'] at h
  exact if_neg (Bool.eq_false_iff.1 h)

theorem turn_of_not_isQuiet (h : w.isQuiet p = false) : w.turn p = w.pass p := by
  rw [isQuiet, Bool.not_eq_false'] at h
  exact if_pos h

theorem after_turn_of_isQuiet (h : w.isQuiet p = true) :
    w.after p (w.turn p) = (w.passed p).step p .wait := by
  rw [turn_of_isQuiet h, after_append]
  rfl

theorem countP_isAsk_turn (w : World) :
    (w.turn p).countP Move.isAsk = (w.pass p).countP Move.isAsk := by
  cases h : w.isQuiet p with
  | true =>
      rw [turn_of_isQuiet h, List.countP_append]
      rfl
  | false => rw [turn_of_not_isQuiet h]

theorem exists_passes (most : Nat) (w : World) :
    ∃ ws, Passes p w ws (w.after p (turns p most w)) ∧ ws.length ≤ most := by
  induction most generalizing w with
  | zero => exact ⟨[], .nil w, Nat.le_refl 0⟩
  | succ most ih =>
      rw [turns]
      split
      · exact ⟨[], .nil w, Nat.zero_le _⟩
      · rename_i hpending
        rw [after_append]
        obtain ⟨ws, hpasses, hlength⟩ := ih (w.after p (w.turn p))
        exact ⟨w :: ws, .cons (mt List.isEmpty_iff.2 hpending) hpasses, Nat.succ_le_succ hlength⟩

theorem Passes.split {before later : List World} (h : Passes p w (before ++ later) v) :
    ∃ u, Passes p w before u ∧ Passes p u later v := by
  induction before generalizing w with
  | nil => exact ⟨w, .nil w, h⟩
  | cons first before ih =>
      cases h with
      | cons hpending hrest =>
          obtain ⟨u, hbefore, hlater⟩ := ih hrest
          exact ⟨u, .cons hpending hbefore, hlater⟩

theorem Passes.turns_eq (h : Passes p w ws v) :
    turns p ws.length w = ws.flatMap (turn p) ∧ w.after p (turns p ws.length w) = v := by
  induction h with
  | nil w => exact ⟨rfl, rfl⟩
  | cons h rest ih =>
      obtain ⟨hturns, hafter⟩ := ih
      rw [List.length_cons, turns, if_neg (mt List.isEmpty_iff.1 h), after_append, hafter, hturns]
      exact ⟨rfl, rfl⟩

theorem Passes.lookupsOf_le (h : Passes p w ws v) (htries : 1 ≤ p.tries) :
    lookupsOf p ws ≤ w.schedule.pending.length * p.tries := by
  have hturns : (ws.flatMap (turn p)).countP Move.isAsk = lookupsOf p ws := by
    rw [lookupsOf, List.countP_flatMap, List.countP_flatMap]
    exact congrArg List.sum (List.map_congr_left fun u _ => countP_isAsk_turn u)
  have hasks := (follows_turns p (follows_visit p) id ws.length w).asks_add_budget_le
  rw [h.turns_eq.1, hturns] at hasks
  have hbudget := w.schedule.budget_le p.tries htries
  omega

theorem admits_wait_of_isQuiet (hpending : w.schedule.pending ≠ []) (h : w.isQuiet p = true) :
    (w.passed p).Admits p .wait := by
  have hfollows := follows_turn p hpending
  rw [turn_of_isQuiet h] at hfollows
  exact ((follows_append p).1 hfollows).2.1

theorem asks_after_wait (hp : p.Advances) (hw : w.Punctual) (hpending : w.schedule.pending ≠ [])
    (h : w.isQuiet p = true) :
    (w.after p (w.turn p)).schedule.pending ≠ [] ∧
      (w.after p (w.turn p)).isQuiet p = false := by
  have hadmits := admits_wait_of_isQuiet hpending h
  have hpassed : (w.passed p).Punctual := hw.after hp _
  rw [after_turn_of_isQuiet h]
  refine ⟨hadmits.1, ?_⟩
  rw [isQuiet, Bool.not_eq_false']
  exact asked_of_ready (ready_step_wait hpassed hadmits)

theorem Passes.asks_next (hp : p.Advances) (h : Passes p w ws v) (hv : v.schedule.pending = [])
    (hw : w.Punctual) {before later : List World} {u : World} (hws : ws = before ++ u :: later)
    (hquiet : u.isQuiet p = true) :
    u.schedule.pending ≠ [] ∧ ∃ next rest, later = next :: rest ∧ next.isQuiet p = false := by
  induction h generalizing before with
  | nil w => cases before <;> cases hws
  | cons h rest ih =>
      rename_i w v ws
      cases before with
      | cons first before =>
          obtain ⟨-, hws⟩ := List.cons.inj hws
          exact ih hv (hw.after hp _) hws
      | nil =>
          obtain ⟨rfl, rfl⟩ := List.cons.inj hws
          obtain ⟨hnext, hasks⟩ := asks_after_wait hp hw h hquiet
          refine ⟨h, ?_⟩
          cases rest with
          | nil => exact absurd hv hnext
          | cons hpending hrest => exact ⟨_, _, rfl, hasks⟩

theorem lookupsOf_cons (w : World) (ws : List World) :
    lookupsOf p (w :: ws) = (w.pass p).countP Move.isAsk + lookupsOf p ws := by
  rw [lookupsOf, List.flatMap_cons, List.countP_append]
  rfl

theorem quietOf_cons_of_isQuiet (h : w.isQuiet p = true) (ws : List World) :
    quietOf p (w :: ws) = w :: quietOf p ws :=
  List.filter_cons_of_pos h

theorem quietOf_cons_of_not (h : w.isQuiet p = false) (ws : List World) :
    quietOf p (w :: ws) = quietOf p ws :=
  List.filter_cons_of_neg (by simp [h])

/-- There is at most one more quiet pass than lookups, and not even one if somebody is asked in the
first pass. -/
theorem Passes.quietOf_le (hp : p.Advances) (h : Passes p w ws v) (hw : w.Punctual) :
    (quietOf p ws).length ≤ lookupsOf p ws + (if w.isQuiet p then 1 else 0) := by
  induction h with
  | nil w => exact Nat.zero_le _
  | cons h rest ih =>
      rename_i w v ws
      have hrest := ih (hw.after hp _)
      rw [lookupsOf_cons]
      cases hquiet : w.isQuiet p with
      | false =>
          have hasked : 0 < (w.pass p).countP Move.isAsk := by
            rw [isQuiet, Bool.not_eq_false'] at hquiet
            exact List.countP_pos_iff.2 (by simpa using hquiet)
          have hone : (if (w.after p (w.turn p)).isQuiet p then 1 else 0) ≤ 1 := by
            split <;> decide
          rw [quietOf_cons_of_not hquiet]
          omega
      | true =>
          have hasks := (asks_after_wait hp hw h hquiet).2
          rw [hasks] at hrest
          rw [quietOf_cons_of_isQuiet hquiet, List.length_cons, if_pos rfl]
          simp only [Bool.false_eq_true, if_false] at hrest
          omega

theorem Passes.waits_eq (hp : p.Wakeful) (h : Passes p w ws v) :
    v.services.waits =
      w.services.waits ++ (quietOf p ws).map fun u => (u.passed p).rest p := by
  induction h with
  | nil w => exact (List.append_nil _).symm
  | cons h rest ih =>
      rename_i w v ws
      have hpassed : (w.passed p).services.waits = w.services.waits := after_passMoves_eq hp _ w
      rw [ih]
      cases hquiet : w.isQuiet p with
      | false =>
          rw [quietOf_cons_of_not hquiet, turn_of_not_isQuiet hquiet]
          exact congrArg (· ++ _) hpassed
      | true =>
          have hwait : ((w.passed p).step p .wait).services.waits =
              (w.passed p).services.waits ++ [(w.passed p).rest p] :=
            List.filterMap_append
          rw [after_turn_of_isQuiet hquiet, hwait, hpassed, quietOf_cons_of_isQuiet hquiet,
            List.append_assoc]
          rfl

theorem Passes.fits {c : Capacity} (h : Passes p w ws v) (hv : v.schedule.Fits c) :
    w.schedule.Fits c := by
  rw [← h.turns_eq.2] at hv
  exact fits_of_after hv

/-- Passes that begin at times which the clock can tell are made as on a machine without an end. -/
theorem Passes.run_eq {c : Capacity} (hp : p.Instant) (h : Passes p w ws v)
    (hfits : v.schedule.Fits c) (htime : ∀ u ∈ ws, u.services.elapsed ≤ c.time) (most : Nat) :
    (Schedule.passes c.machine p (ws.length + most) w.schedule).run w.services =
      (Schedule.passes c.machine p most v.schedule).run v.services := by
  induction h with
  | nil w => rw [List.length_nil, Nat.zero_add]
  | cons h rest ih =>
      obtain ⟨hfirst, htime⟩ := List.forall_mem_cons.1 htime
      rw [List.length_cons, Nat.succ_add, run_passes_succ hp h hfirst (rest.fits hfits)]
      exact ih hfits htime

theorem Passes.run_of_told {c : Capacity} (hp : p.Instant) (h : Passes p w ws v)
    (hfits : v.schedule.Fits c) (hv : v.schedule.pending = [])
    (htime : ∀ u ∈ ws, u.services.elapsed ≤ c.time) {most : Nat} (hmost : ws.length ≤ most) :
    (Schedule.passes c.machine p most w.schedule).run w.services =
      (.ok (some v.schedule), v.services) := by
  obtain ⟨more, rfl⟩ := Nat.exists_eq_add_of_le hmost
  rw [h.run_eq hp hfits htime]
  cases more with
  | zero => rfl
  | succ more =>
      rw [Schedule.passes, if_pos (List.isEmpty_iff.2 hv)]
      rfl

/-- A pass that begins at a time which the clock cannot tell is not made. -/
theorem Passes.run_of_untold {c : Capacity} (hp : p.Instant) {before later : List World} {u : World}
    (h : Passes p w (before ++ u :: later) v) (hfits : v.schedule.Fits c)
    (htime : ∀ x ∈ before, x.services.elapsed ≤ c.time) (hlate : c.time < u.services.elapsed)
    {most : Nat} (hmost : before.length < most) :
    Passes p w before u ∧ (Schedule.passes c.machine p most w.schedule).run w.services =
      (.ok none, u.services) := by
  obtain ⟨x, hbefore, hlater⟩ := h.split
  have hx : x.schedule.Fits c := hlater.fits hfits
  cases hlater with
  | cons hpending hrest =>
      obtain ⟨more, rfl⟩ := Nat.exists_eq_add_of_lt hmost
      refine ⟨hbefore, ?_⟩
      rw [Nat.add_assoc, hbefore.run_eq hp hx htime, Schedule.passes,
        if_neg (mt List.isEmpty_iff.1 hpending)]
      exact Exchange.run_bind_of_none (Exchange.run_bind_of_none (c.now_of_lt hlate))

theorem elapsed_le_after (hp : p.Advances) (w : World) (moves : List Move) :
    w.services.elapsed ≤ (w.after p moves).services.elapsed := by
  induction moves generalizing w with
  | nil => exact Nat.le_refl _
  | cons m moves ih =>
      have hstep : w.services.elapsed ≤ (w.step p m).services.elapsed := by
        cases m with
        | enter r => exact Nat.le_refl _
        | ask r address record => exact hp address record w.services
        | wait => exact Nat.le_add_right _ _
      exact Nat.le_trans hstep (ih (w.step p m))

theorem Passes.elapsed_le (hp : p.Advances) (h : Passes p w ws v) :
    ∀ u ∈ ws, u.services.elapsed ≤ v.services.elapsed := by
  induction h with
  | nil w => exact List.forall_mem_nil _
  | cons h rest ih =>
      refine List.forall_mem_cons.2 ⟨?_, ih⟩
      rw [← rest.turns_eq.2, ← after_append]
      exact elapsed_le_after hp _ _

theorem isQuiet_start {pending : Classified} (h : pending ≠ []) (σ : Services) :
    (start pending σ).isQuiet p = false := by
  obtain ⟨entry, hentry⟩ := List.exists_mem_of_ne_nil _ h
  rw [isQuiet, Bool.not_eq_false']
  exact asked_of_ready ⟨entry, hentry, rfl⟩

end World

theorem failuresOf_finish_le (o : Options) (pending : Classified) (σ : Services)
    (address : String) :
    (finish o pending σ).schedule.failuresOf address ≤
      max 1 o.retryCount - 1 + (pending.filter fun entry => entry.1 == address).length := by
  have hstart : ((start pending σ).schedule.account address).Bounded (plan o).tries
      (pending.filter fun entry => entry.1 == address).length := by
    rw [account_start]
    refine ⟨Nat.le_of_eq (List.length_map _), ?_⟩
    rw [List.length_map, Nat.zero_add]
    exact Nat.le_add_left _ _
  have hfinish := (World.follows_moves (plan o) (start pending σ)).bounded hstart
  rw [Nat.max_comm]
  exact Nat.le_trans (Nat.le_add_right _ _) hfinish.failures

/-- The passes of the lookups of any addresses come to an end, with no more lookups than the
addresses have tries. After a pass in which nobody is asked, all registries with pending addresses
have full windows, and the wait lasts until the first of these ends; in the next pass somebody is
asked. There are no other waits, and so no more of them than lookups.

All this holds on a machine whose counters can hold the failures of each address. Its clock may come
to an end: then the run breaks off at the first pass that begins at a time which the clock cannot
tell, after the passes and waits before it. -/
theorem run_never_spins (c : Capacity) (o : Options) (pending : Classified) (σ : Services) :
    let p := plan o
    let w := start pending σ
    let v := finish o pending σ
    ∃ ws, World.Passes p w ws v ∧ v.schedule.pending = [] ∧
      World.lookupsOf p ws ≤ pending.length * max 1 o.retryCount ∧
      (∀ before u later, ws = before ++ u :: later → u.isQuiet p = true →
        let x := u.passed p
        let now := x.services.elapsed
        (∀ entry ∈ x.schedule.pending,
          x.schedule.isExhausted now o.length entry.2.registry = true) ∧
        0 < x.rest p ∧ x.rest p ≤ o.length ∧
        (∃ entry ∈ x.schedule.pending, ∃ window,
          x.schedule.windows.lookup entry.2.registry = some window ∧
            x.rest p = window.remaining now o.length) ∧
        (∀ entry ∈ x.schedule.pending, ∀ window,
          x.schedule.windows.lookup entry.2.registry = some window →
            x.rest p ≤ window.remaining now o.length) ∧
        ∃ next rest, later = next :: rest ∧ next.isQuiet p = false) ∧
      (∀ before later, ws = before ++ later →
        (World.quietOf p before).length ≤ World.lookupsOf p before) ∧
      v.services.waits = σ.waits ++ (World.quietOf p ws).map (fun u => (u.passed p).rest p) ∧
      (∀ address, v.schedule.failuresOf address ≤
        max 1 o.retryCount - 1 + (pending.filter fun entry => entry.1 == address).length) ∧
      (v.schedule.Fits c → ws.length ≤ Schedule.passLimit p w.schedule ∧
        ∀ most, ws.length ≤ most →
          ((∀ u ∈ ws, u.services.elapsed ≤ c.time) →
            (Schedule.passes c.machine p most w.schedule).run σ =
              (.ok (some v.schedule), v.services)) ∧
          ∀ before u later, ws = before ++ u :: later →
            (∀ x ∈ before, x.services.elapsed ≤ c.time) → c.time < u.services.elapsed →
            (Schedule.passes c.machine p most w.schedule).run σ = (.ok none, u.services) ∧
              u.services.waits =
                σ.waits ++ (World.quietOf p before).map (fun u => (u.passed p).rest p)) := by
  intro p w v
  have hpunctual : w.Punctual := fun _ _ h => by cases h
  have hpending : v.schedule.pending = [] := finish_pending o pending σ
  obtain ⟨ws, hpasses, hlimit⟩ := World.exists_passes (Schedule.passLimit p w.schedule) w
  refine ⟨ws, hpasses, hpending, ?_, ?_, ?_, hpasses.waits_eq (plan_wakeful o), ?_, ?_⟩
  · rw [Nat.max_comm]
    exact hpasses.lookupsOf_le (Nat.le_max_right _ _)
  · intro before u later hws hquiet x now
    obtain ⟨hmore, hnext⟩ :=
      hpasses.asks_next (plan_advances o) hpending hpunctual hws hquiet
    obtain ⟨hleft, hfull⟩ := World.admits_wait_of_isQuiet hmore hquiet
    obtain ⟨hattained, hleast⟩ := Schedule.wait_spec hleft hfull
    exact ⟨hfull, Schedule.wait_pos hleft hfull, Schedule.wait_le hleft hfull, hattained, hleast,
      hnext⟩
  · rintro before later rfl
    obtain ⟨x, hbefore, -⟩ := hpasses.split
    cases hbefore with
    | nil => exact Nat.zero_le _
    | cons hfirst hrest =>
        have hle := (World.Passes.cons hfirst hrest).quietOf_le (plan_advances o) hpunctual
        have hquiet : w.isQuiet p = false := World.isQuiet_start hfirst σ
        rwa [hquiet] at hle
  · exact failuresOf_finish_le o pending σ
  · intro hfits
    refine ⟨hlimit, fun most hmost => ⟨fun htime => ?_, ?_⟩⟩
    · exact hpasses.run_of_told (plan_instant o) hfits hpending htime hmost
    · rintro before u later rfl htime hlate
      have hshort : before.length < most := by
        rw [List.length_append, List.length_cons] at hmost
        omega
      obtain ⟨hbefore, hrun⟩ :=
        hpasses.run_of_untold (plan_instant o) hfits htime hlate hshort
      exact ⟨hrun, hbefore.waits_eq (plan_wakeful o)⟩

/-- A registry that refuses both lookups of an address, on a machine whose clock tells the time
between them. -/
theorem run_never_spins_refusing :
    let c : Capacity := { time := 60000 }
    let o : Options := { retryCount := 2 }
    let w := start [("8.8.8.8", refusedRecord)] refusing
    let v := finish o [("8.8.8.8", refusedRecord)] refusing
    (Schedule.run c.machine (plan o) w.schedule).run refusing =
        (.ok (some v.schedule), v.services) ∧
      v.services.waits = [60000] := by
  intro c o w v
  obtain ⟨ws, hpasses, -, -, -, -, -, hfailures, hrun⟩ :=
    run_never_spins c o [("8.8.8.8", refusedRecord)] refusing
  have hfits : v.schedule.Fits c := by
    intro address
    have hcopies := List.length_filter_le
      (fun entry : String × Asn.Record => entry.1 == address) [("8.8.8.8", refusedRecord)]
    have htwo : v.schedule.failuresOf address ≤ 2 :=
      Nat.le_trans (hfailures address) (Nat.add_le_add_left hcopies _)
    exact Nat.le_trans htwo (by decide)
  have htime : ∀ u ∈ ws, u.services.elapsed ≤ c.time := fun u hu =>
    Nat.le_trans (hpasses.elapsed_le (plan_advances o) u hu) (by decide +kernel)
  obtain ⟨hlimit, hmost⟩ := hrun hfits
  exact ⟨(hmost _ hlimit).1 htime, by decide +kernel⟩

/-- After the longest wait there is, a clock of 64 bits cannot tell the time, so that no lookup
follows. -/
theorem run_beyond_clock :
    let c : Capacity := { time := 9223372036854775807999 }
    let o : Options := { retryCount := 2, length := 18446744073709551615999 }
    let w := start [("8.8.8.8", refusedRecord)] refusing
    let x := (Schedule.run c.machine (plan o) w.schedule).run refusing
    x.1 = .ok none ∧ x.2.events.map Exchange.wait? = [none, some 18446744073709551615999] := by
  intro c o w x
  refine ⟨?_, by decide +kernel⟩
  have hnone : x.1.toOption.map Option.isNone = some true := by decide +kernel
  cases hresult : x.1 with
  | error e =>
      rw [hresult] at hnone
      cases hnone
  | ok schedule =>
      rw [hresult] at hnone
      rw [Option.isNone_iff_eq_none.1 (Option.some.inj hnone)]

end Bulk

end IpRegistry
