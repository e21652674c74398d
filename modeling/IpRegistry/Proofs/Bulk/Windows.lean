import IpRegistry.Proofs.Bulk.Admission

namespace IpRegistry.Bulk

/-- The lookups of a plan take no time. -/
def Plan.Instant (p : Plan) : Prop :=
  ∀ address record σ, (p.lookup address record σ).2.elapsed = σ.elapsed

def isRateLimited : Except LookupError RdapReport → Bool
  | .ok _ => false
  | .error e => e.isRateLimit

namespace Schedule

variable {s t : Schedule} {tries now length : Nat} {r q : Registry} {address : String}
  {outcome : Except LookupError RdapReport}

/-- How many lookups the window of a registry counts. -/
def used (s : Schedule) (r : Registry) : Nat :=
  ((s.windows.lookup r).map Window.count).getD 0

theorem isExhausted_of_used_lt (h : s.used r < Window.limit) :
    s.isExhausted now length r = false := by
  rw [used] at h
  rw [isExhausted]
  split
  · rename_i w hw
    rw [hw, Option.map_some, Option.getD_some] at h
    rw [Window.isExhausted, Window.isFull, decide_eq_false (by omega), Bool.false_and]
  · rfl

/-- A window begins when a registry is entered: the first one, or one after a window that is over. -/
def opens (s : Schedule) (now length : Nat) (r : Registry) : Bool :=
  (s.windows.lookup r).all fun w => w.isExpired now length

theorem used_openWindow :
    (s.openWindow now length r).used q =
      if q = r ∧ s.opens now length r = true then 0 else s.used q := by
  simp only [used, openWindow_windows_lookup, opens, Option.all_eq_true]
  split <;> rfl

theorem used_openWindow_lt (h : s.isExhausted now length r = false) :
    (s.openWindow now length r).used r < Window.limit := by
  rw [used_openWindow]
  split
  · exact Nat.succ_pos 8
  · rename_i hkept
    rw [used]
    cases hw : s.windows.lookup r with
    | none => exact Nat.succ_pos 8
    | some w =>
        simp only [opens, hw, Option.all_some, true_and] at hkept
        simp only [isExhausted, hw, Window.isExhausted, hkept, Bool.not_false, Bool.and_true,
          Window.isFull, decide_eq_false_iff_not] at h
        exact Nat.lt_of_not_le h

theorem windowAfter_count :
    (s.windowAfter now r outcome).count =
      if isRateLimited outcome then Window.limit else s.used r + 1 := by
  have hcurrent : ((s.windows.lookup r).getD ⟨now, 0⟩).record.count = s.used r + 1 := by
    rw [used]
    cases s.windows.lookup r <;> rfl
  cases outcome with
  | ok report => exact hcurrent
  | error e =>
      rw [windowAfter, isRateLimited]
      split
      · rfl
      · exact hcurrent

theorem used_settle :
    (s.settle tries now r address outcome).2.used q =
      if q = r then if isRateLimited outcome then Window.limit else s.used r + 1
      else s.used q := by
  rw [used, settle_windows_lookup]
  split
  · exact windowAfter_count
  · rfl

theorem used_settle_of_more (h : (s.settle tries now r address outcome).1 = true) :
    (s.settle tries now r address outcome).2.used r < Window.limit := by
  cases outcome with
  | error e => cases h
  | ok report =>
      have hfull : (((s.windows.lookup r).getD ⟨now, 0⟩).record).isFull = false := by
        simpa [settle, count] using h
      rw [used_settle, if_pos rfl, ← windowAfter_count]
      simpa [Window.isFull, windowAfter] using hfull

theorem mayAsk_iff :
    s.mayAsk now length r = true ↔
      (r = .lacnic ∨ (s.queue .lacnic).isEmpty = true ∨
        s.isExhausted now length .lacnic = true) ∧ s.isExhausted now length r = false := by
  simp [mayAsk, or_assoc]

/-- A registry may still be asked if its own window admits that and nothing has changed for LACNIC
but that fewer of its addresses are pending. -/
theorem mayAsk_of_mayAsk (h : s.mayAsk now length r = true)
    (hpending : t.pending.Sublist s.pending)
    (hlacnic : r ≠ .lacnic → t.windows.lookup .lacnic = s.windows.lookup .lacnic)
    (hused : t.used r < Window.limit) : t.mayAsk now length r = true := by
  rw [mayAsk_iff] at h ⊢
  refine ⟨?_, isExhausted_of_used_lt hused⟩
  by_cases hr : r = .lacnic
  · exact .inl hr
  · refine .inr ((h.1.resolve_left hr).imp ?_ ?_)
    · intro hempty
      have hqueue : (t.queue .lacnic).Sublist (s.queue .lacnic) := hpending.filter _
      rw [List.isEmpty_iff.1 hempty] at hqueue
      rw [List.sublist_nil.1 hqueue]
      rfl
    · intro hexhausted
      rwa [isExhausted, hlacnic hr]

theorem mayAsk_openWindow_self (h : s.mayAsk now length r = true) :
    (s.openWindow now length r).mayAsk now length r = true := by
  refine mayAsk_of_mayAsk h ?_ ?_ (used_openWindow_lt (mayAsk_iff.1 h).2)
  · exact openWindow_pending s now length r ▸ List.Sublist.refl _
  · intro hr
    rw [openWindow_windows_lookup, if_neg fun hq => hr hq.1.symm]

theorem mayAsk_settle_of_more (h : s.mayAsk now length r = true)
    (hmore : (s.settle tries now r address outcome).1 = true) :
    (s.settle tries now r address outcome).2.mayAsk now length r = true := by
  refine mayAsk_of_mayAsk h (settle_pending_sublist _ _ _ _ _ _) ?_ (used_settle_of_more hmore)
  intro hr
  rw [settle_windows_lookup, if_neg fun hq => hr hq.symm]

end Schedule

def Move.asksAt (r : Registry) : Move → Bool
  | .ask q _ _ => q == r
  | _ => false

namespace World

variable {p : Plan} {w : World} {r : Registry}

variable (p) in
/-- A registry is entered and asked only when it may be asked, and each of its lookups finds a
window that counts fewer lookups than it admits. -/
def Respects (w : World) : Move → Prop
  | .enter r => w.schedule.mayAsk w.services.elapsed p.length r = true
  | .ask r _ _ => w.schedule.mayAsk w.services.elapsed p.length r = true ∧
      w.schedule.used r < Window.limit
  | .wait => True

theorem respects_asks (hp : p.Instant) {queue : Classified} {w : World}
    (hmay : w.schedule.mayAsk w.services.elapsed p.length r = true)
    (hused : w.schedule.used r < Window.limit) :
    w.Follows p (Respects p) (asks p r queue w) := by
  induction queue generalizing w with
  | nil => trivial
  | cons entry queue ih =>
      obtain ⟨address, record⟩ := entry
      rw [asks]
      refine ⟨⟨hmay, hused⟩, ?_⟩
      split
      · rename_i hmore
        apply ih
        · rw [← hp address record w.services] at hmay
          exact Schedule.mayAsk_settle_of_more hmay hmore
        · exact Schedule.used_settle_of_more hmore
      · trivial

theorem respects_visit (hp : p.Instant) {w : World} {r : Registry}
    (h : w.schedule.mayAsk w.services.elapsed p.length r = true) :
    w.Follows p (Respects p) (w.visit p r) :=
  ⟨h, respects_asks hp (Schedule.mayAsk_openWindow_self h)
    (Schedule.used_openWindow_lt (Schedule.mayAsk_iff.1 h).2)⟩

theorem respects_moves (hp : p.Instant) (w : World) : w.Follows p (Respects p) (w.moves p) :=
  follows_turns p (respects_visit hp) (fun _ => trivial) _ w

variable (p) in
/-- The move begins a window of a registry: it enters the registry for the first time or after the
window is over, or it is a lookup that the registry refuses as too fast. -/
def begins (r : Registry) (w : World) : Move → Bool
  | .enter q => q == r && w.schedule.opens w.services.elapsed p.length r
  | .ask q address record => q == r && isRateLimited (p.lookup address record w.services).1
  | .wait => false

theorem used_step (m : Move) :
    (w.step p m).schedule.used r =
      if w.begins p r m then if m.isAsk then Window.limit else 0
      else w.schedule.used r + if m.asksAt r then 1 else 0 := by
  cases m with
  | enter q =>
      refine Schedule.used_openWindow.trans ?_
      by_cases hq : q = r
      · simp [begins, Move.asksAt, Move.isAsk, hq]
      · have hr : ¬r = q := fun h => hq h.symm
        simp [begins, Move.asksAt, hq, hr]
  | ask q address record =>
      refine Schedule.used_settle.trans ?_
      by_cases hq : q = r
      · simp [begins, Move.asksAt, Move.isAsk, hq]
      · have hr : ¬r = q := fun h => hq h.symm
        simp [begins, Move.asksAt, hq, hr]
  | wait => rfl

theorem used_add_le {m : Move} (h : w.Respects p m) (hw : w.schedule.used r ≤ Window.limit) :
    (w.schedule.used r + if m.asksAt r then 1 else 0) ≤ Window.limit := by
  cases m with
  | enter q => exact hw
  | wait => exact hw
  | ask q address record =>
      by_cases hq : q = r
      · subst hq
        rw [Move.asksAt, if_pos (beq_self_eq_true q)]
        exact h.2
      · rw [Move.asksAt, if_neg (by simpa using hq)]
        exact hw

theorem used_step_le {m : Move} (h : w.Respects p m) (hw : w.schedule.used r ≤ Window.limit) :
    (w.step p m).schedule.used r ≤ Window.limit := by
  rw [used_step]
  split
  · split
    · exact Nat.le_refl _
    · exact Nat.zero_le _
  · exact used_add_le h hw

theorem Follows.used_le {moves : List Move} (h : w.Follows p (Respects p) moves)
    (hw : w.schedule.used r ≤ Window.limit) :
    (w.after p moves).schedule.used r ≤ Window.limit := by
  induction moves generalizing w with
  | nil => exact hw
  | cons m moves ih => exact ih h.2 (used_step_le h.1 hw)

/-- A full window began at some time, or it is over. -/
structure Refused (r : Registry) (since length : Nat) (w : World) : Prop where
  begun : since ≤ w.services.elapsed
  held : w.schedule.windows.lookup r = some (.saturated since) ∨
    since + length ≤ w.services.elapsed

theorem Refused.over {since : Nat} {address : String} {record : Asn.Record}
    (h : w.Refused r since p.length) (hw : w.Respects p (.ask r address record)) :
    since + p.length ≤ w.services.elapsed := by
  refine h.held.resolve_left fun hlookup => ?_
  have hlt := hw.2
  rw [Schedule.used, hlookup] at hlt
  exact Nat.lt_irrefl _ hlt

theorem Refused.step {since : Nat} (h : w.Refused r since p.length) (hp : p.Instant) {m : Move}
    (hm : w.Respects p m) : (w.step p m).Refused r since p.length := by
  cases m with
  | wait => exact ⟨Nat.le_add_right_of_le h.begun, h.held.imp id Nat.le_add_right_of_le⟩
  | enter q =>
      refine ⟨h.begun, ?_⟩
      rcases h.held with hlookup | hover
      · by_cases hopen : r = q ∧ w.schedule.opens w.services.elapsed p.length q = true
        · right
          have hexpired := hopen.2
          rw [← hopen.1, Schedule.opens, hlookup, Option.all_some, Window.isExpired,
            decide_eq_true_eq] at hexpired
          have hbegun := h.begun
          change p.length ≤ w.services.elapsed - since at hexpired
          show since + p.length ≤ w.services.elapsed
          omega
        · left
          rw [Schedule.opens, Option.all_eq_true] at hopen
          show (w.schedule.openWindow _ _ q).windows.lookup r = _
          rw [Schedule.openWindow_windows_lookup, if_neg hopen, hlookup]
      · exact .inr hover
  | ask q address record =>
      have helapsed : (w.step p (.ask q address record)).services.elapsed = w.services.elapsed :=
        hp address record w.services
      refine ⟨helapsed ▸ h.begun, ?_⟩
      rw [helapsed]
      by_cases hq : q = r
      · subst hq
        exact .inr (h.over hm)
      · refine h.held.imp_left fun hlookup => ?_
        refine (Schedule.settle_windows_lookup _ _ _ _ _ _ _).trans ?_
        rw [if_neg fun heq => hq heq.symm, hlookup]

theorem Refused.after {since : Nat} (h : w.Refused r since p.length) (hp : p.Instant)
    {moves : List Move} (hmoves : w.Follows p (Respects p) moves) :
    (w.after p moves).Refused r since p.length := by
  induction moves generalizing w with
  | nil => exact h
  | cons m moves ih => exact ih (h.step hp hmoves.1) hmoves.2

theorem refused_of_isRateLimited {address : String} {record : Asn.Record}
    (h : isRateLimited (p.lookup address record w.services).1 = true) :
    (w.step p (.ask r address record)).Refused r
      (w.step p (.ask r address record)).services.elapsed p.length := by
  refine ⟨Nat.le_refl _, .inl ?_⟩
  refine (Schedule.settle_windows_lookup _ _ _ _ _ _ _).trans ?_
  rw [if_pos rfl]
  generalize (p.lookup address record w.services).1 = outcome at h
  cases outcome with
  | ok report => cases h
  | error e => exact congrArg some (if_pos h)

/-- After a lookup that a registry refuses as too fast, the registry is not asked again before a
window has passed. -/
theorem Follows.elapsed_of_isRateLimited (hp : p.Instant) {between : List Move}
    {address later : String} {record other : Asn.Record}
    (h : w.Follows p (Respects p)
      (.ask r address record :: (between ++ [.ask r later other])))
    (hlimited : isRateLimited (p.lookup address record w.services).1 = true) :
    (w.step p (.ask r address record)).services.elapsed + p.length ≤
      ((w.step p (.ask r address record)).after p between).services.elapsed := by
  obtain ⟨hbetween, hask, -⟩ := (follows_append p).1 h.2
  exact ((refused_of_isRateLimited hlimited).after hp hbetween).over hask

end World

end IpRegistry.Bulk
