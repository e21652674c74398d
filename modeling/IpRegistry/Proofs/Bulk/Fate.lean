import IpRegistry.Proofs.Bulk.Account

namespace IpRegistry.Bulk

structure Attempt where
  address : String
  outcome : Except LookupError RdapReport

def outcomesOf (address : String) (attempts : List Attempt) :
    List (Except LookupError RdapReport) :=
  (attempts.filter fun attempt => attempt.address == address).map Attempt.outcome

namespace World

variable (p : Plan)

/-- The lookups among some moves. -/
def attempts : List Move → World → List Attempt
  | [], _ => []
  | m :: moves, w =>
      match m with
      | .ask _ address record =>
          ⟨address, (p.lookup address record w.services).1⟩ :: attempts moves (w.step p m)
      | _ => attempts moves (w.step p m)

end World

namespace Account

/-- The account of a pending address whose lookups have failed so far. -/
def opened (record : Asn.Record) (errors : List LookupError) : Account where
  records := [record]
  failures := errors.length
  report := none
  failed _ := 0
  limited := errors.any LookupError.isRateLimit
  rateLimited r :=
    if r = record.registry ∧ errors.any LookupError.isRateLimit then 1 else 0

theorem limit_remove_listFailed (a : Account) (q r : Registry) :
    (a.remove.listFailed r).limit q = (a.limit q).remove.listFailed r := by
  rw [limit, limit]
  by_cases hlimited : a.limited = true
  · rw [if_pos hlimited]
    exact if_pos hlimited
  · rw [if_neg hlimited]
    exact if_neg hlimited

theorem opened_countFailure (record : Asn.Record) (errors : List LookupError) (e : LookupError) :
    (if e.isRateLimit then (opened record errors).countFailure.limit record.registry
      else (opened record errors).countFailure) = opened record (errors ++ [e]) := by
  have hany : (errors ++ [e]).any LookupError.isRateLimit =
      (errors.any LookupError.isRateLimit || e.isRateLimit) := by
    simp
  have hlength : (errors ++ [e]).length = errors.length + 1 := by
    simp
  rw [opened, opened, hany, hlength]
  cases he : e.isRateLimit with
  | false =>
      rw [Bool.or_false]
      rfl
  | true =>
      cases hlimited : errors.any LookupError.isRateLimit with
      | true => rfl
      | false =>
          refine Account.ext rfl rfl rfl rfl rfl ?_
          funext q
          by_cases hq : q = record.registry <;>
            simp [limit, listRateLimited, countFailure, countAt, hq]

/-- What becomes of an address with a record, from how its lookups have ended. -/
inductive Fate (tries : Nat) (record : Asn.Record) :
    List (Except LookupError RdapReport) → Account → Prop
  | pending (errors : List LookupError) (h : errors.length < tries) :
    Fate tries record (errors.map .error) (opened record errors)
  | found (errors : List LookupError) (report : RdapReport) (h : errors.length < tries) :
    Fate tries record (errors.map .error ++ [.ok report])
      ((opened record errors).succeed report)
  | givenUp (errors : List LookupError) (h : errors.length = tries) :
    Fate tries record (errors.map .error)
      ((opened record errors).remove.listFailed record.registry)

variable {tries : Nat} {record : Asn.Record} {outcomes : List (Except LookupError RdapReport)}
  {a : Account}

theorem Fate.settle (h : Fate tries record outcomes a) (hopen : a.records ≠ [])
    (outcome : Except LookupError RdapReport) :
    Fate tries record (outcomes ++ [outcome]) (a.settle tries record.registry outcome) := by
  cases h with
  | found errors report h => exact absurd rfl hopen
  | givenUp errors h => exact absurd rfl hopen
  | pending errors h =>
      cases outcome with
      | ok report => exact .found errors report h
      | error e =>
          have happend : errors.map Except.error ++ [Except.error e] =
              ((errors ++ [e]).map Except.error : List (Except LookupError RdapReport)) := by
            rw [List.map_append]
            rfl
          have hopened := opened_countFailure record errors e
          have hlength : (errors ++ [e]).length = errors.length + 1 := by
            simp
          rw [happend, Account.settle]
          by_cases hlast : tries ≤ errors.length + 1
          · have hend : (opened record errors).fail tries record.registry =
                (opened record errors).countFailure.remove.listFailed record.registry :=
              if_pos hlast
            rw [hend, limit_remove_listFailed,
              ← apply_ite (fun a => (remove a).listFailed record.registry), hopened]
            exact .givenUp (errors ++ [e]) (by omega)
          · have hend : (opened record errors).fail tries record.registry =
                (opened record errors).countFailure :=
              if_neg hlast
            rw [hend, hopened]
            exact .pending (errors ++ [e]) (by omega)

theorem Fate.eq_of_mem (h : Fate tries record outcomes a) {other : Asn.Record}
    (hmem : other ∈ a.records) : other = record := by
  cases h with
  | pending errors h => exact List.mem_singleton.1 hmem
  | found errors report h => cases hmem
  | givenUp errors h => cases hmem

end Account

namespace World

variable {p : Plan} {address : String} {record : Asn.Record}

theorem mem_records {s : Schedule} (h : (address, record) ∈ s.pending) :
    record ∈ (s.account address).records :=
  List.mem_map.2 ⟨(address, record), List.mem_filter.2 ⟨h, beq_self_eq_true _⟩, rfl⟩

theorem account_step_enter (w : World) (r : Registry) (address : String) :
    (w.step p (.enter r)).schedule.account address = w.schedule.account address := by
  show (w.schedule.openWindow _ _ r).account address = _
  rw [Schedule.openWindow_eq_with]
  rfl

theorem account_step_ask (w : World) (r : Registry) (asked : String) (other : Asn.Record)
    (address : String) :
    (w.step p (.ask r asked other)).schedule.account address =
      if address = asked then
        (w.schedule.account address).settle p.tries r (p.lookup asked other w.services).1
      else w.schedule.account address :=
  Schedule.account_settle _ _ _ _ _ _ _

theorem outcomesOf_cons (attempt : Attempt) (attempts : List Attempt) :
    outcomesOf address (attempt :: attempts) =
      if attempt.address = address then attempt.outcome :: outcomesOf address attempts
      else outcomesOf address attempts := by
  by_cases h : attempt.address = address <;> simp [outcomesOf, h]

/-- The account of an address after some moves says how its lookups among them have ended. -/
theorem Follows.fate {w : World} {moves : List Move} (h : w.Follows p (Admits p) moves)
    {outcomes : List (Except LookupError RdapReport)}
    (hfate : Account.Fate p.tries record outcomes (w.schedule.account address)) :
    Account.Fate p.tries record (outcomes ++ outcomesOf address (attempts p moves w))
      ((w.after p moves).schedule.account address) := by
  induction moves generalizing w outcomes with
  | nil =>
      show Account.Fate _ _ (outcomes ++ []) _
      rwa [List.append_nil]
  | cons m moves ih =>
      cases m with
      | enter r => exact ih h.2 (by rwa [account_step_enter])
      | wait => exact ih h.2 hfate
      | ask r asked other =>
          have haccount := account_step_ask (p := p) w r asked other address
          rw [attempts, outcomesOf_cons]
          by_cases haddress : address = asked
          · subst haddress
            have hmem := mem_records h.1.1
            obtain rfl := hfate.eq_of_mem hmem
            rw [if_pos rfl] at haccount ⊢
            rw [List.append_cons]
            refine ih h.2 ?_
            rw [haccount, ← h.1.2]
            exact hfate.settle (List.ne_nil_of_mem hmem) _
          · rw [if_neg haddress] at haccount
            rw [if_neg fun heq => haddress heq.symm]
            exact ih h.2 (by rwa [haccount])

theorem Follows.account_of_idle {w : World} {moves : List Move} (h : w.Follows p (Admits p) moves)
    (hidle : (w.schedule.account address).records = []) :
    (w.after p moves).schedule.account address = w.schedule.account address := by
  induction moves generalizing w with
  | nil => rfl
  | cons m moves ih =>
      have hstep : (w.step p m).schedule.account address = w.schedule.account address := by
        cases m with
        | enter r => exact account_step_enter w r address
        | wait => rfl
        | ask r asked other =>
            refine (account_step_ask w r asked other address).trans (if_neg ?_)
            rintro rfl
            have hmem := mem_records h.1.1
            rw [hidle] at hmem
            cases hmem
      exact (ih h.2 (by rwa [hstep])).trans hstep

end World

end IpRegistry.Bulk
