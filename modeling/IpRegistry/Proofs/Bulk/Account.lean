import IpRegistry.Proofs.Bulk.Admission

namespace IpRegistry.Bulk

/-- What is known about an address: the records with which it is pending, how often its lookup
failed, its report, and how often the registries list it as failed and as asked for too fast. -/
@[ext]
structure Account where
  records : List Asn.Record
  failures : Nat
  report : Option RdapReport
  failed : Registry → Nat
  limited : Bool
  rateLimited : Registry → Nat

namespace Account

def countAt (r : Registry) (f : Registry → Nat) : Registry → Nat :=
  fun q => if q = r then f q + 1 else f q

def remove (a : Account) : Account :=
  { a with records := a.records.tail }

def countFailure (a : Account) : Account :=
  { a with failures := a.failures + 1 }

def listFailed (a : Account) (r : Registry) : Account :=
  { a with failed := countAt r a.failed }

def listRateLimited (a : Account) (r : Registry) : Account :=
  { a with rateLimited := countAt r a.rateLimited }

def succeed (a : Account) (report : RdapReport) : Account :=
  { a.remove with report := some report }

def fail (a : Account) (tries : Nat) (r : Registry) : Account :=
  if tries ≤ a.failures + 1 then a.countFailure.remove.listFailed r else a.countFailure

def limit (a : Account) (r : Registry) : Account :=
  if a.limited then a else { a with limited := true }.listRateLimited r

def settle (a : Account) (tries : Nat) (r : Registry) :
    Except LookupError RdapReport → Account
  | .ok report => a.succeed report
  | .error e => if e.isRateLimit then (a.fail tries r).limit r else a.fail tries r

end Account

namespace Schedule

variable (s : Schedule) (tries now : Nat) (r : Registry) (address : String)

def account (s : Schedule) (address : String) : Account where
  records := (s.pending.filter fun entry => entry.1 == address).map Prod.snd
  failures := s.failuresOf address
  report := s.reports.lookup address
  failed r := (s.course r).failed.count address
  limited := s.limited.contains address
  rateLimited r := (s.course r).rateLimited.count address

theorem filter_eraseP_eq {α : Type} (l : Keyed String α) (b : String) :
    (l.eraseP fun entry => entry.1 == address).filter (fun entry => entry.1 == b) =
      if b = address then (l.filter fun entry => entry.1 == b).tail
      else l.filter fun entry => entry.1 == b := by
  induction l with
  | nil => split <;> rfl
  | cons entry rest ih =>
      by_cases he : entry.1 = address
      · by_cases hb : b = address
        · simp [he, hb]
        · have hne : ¬address = b := fun h => hb h.symm
          simp [he, hb, hne]
      · have herase : (entry :: rest).eraseP (fun entry => entry.1 == address) =
            entry :: rest.eraseP fun entry => entry.1 == address := by
          simp [he]
        rw [herase, List.filter_cons, ih]
        by_cases hb : b = address
        · subst hb
          simp [he]
        · simp only [if_neg hb, List.filter_cons]

theorem account_remove (b : String) :
    (s.remove address).account b =
      if b = address then (s.account b).remove else s.account b := by
  have hrecords : ((s.pending.eraseP fun entry => entry.1 == address).filter
      fun entry => entry.1 == b).map Prod.snd =
        if b = address then (s.account b).records.tail else (s.account b).records := by
    rw [filter_eraseP_eq]
    split
    · exact List.map_tail
    · rfl
  by_cases hb : b = address
  · rw [if_pos hb] at hrecords ⊢
    exact Account.ext hrecords rfl rfl rfl rfl rfl
  · rw [if_neg hb] at hrecords ⊢
    exact Account.ext hrecords rfl rfl rfl rfl rfl

theorem account_countFailure (b : String) :
    ({ s with failures := s.failures.update address 0 (· + 1) } : Schedule).account b =
      if b = address then (s.account b).countFailure else s.account b := by
  show { s.account b with
    failures := ({ s with failures := s.failures.update address 0 (· + 1) } :
      Schedule).failuresOf b } = _
  rw [failuresOf_update]
  by_cases hb : b = address
  · rw [if_pos hb, if_pos hb, hb]
    rfl
  · rw [if_neg hb, if_neg hb]
    rfl

theorem account_note (f : RegistryStats → RegistryStats) (b : String) :
    (s.note r f).account b =
      { s.account b with
        failed := fun q =>
          if q = r then (f (s.course r)).failed.count b else (s.account b).failed q
        rateLimited := fun q =>
          if q = r then (f (s.course r)).rateLimited.count b
          else (s.account b).rateLimited q } := by
  refine Account.ext rfl rfl rfl ?_ rfl ?_
  · funext q
    show ((s.note r f).course q).failed.count b = _
    rw [course_note, apply_ite RegistryStats.failed, apply_ite (List.count b)]
    rfl
  · funext q
    show ((s.note r f).course q).rateLimited.count b = _
    rw [course_note, apply_ite RegistryStats.rateLimited, apply_ite (List.count b)]
    rfl

theorem count_append_singleton (l : List String) (b : String) :
    (l ++ [address]).count b = if b = address then l.count b + 1 else l.count b := by
  rw [List.count_append, List.count_singleton]
  by_cases hb : b = address
  · simp [hb]
  · have hne : ¬address = b := fun h => hb h.symm
    simp [hb, hne]

theorem account_noteFailed (b : String) :
    (s.note r fun stats => { stats with failed := stats.failed ++ [address] }).account b =
      if b = address then (s.account b).listFailed r else s.account b := by
  rw [account_note, count_append_singleton]
  by_cases hb : b = address
  · rw [if_pos hb, if_pos hb]
    refine Account.ext rfl rfl rfl ?_ rfl ?_ <;> funext q <;> by_cases hq : q = r <;>
      simp [Account.listFailed, Account.countAt, account, hq]
  · rw [if_neg hb, if_neg hb]
    refine Account.ext rfl rfl rfl ?_ rfl ?_ <;> funext q <;> by_cases hq : q = r <;>
      simp [account, hq]

theorem account_noteRateLimited (b : String) :
    (s.note r fun stats =>
      { stats with rateLimited := stats.rateLimited ++ [address] }).account b =
      if b = address then (s.account b).listRateLimited r else s.account b := by
  rw [account_note, count_append_singleton]
  by_cases hb : b = address
  · rw [if_pos hb, if_pos hb]
    refine Account.ext rfl rfl rfl ?_ rfl ?_ <;> funext q <;> by_cases hq : q = r <;>
      simp [Account.listRateLimited, Account.countAt, account, hq]
  · rw [if_neg hb, if_neg hb]
    refine Account.ext rfl rfl rfl ?_ rfl ?_ <;> funext q <;> by_cases hq : q = r <;>
      simp [account, hq]

theorem account_succeed (report : RdapReport) (b : String) :
    (s.succeed address report).account b =
      if b = address then (s.account b).succeed report else s.account b := by
  show { (s.remove address).account b with
    report := (s.reports.insert address report).lookup b } = _
  rw [account_remove, Keyed.lookup_insert]
  split <;> rfl

theorem account_fail (b : String) :
    (s.fail tries r address).account b =
      if b = address then (s.account b).fail tries r else s.account b := by
  have hfailures : ({ s with failures := s.failures.update address 0 (· + 1) } :
      Schedule).failuresOf address = s.failuresOf address + 1 := by
    rw [failuresOf_update, if_pos rfl]
  rw [fail, hfailures]
  by_cases hlast : tries ≤ s.failuresOf address + 1
  · rw [if_pos hlast, account_noteFailed, account_remove, account_countFailure]
    by_cases hb : b = address
    · subst hb
      simp only [if_true, Account.fail]
      exact (if_pos hlast).symm
    · simp only [if_neg hb]
  · rw [if_neg hlast, account_countFailure]
    by_cases hb : b = address
    · subst hb
      simp only [if_true, Account.fail]
      exact (if_neg hlast).symm
    · simp only [if_neg hb]

theorem account_limit (b : String) :
    (s.limit r address).account b =
      if b = address then (s.account b).limit r else s.account b := by
  rw [limit]
  by_cases hlimited : s.limited.contains address = true
  · rw [if_pos hlimited]
    by_cases hb : b = address
    · subst hb
      rw [if_pos rfl, Account.limit]
      exact (if_pos hlimited).symm
    · rw [if_neg hb]
  · have hmark : ({ s with limited := s.limited ++ [address] } : Schedule).account b =
        if b = address then { s.account b with limited := true } else s.account b := by
      show { s.account b with limited := (s.limited ++ [address]).contains b } = _
      by_cases hb : b = address <;> simp [hb, account]
    rw [if_neg hlimited, account_noteRateLimited, hmark]
    by_cases hb : b = address
    · subst hb
      simp only [if_true, Account.limit]
      exact (if_neg hlimited).symm
    · simp only [if_neg hb]

/-- The lookup of an address settles its own account and no other. -/
theorem account_settle (outcome : Except LookupError RdapReport) (b : String) :
    (s.settle tries now r address outcome).2.account b =
      if b = address then (s.account b).settle tries r outcome else s.account b := by
  cases outcome with
  | ok report => exact account_succeed _ address report b
  | error e =>
      have hfail : ((s.count now r).2.fail tries r address).account b =
          if b = address then (s.account b).fail tries r else s.account b :=
        account_fail _ tries r address b
      rw [settle_error, Account.settle]
      split
      · have hlimit := account_limit ((s.count now r).2.fail tries r address) r address b
        rw [hfail] at hlimit
        refine hlimit.trans ?_
        split <;> rfl
      · exact hfail

end Schedule

end IpRegistry.Bulk
