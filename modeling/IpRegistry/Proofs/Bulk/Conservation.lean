import IpRegistry.Bulk
import IpRegistry.Proofs.Bulk.Fate
import IpRegistry.Proofs.Bulk.Progress
import IpRegistry.Proofs.Bulk.Windows
import IpRegistry.Proofs.Keyed
import IpRegistry.Proofs.Rdap.Lookup

namespace IpRegistry.Bulk

def wanted (addresses : List String) : List String :=
  Field.distinct (addresses.map Text.trim)

def start (pending : Classified) (σ : Services) : World :=
  ⟨{ pending, registries := totals pending }, σ⟩

/-- The end of the lookups of classified addresses. -/
def finish (o : Options) (pending : Classified) (σ : Services) : World :=
  (start pending σ).after (plan o) ((start pending σ).moves (plan o))

/-- The lookups of classified addresses, in their order. -/
def lookups (o : Options) (pending : Classified) (σ : Services) : List Attempt :=
  World.attempts (plan o) ((start pending σ).moves (plan o)) (start pending σ)

def Stats.course (s : Stats) (r : Registry) : RegistryStats :=
  (s.registries.lookup r).getD {}

theorem lookup_eq {addresses : List String} {o : Options} {σ σ' : Services} {answer : String}
    (hask : ask (wanted addresses) o.asnRetryCount σ = (.ok answer, σ')) :
    lookup addresses o σ =
      (.ok {
        reports := (finish o (classify answer (wanted addresses)) σ').schedule.reports
        stats := {
          inputTotal := addresses.length
          uniqueTotal := (wanted addresses).length
          lookupTotal := (classify answer (wanted addresses)).length
          registries := (finish o (classify answer (wanted addresses)) σ').schedule.registries
          unallocated :=
            unclassified (classify answer (wanted addresses)) (addresses.map Text.trim) } },
        (finish o (classify answer (wanted addresses)) σ').services) := by
  rw [lookup]
  refine (Exchange.bind_of_ok hask).trans ?_
  exact Exchange.bind_of_ok (World.run_eq (plan o) (start _ σ'))

theorem browses_plan_lookup (o : Options) (address : String) (record : Asn.Record) :
    Exchange.Browses ((plan o).lookup address record) :=
  .bind (.ofExcept _) fun _ => .bind (Rdap.browses_lookup _ _ _) fun _ => .done _

theorem plan_advances (o : Options) : (plan o).Advances :=
  fun address record σ => (browses_plan_lookup o address record).elapsed_le σ

theorem finish_pending (o : Options) (pending : Classified) (σ : Services) :
    (finish o pending σ).schedule.pending = [] :=
  World.moves_pending (plan_advances o) (Nat.le_max_right _ _) fun _ _ h => by cases h

theorem records_finish (o : Options) (pending : Classified) (σ : Services) (address : String) :
    ((finish o pending σ).schedule.account address).records = [] := by
  show ((finish o pending σ).schedule.pending.filter _).map Prod.snd = []
  rw [finish_pending]
  rfl

theorem course_totals (pending : Classified) (r : Registry) :
    ((totals pending).lookup r).getD {} =
      { total := (pending.filter fun entry => entry.2.registry == r).length } := by
  cases r <;> rfl

theorem account_start (pending : Classified) (σ : Services) (address : String) :
    (start pending σ).schedule.account address = {
      records := (pending.filter fun entry => entry.1 == address).map Prod.snd
      failures := 0
      report := none
      failed := fun _ => 0
      limited := false
      rateLimited := fun _ => 0 } := by
  refine Account.ext rfl rfl rfl ?_ rfl ?_ <;> funext r
  · show (((totals pending).lookup r).getD {}).failed.count address = 0
    rw [course_totals]
    rfl
  · show (((totals pending).lookup r).getD {}).rateLimited.count address = 0
    rw [course_totals]
    rfl

theorem filter_eq_singleton {pending : Classified} (honce : (pending.map Prod.fst).Nodup)
    {address : String} {record : Asn.Record} (h : (address, record) ∈ pending) :
    (pending.filter fun entry => entry.1 == address) = [(address, record)] := by
  induction pending with
  | nil => cases h
  | cons entry rest ih =>
      rw [List.map_cons, List.nodup_cons] at honce
      rcases List.mem_cons.1 h with rfl | hrest
      · have hnone : (rest.filter fun entry => entry.1 == address) = [] := by
          rw [List.filter_eq_nil_iff]
          intro other hother heq
          exact honce.1 (List.mem_map.2 ⟨other, hother, eq_of_beq heq⟩)
        simp [hnone]
      · have hne : entry.1 ≠ address := by
          rintro rfl
          exact honce.1 (List.mem_map.2 ⟨_, hrest, rfl⟩)
        rw [List.filter_cons_of_neg (by simpa using hne), ih honce.2 hrest]

theorem fate_finish (o : Options) {pending : Classified} (σ : Services)
    (honce : (pending.map Prod.fst).Nodup) {address : String} {record : Asn.Record}
    (h : (address, record) ∈ pending) :
    Account.Fate (max o.retryCount 1) record (outcomesOf address (lookups o pending σ))
      ((finish o pending σ).schedule.account address) := by
  have hstart : (start pending σ).schedule.account address = Account.opened record [] := by
    rw [account_start, filter_eq_singleton honce h]
    refine Account.ext rfl rfl rfl rfl rfl ?_
    funext r
    simp [Account.opened]
  have hfate : Account.Fate (plan o).tries record []
      ((start pending σ).schedule.account address) := by
    rw [hstart]
    exact .pending [] (Nat.le_max_right _ _)
  exact (World.follows_moves (plan o) (start pending σ)).fate hfate

theorem account_finish_of_not_mem (o : Options) {pending : Classified} (σ : Services)
    {address : String} (h : address ∉ pending.map Prod.fst) :
    (finish o pending σ).schedule.account address =
      ⟨[], 0, none, fun _ => 0, false, fun _ => 0⟩ := by
  have hidle : (pending.filter fun entry => entry.1 == address).map Prod.snd = [] := by
    rw [List.map_eq_nil_iff, List.filter_eq_nil_iff]
    intro entry hentry heq
    exact h (List.mem_map.2 ⟨entry, hentry, eq_of_beq heq⟩)
  have hstart := account_start pending σ address
  rw [hidle] at hstart
  rw [← hstart]
  exact (World.follows_moves (plan o) (start pending σ)).account_of_idle (by rw [hstart])

theorem World.tidy_step (p : Plan) (w : World) (m : Move) (h : w.schedule.Tidy) :
    (w.step p m).schedule.Tidy := by
  cases m with
  | enter r => exact h.openWindow _ _ r
  | ask r address record => exact h.settle _ _ _ _ _
  | wait => exact h

theorem tidy_finish (o : Options) (pending : Classified) (σ : Services) :
    (finish o pending σ).schedule.Tidy := by
  have hstart : (start pending σ).schedule.Tidy := ⟨List.Pairwise.nil, rfl⟩
  exact World.after_preserves (plan o) (World.tidy_step (plan o)) hstart _

theorem account_of_mem (o : Options) {pending : Classified} (σ : Services)
    (honce : (pending.map Prod.fst).Nodup) {address : String} {record : Asn.Record}
    (h : (address, record) ∈ pending) :
    (∃ errors report, errors.length < max o.retryCount 1 ∧
      outcomesOf address (lookups o pending σ) = errors.map .error ++ [.ok report] ∧
      (finish o pending σ).schedule.account address =
        (Account.opened record errors).succeed report) ∨
    (∃ errors, errors.length = max o.retryCount 1 ∧
      outcomesOf address (lookups o pending σ) = errors.map .error ∧
      (finish o pending σ).schedule.account address =
        (Account.opened record errors).remove.listFailed record.registry) := by
  have hrecords := records_finish o pending σ address
  have hfate := fate_finish o σ honce h
  generalize haccount : (finish o pending σ).schedule.account address = account at hfate hrecords
  generalize houtcomes : outcomesOf address (lookups o pending σ) = outcomes at hfate
  cases hfate with
  | pending errors hlt => cases hrecords
  | found errors report hlt => exact Or.inl ⟨errors, report, hlt, rfl, rfl⟩
  | givenUp errors heq => exact Or.inr ⟨errors, heq, rfl, rfl⟩

theorem rateLimited_opened (record : Asn.Record) (errors : List LookupError) (r : Registry)
    {outcomes : List (Except LookupError RdapReport)}
    (houtcomes : ∀ e, .error e ∈ outcomes ↔ e ∈ errors) :
    (Account.opened record errors).rateLimited r ≤ 1 ∧
      (0 < (Account.opened record errors).rateLimited r ↔
        r = record.registry ∧ ∃ e, e.isRateLimit = true ∧ .error e ∈ outcomes) := by
  have hany : (∃ e, e.isRateLimit = true ∧ .error e ∈ outcomes) ↔
      errors.any LookupError.isRateLimit = true := by
    simp only [List.any_eq_true, houtcomes, and_comm]
  rw [hany, Account.opened]
  show (if _ then 1 else 0) ≤ 1 ∧ (0 < (if _ then 1 else 0) ↔ _)
  split
  · rename_i h
    exact ⟨Nat.le_refl 1, fun _ => h, fun _ => Nat.one_pos⟩
  · rename_i h
    exact ⟨Nat.zero_le 1, fun hlt => absurd hlt (Nat.lt_irrefl 0), fun hand => absurd hand h⟩

theorem rateLimited_of_mem (o : Options) {pending : Classified} (σ : Services)
    (honce : (pending.map Prod.fst).Nodup) {address : String} {record : Asn.Record}
    (h : (address, record) ∈ pending) (r : Registry) :
    ((finish o pending σ).schedule.account address).rateLimited r ≤ 1 ∧
      (0 < ((finish o pending σ).schedule.account address).rateLimited r ↔
        r = record.registry ∧
          ∃ e, e.isRateLimit = true ∧ .error e ∈ outcomesOf address (lookups o pending σ)) := by
  rcases account_of_mem o σ honce h with
    ⟨errors, report, -, houtcomes, haccount⟩ | ⟨errors, -, houtcomes, haccount⟩
  · rw [haccount, houtcomes]
    refine rateLimited_opened record errors r fun e => ?_
    simp
  · rw [haccount, houtcomes]
    refine rateLimited_opened record errors r fun e => ?_
    simp

theorem rateLimited_finish (o : Options) {pending : Classified} (σ : Services)
    (honce : (pending.map Prod.fst).Nodup) (r : Registry) :
    ((finish o pending σ).schedule.course r).rateLimited.Nodup ∧
      ∀ address, address ∈ ((finish o pending σ).schedule.course r).rateLimited ↔
        ∃ record e, (address, record) ∈ pending ∧ record.registry = r ∧
          e.isRateLimit = true ∧ .error e ∈ outcomesOf address (lookups o pending σ) := by
  have hother : ∀ address, address ∉ pending.map Prod.fst →
      ((finish o pending σ).schedule.account address).rateLimited r = 0 := by
    intro address hnot
    rw [account_finish_of_not_mem o σ hnot]
  constructor
  · rw [List.nodup_iff_count]
    intro address
    show ((finish o pending σ).schedule.account address).rateLimited r ≤ 1
    by_cases hmem : address ∈ pending.map Prod.fst
    · obtain ⟨⟨_, record⟩, hentry, rfl⟩ := List.mem_map.1 hmem
      exact (rateLimited_of_mem o σ honce hentry r).1
    · rw [hother address hmem]
      exact Nat.zero_le 1
  · intro address
    rw [← List.count_pos_iff]
    show 0 < ((finish o pending σ).schedule.account address).rateLimited r ↔ _
    constructor
    · intro hpos
      by_cases hmem : address ∈ pending.map Prod.fst
      · obtain ⟨⟨_, record⟩, hentry, rfl⟩ := List.mem_map.1 hmem
        obtain ⟨rfl, e, he, herror⟩ := (rateLimited_of_mem o σ honce hentry r).2.1 hpos
        exact ⟨record, e, hentry, rfl, he, herror⟩
      · rw [hother address hmem] at hpos
        exact absurd hpos (Nat.lt_irrefl 0)
    · rintro ⟨record, e, hentry, rfl, he, herror⟩
      exact (rateLimited_of_mem o σ honce hentry _).2.2 ⟨rfl, e, he, herror⟩

/-- Every address that is classified once has a report after some failed lookups, fewer than it may
have, and a successful one, or its registry and no other lists it once as failed, after as many
failed lookups as it may have. A registry lists exactly those of its addresses as asked for too fast
of which some lookup has failed for that reason. -/
theorem lookup_conserves {addresses : List String} {o : Options} {σ σ₁ σ₂ : Services}
    {answer : String} {result : Result}
    (hask : ask (wanted addresses) o.asnRetryCount σ = (.ok answer, σ₁))
    (honce : ((classify answer (wanted addresses)).map Prod.fst).Nodup)
    (hlookup : lookup addresses o σ = (.ok result, σ₂)) :
    ((result.reports.map Prod.fst).Nodup ∧
      result.stats.registries.map Prod.fst = Schedule.order ∧
      (finish o (classify answer (wanted addresses)) σ₁).services = σ₂) ∧
    (∀ address record, (address, record) ∈ classify answer (wanted addresses) →
      (∃ (errors : List LookupError) (report : RdapReport),
        errors.length < max 1 o.retryCount ∧
        outcomesOf address (lookups o (classify answer (wanted addresses)) σ₁) =
          errors.map .error ++ [.ok report] ∧
        result.reports.lookup address = some report ∧
        ∀ r, address ∉ (result.stats.course r).failed) ∨
      (∃ errors : List LookupError, errors.length = max 1 o.retryCount ∧
        outcomesOf address (lookups o (classify answer (wanted addresses)) σ₁) =
          errors.map .error ∧
        result.reports.lookup address = none ∧
        ∀ r, (result.stats.course r).failed.count address =
          if r = record.registry then 1 else 0)) ∧
    ∀ r, (result.stats.course r).rateLimited.Nodup ∧
      ∀ address, address ∈ (result.stats.course r).rateLimited ↔
        ∃ record e, (address, record) ∈ classify answer (wanted addresses) ∧
          record.registry = r ∧ e.isRateLimit = true ∧
          .error e ∈ outcomesOf address (lookups o (classify answer (wanted addresses)) σ₁) := by
  rw [lookup_eq hask] at hlookup
  generalize classify answer (wanted addresses) = pending at *
  obtain ⟨hresult, rfl⟩ := Prod.mk.inj hlookup
  obtain rfl := Except.ok.inj hresult
  have htidy := tidy_finish o pending σ₁
  refine ⟨⟨htidy.reports, htidy.registries, rfl⟩, ?_, ?_⟩
  · intro address record hmem
    rw [Nat.max_comm]
    rcases account_of_mem o σ₁ honce hmem with
      ⟨errors, report, hlt, houtcomes, haccount⟩ | ⟨errors, heq, houtcomes, haccount⟩
    · refine Or.inl ⟨errors, report, hlt, houtcomes, congrArg Account.report haccount, ?_⟩
      intro r
      exact List.count_eq_zero.1 (congrFun (congrArg Account.failed haccount) r)
    · refine Or.inr ⟨errors, heq, houtcomes, congrArg Account.report haccount, ?_⟩
      intro r
      exact congrFun (congrArg Account.failed haccount) r
  · exact rateLimited_finish o σ₁ honce

/-- Two addresses of ARIN, which refuses the first lookup of the one and all lookups of the other. -/
def limiting : Services where
  whois := { standing := [(Asn.originServer,
    some ("\n1|8.8.8.8|||arin||\n1|9.9.9.9|||arin||".toList.map fun c => UInt8.ofNat c.toNat))] }
  web := {
    queued := [("http://rdap.arin.net/registry/ip/8.8.8.8", some ⟨429, []⟩)]
    standing := [
      ("http://rdap.arin.net/registry/ip/8.8.8.8",
        some ⟨200, "\x7b\"handle\":\"N\"\x7d".toList.map fun c => UInt8.ofNat c.toNat⟩),
      ("http://rdap.arin.net/registry/ip/9.9.9.9", some ⟨429, []⟩)] }

/-- One of two addresses is found after a failure, the other one is given up. -/
theorem lookup_conserves_limiting :
    let o : Options := { retryCount := 2 }
    ∃ result σ' report, lookup ["8.8.8.8", "9.9.9.9"] o limiting = (.ok result, σ') ∧
      result.reports.lookup "8.8.8.8" = some report ∧
      "8.8.8.8" ∉ (result.stats.course .arin).failed ∧
      result.reports.lookup "9.9.9.9" = none ∧
      (result.stats.course .arin).failed.count "9.9.9.9" = 1 ∧
      "8.8.8.8" ∈ (result.stats.course .arin).rateLimited ∧
      "9.9.9.9" ∈ (result.stats.course .arin).rateLimited := by
  intro o
  let answer := "\n1|8.8.8.8|||arin||\n1|9.9.9.9|||arin||"
  let addresses := ["8.8.8.8", "9.9.9.9"]
  let record : Asn.Record := { registry := .arin, asn := some "1", source := .whois }
  let pending : Classified := [("8.8.8.8", record), ("9.9.9.9", record)]
  let σ := (ask (wanted addresses) 3 limiting).2
  have hask : ask (wanted addresses) 3 limiting = (.ok answer, σ) :=
    Prod.ext (by decide +kernel) rfl
  have hpending : classify answer (wanted addresses) = pending := by decide +kernel
  have honce : ((classify answer (wanted addresses)).map Prod.fst).Nodup := by
    rw [hpending]
    decide
  obtain ⟨result, τ, hlookup⟩ : ∃ result τ, lookup addresses o limiting = (.ok result, τ) :=
    ⟨_, _, lookup_eq hask⟩
  obtain ⟨-, hends, hlimited⟩ := lookup_conserves hask honce hlookup
  rw [hpending] at hends hlimited
  have hrate (address : String) (hmem : (address, record) ∈ pending)
      (h : (outcomesOf address (lookups o pending σ)).any isRateLimited = true) :
      address ∈ (result.stats.course .arin).rateLimited := by
    obtain ⟨outcome, houtcome, hlimits⟩ := List.any_eq_true.1 h
    cases outcome with
    | ok report => cases hlimits
    | error e => exact ((hlimited .arin).2 address).2 ⟨record, e, hmem, rfl, hlimits, houtcome⟩
  have hlimited₁ := hrate "8.8.8.8" (by simp [pending]) (by decide +kernel)
  have hlimited₂ := hrate "9.9.9.9" (by simp [pending]) (by decide +kernel)
  have hfound : (outcomesOf "8.8.8.8" (lookups o pending σ)).any Except.isOk = true := by
    decide +kernel
  have hlost : (outcomesOf "9.9.9.9" (lookups o pending σ)).any Except.isOk = false := by
    decide +kernel
  obtain ⟨errors, report, -, -, hreport, hkept⟩ | ⟨errors, -, houtcomes, -⟩ :=
    hends "8.8.8.8" record (by simp [pending])
  · obtain ⟨failures, last, -, houtcomes, -⟩ | ⟨failures, -, -, hnone, hfailed⟩ :=
      hends "9.9.9.9" record (by simp [pending])
    · rw [houtcomes] at hlost
      simp [Except.isOk, Except.toBool] at hlost
    · exact ⟨result, τ, report, hlookup, hreport, hkept .arin, hnone, hfailed .arin, hlimited₁,
        hlimited₂⟩
  · rw [houtcomes] at hfound
    simp [Except.isOk, Except.toBool] at hfound

end IpRegistry.Bulk
