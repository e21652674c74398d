import IpRegistry.Proofs.Bulk.Conservation
import IpRegistry.Proofs.Field
import Mathlib.Data.Multiset.Dedup

namespace IpRegistry.Bulk

theorem length_filter_registries (pending : Classified) :
    (Schedule.order.map fun r => (pending.filter fun entry => entry.2.registry == r).length).sum =
      pending.length := by
  induction pending with
  | nil => rfl
  | cons entry pending ih =>
      obtain ⟨address, record⟩ := entry
      rw [List.length_cons, ← ih]
      cases hr : record.registry <;> simp [Schedule.order, hr] <;> omega

namespace Schedule

variable (s : Schedule) (tries now length : Nat) (r : Registry) (address : String)

theorem total_note {f : RegistryStats → RegistryStats} (hf : ∀ stats, (f stats).total = stats.total)
    (q : Registry) : ((s.note r f).course q).total = (s.course q).total := by
  rw [course_note]
  split
  · rename_i hq
    rw [hf, hq]
  · rfl

theorem total_fail (q : Registry) :
    ((s.fail tries r address).course q).total = (s.course q).total := by
  rw [fail]
  split
  · refine total_note _ r ?_ q
    intro stats
    rfl
  · rfl

theorem total_limit (q : Registry) :
    ((s.limit r address).course q).total = (s.course q).total := by
  rw [limit]
  split
  · rfl
  · refine total_note _ r ?_ q
    intro stats
    rfl

theorem total_settle (outcome : Except LookupError RdapReport) (q : Registry) :
    ((s.settle tries now r address outcome).2.course q).total = (s.course q).total := by
  cases outcome with
  | ok report => rfl
  | error e =>
      have hfail : (((s.count now r).2.fail tries r address).course q).total =
          (s.course q).total :=
        total_fail _ tries r address q
      rw [settle_error]
      split
      · exact (total_limit _ r address q).trans hfail
      · exact hfail

end Schedule

theorem World.total_step (p : Plan) (w : World) (m : Move) (q : Registry) :
    ((w.step p m).schedule.course q).total = (w.schedule.course q).total := by
  cases m with
  | enter r =>
      show ((w.schedule.openWindow _ _ r).course q).total = _
      rw [Schedule.openWindow_eq_with]
      rfl
  | ask r address record => exact Schedule.total_settle _ _ _ _ _ _ _
  | wait => rfl

theorem total_finish (o : Options) (pending : Classified) (σ : Services) (r : Registry) :
    ((finish o pending σ).schedule.course r).total =
      (pending.filter fun entry => entry.2.registry == r).length := by
  have hkept : ∀ (w : World) (m : Move),
      (w.schedule.course r).total = ((start pending σ).schedule.course r).total →
        ((w.step (plan o) m).schedule.course r).total =
          ((start pending σ).schedule.course r).total :=
    fun w m h => (w.total_step (plan o) m r).trans h
  refine (World.after_preserves (plan o) hkept rfl _).trans ?_
  exact congrArg RegistryStats.total (course_totals pending r)

/-- The address that a line is about. -/
def lineAddress? (line : List Char) : Option String :=
  match line.splitOn '|' with
  | _ :: address :: _ => some (Text.trim (String.ofList address))
  | _ => none

theorem classifyLine?_eq_some {wanted : List String} {line : List Char} {address : String}
    {record : Asn.Record} (h : classifyLine? wanted line = some (address, record)) :
    lineAddress? line = some address ∧ address ∈ wanted := by
  rw [classifyLine?] at h
  rw [lineAddress?]
  generalize line.splitOn '|' = fields at h ⊢
  rcases fields with _ | ⟨origin, _ | ⟨text, rest⟩⟩
  · cases h
  · cases h
  · dsimp only at h
    split at h
    · rename_i hwanted
      obtain ⟨_, -, heq⟩ := Option.map_eq_some_iff.1 h
      obtain ⟨rfl, -⟩ := Prod.mk.inj heq
      exact ⟨rfl, List.contains_iff_mem.1 hwanted⟩
    · cases h

theorem mem_wanted_of_mem_classify {answer : String} {wanted : List String} {address : String}
    (h : address ∈ (classify answer wanted).map Prod.fst) : address ∈ wanted := by
  obtain ⟨⟨_, record⟩, hentry, rfl⟩ := List.mem_map.1 h
  obtain ⟨line, -, hline⟩ := List.mem_filterMap.1 hentry
  exact (classifyLine?_eq_some hline).2

theorem count_classify_le (answer : String) (wanted : List String) (address : String) :
    ((classify answer wanted).map Prod.fst).count address ≤
      ((Text.lines answer.toList).drop 1).countP fun line => lineAddress? line == some address := by
  rw [List.count, List.countP_map, classify, List.countP_filterMap]
  refine List.countP_mono_left fun line _ hline => ?_
  cases hentry : classifyLine? wanted line with
  | none =>
      rw [hentry] at hline
      cases hline
  | some entry =>
      obtain ⟨found, record⟩ := entry
      rw [hentry] at hline
      obtain rfl : found = address := eq_of_beq hline
      exact beq_iff_eq.2 (classifyLine?_eq_some hentry).1

theorem toFinset_unclassified (pending : Classified) (addresses : List String) :
    (unclassified pending addresses).toFinset =
      addresses.toFinset \ (pending.map Prod.fst).toFinset := by
  ext address
  simp only [unclassified, List.mem_toFinset, List.mem_filter, Finset.mem_sdiff, List.mem_map,
    Bool.not_eq_true', List.any_eq_false, beq_iff_eq, not_exists, not_and]

theorem card_classified_add_unclassified (answer : String) (addresses : List String) :
    ((classify answer (wanted addresses)).map Prod.fst).toFinset.card +
        (unclassified (classify answer (wanted addresses))
          (addresses.map Text.trim)).toFinset.card =
      (wanted addresses).length := by
  have hsubset : ((classify answer (wanted addresses)).map Prod.fst).toFinset ⊆
      (addresses.map Text.trim).toFinset := by
    intro address h
    rw [List.mem_toFinset] at h ⊢
    exact Field.mem_distinct.1 (mem_wanted_of_mem_classify h)
  rw [toFinset_unclassified, Nat.add_comm, Finset.card_sdiff_add_card_eq_card hsubset, wanted,
    Field.length_distinct]

theorem length_eq_card_iff (pending : Classified) :
    pending.length = (pending.map Prod.fst).toFinset.card ↔ (pending.map Prod.fst).Nodup := by
  rw [← List.length_map Prod.fst, eq_comm]
  exact Multiset.toFinset_card_eq_card_iff_nodup

namespace Account

/-- How often an address is listed as failed, and once more if it has a report. -/
def listings (a : Account) : Nat :=
  (Schedule.order.map a.failed).sum + if a.report.isSome then 1 else 0

/-- How often an address is pending or listed. -/
def weight (a : Account) : Nat :=
  a.records.length + a.listings

variable {a : Account} (tries : Nat) (r : Registry)

theorem sum_countAt (f : Registry → Nat) :
    (Schedule.order.map (countAt r f)).sum = (Schedule.order.map f).sum + 1 := by
  cases r <;> simp [Schedule.order, countAt] <;> omega

theorem weight_limit : (a.limit r).weight = a.weight := by
  rw [limit]
  split <;> rfl

theorem weight_fail (h : a.records ≠ []) : (a.fail tries r).weight = a.weight := by
  have hlength := List.length_pos_iff.2 h
  rw [fail]
  split
  · have htail : a.records.tail.length = a.records.length - 1 := List.length_tail
    show a.records.tail.length + ((Schedule.order.map (countAt r a.failed)).sum + _) =
      a.records.length + ((Schedule.order.map a.failed).sum + _)
    rw [sum_countAt, htail]
    show _ + (_ + 1 + if a.report.isSome then 1 else 0) = _
    omega
  · rfl

theorem weight_settle (h : a.records ≠ []) (outcome : Except LookupError RdapReport) :
    1 ≤ (a.settle tries r outcome).weight ∧ (a.settle tries r outcome).weight ≤ a.weight := by
  have hlength := List.length_pos_iff.2 h
  cases outcome with
  | ok report =>
      have htail : a.records.tail.length = a.records.length - 1 := List.length_tail
      have hweight : (a.settle tries r (.ok report)).weight =
          a.records.tail.length + ((Schedule.order.map a.failed).sum + 1) :=
        rfl
      rw [hweight, weight, listings, htail]
      omega
  | error e =>
      have hweight : (a.settle tries r (.error e)).weight = a.weight := by
        rw [settle]
        split
        · rw [weight_limit, weight_fail tries r h]
        · exact weight_fail tries r h
      rw [hweight, weight]
      omega

end Account

namespace World

variable {p : Plan} {w : World}

theorem weight_step {m : Move} (h : w.Admits p m) (address : String) :
    min 1 (w.schedule.account address).weight ≤
        ((w.step p m).schedule.account address).weight ∧
      ((w.step p m).schedule.account address).weight ≤
        (w.schedule.account address).weight := by
  cases m with
  | enter r =>
      rw [account_step_enter]
      exact ⟨Nat.min_le_right _ _, Nat.le_refl _⟩
  | wait => exact ⟨Nat.min_le_right _ _, Nat.le_refl _⟩
  | ask r asked record =>
      rw [account_step_ask]
      split
      · rename_i haddress
        subst haddress
        -- A report replaces an earlier one, so the weight can fall, but not to zero.
        have hopen := List.ne_nil_of_mem (mem_records h.1)
        have hsettle := Account.weight_settle p.tries r hopen (p.lookup address record w.services).1
        exact ⟨Nat.le_trans (Nat.min_le_left _ _) hsettle.1, hsettle.2⟩
      · exact ⟨Nat.min_le_right _ _, Nat.le_refl _⟩

theorem Follows.weight_le {moves : List Move} (h : w.Follows p (Admits p) moves)
    (address : String) :
    min 1 (w.schedule.account address).weight ≤
        ((w.after p moves).schedule.account address).weight ∧
      ((w.after p moves).schedule.account address).weight ≤
        (w.schedule.account address).weight := by
  induction moves generalizing w with
  | nil => exact ⟨Nat.min_le_right _ _, Nat.le_refl _⟩
  | cons m moves ih =>
      have hstep := weight_step h.1 address
      have hrest := ih h.2
      show min 1 _ ≤ (((w.step p m).after p moves).schedule.account address).weight ∧
        (((w.step p m).after p moves).schedule.account address).weight ≤ _
      omega

end World

theorem weight_start (pending : Classified) (σ : Services) (address : String) :
    ((start pending σ).schedule.account address).weight =
      (pending.map Prod.fst).count address := by
  rw [account_start, List.count, List.countP_map, List.countP_eq_length_filter]
  exact List.length_map _

theorem listings_finish (o : Options) (pending : Classified) (σ : Services) (address : String) :
    min 1 ((pending.map Prod.fst).count address) ≤
        ((finish o pending σ).schedule.account address).listings ∧
      ((finish o pending σ).schedule.account address).listings ≤
        (pending.map Prod.fst).count address := by
  have hweight : ((finish o pending σ).schedule.account address).weight =
      ((finish o pending σ).schedule.account address).listings := by
    rw [Account.weight, records_finish]
    exact Nat.zero_add _
  rw [← weight_start pending σ, ← hweight]
  exact (World.follows_moves (plan o) (start pending σ)).weight_le address

/-- The lookups and the totals of the registries count the classified lines, of which there are as
many as classified addresses only if no address is on several of them. The classified and the
unallocated addresses are all addresses that were given. A classified address has a report or is
listed as failed, and the two together happen no more often than it is on a line. -/
theorem lookup_counts {addresses : List String} {o : Options} {σ σ₁ σ₂ : Services}
    {answer : String} {result : Result}
    (hask : ask (wanted addresses) o.asnRetryCount σ = (.ok answer, σ₁))
    (hlookup : lookup addresses o σ = (.ok result, σ₂)) :
    let found := (classify answer (wanted addresses)).map Prod.fst
    (∀ address, found.count address ≤ ((Text.lines answer.toList).drop 1).countP fun line =>
      lineAddress? line == some address) ∧
    result.stats.lookupTotal = found.length ∧
    (result.stats.lookupTotal = found.toFinset.card ↔ found.Nodup) ∧
    (Schedule.order.map fun r => (result.stats.course r).total).sum =
      result.stats.lookupTotal ∧
    found.toFinset.card + result.stats.unallocated.toFinset.card = result.stats.uniqueTotal ∧
    result.stats.uniqueTotal = (addresses.map Text.trim).toFinset.card ∧
    ∀ address,
      let listings := (Schedule.order.map fun r =>
          (result.stats.course r).failed.count address).sum +
        if (result.reports.lookup address).isSome then 1 else 0
      min 1 (found.count address) ≤ listings ∧ listings ≤ found.count address := by
  intro found
  rw [lookup_eq hask] at hlookup
  obtain rfl := Except.ok.inj (Prod.mk.inj hlookup).1
  refine ⟨count_classify_le answer _, (List.length_map _).symm, length_eq_card_iff _, ?_,
    card_classified_add_unclassified answer addresses, Field.length_distinct _,
    listings_finish o _ σ₁⟩
  refine Eq.trans ?_ (length_filter_registries (classify answer (wanted addresses)))
  exact congrArg List.sum (List.map_congr_left fun r _ => total_finish o _ σ₁ r)

def unparsable : Services where
  whois := { standing := [(Asn.originServer,
    some ("\n1|x|||arin||".toList.map fun c => UInt8.ofNat c.toNat))] }

theorem lookup_counts_unparsable :
    ∃ result σ, lookup ["x", " y", "y"] {} unparsable = (.ok result, σ) ∧
      1 + result.stats.unallocated.toFinset.card = result.stats.uniqueTotal ∧
      (result.stats.lookupTotal = 1 ↔ ["x"].Nodup) := by
  have hask : ask (wanted ["x", " y", "y"]) 3 unparsable =
      (.ok "\n1|x|||arin||", (ask (wanted ["x", " y", "y"]) 3 unparsable).2) :=
    Prod.ext (by decide +kernel) rfl
  have hfound : (classify "\n1|x|||arin||" (wanted ["x", " y", "y"])).map Prod.fst = ["x"] := by
    decide +kernel
  have hlookup := lookup_eq (o := {}) hask
  have hcounts := lookup_counts hask hlookup
  rw [hfound] at hcounts
  obtain ⟨-, -, honce, -, hunique, -, -⟩ := hcounts
  exact ⟨_, _, hlookup, hunique, honce⟩

def repeatedLines : String :=
  "\n1|8.8.8.8|||arin||\n1|8.8.8.8|||arin||\n1|8.8.8.8|||arin||"

/-- An address on three lines, of which a registry knows the network at the first lookup only. -/
def forgetful : Services where
  whois := { standing := [(Asn.originServer,
    some (repeatedLines.toList.map fun c => UInt8.ofNat c.toNat))] }
  web := { queued := [("http://rdap.arin.net/registry/ip/8.8.8.8",
    some ⟨200, "\x7b\"handle\":\"N\"\x7d".toList.map fun c => UInt8.ofNat c.toNat⟩)] }

/-- An address on three lines is looked up three times, has a report and is listed as failed twice. -/
theorem lookup_counts_repeated :
    ((classify repeatedLines ["8.8.8.8"]).map Prod.fst).count "8.8.8.8" = 3 ∧
    ∃ result σ, lookup ["8.8.8.8"] { retryCount := 1 } forgetful = (.ok result, σ) ∧
      result.stats.lookupTotal = 3 ∧ result.stats.uniqueTotal = 1 ∧
      (result.reports.lookup "8.8.8.8").isSome = true ∧
      (result.stats.course .arin).failed = ["8.8.8.8", "8.8.8.8"] := by
  have hask : ask (wanted ["8.8.8.8"]) 3 forgetful =
      (.ok repeatedLines, (ask (wanted ["8.8.8.8"]) 3 forgetful).2) :=
    Prod.ext (by decide +kernel) rfl
  refine ⟨by decide +kernel, _, _, lookup_eq (o := { retryCount := 1 }) hask, ?_⟩
  decide +kernel

end IpRegistry.Bulk
