import IpRegistry.Proofs.Bulk.Conservation
import IpRegistry.Proofs.Whois.Query

namespace IpRegistry.Bulk

def Account.uniform (tries : Nat) (record : Asn.Record) :
    Except LookupError RdapReport → Account
  | .ok report => (opened record []).succeed report
  | .error e => (opened record (List.replicate tries e)).remove.listFailed record.registry

theorem Account.Fate.eq_uniform {tries : Nat} {record : Asn.Record}
    {outcomes : List (Except LookupError RdapReport)} {a : Account}
    (h : Account.Fate tries record outcomes a) (hclosed : a.records = []) (htries : 0 < tries)
    {outcome : Except LookupError RdapReport} (hall : ∀ found ∈ outcomes, found = outcome) :
    a = Account.uniform tries record outcome := by
  cases h with
  | pending errors hlt => cases hclosed
  | found errors report hlt =>
      obtain rfl := hall (.ok report) (by simp)
      cases errors with
      | nil => rfl
      | cons e errors => cases hall (.error e) (by simp)
  | givenUp errors hlength =>
      obtain ⟨e, he⟩ := List.exists_mem_of_length_pos (by rwa [hlength] : 0 < errors.length)
      obtain rfl := hall (.error e) (by simp [he])
      have hreplicate : errors = List.replicate tries e := by
        rw [List.eq_replicate_iff]
        refine ⟨hlength, ?_⟩
        intro other hother
        exact Except.error.inj (hall (.error other) (by simp [hother]))
      rw [hreplicate]
      rfl

namespace World

variable {p : Plan} {web : Script (Option Web.Reply)} {address : String} {record : Asn.Record}

theorem pending_step_subset (p : Plan) (w : World) (m : Move) {entry : String × Asn.Record}
    (h : entry ∈ (w.step p m).schedule.pending) : entry ∈ w.schedule.pending := by
  cases m with
  | enter r =>
      have hpending := Schedule.openWindow_pending w.schedule w.services.elapsed p.length r
      rwa [← hpending]
  | ask r asked other => exact (Schedule.settle_pending_sublist _ _ _ _ _ _).subset h
  | wait => exact h

theorem Follows.outcome_eq {w : World} {moves : List Move} (h : w.Follows p (Admits p) moves)
    (hp : ∀ address record σ, σ.web = web → (p.lookup address record σ).2.web = web)
    (hw : w.services.web = web) {outcome : Except LookupError RdapReport}
    (hsame : ∀ σ : Services, σ.web = web → (p.lookup address record σ).1 = outcome)
    (honly : ∀ other, (address, other) ∈ w.schedule.pending → other = record)
    {found : Except LookupError RdapReport}
    (hfound : found ∈ outcomesOf address (attempts p moves w)) : found = outcome := by
  induction moves generalizing w with
  | nil => cases hfound
  | cons m moves ih =>
      have hrest : ∀ other, (address, other) ∈ (w.step p m).schedule.pending → other = record :=
        fun other hother => honly other (pending_step_subset p w m hother)
      cases m with
      | enter r => exact ih h.2 hw hrest hfound
      | wait => exact ih h.2 hw hrest hfound
      | ask r asked other =>
          have hweb : (w.step p (.ask r asked other)).services.web = web := hp asked other _ hw
          rw [attempts, outcomesOf_cons] at hfound
          by_cases hasked : asked = address
          · subst hasked
            rw [if_pos rfl] at hfound
            rcases List.mem_cons.1 hfound with rfl | hfound
            · rw [honly other h.1.1]
              exact hsame _ hw
            · exact ih h.2 hweb hrest hfound
          · rw [if_neg hasked] at hfound
            exact ih h.2 hweb hrest hfound

end World

/-- The lookup of an address on its own, at the registry of its record and with one try. -/
def alone (o : Options) (address : String) (record : Asn.Record) (σ : Services) :
    Except LookupError Rdap.Result :=
  (Target.parse address).bind fun target =>
    (Rdap.lookup target (some record.registry) {
      patience := ⟨1, o.length⟩
      depth := o.depth
      excluded := o.excluded
      keepRaw := o.keepRaw } σ).1

theorem plan_lookup_eq (o : Options) (address : String) (record : Asn.Record) (σ : Services) :
    ((plan o).lookup address record σ).1 =
      (alone o address record σ).map fun found => .ofResult (some record) found none := by
  show (lookupOne o address record σ).1 = _
  rw [lookupOne, alone]
  cases Target.parse address with
  | error e => rfl
  | ok target => exact Exchange.bind_pure_fst _ _ σ

theorem leavesWeb_ask (addresses : List String) (retryCount : Nat) :
    Exchange.LeavesWeb (ask addresses retryCount) := by
  refine .bind (Whois.Query.leavesWeb_send _).outcome fun result => ?_
  cases result <;> exact fun _ => rfl

theorem eq_of_mem_of_mem {pending : Classified} (honce : (pending.map Prod.fst).Nodup)
    {address : String} {record other : Asn.Record} (h : (address, record) ∈ pending)
    (hother : (address, other) ∈ pending) : other = record := by
  have hfilter := filter_eq_singleton honce h
  rw [filter_eq_singleton honce hother] at hfilter
  exact (Prod.mk.inj (List.cons.inj hfilter).1).2

theorem outcome_eq_of_mem (o : Options) {pending : Classified} {σ : Services}
    (hσ : σ.web.queued = []) (honce : (pending.map Prod.fst).Nodup) {address : String}
    {record : Asn.Record} (h : (address, record) ∈ pending) {τ : Services}
    (hτ : τ.web = σ.web) {found : Except LookupError RdapReport}
    (hfound : found ∈ outcomesOf address (lookups o pending σ)) :
    found = ((plan o).lookup address record τ).1 := by
  have hleaves : ∀ address record ρ, ρ.web = σ.web →
      ((plan o).lookup address record ρ).2.web = σ.web := by
    intro address record ρ hρ
    have hsteady := (browses_plan_lookup o address record).steady (σ := ρ) (by rw [hρ, hσ])
    exact hsteady.1.trans hρ
  have hsame : ∀ ρ : Services, ρ.web = σ.web →
      ((plan o).lookup address record ρ).1 = ((plan o).lookup address record τ).1 := by
    intro ρ hρ
    have hsteady := (browses_plan_lookup o address record).steady (σ := τ) (by rw [hτ, hσ])
    exact hsteady.2 ρ (by rw [hρ, hτ])
  have hfollows := World.follows_moves (plan o) (start pending σ)
  exact hfollows.outcome_eq hleaves rfl hsame (fun _ => eq_of_mem_of_mem honce h) hfound

theorem account_finish_uniform (o : Options) {pending : Classified} {σ : Services}
    (hσ : σ.web.queued = []) (honce : (pending.map Prod.fst).Nodup) {address : String}
    {record : Asn.Record} (h : (address, record) ∈ pending) {τ : Services}
    (hτ : τ.web = σ.web) :
    (finish o pending σ).schedule.account address =
      Account.uniform (max o.retryCount 1) record ((plan o).lookup address record τ).1 :=
  (fate_finish o σ honce h).eq_uniform (records_finish o pending σ address)
    (Nat.le_max_right _ _) fun _ hfound => outcome_eq_of_mem o hσ honce h hτ hfound

theorem account_finish_alone (o : Options) {pending : Classified} {σ : Services}
    (hσ : σ.web.queued = []) (honce : (pending.map Prod.fst).Nodup) {address : String}
    {record : Asn.Record} (h : (address, record) ∈ pending) {τ : Services}
    (hτ : τ.web = σ.web) :
    (∀ found, alone o address record τ = .ok found →
      (finish o pending σ).schedule.reports.lookup address =
          some (.ofResult (some record) found none) ∧
        ∀ r, address ∉ ((finish o pending σ).schedule.course r).failed) ∧
    ∀ e, alone o address record τ = .error e →
      (finish o pending σ).schedule.reports.lookup address = none ∧
        ∀ r, ((finish o pending σ).schedule.course r).failed.count address =
          if r = record.registry then 1 else 0 := by
  have haccount := account_finish_uniform o hσ honce h hτ
  rw [plan_lookup_eq o address record τ] at haccount
  constructor
  · intro found hfound
    rw [hfound] at haccount
    refine ⟨congrArg Account.report haccount, fun r => ?_⟩
    exact List.count_eq_zero.1 (congrFun (congrArg Account.failed haccount) r)
  · intro e herror
    rw [herror] at haccount
    exact ⟨congrArg Account.report haccount, congrFun (congrArg Account.failed haccount)⟩

def answerLines (answer : String) : List (List Char) :=
  (Text.lines answer.toList).drop 1

def addressesOf (wanted : List String) (lines : List (List Char)) : List String :=
  (lines.filterMap (classifyLine? wanted)).map Prod.fst

/-- With the same lines in another order and some more lines, the account of an address that none of
those is about stays as it is. -/
theorem account_finish_congr (o : Options) {wanted : List String} {answer other : String}
    {extra : List (List Char)} (hlines : (answerLines other).Perm (answerLines answer ++ extra))
    (honce : ((classify other wanted).map Prod.fst).Nodup) {σ τ : Services}
    (hσ : σ.web.queued = []) (hτ : τ.web = σ.web) {address : String}
    (hextra : address ∉ addressesOf wanted extra) :
    (finish o (classify other wanted) τ).schedule.account address =
      (finish o (classify answer wanted) σ).schedule.account address := by
  have hperm : (classify other wanted).Perm
      (classify answer wanted ++ extra.filterMap (classifyLine? wanted)) := by
    have hmap := hlines.filterMap (classifyLine? wanted)
    rwa [List.filterMap_append] at hmap
  have honce' : ((classify answer wanted).map Prod.fst).Nodup := by
    have hboth := (hperm.map Prod.fst).nodup_iff.1 honce
    rw [List.map_append] at hboth
    exact (List.nodup_append.1 hboth).1
  by_cases hmem : address ∈ (classify answer wanted).map Prod.fst
  · obtain ⟨⟨_, record⟩, hentry, rfl⟩ := List.mem_map.1 hmem
    have hother := hperm.mem_iff.2 (List.mem_append_left _ hentry)
    rw [account_finish_uniform o hσ honce' hentry hτ,
      account_finish_uniform o (by rw [hτ, hσ]) honce hother rfl]
  · have hnone : address ∉ (classify other wanted).map Prod.fst := by
      intro hin
      rw [(hperm.map Prod.fst).mem_iff, List.map_append, List.mem_append] at hin
      exact hin.elim hmem hextra
    rw [account_finish_of_not_mem o σ hmem, account_finish_of_not_mem o τ hnone]

/-- Where web servers have standing answers only, a lookup of many addresses reports exactly what
the lookups of the classified addresses on their own find, and lists the others as failed at their
registries. The order of the lines of the classification and lines about further addresses make no
difference to an address. -/
theorem lookup_isolates {addresses : List String} {o : Options} {σ σ₁ σ₂ : Services}
    {answer : String} {result : Result} (hweb : σ.web.queued = [])
    (hask : ask (wanted addresses) o.asnRetryCount σ = (.ok answer, σ₁))
    (honce : ((classify answer (wanted addresses)).map Prod.fst).Nodup)
    (hlookup : lookup addresses o σ = (.ok result, σ₂)) :
    (∀ address record, (address, record) ∈ classify answer (wanted addresses) →
      ∀ τ : Services, τ.web = σ.web →
        (∀ found, alone o address record τ = .ok found →
          result.reports.lookup address = some {
            query := found.query
            asn := some record
            network := found.network
            entities := found.entities
            objects := found.objects
            national := none
            raw := found.raw } ∧
          ∀ r, address ∉ (result.stats.course r).failed) ∧
        ∀ e, alone o address record τ = .error e →
          result.reports.lookup address = none ∧
          ∀ r, (result.stats.course r).failed.count address =
            if r = record.registry then 1 else 0) ∧
    (∀ address, address ∉ (classify answer (wanted addresses)).map Prod.fst →
      result.reports.lookup address = none ∧ ∀ r, address ∉ (result.stats.course r).failed) ∧
    ∀ (τ τ₁ τ₂ : Services) (other : String) (result' : Result) (extra : List (List Char)),
      τ.web = σ.web →
      ask (wanted addresses) o.asnRetryCount τ = (.ok other, τ₁) →
      (answerLines other).Perm (answerLines answer ++ extra) →
      ((classify other (wanted addresses)).map Prod.fst).Nodup →
      lookup addresses o τ = (.ok result', τ₂) →
      ∀ address, address ∉ addressesOf (wanted addresses) extra →
        result'.reports.lookup address = result.reports.lookup address ∧
        ∀ r, (result'.stats.course r).failed.count address =
            (result.stats.course r).failed.count address ∧
          (result'.stats.course r).rateLimited.count address =
            (result.stats.course r).rateLimited.count address := by
  have hleaves : σ₁.web = σ.web := by
    have h := leavesWeb_ask (wanted addresses) o.asnRetryCount σ
    rwa [hask] at h
  have hqueued : σ₁.web.queued = [] := by
    rw [hleaves, hweb]
  rw [lookup_eq hask] at hlookup
  obtain rfl := Except.ok.inj (Prod.mk.inj hlookup).1
  refine ⟨?_, ?_, ?_⟩
  · intro address record hmem τ hτ
    exact account_finish_alone o hqueued honce hmem (hτ.trans hleaves.symm)
  · intro address hmem
    have haccount := account_finish_of_not_mem o σ₁ hmem
    refine ⟨congrArg Account.report haccount, fun r => ?_⟩
    exact List.count_eq_zero.1 (congrFun (congrArg Account.failed haccount) r)
  · intro τ τ₁ τ₂ other result' extra hτ hask' hlines honce' hlookup' address haddress
    have hleaves' : τ₁.web = σ₁.web := by
      have h := leavesWeb_ask (wanted addresses) o.asnRetryCount τ
      rw [hask'] at h
      exact (h.trans hτ).trans hleaves.symm
    rw [lookup_eq hask'] at hlookup'
    obtain rfl := Except.ok.inj (Prod.mk.inj hlookup').1
    have haccount := account_finish_congr o hlines honce' hqueued hleaves' haddress
    refine ⟨congrArg Account.report haccount, fun r => ⟨?_, ?_⟩⟩
    · exact congrFun (congrArg Account.failed haccount) r
    · exact congrFun (congrArg Account.rateLimited haccount) r

def oneNetwork (answer : String) : Services where
  whois := { standing := [(Asn.originServer,
    some (answer.toList.map fun c => UInt8.ofNat c.toNat))] }
  web := { standing := [("http://rdap.arin.net/registry/ip/8.8.8.8",
    some ⟨200, "\x7b\"handle\":\"N\"\x7d".toList.map fun c => UInt8.ofNat c.toNat⟩)] }

def mixedLines : String :=
  "\n1|8.8.8.8|||arin||\n1|x|||arin||"

def swappedLines : String :=
  "\n1|x|||arin||\n1|8.8.8.8|||arin||"

def mixedRecord : Asn.Record where
  registry := .arin
  asn := some "1"
  source := .whois

theorem lookup_isolates_swapped :
    ∃ result result' σ τ,
      lookup ["8.8.8.8", "x"] {} (oneNetwork mixedLines) = (.ok result, σ) ∧
      lookup ["8.8.8.8", "x"] {} (oneNetwork swappedLines) = (.ok result', τ) ∧
      (result.reports.lookup "8.8.8.8").isSome = true ∧
      (result.stats.course .arin).failed.count "x" = 1 ∧
      result'.reports.lookup "8.8.8.8" = result.reports.lookup "8.8.8.8" := by
  have hask : ask (wanted ["8.8.8.8", "x"]) 3 (oneNetwork mixedLines) =
      (.ok mixedLines, (ask (wanted ["8.8.8.8", "x"]) 3 (oneNetwork mixedLines)).2) :=
    Prod.ext (by decide +kernel) rfl
  have hask' : ask (wanted ["8.8.8.8", "x"]) 3 (oneNetwork swappedLines) =
      (.ok swappedLines, (ask (wanted ["8.8.8.8", "x"]) 3 (oneNetwork swappedLines)).2) :=
    Prod.ext (by decide +kernel) rfl
  have hlookup := lookup_eq (o := {}) hask
  have hlookup' := lookup_eq (o := {}) hask'
  obtain ⟨hends, -, hswap⟩ := lookup_isolates rfl hask (by decide +kernel) hlookup
  refine ⟨_, _, _, _, hlookup, hlookup', ?_, ?_, ?_⟩
  · have hmem : ("8.8.8.8", mixedRecord) ∈ classify mixedLines (wanted ["8.8.8.8", "x"]) := by
      decide +kernel
    have hok : (alone {} "8.8.8.8" mixedRecord (oneNetwork mixedLines)).isOk = true := by
      decide +kernel
    cases hfound : alone {} "8.8.8.8" mixedRecord (oneNetwork mixedLines) with
    | ok found =>
        rw [((hends _ _ hmem _ rfl).1 found hfound).1]
        rfl
    | error e =>
        rw [hfound] at hok
        cases hok
  · have hmem : ("x", mixedRecord) ∈ classify mixedLines (wanted ["8.8.8.8", "x"]) := by
      decide +kernel
    have hparse : Target.parse "x" = .error (.invalidAddress "x") := by
      decide +kernel
    have herror : alone {} "x" mixedRecord (oneNetwork mixedLines) =
        .error (.invalidAddress "x") := by
      rw [alone, hparse]
      rfl
    exact ((hends _ _ hmem _ rfl).2 _ herror).2 .arin
  · have hlines : (answerLines swappedLines).Perm (answerLines mixedLines ++ []) := by
      decide +kernel
    exact (hswap (oneNetwork swappedLines) _ _ _ _ [] rfl hask' hlines (by decide +kernel)
      hlookup' "8.8.8.8" List.not_mem_nil).1

end IpRegistry.Bulk
