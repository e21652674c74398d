import IpRegistry.Proofs.Retry
import IpRegistry.Whois.Query
import Mathlib.Data.List.Infix

namespace IpRegistry.Whois

open Exchange (wait?)

/-- What sending a query once leads to: an answer, or none if the connection fails. -/
abbrev Outcome := Option (List UInt8)

/-- The ASCII part of an answer holds a mark. -/
def mentions (bytes : List UInt8) (mark : String) : Bool :=
  mark.toList <:+: (Text.asciiOnly bytes).toList

def reportsError (bytes : List UInt8) : Bool :=
  errorMarks.any (mentions bytes)

namespace Outcome

/-- An answer that says that queries come too fast. -/
def isLimited (o : Outcome) : Bool :=
  o.any fun bytes => mentions bytes rateLimitMark

/-- An answer after which a query is not sent again. -/
def terminal? (o : Outcome) : Option (List UInt8) :=
  o.filter fun bytes => !mentions bytes rateLimitMark

def isTerminal (o : Outcome) : Bool :=
  o.terminal?.isSome

theorem isLimited_of_isTerminal {o : Outcome} (h : o.isTerminal = true) : o.isLimited = false := by
  cases o with
  | none => rfl
  | some bytes =>
      rw [isTerminal, terminal?, Option.isSome_filter, Option.any_some, Bool.not_eq_true'] at h
      exact h

end Outcome

/-- What the next `count` attempts to ask a server lead to. -/
def outcomes (σ : Services) (server : String) (count : Nat) : List Outcome :=
  (σ.whois.upcoming server count).map Option.join

/-- How many of the outcomes it takes to come to an end. -/
def exchanges (outcomes : List Outcome) : Nat :=
  min outcomes.length (outcomes.findIdx Outcome.isTerminal + 1)

/-- How many outcomes before the last one that is allowed ask for a pause. -/
def pauses (outcomes : List Outcome) : Nat :=
  (outcomes.dropLast.take (exchanges outcomes)).countP Outcome.isLimited

theorem mentions_eq_occursIn (bytes : List UInt8) (mark : String) :
    mentions bytes mark = Text.occursIn mark (Text.asciiOnly bytes) := by
  rw [mentions, Bool.eq_iff_iff, Text.occursIn_iff, decide_eq_true_iff]

theorem ofBytes_eq (bytes : List UInt8) :
    Answer.ofBytes bytes =
      if mentions bytes rateLimitMark then .limited
      else if reportsError bytes then .failed
      else .text (Text.asciiOnly bytes) := by
  have hmarks : mentions bytes = fun mark => Text.occursIn mark (Text.asciiOnly bytes) :=
    funext (mentions_eq_occursIn bytes)
  rw [reportsError, hmarks]
  rfl

namespace Query

variable (q : Query)

def exchange : Event :=
  .whois q.server q.port q.text

def failure : LookupError :=
  q.purpose.failure q.subject

/-- What comes of the answers to a query. -/
def verdict (outcomes : List Outcome) : Except LookupError String :=
  match outcomes.findSome? Outcome.terminal? with
  | some bytes => if reportsError bytes then .error q.failure else .ok (Text.asciiOnly bytes)
  | none =>
    if outcomes.getLast?.any Outcome.isLimited then .error (.whoisRateLimited q.subject)
    else .error q.failure

/-- What is done for one outcome, perhaps with another attempt to follow. -/
def steps (again : Bool) (o : Outcome) : List Event :=
  q.exchange :: if o.isLimited && again then [.sleep rateLimitPause] else []

/-- What is done for all outcomes up to the one that ends the query. -/
def trace (outcomes : List Outcome) : List Event :=
  ((outcomes.take (exchanges outcomes)).mapIdx fun i o =>
    q.steps (i + 1 < outcomes.length) o).flatten

end Query

variable {o : Outcome} {rest : List Outcome}

theorem exchanges_of_isTerminal (h : o.isTerminal = true) : exchanges (o :: rest) = 1 :=
  Retry.tries_of_ends h

theorem exchanges_of_not_isTerminal (h : o.isTerminal = false) :
    exchanges (o :: rest) = exchanges rest + 1 :=
  Retry.tries_of_not_ends h

theorem pauses_of_isTerminal (h : o.isTerminal = true) : pauses (o :: rest) = 0 :=
  Retry.pauses_of_ends h (Outcome.isLimited_of_isTerminal h)

theorem pauses_of_not_isTerminal (h : o.isTerminal = false) :
    pauses (o :: rest) = (if o.isLimited && 0 < rest.length then 1 else 0) + pauses rest :=
  Retry.pauses_of_not_ends h

namespace Query

variable (q : Query)

theorem verdict_of_terminal? {bytes : List UInt8} (h : o.terminal? = some bytes) :
    q.verdict (o :: rest) =
      if reportsError bytes then .error q.failure else .ok (Text.asciiOnly bytes) := by
  rw [verdict, List.findSome?_cons, h]

theorem verdict_of_not_isTerminal (h : o.isTerminal = false) :
    q.verdict (o :: rest) =
      if o.isLimited ∧ rest = [] then .error (.whoisRateLimited q.subject)
      else q.verdict rest := by
  rw [Outcome.isTerminal, Option.isSome_eq_false_iff, Option.isNone_iff_eq_none] at h
  rw [verdict, List.findSome?_cons, h]
  cases rest with
  | nil => cases hlimited : o.isLimited <;> simp [verdict, hlimited]
  | cons next rest => simp [verdict, List.getLast?_cons_cons]

theorem trace_of_isTerminal (h : o.isTerminal = true) : q.trace (o :: rest) = [q.exchange] :=
  Retry.trace_of_ends h (Outcome.isLimited_of_isTerminal h)

theorem trace_of_not_isTerminal (h : o.isTerminal = false) :
    q.trace (o :: rest) = q.steps (0 < rest.length) o ++ q.trace rest :=
  Retry.trace_of_not_ends h

/-- The services when the query has been sent once. -/
def asked (σ : Services) : Services :=
  { σ.note q.exchange with whois := (σ.whois.take q.server).2 }

theorem outcomes_succ (σ : Services) (count : Nat) :
    outcomes σ q.server (count + 1) =
      (σ.whois.take q.server).1.join :: outcomes (q.asked σ) q.server count := by
  rw [outcomes, Script.upcoming_succ, List.map_cons]
  rfl

theorem length_outcomes (σ : Services) (server : String) (count : Nat) :
    (outcomes σ server count).length = count := by
  rw [outcomes, List.length_map, Script.length_upcoming]

variable {q}

theorem askWhois_apply (σ : Services) :
    Exchange.askWhois q.server q.port q.text σ =
      (.ok (σ.whois.take q.server).1.join, q.asked σ) :=
  rfl

theorem attempt_of_isTerminal {σ : Services} (tries : Nat)
    (h : Outcome.isTerminal (σ.whois.take q.server).1.join = true) :
    q.attempt (tries + 1) σ =
      (q.verdict (outcomes σ q.server (tries + 1)), q.asked σ) := by
  obtain ⟨bytes, hbytes⟩ := Option.isSome_iff_exists.1 h
  obtain ⟨houtcome, hmark⟩ := Option.filter_eq_some_iff.1 hbytes
  rw [outcomes_succ, verdict_of_terminal? q hbytes]
  rw [Bool.not_eq_true'] at hmark
  rw [attempt, Exchange.bind_of_ok (q.askWhois_apply σ), houtcome]
  dsimp only
  rw [ofBytes_eq, hmark]
  cases reportsError bytes <;> rfl

theorem attempt_of_not_isTerminal {σ : Services} (tries : Nat)
    (h : Outcome.isTerminal (σ.whois.take q.server).1.join = false) :
    q.attempt (tries + 1) σ =
      if Outcome.isLimited (σ.whois.take q.server).1.join ∧ tries = 0 then
        (.error (.whoisRateLimited q.subject), q.asked σ)
      else
        q.attempt tries
          (if Outcome.isLimited (σ.whois.take q.server).1.join then
            ((q.asked σ).note (.sleep rateLimitPause)).advance rateLimitPause
          else q.asked σ) := by
  rw [attempt, Exchange.bind_of_ok (q.askWhois_apply σ)]
  cases houtcome : (σ.whois.take q.server).1.join with
  | none => rfl
  | some bytes =>
      have hmark : mentions bytes rateLimitMark = true := by
        rw [houtcome, Outcome.isTerminal, Outcome.terminal?, Option.isSome_filter,
          Option.any_some, Bool.not_eq_false'] at h
        exact h
      dsimp only
      rw [ofBytes_eq, hmark, Outcome.isLimited, Option.any_some, hmark]
      cases tries <;> rfl

/-- The services when a query has come to its end after some outcomes. -/
def left (q : Query) (σ : Services) (outcomes : List Outcome) : Services :=
  { σ with
    whois := σ.whois.after q.server (exchanges outcomes)
    elapsed := σ.elapsed + pauses outcomes * rateLimitPause
    events := σ.events ++ q.trace outcomes }

theorem left_nil (σ : Services) : q.left σ [] = σ := by
  show { σ with elapsed := σ.elapsed + 0 * rateLimitPause, events := σ.events ++ [] } = σ
  rw [Nat.zero_mul, List.append_nil]
  rfl

theorem left_of_isTerminal (σ : Services) (h : o.isTerminal = true) :
    q.left σ (o :: rest) = q.asked σ := by
  rw [left, exchanges_of_isTerminal h, pauses_of_isTerminal h, trace_of_isTerminal q h,
    Nat.zero_mul]
  rfl

theorem left_of_not_isTerminal (σ : Services) (h : o.isTerminal = false) :
    q.left σ (o :: rest) =
      q.left
        (if o.isLimited && 0 < rest.length then
          ((q.asked σ).note (.sleep rateLimitPause)).advance rateLimitPause
        else q.asked σ) rest := by
  rw [left, exchanges_of_not_isTerminal h, pauses_of_not_isTerminal h,
    trace_of_not_isTerminal q h, steps, Nat.add_mul, ← Nat.add_assoc, ← List.append_assoc]
  cases o.isLimited && decide (0 < rest.length) with
  | true =>
      rw [if_pos rfl, if_pos rfl, if_pos rfl, Nat.one_mul]
      simp [left, asked, Services.note, Services.advance, Script.after]
  | false => simp [left, asked, Services.note, Script.after]

/-- The outcomes of the attempts decide what comes of them and what is left of the services. -/
theorem attempt_eq (tries : Nat) (σ : Services) :
    q.attempt tries σ =
      (q.verdict (outcomes σ q.server tries), q.left σ (outcomes σ q.server tries)) := by
  induction tries generalizing σ with
  | zero => exact Prod.ext rfl (left_nil σ).symm
  | succ tries ih =>
      rw [outcomes_succ]
      cases h : Outcome.isTerminal (σ.whois.take q.server).1.join with
      | true => rw [attempt_of_isTerminal tries h, outcomes_succ, left_of_isTerminal σ h]
      | false =>
          rw [attempt_of_not_isTerminal tries h, verdict_of_not_isTerminal q h,
            left_of_not_isTerminal σ h, length_outcomes]
          cases hlimited : Outcome.isLimited (σ.whois.take q.server).1.join with
          | false =>
              rw [if_neg (by simp), if_neg (by simp), if_neg (by simp), if_neg (by simp), ih]
          | true =>
              cases tries with
              | zero => exact Prod.ext rfl (left_nil _).symm
              | succ tries =>
                  rw [if_neg (by simp), if_pos rfl, ih, if_neg, if_pos (by simp)]
                  · rfl
                  · rintro ⟨-, hnil⟩
                    simpa [hnil] using length_outcomes (q.asked σ) q.server (tries + 1)

theorem count_trace (outcomes : List Outcome) :
    (q.trace outcomes).count q.exchange = exchanges outcomes :=
  Retry.count_trace (fun _ => Outcome.isLimited_of_isTerminal) rfl _ outcomes

theorem waits_trace (outcomes : List Outcome) :
    (q.trace outcomes).filterMap wait? = List.replicate (pauses outcomes) rateLimitPause :=
  Retry.waits_trace (fun _ => Outcome.isLimited_of_isTerminal) rfl _ outcomes

theorem verdict_of_getElem? {outcomes : List Outcome} {k : Nat} {bytes : List UInt8}
    (hearlier : ∀ o ∈ outcomes.take k, o.isTerminal = false)
    (hbytes : outcomes[k]? = some (some bytes))
    (hmark : mentions bytes rateLimitMark = false) :
    outcomes.findIdx Outcome.isTerminal = k ∧
      q.verdict outcomes =
        if reportsError bytes then .error q.failure else .ok (Text.asciiOnly bytes) := by
  have hterminal : Outcome.terminal? (some bytes) = some bytes := by
    rw [Outcome.terminal?, Option.filter_some, hmark]
    rfl
  induction k generalizing outcomes with
  | zero =>
      obtain ⟨rest, rfl⟩ : ∃ rest, outcomes = some bytes :: rest := by
        cases outcomes with
        | nil => cases hbytes
        | cons o rest => exact ⟨rest, congrArg (· :: rest) (Option.some.inj hbytes)⟩
      refine ⟨?_, verdict_of_terminal? q hterminal⟩
      rw [List.findIdx_cons, Outcome.isTerminal, hterminal]
      rfl
  | succ k ih =>
      cases outcomes with
      | nil => cases hbytes
      | cons o rest =>
          have ho : o.isTerminal = false := hearlier o (by simp)
          have hlater : ∀ other ∈ rest.take k, other.isTerminal = false := by
            intro other hother
            apply hearlier
            rw [List.take_succ_cons]
            exact List.mem_cons_of_mem _ hother
          obtain ⟨hindex, hverdict⟩ := ih hlater hbytes
          have hrest : rest ≠ [] := by
            rintro rfl
            cases hbytes
          refine ⟨?_, ?_⟩
          · rw [List.findIdx_cons, ho, hindex]
            rfl
          · rw [verdict_of_not_isTerminal q ho, if_neg fun h => hrest h.2, hverdict]

theorem isBlocked_iff (server : String) (additional : List String) :
    isBlocked server additional = true ↔ server ∈ blockedServers ∨ server ∈ additional := by
  rw [isBlocked, Bool.or_eq_true, List.contains_iff_mem, List.contains_iff_mem]

theorem send_of_isBlocked (h : isBlocked q.server q.blocked = true) (σ : Services) :
    q.send σ = (.error (.blacklisted q.server), σ) := by
  rw [send, if_pos h]
  rfl

theorem send_of_not_isBlocked (h : isBlocked q.server q.blocked = false) (σ : Services) :
    q.send σ =
      (q.verdict (outcomes σ q.server (max 1 q.retryCount)),
        q.left σ (outcomes σ q.server (max 1 q.retryCount))) := by
  rw [send, h, Nat.max_comm]
  exact attempt_eq (max 1 q.retryCount) σ

/-- What sending a query may do: it is exchanged, if its server may be asked, and there are pauses. -/
def Admits (q : Query) (e : Event) : Prop :=
  (e = q.exchange ∧ isBlocked q.server q.blocked = false) ∨ e = .sleep rateLimitPause

theorem notes_send (q : Query) : Exchange.Notes q.Admits q.send := by
  intro σ
  cases h : isBlocked q.server q.blocked with
  | true =>
      rw [send_of_isBlocked h]
      exact ⟨[], (List.append_nil _).symm, by simp⟩
  | false =>
      rw [send_of_not_isBlocked h]
      refine ⟨_, rfl, ?_⟩
      intro e he
      exact (Retry.eq_or_eq_of_mem_trace he).imp_left fun heq => ⟨heq, h⟩

theorem exchange_mem_noted_send (h : isBlocked q.server q.blocked = false) (σ : Services) :
    q.exchange ∈ q.send.noted σ := by
  have hnoted : q.send.noted σ = q.trace (outcomes σ q.server (max 1 q.retryCount)) :=
    Exchange.noted_of_append (by rw [send_of_not_isBlocked h]; rfl)
  have hlength := length_outcomes σ q.server (max 1 q.retryCount)
  rw [← List.count_pos_iff, hnoted, count_trace, exchanges, hlength]
  omega

/-- A query to a server that must not be asked fails at once. Any other query is sent until an answer
ends it, but no more often than it may be; what is done and what comes of it is decided by the
answers up to that one, and there is a pause after each answer that says that queries come too fast,
unless it is the last one that is allowed. -/
theorem send_retries (q : Query) (σ : Services) :
    let n := max 1 q.retryCount
    let all := outcomes σ q.server n
    let sent := min n (all.findIdx Outcome.isTerminal + 1)
    let paused := ((all.take (n - 1)).take sent).countP Outcome.isLimited
    (q.server ∈ blockedServers ∨ q.server ∈ q.blocked →
      q.send σ = (.error (.blacklisted q.server), σ)) ∧
    (q.server ∉ blockedServers → q.server ∉ q.blocked →
      (q.send σ).1 = q.verdict all ∧
      q.send.noted σ = q.trace all ∧
      (q.send.noted σ).count q.exchange = sent ∧
      (q.send.noted σ).filterMap wait? = List.replicate paused 1000 ∧
      (q.send σ).2.elapsed = σ.elapsed + paused * 1000 ∧
      (q.send σ).2.whois = σ.whois.after q.server sent ∧
      ∀ k bytes, (∀ o ∈ all.take k, o.isTerminal = false) → all[k]? = some (some bytes) →
        mentions bytes rateLimitMark = false → reportsError bytes = false →
          (q.send σ).1 = .ok (Text.asciiOnly bytes) ∧
          (q.send.noted σ).count q.exchange = k + 1) := by
  intro n all sent paused
  have hlength : all.length = n := length_outcomes σ q.server n
  have hblocked : isBlocked q.server q.blocked = true ↔
      q.server ∈ blockedServers ∨ q.server ∈ q.blocked := by
    rw [isBlocked, Bool.or_eq_true, List.contains_iff_mem, List.contains_iff_mem]
  have hsent : exchanges all = sent := by rw [exchanges, hlength]
  have hpaused : pauses all = paused := by
    rw [pauses, hsent, List.dropLast_eq_take, hlength]
  refine ⟨?_, ?_⟩
  · intro h
    rw [send, if_pos (hblocked.2 h)]
    rfl
  · intro hserver hextra
    have hsend : q.send σ = (q.verdict all, q.left σ all) := by
      rw [send, if_neg fun h => (hblocked.1 h).elim hserver hextra, Nat.max_comm]
      exact attempt_eq n σ
    have hnoted : q.send.noted σ = q.trace all :=
      Exchange.noted_of_append (by rw [hsend]; rfl)
    have hcount : (q.send.noted σ).count q.exchange = sent := by rw [hnoted, count_trace, hsent]
    refine ⟨by rw [hsend], hnoted, hcount, ?_, ?_, ?_, ?_⟩
    · rw [hnoted, waits_trace, hpaused]
      rfl
    · rw [hsend, ← hpaused]
      rfl
    · rw [hsend, ← hsent]
      rfl
    · intro k bytes hearlier hbytes hmark herror
      obtain ⟨hindex, hverdict⟩ := verdict_of_getElem? (q := q) hearlier hbytes hmark
      have hk : k < n := by
        rw [← hlength]
        exact (List.getElem?_eq_some_iff.1 hbytes).1
      refine ⟨?_, ?_⟩
      · rw [hsend, hverdict, herror]
        rfl
      · rw [hcount]
        show min n (all.findIdx Outcome.isTerminal + 1) = k + 1
        rw [hindex]
        exact Nat.min_eq_right hk

/-- A server that refuses a connection, then says that queries come too fast, then answers. -/
def hesitant : Services where
  whois := { queued := [("a", none),
    ("a", some ("Query rate limit exceeded".toList.map fun c => UInt8.ofNat c.toNat)),
    ("a", some [0x6F, 0xFF, 0x6B])] }

theorem send_retries_hesitant :
    let q : Query := ⟨"a", 43, "x", 3, .whois, "x", []⟩
    (q.send hesitant).1 = .ok "ok" ∧
      q.send.noted hesitant =
        [.whois "a" 43 "x", .whois "a" 43 "x", .sleep 1000, .whois "a" 43 "x"] ∧
      (q.send hesitant).2.elapsed = 1000 := by
  intro q
  obtain ⟨hverdict, hnoted, -, -, helapsed, -, -⟩ :=
    (send_retries q hesitant).2 (by decide) (by decide)
  exact ⟨hverdict.trans (by decide +kernel), hnoted.trans (by decide +kernel),
    helapsed.trans (by decide +kernel)⟩

end Query

end IpRegistry.Whois
