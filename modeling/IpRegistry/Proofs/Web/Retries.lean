import IpRegistry.Proofs.Retry
import IpRegistry.Web.Fetch

namespace IpRegistry.Web

open Exchange (wait?)

/-- What sending a request once leads to: a reply, or none if the connection fails. -/
abbrev Outcome := Option Reply

/-- What the next `count` requests for a URL lead to. -/
def outcomes (σ : Services) (url : String) (count : Nat) : List Outcome :=
  (σ.web.upcoming url count).map fun answer => answer.getD (some Exchange.notFound)

/-- What an outcome means to a fetch: it is the end, it says that requests come too fast, or it is
another failure, perhaps with a status. -/
inductive Meaning (α : Type) where
  | settled (result : Except LookupError α)
  | limited
  | failed (status : Option Nat)

namespace Meaning

variable {α : Type}

def settled? : Meaning α → Option (Except LookupError α)
  | settled result => some result
  | _ => none

def isLimited : Meaning α → Bool
  | limited => true
  | _ => false

def status? : Meaning α → Option Nat
  | failed status => status
  | _ => none

def isEnd (m : Meaning α) : Bool :=
  m.settled?.isSome

theorem not_isLimited_of_isEnd {m : Meaning α} (h : m.isEnd = true) : m.isLimited = false := by
  cases m with
  | settled result => rfl
  | limited => cases h
  | failed status => cases h

end Meaning

/-- What outcomes mean to the fetch of a document: a body that is no document ends it, and a document
can have a notice that requests come too fast. -/
def Outcome.document (url : String) : Outcome → Meaning Json
  | none => .failed none
  | some reply =>
    if reply.status = 429 then .limited
    else if 200 ≤ reply.status ∧ reply.status < 300 then
      match Json.parse? (String.ofList (Text.decodeUtf8 reply.body)) with
      | none => .settled (.error (.httpFailed url none))
      | some document => if hasRateLimitNotice document then .limited else .settled (.ok document)
    else .failed (some reply.status)

/-- What outcomes mean to the fetch of a text: any successful reply ends it. -/
def Outcome.text : Outcome → Meaning String
  | none => .failed none
  | some reply =>
    if reply.status = 429 then .limited
    else if 200 ≤ reply.status ∧ reply.status < 300 then
      .settled (.ok (Text.asciiOnly reply.body))
    else .failed (some reply.status)

section Fetch

variable {α : Type}

/-- What outcomes mean to a fetch that reads bodies in some way. -/
def meaning (url : String) (accept : List UInt8 → Body α) : Outcome → Meaning α
  | none => .failed none
  | some reply =>
    if reply.status = 429 then .limited
    else if reply.isSuccess then
      match accept reply.body with
      | .ready a => .settled (.ok a)
      | .limited => .limited
      | .invalid => .settled (.error (.httpFailed url none))
    else .failed (some reply.status)

theorem isSuccess_iff (reply : Reply) :
    reply.isSuccess = true ↔ 200 ≤ reply.status ∧ reply.status < 300 := by
  simp only [Reply.isSuccess, Bool.and_eq_true, decide_eq_true_eq]

theorem meaning_acceptJson (url : String) : meaning url acceptJson = Outcome.document url := by
  funext o
  cases o with
  | none => rfl
  | some reply =>
      simp only [meaning, Outcome.document, isSuccess_iff, acceptJson]
      cases Json.parse? (String.ofList (Text.decodeUtf8 reply.body)) with
      | none => rfl
      | some document => cases h : hasRateLimitNotice document <;> simp [h]

theorem meaning_acceptText (url : String) : meaning url acceptText = Outcome.text := by
  funext o
  cases o with
  | none => rfl
  | some reply => simp only [meaning, Outcome.text, isSuccess_iff, acceptText]

/-- What comes of outcomes by their meanings; `status` is the last status before them that was no
success. -/
def verdict (url : String) (status : Option Nat) (all : List (Meaning α)) :
    Except LookupError α :=
  match all.findSome? Meaning.settled? with
  | some result => result
  | none =>
    if all.getLast?.any Meaning.isLimited then .error (.httpRateLimited url)
    else .error (.httpFailed url ((all.reverse.findSome? Meaning.status?).or status))

variable {url : String} {status : Option Nat} {m : Meaning α} {rest : List (Meaning α)}

theorem verdict_of_settled (result : Except LookupError α) :
    verdict url status (.settled result :: rest) = result :=
  rfl

theorem verdict_of_limited :
    verdict url status (.limited :: rest) =
      if rest = [] then .error (.httpRateLimited url) else verdict url status rest := by
  cases rest with
  | nil => rfl
  | cons next rest =>
      rw [if_neg (List.cons_ne_nil _ _), verdict, verdict, List.getLast?_cons_cons,
        List.reverse_cons, List.findSome?_append]
      simp only [List.findSome?_cons, Meaning.settled?, Meaning.status?, List.findSome?_nil,
        Option.or_none]

theorem verdict_of_failed (other : Option Nat) :
    verdict url status (.failed other :: rest) = verdict url (other.or status) rest := by
  have hstatus : (((Meaning.failed other :: rest : List (Meaning α)).reverse.findSome?
      Meaning.status?).or status) =
        (rest.reverse.findSome? Meaning.status?).or (other.or status) := by
    rw [List.reverse_cons, List.findSome?_append, List.findSome?_singleton, Option.or_assoc]
    rfl
  rw [verdict, hstatus, verdict]
  cases rest with
  | nil => rfl
  | cons next rest =>
      rw [List.getLast?_cons_cons]
      rfl

/-- The services when the request has been sent once. -/
def asked (request : Request) (σ : Services) : Services :=
  { σ.note (.web request) with web := (σ.web.take request.url).2 }

/-- What the next `count` outcomes of a request mean. -/
def meanings (request : Request) (accept : List UInt8 → Body α) (σ : Services) (count : Nat) :
    List (Meaning α) :=
  (outcomes σ request.url count).map (meaning request.url accept)

variable {request : Request} {pause : Nat} {accept : List UInt8 → Body α}

theorem meanings_succ (σ : Services) (count : Nat) :
    meanings request accept σ (count + 1) =
      meaning request.url accept ((σ.web.take request.url).1.getD (some Exchange.notFound)) ::
        meanings request accept (asked request σ) count := by
  rw [meanings, outcomes, Script.upcoming_succ]
  rfl

theorem length_meanings (σ : Services) (count : Nat) :
    (meanings request accept σ count).length = count := by
  rw [meanings, List.length_map, outcomes, List.length_map, Script.length_upcoming]

theorem attempt_succ (tries : Nat) (status : Option Nat) (σ : Services) :
    attempt request pause accept (tries + 1) status σ =
      match meaning request.url accept
          ((σ.web.take request.url).1.getD (some Exchange.notFound)) with
      | .settled result => (result, asked request σ)
      | .limited =>
        if tries = 0 then (.error (.httpRateLimited request.url), asked request σ)
        else
          attempt request pause accept tries status
            (((asked request σ).note (.sleep pause)).advance pause)
      | .failed other =>
        attempt request pause accept tries (other.or status) (asked request σ) := by
  have hask : Exchange.askWeb request σ =
      (.ok ((σ.web.take request.url).1.getD (some Exchange.notFound)), asked request σ) := rfl
  rw [attempt, Exchange.bind_of_ok hask]
  cases (σ.web.take request.url).1.getD (some Exchange.notFound) with
  | none => rfl
  | some reply =>
      simp only [meaning]
      by_cases hmany : reply.status = 429
      · rw [if_pos hmany, if_pos hmany]
        cases tries <;> rfl
      · rw [if_neg hmany, if_neg hmany]
        cases reply.isSuccess with
        | false => rfl
        | true =>
            cases accept reply.body with
            | ready a => rfl
            | limited => cases tries <;> rfl
            | invalid => rfl

/-- The services when a fetch has come to its end after outcomes of these meanings. -/
def left (request : Request) (pause : Nat) (σ : Services) (all : List (Meaning α)) : Services :=
  { σ with
    web := σ.web.after request.url (Retry.tries Meaning.isEnd all)
    elapsed := σ.elapsed + Retry.pauses Meaning.isEnd Meaning.isLimited all * pause
    events := σ.events ++
      Retry.trace Meaning.isEnd Meaning.isLimited (.web request) pause all }

theorem left_nil (σ : Services) : left request pause σ ([] : List (Meaning α)) = σ := by
  show { σ with elapsed := σ.elapsed + 0 * pause, events := σ.events ++ [] } = σ
  rw [Nat.zero_mul, List.append_nil]
  rfl

theorem left_of_isEnd (σ : Services) (h : m.isEnd = true) :
    left request pause σ (m :: rest) = asked request σ := by
  have hlimited := Meaning.not_isLimited_of_isEnd h
  rw [left, Retry.tries_of_ends h, Retry.pauses_of_ends h hlimited,
    Retry.trace_of_ends h hlimited, Nat.zero_mul]
  rfl

theorem left_of_not_isEnd (σ : Services) (h : m.isEnd = false) :
    left request pause σ (m :: rest) =
      left request pause
        (if m.isLimited && 0 < rest.length then
          ((asked request σ).note (.sleep pause)).advance pause
        else asked request σ) rest := by
  rw [left, Retry.tries_of_not_ends h, Retry.pauses_of_not_ends h, Retry.trace_of_not_ends h,
    Retry.steps, Nat.add_mul, ← Nat.add_assoc, ← List.append_assoc]
  cases m.isLimited && decide (0 < rest.length) with
  | true =>
      rw [if_pos rfl, if_pos rfl, if_pos rfl, Nat.one_mul]
      simp [left, asked, Services.note, Services.advance, Script.after]
  | false => simp [left, asked, Services.note, Script.after]

/-- The outcomes of the attempts decide what comes of them and what is left of the services. -/
theorem attempt_eq (tries : Nat) (status : Option Nat) (σ : Services) :
    attempt request pause accept tries status σ =
      (verdict request.url status (meanings request accept σ tries),
        left request pause σ (meanings request accept σ tries)) := by
  induction tries generalizing σ status with
  | zero => exact Prod.ext rfl (left_nil σ).symm
  | succ tries ih =>
      rw [meanings_succ, attempt_succ]
      cases meaning request.url accept
          ((σ.web.take request.url).1.getD (some Exchange.notFound)) with
      | settled result => rw [verdict_of_settled, left_of_isEnd σ rfl]
      | limited =>
          rw [verdict_of_limited, left_of_not_isEnd σ rfl, length_meanings]
          cases tries with
          | zero => exact Prod.ext rfl (left_nil _).symm
          | succ tries =>
              have hne : meanings request accept (asked request σ) (tries + 1) ≠ [] :=
                List.ne_nil_of_length_eq_add_one (length_meanings _ _)
              rw [if_neg hne]
              exact ih status _
      | failed other =>
          rw [verdict_of_failed, left_of_not_isEnd σ rfl]
          exact ih (other.or status) _

/-- What a fetch does and what comes of it, if all outcomes that it may meet have these meanings. -/
structure Retries (x : Exchange α) (request : Request) (pause : Nat) (all : List (Meaning α))
    (σ : Services) : Prop where
  /-- The first outcome that is an end is the last one that is asked for. -/
  settled : ∀ k result, (∀ m ∈ all.take k, m.isEnd = false) → all[k]? = some (.settled result) →
    (x σ).1 = result ∧ (x.noted σ).count (.web request) = k + 1
  /-- Without an end the last outcome decides, and then the last status among all of them. -/
  unsettled : (∀ m ∈ all, m.isEnd = false) →
    (x.noted σ).count (.web request) = all.length ∧
    (all.getLast? = some .limited → (x σ).1 = .error (.httpRateLimited request.url)) ∧
    (all.getLast? ≠ some .limited →
      (x σ).1 = .error (.httpFailed request.url (all.reverse.findSome? Meaning.status?)))
  count_le : (x.noted σ).count (.web request) ≤ all.length
  /-- There is a pause behind each outcome that asks for one, except the last one that is allowed. -/
  noted : x.noted σ = ((all.take ((x.noted σ).count (.web request))).mapIdx fun i m =>
    .web request :: if m.isLimited && i + 1 < all.length then [.sleep pause] else []).flatten
  waits : (x.noted σ).filterMap wait? = List.replicate
    ((all.dropLast.take ((x.noted σ).count (.web request))).countP Meaning.isLimited) pause
  elapsed : (x σ).2.elapsed = σ.elapsed + ((x.noted σ).filterMap wait?).sum
  web : (x σ).2.web = σ.web.after request.url ((x.noted σ).count (.web request))

theorem verdict_of_getElem? {all : List (Meaning α)} {k : Nat} {result : Except LookupError α}
    (hearlier : ∀ m ∈ all.take k, m.isEnd = false) (hk : all[k]? = some (.settled result)) :
    verdict url status all = result := by
  have hfind : all.findSome? Meaning.settled? = some result := by
    obtain ⟨hlt, hget⟩ := List.getElem?_eq_some_iff.1 hk
    rw [← List.take_append_drop k all, List.findSome?_append, List.drop_eq_getElem_cons hlt, hget,
      List.findSome?_eq_none_iff.2, Option.none_or]
    · rfl
    · intro m hm
      exact Option.isSome_eq_false_iff.1 (hearlier m hm) |> Option.isNone_iff_eq_none.1
  rw [verdict, hfind]

theorem verdict_of_forall {all : List (Meaning α)} (h : ∀ m ∈ all, m.isEnd = false) :
    verdict url status all =
      if all.getLast?.any Meaning.isLimited then .error (.httpRateLimited url)
      else .error (.httpFailed url ((all.reverse.findSome? Meaning.status?).or status)) := by
  rw [verdict, List.findSome?_eq_none_iff.2]
  intro m hm
  exact Option.isSome_eq_false_iff.1 (h m hm) |> Option.isNone_iff_eq_none.1

theorem retries_fetch (request : Request) (patience : Patience) (accept : List UInt8 → Body α)
    (σ : Services) :
    Retries (fetch request patience accept) request patience.pause
      (meanings request accept σ (max 1 patience.retryCount)) σ := by
  generalize hall : meanings request accept σ (max 1 patience.retryCount) = all
  have hfetch : fetch request patience accept σ =
      (verdict request.url none all, left request patience.pause σ all) := by
    rw [fetch, Nat.max_comm, attempt_eq, hall]
  have hnoted : (fetch request patience accept).noted σ =
      Retry.trace Meaning.isEnd Meaning.isLimited (.web request) patience.pause all :=
    Exchange.noted_of_append (by rw [hfetch]; rfl)
  have hcount : ((fetch request patience accept).noted σ).count (.web request) =
      Retry.tries Meaning.isEnd all := by
    rw [hnoted, Retry.count_trace (fun _ => Meaning.not_isLimited_of_isEnd) rfl]
  have hwaits : ((fetch request patience accept).noted σ).filterMap wait? =
      List.replicate (Retry.pauses Meaning.isEnd Meaning.isLimited all) patience.pause := by
    rw [hnoted, Retry.waits_trace (fun _ => Meaning.not_isLimited_of_isEnd) rfl]
  constructor
  · intro k result hearlier hk
    constructor
    · rw [hfetch]
      exact verdict_of_getElem? hearlier hk
    · rw [hcount]
      exact Retry.tries_of_getElem? hearlier (by rw [hk]; rfl)
  · intro hnone
    refine ⟨by rw [hcount, Retry.tries_of_forall hnone], ?_, ?_⟩
    · intro hlast
      rw [hfetch, verdict_of_forall hnone, hlast]
      rfl
    · intro hlast
      have hany : all.getLast?.any Meaning.isLimited = false := by
        cases h : all.getLast? with
        | none => rfl
        | some m =>
            cases m with
            | limited => exact absurd h hlast
            | settled result => rfl
            | failed status => rfl
      rw [hfetch, verdict_of_forall hnone, hany, Option.or_none]
      rfl
  · rw [hcount]
    exact Nat.min_le_left _ _
  · rw [hcount]
    exact hnoted
  · rw [hwaits, hcount]
    rfl
  · rw [hwaits, List.sum_replicate_nat, hfetch]
    rfl
  · rw [hcount, hfetch]
    rfl

theorem hasRateLimitNotice_iff (document : Json) :
    hasRateLimitNotice document = true ↔
      ∃ notices notice, document.get? "notices" = some (.array notices) ∧ notice ∈ notices ∧
        notice.get? "title" = some (.text "Rate Limit Notice") := by
  have htitle (notice : Json) : ((notice.get? "title").bind Json.asText? ==
      some "Rate Limit Notice") = true ↔
        notice.get? "title" = some (.text "Rate Limit Notice") := by
    rw [beq_iff_eq]
    cases notice.get? "title" with
    | none => simp
    | some title => cases title <;> simp [Json.asText?]
  rw [hasRateLimitNotice, List.any_eq_true]
  constructor
  · rintro ⟨notice, hmem, hnotice⟩
    cases hnotices : document.get? "notices" with
    | none => simp [hnotices] at hmem
    | some value =>
        rw [hnotices] at hmem
        cases value with
        | array notices => exact ⟨notices, notice, rfl, hmem, (htitle notice).1 hnotice⟩
        | _ => simp [Json.asArray?] at hmem
  · rintro ⟨notices, notice, hnotices, hmem, hnotice⟩
    refine ⟨notice, ?_, (htitle notice).2 hnotice⟩
    rw [hnotices]
    exact hmem

end Fetch

/-- A request is sent until an outcome is the end of it, but no more often than it may be. The first
end is what comes of it; without one the last outcome decides. There is a pause for each outcome that
says that requests come too fast, unless it is the last one that is allowed. -/
theorem fetch_retries (request : Request) (url : String) (headers : List (String × String))
    (patience : Patience) (σ : Services) :
    let n := max 1 patience.retryCount
    (∀ url, (outcomes σ url n).length = n) ∧
    Retries (fetchJson url headers patience) { url, headers } patience.pause
      ((outcomes σ url n).map (Outcome.document url)) σ ∧
    Retries (fetchText request patience) request patience.pause
      ((outcomes σ request.url n).map Outcome.text) σ ∧
    ∀ document, hasRateLimitNotice document = true ↔
      ∃ notices notice, document.get? "notices" = some (.array notices) ∧ notice ∈ notices ∧
        notice.get? "title" = some (.text "Rate Limit Notice") := by
  intro n
  refine ⟨fun url => ?_, ?_, ?_, hasRateLimitNotice_iff⟩
  · rw [outcomes, List.length_map, Script.length_upcoming]
  · rw [← meaning_acceptJson]
    exact retries_fetch { url, headers } patience acceptJson σ
  · rw [← meaning_acceptText request.url]
    exact retries_fetch request patience acceptText σ

/-- A server that fails to reply, then says that requests come too fast, then fails, then answers. -/
def hesitant : Services where
  web := { queued := [("u", none), ("u", some ⟨429, []⟩), ("u", some ⟨503, []⟩)],
           standing := [("u", some ⟨200, [0x6F, 0xFF, 0x6B]⟩)] }

theorem fetch_retries_hesitant :
    let request : Request := { url := "u" }
    let x := fetchText request ⟨4, 7⟩
    (x hesitant).1 = .ok "ok" ∧
      x.noted hesitant = [.web request, .web request, .sleep 7, .web request, .web request] ∧
      (x hesitant).2.elapsed = 7 := by
  intro request x
  obtain ⟨-, -, hretries, -⟩ := fetch_retries request "u" [] ⟨4, 7⟩ hesitant
  obtain ⟨hresult, hcount⟩ := hretries.settled 3 (.ok "ok") (by decide +kernel) rfl
  have hnoted := hretries.noted
  have helapsed := hretries.elapsed
  rw [hcount] at hnoted
  rw [hnoted] at helapsed
  exact ⟨hresult, hnoted.trans (by decide +kernel), helapsed.trans (by decide +kernel)⟩

end IpRegistry.Web
