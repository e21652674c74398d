import IpRegistry.Proofs.Exchange
import IpRegistry.Whois.Query

namespace IpRegistry.Whois.Query

open Exchange (LeavesWeb)

theorem leavesWeb_attempt (q : Query) (tries : Nat) : LeavesWeb (q.attempt tries) := by
  induction tries with
  | zero => exact fun _ => rfl
  | succ tries ih =>
      rw [attempt]
      refine .bind (fun _ => rfl) fun answer => ?_
      cases answer with
      | none => exact ih
      | some bytes =>
          dsimp only
          cases Answer.ofBytes bytes with
          | failed => exact fun _ => rfl
          | text s => exact fun _ => rfl
          | limited =>
              show LeavesWeb (if tries = 0 then _ else _)
              split
              · exact fun _ => rfl
              · exact .bind (fun _ => rfl) fun _ => ih

theorem leavesWeb_send (q : Query) : LeavesWeb q.send := by
  rw [send]
  split
  · exact fun _ => rfl
  · exact leavesWeb_attempt q _

end IpRegistry.Whois.Query
