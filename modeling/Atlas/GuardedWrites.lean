/-
**Guarded writes of a session that has read the row.**

A session that loads the row of its job without a lock and later locks it still has the instance of
the first read.  The guard and the change of its write look at the attributes of that instance; the
`UPDATE` writes the columns that were changed, over whatever is committed by then.

Two transactions write this way: the one that pauses a job for review reads its counters first, and
the one that begins an evaluation reads its claim.

Main definitions:

* `Atlas.GuardedWrite` — the two guarded writes;
* `Atlas.GuardedWrite.session` — a guarded write through the session's identity map.

Main results:

* `Atlas.GuardedWrite.session_fresh` — on a fresh row the write is the repository's;
* `Atlas.GuardedWrite.increment_eq_ok` — **counting an attempt writes one column**, that of the
  instance and one more, under the claim of the instance.
-/

import Atlas.ClaimFencing
import Atlas.IdentityMap

set_option relaxedAutoImplicit false
set_option autoImplicit false

namespace Atlas

open Checked

/-! ### Writing through the identity map -/

instance : IdentityMap.Columns ResearchJobRow where
  merge l r c :=
    { id := IdentityMap.column l.id r.id c.id
      question := IdentityMap.column l.question r.question c.question
      status := IdentityMap.column l.status r.status c.status
      createdAt := IdentityMap.column l.createdAt r.createdAt c.createdAt
      updatedAt := IdentityMap.column l.updatedAt r.updatedAt c.updatedAt
      startedAt := IdentityMap.column l.startedAt r.startedAt c.startedAt
      finishedAt := IdentityMap.column l.finishedAt r.finishedAt c.finishedAt
      result := IdentityMap.column l.result r.result c.result
      failureReason := IdentityMap.column l.failureReason r.failureReason c.failureReason
      idempotencyKey := IdentityMap.column l.idempotencyKey r.idempotencyKey c.idempotencyKey
      requestFingerprint :=
        IdentityMap.column l.requestFingerprint r.requestFingerprint c.requestFingerprint
      leaseExpiresAt := IdentityMap.column l.leaseExpiresAt r.leaseExpiresAt c.leaseExpiresAt
      claimToken := IdentityMap.column l.claimToken r.claimToken c.claimToken
      repairCount := IdentityMap.column l.repairCount r.repairCount c.repairCount
      jobRetryCount := IdentityMap.column l.jobRetryCount r.jobRetryCount c.jobRetryCount
      evaluationAttemptCount := IdentityMap.column l.evaluationAttemptCount
        r.evaluationAttemptCount c.evaluationAttemptCount
      nextAttemptAt := IdentityMap.column l.nextAttemptAt r.nextAttemptAt c.nextAttemptAt
      continuationMode :=
        IdentityMap.column l.continuationMode r.continuationMode c.continuationMode
      claimedContinuationMode := IdentityMap.column l.claimedContinuationMode
        r.claimedContinuationMode c.claimedContinuationMode
      activeWorkflowExecutionId := IdentityMap.column l.activeWorkflowExecutionId
        r.activeWorkflowExecutionId c.activeWorkflowExecutionId
      traceparent := IdentityMap.column l.traceparent r.traceparent c.traceparent
      initialTraceparentConsumedAt := IdentityMap.column l.initialTraceparentConsumedAt
        r.initialTraceparentConsumedAt c.initialTraceparentConsumedAt
      evaluationProfile :=
        IdentityMap.column l.evaluationProfile r.evaluationProfile c.evaluationProfile }
  merge_self l c := by simp only [IdentityMap.column_self]
  merge_fresh l r := by simp only [IdentityMap.column_fresh]

/-- The guarded writes that follow an unlocked read. -/
inductive GuardedWrite where
  /-- `_handle_post_invoke`, after `get_attempt_counts`. -/
  | transitionAwaitingReview
  /-- `begin_or_resume`, after the row of the job was loaded. -/
  | incrementEvaluationAttemptCount
  deriving DecidableEq, Repr

namespace GuardedWrite

/-- The operation of the repository. -/
def call : GuardedWrite → FencedCall
  | transitionAwaitingReview => .transitionAwaitingReview
  | incrementEvaluationAttemptCount => .incrementEvaluationAttemptCount

/-- What the operation makes of the instance, before the flush. -/
def change (write : GuardedWrite) (time : Instant) (row : ResearchJobRow) :
    Except PersistenceError (Option ResearchJobRow) :=
  match write with
  | transitionAwaitingReview => do
      let row ← transition (·.awaitReview (.aware time)) row
      return some { row with
        claimToken := none, leaseExpiresAt := none, claimedContinuationMode := .none }
  | incrementEvaluationAttemptCount =>
      if row.evaluationAttemptCount ≥ 4 then .ok none
      else .ok (some { row with evaluationAttemptCount := row.evaluationAttemptCount + 1 })

/-- The guarded write of a session that may have loaded the row before. -/
def session (write : GuardedWrite) (loaded : Option ResearchJobRow) (committed : ResearchJobRow)
    (token : String) (time : Instant) : Except PersistenceError (Option ResearchJobRow) :=
  IdentityMap.write (ownsRunningClaim · token time) (write.change time) ResearchJobRow.flush loaded
    committed

/-- On a fresh row the write is the repository's. -/
theorem session_fresh (write : GuardedWrite) (row : ResearchJobRow) (token : String)
    (time : Instant) :
    write.session none row token time = write.call.run (some row) token time := by
  rw [session, IdentityMap.write_none]
  by_cases howns : ownsRunningClaim row token time = true
  · rw [if_pos howns]
    cases write with
    | transitionAwaitingReview =>
        simp only [change, call, FencedCall.run, Atlas.transitionAwaitingReview, underClaim, howns,
          if_true]
        cases transition (·.awaitReview (.aware time)) row <;> rfl
    | incrementEvaluationAttemptCount =>
        simp only [change, call, FencedCall.run, Atlas.incrementEvaluationAttemptCount, underClaim,
          howns, if_true]
        by_cases hcap : row.evaluationAttemptCount ≥ 4
        · rw [if_pos hcap, if_pos hcap]
        · rw [if_neg hcap, if_neg hcap]
          rfl
  · rw [if_neg howns]
    rw [Bool.not_eq_true] at howns
    cases write <;>
      simp [call, FencedCall.run, Atlas.transitionAwaitingReview,
        Atlas.incrementEvaluationAttemptCount, underClaim, howns]

/-- Counting an attempt looks at the claim and the count of the instance, and writes one column of
the committed row. -/
theorem increment_eq_ok {loaded committed row' : ResearchJobRow} {token : String} {time : Instant}
    (h : incrementEvaluationAttemptCount.session (some loaded) committed token time
      = .ok (some row')) :
    ownsRunningClaim loaded token time = true ∧ loaded.evaluationAttemptCount < 4 ∧
      CheckConstraint.AllHold researchJobChecks row' ∧
      row' = { committed with evaluationAttemptCount := loaded.evaluationAttemptCount + 1 } := by
  have howns := IdentityMap.guard_of_write h
  obtain ⟨changed, hchange, hflush⟩ := IdentityMap.flush_of_write h
  obtain ⟨hchecks, hrow⟩ := flush_eq_ok.1 hflush
  rw [IdentityMap.view_some] at howns hchange hrow
  simp only [change] at hchange
  by_cases hcap : loaded.evaluationAttemptCount ≥ 4
  · rw [if_pos hcap] at hchange
    cases hchange
  · rw [if_neg hcap, Except.ok.injEq, Option.some.injEq] at hchange
    subst hchange
    refine ⟨howns, Nat.lt_of_not_le hcap, ?_, ?_⟩
    · exact hrow ▸ hchecks
    · rw [← hrow]
      have hcount : IdentityMap.column loaded.evaluationAttemptCount
          (loaded.evaluationAttemptCount + 1) committed.evaluationAttemptCount
            = loaded.evaluationAttemptCount + 1 :=
        IdentityMap.column_of_ne _ _ _ (Nat.succ_ne_self _)
      simp only [IdentityMap.Columns.merge, IdentityMap.column_self, hcount]

end GuardedWrite

end Atlas
