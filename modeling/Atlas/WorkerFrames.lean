/-
**What the transactions of a worker leave alone.**

Most of what a worker commits touches neither the outbox nor the executions: the transactions of a
graph run, and the recording of decisions.  A frame is put together from the frames of the steps, as
the transaction is from the steps.

Main definitions:

* `Atlas.World.outboxAndExecutions` — the two tables.

Main results:

* `Atlas.GraphCommit.leaves` — **what a graph run commits leaves both**;
* `Atlas.leaves_createAndBind`, `Atlas.leaves_onExecutions` — what writes executions writes no event.
-/

import Atlas.WorkerActs

set_option relaxedAutoImplicit false
set_option autoImplicit false

namespace Atlas

open Tx

/-- The events and the executions. -/
def World.outboxAndExecutions (w : World) : Outbox × Executions := (w.outbox, w.executions)

/-! ### Steps of transactions -/

theorem leaves_require {β : Type} (view : World → β) (condition : Prop) [Decidable condition]
    (x : Exc) : Leaves view (require condition x) := .lift _

theorem leaves_onJob (jobId : String)
    (op : Option ResearchJobRow → Except PersistenceError (Option ResearchJobRow)) :
    Leaves World.outboxAndExecutions (onJob jobId op) := by
  refine .bind (.compute _) fun written => ?_
  cases written with
  | none => exact .pure false
  | some row => exact .bind (.modify fun _ => rfl) fun _ => .pure true

theorem leaves_recordPolicyDecision (row : PolicyDecisionRow) :
    Leaves World.outboxAndExecutions (recordPolicyDecision row) :=
  .bind (.read id) fun _ => .bind (.lift _) fun _ => .bind (.modify fun _ => rfl) fun _ => .pure _

theorem leaves_recordAbandoned (jobId attemptId decisionId : String) (abandon : Option String)
    (attemptNumber : ℕ) (next now : Instant) : Leaves World.outboxAndExecutions
      (recordAbandoned jobId attemptId decisionId abandon attemptNumber next now) := by
  cases abandon with
  | none => exact .pure ()
  | some abandoned => exact .bind (.compute _) fun _ => .modify fun _ => rfl

theorem leaves_recordEvaluationDecision (ctx : GraphContext) (evalRunId : String)
    (decision : PolicyDecision) (counts : AttemptCounts) :
    Leaves World.outboxAndExecutions (recordEvaluationDecision ctx evalRunId decision counts) := by
  refine .bind (.reading _) fun now => .bind (.reading _) fun proposedId => ?_
  refine .bind (leaves_recordPolicyDecision _) fun recorded => ?_
  refine .ite (fun _ => ?_) fun _ => .pure ()
  exact .bind (leaves_onJob _ _) fun _ => leaves_require _ _ _

/-! ### Commits -/

section Commits

variable {settings : Settings} {jobId token : String} {e : Env} {w w' : World}

/-- **What a graph run commits leaves the events and the executions.** -/
theorem GraphCommit.leaves (h : GraphCommit settings jobId token e w w') :
    w'.outbox = w.outbox ∧ w'.executions = w.executions := by
  have hpair : w'.outboxAndExecutions = w.outboxAndExecutions := by
    cases h with
    | aside h => rw [World.outboxAndExecutions, h.outbox, h.executions, World.outboxAndExecutions]
    | lockRun request loaded found h =>
        obtain ⟨runs, rfl⟩ := EvaluationService.lockRun_onlyRuns h
        rfl
    | beginRun request loaded answer h =>
        obtain ⟨-, row, row', runs, -, rfl⟩ := EvaluationService.beginRun_recounts h
        rfl
    | finalizeSuccess runId ownershipToken passed dimensions result h =>
        obtain ⟨runs, rfl⟩ := EvaluationService.finalizeSuccess_onlyRuns h
        rfl
    | finalizeFailure runId ownershipToken h =>
        obtain ⟨runs, rfl⟩ := EvaluationService.finalizeFailure_onlyRuns h
        rfl
    | recordEvaluationDecision ctx evalRunId passed dimensions counts hjob htoken h =>
        exact leaves_recordEvaluationDecision _ _ _ _ _ _ _ _ h
  exact Prod.ext_iff.1 hpair

/-- Binding a job writes executions, and no event. -/
theorem leaves_createAndBind (jobId token : String) :
    Leaves World.outbox (createAndBind jobId token) := by
  refine .bind (.reading _) fun now => .bind (.reading _) fun executionId => ?_
  refine .bind (.compute _) fun executions => .bind (.modify fun _ => rfl) fun _ => ?_
  refine .bind ?_ fun _ => .bind (leaves_require _ _ _) fun _ => .pure _
  exact fun e s a s' h => congrArg Prod.fst (leaves_onJob _ _ e s a s' h)

theorem leaves_onExecutions (op : World → Except PersistenceError (Bool × Executions)) :
    Leaves World.outbox (onExecutions op) :=
  .bind (.compute _) fun _ => .bind (.modify fun _ => rfl) fun _ => .pure _

end Commits

end Atlas
