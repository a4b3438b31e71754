/-
**Evaluation runs, policy decisions, recovery attempts and review decisions.**

The rows of `evaluation_runs` and of the three recovery tables, and the operations of
`evaluation/repository.py` and `persistence/repositories/recovery.py` on them.  An evaluation run
is written under an ownership token; a policy decision is inserted under the fingerprint of its
inputs, and inserting the same one again returns the id that is stored already.

Main definitions:

* `Atlas.EvaluationRunRow`, `Atlas.EvaluationRuns` — evaluation runs with their dimensions;
* `Atlas.createRun`, `Atlas.EvaluationRunRow.reclaim`, `Atlas.finalizeRun` — their writes;
* `Atlas.PolicyDecisionRow`, `Atlas.insertPolicyDecision` — decisions, idempotent by fingerprint;
* `Atlas.RecoveryAttemptRow`, `Atlas.ReviewDecisionRow`, `Atlas.latestApproveForExecution` —
  retries and reviews.

Main results:

* `Atlas.insertPolicyDecision_eq_ok` — **a decision is inserted, or its equal is found**.
-/

import Atlas.ResearchGraph
import Mathlib.Data.List.Sort

set_option relaxedAutoImplicit false
set_option autoImplicit false

namespace Atlas

open Checked

/-- `IntegrityError` of a constraint. -/
def integrityError (constraint : String) : Exc := .persistence (.integrity constraint)

/-! ### Evaluation runs -/

inductive EvaluationStatus where
  | inProgress
  | succeeded
  | failed
  deriving DecidableEq, Repr

/-- A row of `evaluation_runs` with its rows of `evaluation_dimension_results`. -/
structure EvaluationRunRow where
  id : String
  researchJobId : String
  workflowExecutionId : String
  evaluationProfile : String
  evaluationAttempt : ℕ
  status : EvaluationStatus
  ownershipToken : String
  inputFingerprint : String
  jobClaimFingerprint : String
  passed : Option Bool
  dimensions : List DimensionResult
  deadlineAt : Instant
  startedAt : Instant
  finishedAt : Option Instant
  deriving DecidableEq, Repr

/-- The table `evaluation_runs`, by run id. -/
abbrev EvaluationRuns := Table String EvaluationRunRow

/-- The `CHECK` constraints of `evaluation_runs`. -/
def evaluationRunChecks : List (CheckConstraint EvaluationRunRow) :=
  [{ name := "ck_evaluation_runs_attempt_positive", holds := fun r => 1 ≤ r.evaluationAttempt },
   { name := "ck_evaluation_runs_profile",
     holds := fun r => evaluationProfilesAllowed.contains r.evaluationProfile },
   { name := "ck_evaluation_runs_ownership_token_len",
     holds := fun r => r.ownershipToken.length = 64 },
   { name := "ck_evaluation_runs_fingerprint_len",
     holds := fun r => r.inputFingerprint.length = 64 },
   { name := "ck_evaluation_runs_job_claim_fingerprint_len",
     holds := fun r => r.jobClaimFingerprint.length = 64 },
   { name := "ck_evaluation_runs_status_fields",
     holds := fun r => match r.status with
       | .inProgress => r.finishedAt = none && r.passed = none
       | .succeeded => sqlOrdered (some r.startedAt) r.finishedAt && r.passed.isSome
       | .failed => sqlOrdered (some r.startedAt) r.finishedAt }]

def EvaluationRunRow.flush (row : EvaluationRunRow) : Except Exc EvaluationRunRow :=
  match CheckConstraint.firstViolated evaluationRunChecks row with
  | none => .ok row
  | some check => .error (integrityError check.name)

theorem EvaluationRunRow.flush_eq_ok {row row' : EvaluationRunRow} :
    row.flush = .ok row' ↔ CheckConstraint.AllHold evaluationRunChecks row ∧ row = row' := by
  rw [← CheckConstraint.firstViolated_eq_none, EvaluationRunRow.flush]
  cases CheckConstraint.firstViolated evaluationRunChecks row <;> simp

/-- `get_by_execution_key`: the run of an execution, a profile and an attempt. -/
def runByExecutionKey (runs : EvaluationRuns) (workflowExecutionId evaluationProfile : String)
    (evaluationAttempt : ℕ) : Option EvaluationRunRow :=
  (runs.entries.find? fun entry =>
    entry.2.workflowExecutionId = workflowExecutionId &&
      entry.2.evaluationProfile = evaluationProfile &&
      entry.2.evaluationAttempt = evaluationAttempt).map (·.2)

/-- Insert a run of an evaluation that begins. -/
def createRun (runs : EvaluationRuns) (row : EvaluationRunRow) : Except Exc EvaluationRuns := do
  let row ← row.flush
  ensure (runs.lookup row.id = none) (integrityError "evaluation_runs_pkey")
  ensure ((runByExecutionKey runs row.workflowExecutionId row.evaluationProfile
    row.evaluationAttempt) = none) (integrityError "uq_evaluation_runs_execution_profile_attempt")
  return runs.insert row.id row

/-- Reclaim a stale IN_PROGRESS or FAILED run with a new ownership token. -/
def EvaluationRunRow.reclaim (row : EvaluationRunRow)
    (ownershipToken inputFingerprint jobClaimFingerprint : String) (deadlineAt time : Instant) :
    EvaluationRunRow :=
  { row with
    status := .inProgress, ownershipToken := ownershipToken
    inputFingerprint := inputFingerprint, jobClaimFingerprint := jobClaimFingerprint
    passed := none, dimensions := [], deadlineAt := deadlineAt, startedAt := time
    finishedAt := none }

/-- The fence of the two finalizing updates: the run is in progress under the caller's token. -/
def EvaluationRunRow.ownedBy (row : EvaluationRunRow) (ownershipToken : String) : Bool :=
  row.status = .inProgress && row.ownershipToken = ownershipToken

/-- What a `SELECT` of a run reads of it; the dimensions come in the order of their names. -/
structure EvaluationRunResult where
  runId : String
  researchJobId : String
  workflowExecutionId : String
  evaluationProfile : String
  evaluationAttempt : ℕ
  status : EvaluationStatus
  inputFingerprint : String
  passed : Option Bool
  dimensions : List DimensionResult
  deriving DecidableEq, Repr

/-- The place of a dimension in the order of the names. -/
def DimensionName.order : DimensionName → ℕ
  | citationIntegrity => 0
  | completeness => 1
  | coverage => 2
  | lexicalIdGroundedness => 3
  | reportStructure => 4
  | semanticGroundedness => 5
  | toolUse => 6

/-- `to_result`. -/
def EvaluationRunRow.toResult (row : EvaluationRunRow) : EvaluationRunResult where
  runId := row.id
  researchJobId := row.researchJobId
  workflowExecutionId := row.workflowExecutionId
  evaluationProfile := row.evaluationProfile
  evaluationAttempt := row.evaluationAttempt
  status := row.status
  inputFingerprint := row.inputFingerprint
  passed := row.passed
  dimensions := row.dimensions.insertionSort fun a b => a.name.order ≤ b.name.order

def EvaluationRunResult.answer (result : EvaluationRunResult) : EvaluationAnswer :=
  { runId := result.runId, passed := result.passed, inputFingerprint := result.inputFingerprint }

/-- `list_for_job`: the runs of a job, by the instant they started and by their attempt. -/
def runsOfJob (runs : EvaluationRuns) (jobId : String) : List EvaluationRunResult :=
  (((runs.entries.map (·.2)).filter (·.researchJobId = jobId)).insertionSort fun a b =>
    a.startedAt < b.startedAt ∨
      a.startedAt = b.startedAt ∧ a.evaluationAttempt ≤ b.evaluationAttempt).map (·.toResult)

/-! ### Policy decisions and retries -/

/-- A row of `policy_decisions`. -/
structure PolicyDecisionRow where
  id : String
  researchJobId : String
  workflowExecutionId : Option String
  evaluationRunId : Option String
  decision : PolicyAction
  failureCategory : FailureCategory
  reasonCode : String
  decisionFingerprint : String
  createdAt : Instant
  deriving DecidableEq, Repr

/-- The fields a replay of a decision has to agree on. -/
def PolicyDecisionRow.agrees (existing row : PolicyDecisionRow) : Bool :=
  existing.decision = row.decision && existing.failureCategory = row.failureCategory &&
    existing.reasonCode = row.reasonCode &&
    existing.workflowExecutionId = row.workflowExecutionId &&
    existing.evaluationRunId = row.evaluationRunId

/-- The row that holds the job's place for a fingerprint. -/
def PolicyDecisionRow.sameKey (existing row : PolicyDecisionRow) : Bool :=
  existing.researchJobId = row.researchJobId &&
    existing.decisionFingerprint = row.decisionFingerprint

/-- Insert a policy decision with transaction-safe fingerprint idempotency, and return the
authoritative decision id.  `references` says that the rows the foreign keys name exist. -/
def insertPolicyDecision (decisions : List PolicyDecisionRow) (row : PolicyDecisionRow)
    (references : Bool) : Except Exc (String × List PolicyDecisionRow) := do
  ensure (row.decisionFingerprint.length = 64)
    (integrityError "ck_policy_decisions_fingerprint_len")
  match decisions.find? (·.sameKey row) with
  | some existing => do
      ensure (existing.agrees row)
        (.policyDecisionConflict "Policy decision fingerprint reused with inconsistent fields.")
      return (existing.id, decisions)
  | none => do
      ensure (∀ existing ∈ decisions, existing.id ≠ row.id)
        (integrityError "policy_decisions_pkey")
      ensure references (integrityError "fk_policy_decisions")
      return (row.id, decisions ++ [row])

/-- **A decision is inserted under its own id, or the equal one that is stored is found.** -/
theorem insertPolicyDecision_eq_ok {decisions decisions' : List PolicyDecisionRow}
    {row : PolicyDecisionRow} {references : Bool} {id : String} :
    insertPolicyDecision decisions row references = .ok (id, decisions') ↔
      row.decisionFingerprint.length = 64 ∧
        ((∃ existing, decisions.find? (·.sameKey row) = some existing ∧
            existing.agrees row = true ∧ existing.id = id ∧ decisions = decisions') ∨
          (decisions.find? (·.sameKey row) = none ∧ (∀ existing ∈ decisions, existing.id ≠ row.id) ∧
            references = true ∧ row.id = id ∧ decisions ++ [row] = decisions')) := by
  rw [insertPolicyDecision]
  cases hfind : decisions.find? (·.sameKey row) with
  | some existing =>
      simp only [bind_eq_ok, ensure_eq_ok, pure_eq_ok, Prod.mk.injEq]
      constructor
      · rintro ⟨_, hlength, _, hagrees, rfl, rfl⟩
        exact ⟨hlength, .inl ⟨existing, rfl, hagrees, rfl, rfl⟩⟩
      · rintro ⟨hlength, ⟨_, hsome, hagrees, rfl, rfl⟩ | ⟨hnone, -⟩⟩
        · cases hsome
          exact ⟨(), hlength, (), hagrees, rfl, rfl⟩
        · cases hnone
  | none =>
      simp only [bind_eq_ok, ensure_eq_ok, pure_eq_ok, Prod.mk.injEq]
      constructor
      · rintro ⟨_, hlength, _, hid, _, href, rfl, rfl⟩
        exact ⟨hlength, .inr ⟨trivial, hid, href, rfl, rfl⟩⟩
      · rintro ⟨hlength, ⟨_, hsome, -⟩ | ⟨-, hid, href, rfl, rfl⟩⟩
        · cases hsome
        · exact ⟨(), hlength, (), hid, (), href, rfl, rfl⟩

/-- A row of `job_recovery_attempts`. -/
structure RecoveryAttemptRow where
  id : String
  researchJobId : String
  policyDecisionId : String
  abandonedWorkflowExecutionId : String
  attemptNumber : ℕ
  nextAttemptAt : Instant
  createdAt : Instant
  deriving DecidableEq, Repr

/-- Insert one retry of a job. -/
def insertRecoveryAttempt (attempts : List RecoveryAttemptRow) (row : RecoveryAttemptRow) :
    Except Exc (List RecoveryAttemptRow) := do
  ensure (1 ≤ row.attemptNumber ∧ row.attemptNumber ≤ 2)
    (integrityError "ck_job_recovery_attempts_attempt_number")
  ensure (∀ existing ∈ attempts, existing.id ≠ row.id)
    (integrityError "job_recovery_attempts_pkey")
  ensure (∀ existing ∈ attempts, existing.researchJobId = row.researchJobId →
    existing.attemptNumber ≠ row.attemptNumber)
    (integrityError "uq_job_recovery_attempts_job_attempt")
  return attempts ++ [row]

/-! ### Review decisions -/

inductive ReviewVerdict where
  | approve
  | reject
  deriving DecidableEq, Repr

/-- A row of `human_review_decisions`. -/
structure ReviewDecisionRow where
  id : String
  researchJobId : String
  workflowExecutionId : String
  evaluationRunId : String
  decision : ReviewVerdict
  candidateFingerprint : String
  actorId : String
  idempotencyKey : String
  requestFingerprint : String
  createdAt : Instant
  deriving DecidableEq, Repr

/-- The decision of a job under an idempotency key. -/
def reviewDecisionByIdempotency (decisions : List ReviewDecisionRow)
    (researchJobId idempotencyKey : String) : Option ReviewDecisionRow :=
  decisions.find? fun row =>
    row.researchJobId = researchJobId && row.idempotencyKey = idempotencyKey

/-- Insert an operator's decision; `references` says that the rows the foreign keys name exist. -/
def insertReviewDecision (decisions : List ReviewDecisionRow) (row : ReviewDecisionRow)
    (references : Bool) : Except Exc (List ReviewDecisionRow) := do
  ensure (row.candidateFingerprint.length = 64)
    (integrityError "ck_human_review_decisions_fingerprint_len")
  ensure (row.requestFingerprint.length = 64)
    (integrityError "ck_human_review_decisions_request_fingerprint_len")
  ensure (sqlNonBlank row.actorId ∧ row.actorId.length ≤ 128)
    (integrityError "ck_human_review_decisions_actor_nonempty")
  ensure (sqlNonBlank row.idempotencyKey ∧ row.idempotencyKey.length ≤ 128)
    (integrityError "ck_human_review_decisions_idempotency_nonempty")
  ensure (∀ existing ∈ decisions, existing.id ≠ row.id)
    (integrityError "human_review_decisions_pkey")
  ensure (reviewDecisionByIdempotency decisions row.researchJobId row.idempotencyKey = none)
    (integrityError "uq_human_review_decisions_job_idempotency")
  ensure references (integrityError "fk_human_review_decisions_execution_job_pair")
  return decisions ++ [row]

/-- The row is an approval of the execution of the job. -/
def ReviewDecisionRow.approves (row : ReviewDecisionRow)
    (researchJobId workflowExecutionId : String) : Bool :=
  row.researchJobId = researchJobId && row.workflowExecutionId = workflowExecutionId &&
    row.decision = .approve

/-- The more recent of an approval and the most recent one of the rows before it. -/
def laterDecision (latest : Option ReviewDecisionRow) (row : ReviewDecisionRow) :
    Option ReviewDecisionRow :=
  match latest with
  | none => some row
  | some best => if best.createdAt ≤ row.createdAt then some row else some best

/-- Return the most recent approve decision for a specific execution. -/
def latestApproveForExecution (decisions : List ReviewDecisionRow)
    (researchJobId workflowExecutionId : String) : Option ReviewDecisionRow :=
  (decisions.filter (·.approves researchJobId workflowExecutionId)).foldl laterDecision none

end Atlas
