/-
**The rows of `research_jobs` and `workflow_executions`.**

A row of `research_jobs` is a research job together with the columns the queue needs: the claim
(token and lease), the delay and the continuation mode of a retry or of an approved review, the
counters, the bound execution and evaluation profile.  The table's `CHECK` constraints are listed
under their names; a flush that breaks one of them raises an integrity error with that name.  A flush
also raises over a text that is too wide for its column, or that has a NUL character, which
PostgreSQL stores in no text.

Main definitions:

* `Atlas.ResearchJobRow`, `Atlas.WorkflowExecutionRow` — the rows;
* `Atlas.researchJobChecks`, `Atlas.workflowExecutionChecks` — their constraints;
* `Atlas.toOrm`, `Atlas.applyDomainToOrm`, `Atlas.toDomain` — the mapper between rows and jobs;
* `Atlas.ResearchJobRow.flush` — writing a row.

Main results:

* `Atlas.toDomain_applyDomainToOrm` — a valid job survives the way to its row and back;
* `Atlas.flush_eq_ok` — a row is written exactly when it meets the constraints.
-/

import Atlas.ResearchJob
import Atlas.Table

set_option relaxedAutoImplicit false
set_option autoImplicit false

namespace Atlas

open Checked

/-- Durable continuation modes for claimed research jobs. -/
inductive ContinuationMode where
  | none
  | jobRetry
  | reviewComplete
  deriving DecidableEq, Repr

/-- A row of `research_jobs`. -/
structure ResearchJobRow extends ResearchJob where
  idempotencyKey : Option String := .none
  requestFingerprint : Option String := .none
  leaseExpiresAt : Option Instant := .none
  claimToken : Option String := .none
  repairCount : ℕ := 0
  jobRetryCount : ℕ := 0
  evaluationAttemptCount : ℕ := 0
  nextAttemptAt : Option Instant := .none
  continuationMode : ContinuationMode := .none
  claimedContinuationMode : ContinuationMode := .none
  activeWorkflowExecutionId : Option String := .none
  traceparent : Option String := .none
  initialTraceparentConsumedAt : Option Instant := .none
  evaluationProfile : Option String := .none
  deriving DecidableEq, Repr

inductive ExecutionStatus where
  | running
  | completed
  | failed
  | abandoned
  deriving DecidableEq, Repr

/-- A row of `workflow_executions`. -/
structure WorkflowExecutionRow where
  id : String
  researchJobId : String
  threadId : String
  status : ExecutionStatus
  startedAt : Instant
  finishedAt : Option Instant
  deriving DecidableEq, Repr

/-- The table `workflow_executions`, by execution id. -/
abbrev Executions := Table String WorkflowExecutionRow

/-- The table `research_jobs`, by job id. -/
abbrev Jobs := Table String ResearchJobRow

/-- The errors of the persistence layer. -/
inductive PersistenceError where
  | domain (error : DomainError)
  | integrity (constraint : String)
  | researchJobAlreadyExists (jobId : String)
  | idempotencyKeyConflict
  deriving DecidableEq, Repr

/-! ### The constraints -/

/-- `length(trim(text)) > 0`: SQL's `trim` removes spaces only. -/
def sqlNonBlank (text : String) : Bool := text.toList.any (· ≠ ' ')

/-- `earlier <= later` between nullable columns, where `NULL` makes no row acceptable. -/
def sqlOrdered : Option Instant → Option Instant → Bool
  | some earlier, some later => earlier ≤ later
  | _, _ => false

/-- A lower-case hexadecimal digit. -/
def isLowerHex (c : Char) : Bool := c.isDigit || ('a' ≤ c && c ≤ 'f')

/-- `^00-[0-9a-f]{32}-[0-9a-f]{16}-[0-9a-f]{2}$`, with neither the trace id nor the span id all
zeros. -/
def traceparentFormat (text : String) : Bool :=
  let chars := text.toList
  let traceId := (chars.drop 3).take 32
  let spanId := (chars.drop 36).take 16
  chars.length == 55 && chars.take 3 == ['0', '0', '-'] &&
    traceId.all isLowerHex && chars[35]? == some '-' &&
    spanId.all isLowerHex && chars[52]? == some '-' && (chars.drop 53).all isLowerHex &&
    !traceId.all (· == '0') && !spanId.all (· == '0')

/-- The text has no character the database cannot hold. -/
def storable (text : String) : Bool := !text.toList.contains (Char.ofNat 0)

/-- The profiles `ck_research_jobs_evaluation_profile_allowed` admits. -/
def evaluationProfilesAllowed : List String :=
  ["evaluation.candidate.v1", "evaluation.candidate.fake.v1", "evaluation.v1"]

namespace ResearchJobRow

/-- No claim, no delay, no continuation and no bound execution: the state of an ended job. -/
def Unclaimed (row : ResearchJobRow) : Prop :=
  row.claimToken = none ∧ row.leaseExpiresAt = none ∧ row.nextAttemptAt = none ∧
    row.continuationMode = .none ∧ row.claimedContinuationMode = .none ∧
    row.activeWorkflowExecutionId = none

instance (row : ResearchJobRow) : Decidable row.Unclaimed :=
  inferInstanceAs (Decidable (_ ∧ _ ∧ _ ∧ _ ∧ _ ∧ _))

/-- `ck_research_jobs_status_fields`: the columns each status requires and forbids. -/
def statusFields (row : ResearchJobRow) : Bool :=
  match row.status with
  | .pending =>
      row.finishedAt = none && row.result = none && row.failureReason = none &&
        row.claimToken = none && row.leaseExpiresAt = none &&
        row.claimedContinuationMode = .none &&
        (row.startedAt = none && row.nextAttemptAt = none && row.continuationMode = .none &&
            row.activeWorkflowExecutionId = none ||
          row.startedAt.isSome && row.nextAttemptAt.isSome && row.continuationMode = .jobRetry &&
            row.activeWorkflowExecutionId = none && inOrder ||
          row.startedAt.isSome && row.nextAttemptAt.isSome &&
            row.continuationMode = .reviewComplete && row.activeWorkflowExecutionId.isSome &&
            inOrder)
  | .running =>
      row.startedAt.isSome && row.finishedAt = none && row.result = none &&
        row.failureReason = none && row.nextAttemptAt = none && row.continuationMode = .none &&
        (row.claimedContinuationMode = .reviewComplete && row.activeWorkflowExecutionId.isSome ||
          row.claimedContinuationMode = .none || row.claimedContinuationMode = .jobRetry) &&
        inOrder
  | .awaitingReview =>
      row.startedAt.isSome && row.finishedAt = none && row.result = none &&
        row.failureReason = none && row.claimToken = none && row.leaseExpiresAt = none &&
        row.nextAttemptAt = none && row.continuationMode = .none &&
        row.claimedContinuationMode = .none && row.activeWorkflowExecutionId.isSome && inOrder
  | .completed => row.result.isSome && row.failureReason = none && ended
  | .failed => row.failureReason.isSome && row.result = none && ended
where
  inOrder : Bool :=
    sqlOrdered (some row.createdAt) row.startedAt && sqlOrdered row.startedAt (some row.updatedAt)
  ended : Bool :=
    row.startedAt.isSome && row.finishedAt.isSome && row.Unclaimed &&
      sqlOrdered (some row.createdAt) row.startedAt && sqlOrdered row.startedAt row.finishedAt &&
      sqlOrdered row.finishedAt (some row.updatedAt)

end ResearchJobRow

/-- The `CHECK` constraints of `research_jobs`, the widths of its `varchar` columns that no
constraint implies, and the columns whose text comes from a caller, which has to be storable.  The
constraints on the values of `status`, `continuation_mode` and `claimed_continuation_mode` hold by
their types. -/
def researchJobChecks : List (CheckConstraint ResearchJobRow) :=
  [{ name := "ck_research_jobs_id_nonempty", holds := fun r => sqlNonBlank r.id },
   { name := "ck_research_jobs_question_nonempty", holds := fun r => sqlNonBlank r.question },
   { name := "ck_research_jobs_updated_after_created",
     holds := fun r => r.createdAt ≤ r.updatedAt },
   { name := "ck_research_jobs_status_fields", holds := fun r => r.statusFields },
   { name := "ck_research_jobs_idempotency_pair",
     holds := fun r => match r.idempotencyKey, r.requestFingerprint with
       | none, none => true
       | some key, some fingerprint => sqlNonBlank key && fingerprint.length = 64
       | _, _ => false },
   { name := "ck_research_jobs_claim_lease_pair",
     holds := fun r => match r.leaseExpiresAt, r.claimToken with
       | none, none => true
       | some _, some token => sqlNonBlank token && token.length = 64
       | _, _ => false },
   { name := "ck_research_jobs_repair_count", holds := fun r => r.repairCount ≤ 1 },
   { name := "ck_research_jobs_job_retry_count", holds := fun r => r.jobRetryCount ≤ 2 },
   { name := "ck_research_jobs_evaluation_attempt_count",
     holds := fun r => r.evaluationAttemptCount ≤ 4 },
   { name := "ck_research_jobs_traceparent_format",
     holds := fun r => r.traceparent.all traceparentFormat },
   { name := "ck_research_jobs_initial_traceparent_consumed_pair",
     holds := fun r => r.initialTraceparentConsumedAt.isNone || r.traceparent.isSome },
   { name := "ck_research_jobs_evaluation_profile_allowed",
     holds := fun r => r.evaluationProfile.all evaluationProfilesAllowed.contains },
   { name := "ck_research_jobs_started_has_evaluation_profile",
     holds := fun r => r.status = .pending && r.startedAt = none || r.evaluationProfile.isSome },
   { name := "id varchar(128)", holds := fun r => r.id.length ≤ 128 },
   { name := "idempotency_key varchar(128)",
     holds := fun r => r.idempotencyKey.all (·.length ≤ 128) },
   { name := "active_workflow_execution_id varchar(36)",
     holds := fun r => r.activeWorkflowExecutionId.all (·.length ≤ 36) },
   { name := "id text", holds := fun r => storable r.id },
   { name := "question text", holds := fun r => storable r.question },
   { name := "result text", holds := fun r => r.result.all storable },
   { name := "failure_reason text", holds := fun r => r.failureReason.all storable },
   { name := "idempotency_key text", holds := fun r => r.idempotencyKey.all storable }]

/-- The `CHECK` constraints of `workflow_executions`, and the widths of its columns. -/
def workflowExecutionChecks : List (CheckConstraint WorkflowExecutionRow) :=
  [{ name := "ck_workflow_executions_id_nonempty", holds := fun r => sqlNonBlank r.id },
   { name := "ck_workflow_executions_job_id_nonempty",
     holds := fun r => sqlNonBlank r.researchJobId },
   { name := "ck_workflow_executions_thread_id_nonempty",
     holds := fun r => sqlNonBlank r.threadId },
   { name := "ck_workflow_executions_status_fields",
     holds := fun r =>
       if r.status = .running then r.finishedAt = none
       else sqlOrdered (some r.startedAt) r.finishedAt },
   { name := "id varchar(36)", holds := fun r => r.id.length ≤ 36 },
   { name := "thread_id varchar(128)", holds := fun r => r.threadId.length ≤ 128 }]

/-- `fk_research_jobs_active_execution_job_pair`: the bound execution exists and is the job's. -/
def activeExecutionExists (executions : Executions) (row : ResearchJobRow) : Bool :=
  row.activeWorkflowExecutionId.all fun executionId =>
    (executions.lookup executionId).any fun execution => execution.researchJobId = row.id

/-! ### Rows and jobs -/

/-- `flush()`: the row is written, or the first constraint it breaks is reported. -/
def ResearchJobRow.flush (row : ResearchJobRow) : Except PersistenceError ResearchJobRow :=
  match CheckConstraint.firstViolated researchJobChecks row with
  | none => .ok row
  | some check => .error (.integrity check.name)

/-- Convert a domain research job into a row; the other columns take their defaults. -/
def toOrm (job : ResearchJob) : ResearchJobRow := { job with }

/-- Copy domain fields onto an existing row. -/
def applyDomainToOrm (job : ResearchJob) (row : ResearchJobRow) : ResearchJobRow :=
  { row with toResearchJob := { job with id := row.id } }

/-- Convert a row into a reconstituted domain research job. -/
def toDomain (row : ResearchJobRow) : Except PersistenceError ResearchJob :=
  (ResearchJob.reconstitute row.toResearchJob).mapError .domain

/-- Run a domain transition on the job of a row and copy the result back. -/
def transition (op : ResearchJob → Except DomainError ResearchJob) (row : ResearchJobRow) :
    Except PersistenceError ResearchJobRow := do
  let job ← toDomain row
  let job ← (op job).mapError .domain
  return applyDomainToOrm job row

/-- A job is stored under its id, with valid fields. -/
structure StoredJob (jobs : Jobs) (jobId : String) (row : ResearchJobRow) : Prop where
  lookup : jobs.lookup jobId = some row
  key : row.id = jobId
  valid : row.Valid

/-! ### What flushing and mapping do -/

@[simp] theorem mapError_eq_ok {ε ε' α : Type} {f : ε → ε'} {x : Except ε α} {a : α} :
    x.mapError f = .ok a ↔ x = .ok a := by
  cases x <;> simp [Except.mapError]

theorem mapError_eq_error {ε ε' α : Type} {f : ε → ε'} {x : Except ε α} {e : ε'} :
    x.mapError f = .error e ↔ ∃ e', x = .error e' ∧ f e' = e := by
  cases x <;> simp [Except.mapError]

/-- A row is written exactly when it meets the constraints. -/
theorem flush_eq_ok {row row' : ResearchJobRow} :
    row.flush = .ok row' ↔ CheckConstraint.AllHold researchJobChecks row ∧ row = row' := by
  rw [← CheckConstraint.firstViolated_eq_none, ResearchJobRow.flush]
  cases CheckConstraint.firstViolated researchJobChecks row <;> simp

theorem toDomain_eq_ok {row : ResearchJobRow} {job : ResearchJob} :
    toDomain row = .ok job ↔ ResearchJob.reconstitute row.toResearchJob = .ok job :=
  mapError_eq_ok

/-- A valid job survives the way to its row and back. -/
theorem toDomain_applyDomainToOrm {job : ResearchJob} {row : ResearchJobRow} (h : job.Valid)
    (hid : job.id = row.id) : toDomain (applyDomainToOrm job row) = .ok job := by
  rw [toDomain_eq_ok, applyDomainToOrm, ← hid]
  exact ResearchJob.reconstitute_of_valid h

/-- The mapper keeps an id without surrounding blanks. -/
theorem toDomain_id {row : ResearchJobRow} {job : ResearchJob} (hclean : Clean row.id)
    (h : toDomain row = .ok job) : job.id = row.id := by
  rw [toDomain_eq_ok] at h
  simp only [ResearchJob.reconstitute, bind_eq_ok, pure_eq_ok] at h
  obtain ⟨cleaned, hid, _, -, _, -, _, -, _, -, _, -, rfl⟩ := h
  simp only [requireJobId, bind_eq_ok, pure_eq_ok, requireNonEmpty_eq_ok] at hid
  obtain ⟨_, ⟨rfl, -⟩, _, -, rfl⟩ := hid
  exact hclean.1

/-- The mapper takes a valid row to its job. -/
theorem toDomain_of_valid {row : ResearchJobRow} (h : row.Valid) :
    toDomain row = .ok row.toResearchJob :=
  toDomain_eq_ok.2 (ResearchJob.reconstitute_of_valid h)

theorem toDomain_toOrm {job : ResearchJob} (h : job.Valid) : toDomain (toOrm job) = .ok job :=
  toDomain_eq_ok.2 (ResearchJob.reconstitute_of_valid h)

theorem transition_eq_ok {op : ResearchJob → Except DomainError ResearchJob}
    {row row' : ResearchJobRow} :
    transition op row = .ok row' ↔
      ∃ job, toDomain row = .ok job ∧ ∃ job', op job = .ok job' ∧
        applyDomainToOrm job' row = row' := by
  simp [transition]

end Atlas
