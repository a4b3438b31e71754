/-
**The repository of research jobs.**

The operations of `persistence/repositories/research_job.py`, each as what it does to the locked
row of one job.  Every operation but the claim and the review transitions is *fenced*: it reads
the row under its lock and writes only when the row is RUNNING, carries the caller's claim token
and a lease that has not expired at the caller's instant.  An operation that returns Python's
`False` has written nothing, and is `none` here; one that raises is an error.

Main definitions:

* `Atlas.claimable`, `Atlas.Selects`, `Atlas.claimRow` — `claim_next`: which row it locks, and
  what it does to it;
* `Atlas.ownsRunningClaim`, `Atlas.underClaim` — the fence;
* `Atlas.finalizeCompletion`, `Atlas.finalizeFailure`, `Atlas.setActiveWorkflowExecution`,
  `Atlas.scheduleRetry`, `Atlas.transitionAwaitingReview`, `Atlas.incrementRepairCount`,
  `Atlas.incrementEvaluationAttemptCount` — the fenced operations;
* `Atlas.approveReviewToPending`, `Atlas.failFromReview` — the review transitions.
-/

import Atlas.WorkflowRepository

set_option relaxedAutoImplicit false
set_option autoImplicit false

namespace Atlas

open Checked

/-! ### Claiming -/

/-- `EVALUATION_PROFILE_CANDIDATE`. -/
def evaluationProfileCandidate : String := "evaluation.candidate.v1"

/-- `evaluation_profile or EVALUATION_PROFILE_CANDIDATE`. -/
def workerProfile : Option String → String
  | none => evaluationProfileCandidate
  | some profile => if profile = "" then evaluationProfileCandidate else profile

/-- The `WHERE` clause of `claim_next`. -/
def claimable (row : ResearchJobRow) (now : Instant) (profile : String) : Bool :=
  (row.status = .pending && row.nextAttemptAt.all (· ≤ now) ||
      row.status = .running && row.leaseExpiresAt.any (· < now)) &&
    row.evaluationProfile.all (· = profile)

/-- `ORDER BY created_at LIMIT 1 FOR UPDATE SKIP LOCKED`: an oldest claimable row that no other
transaction has locked, or nothing when there is none. -/
def Selects (jobs : Jobs) (locked : List String) (now : Instant) (profile : String) :
    Option String → Prop
  | none => ∀ entry ∈ jobs.entries, entry.1 ∉ locked → claimable entry.2 now profile = false
  | some jobId => ∃ row ∈ jobs.lookup jobId, jobId ∉ locked ∧ claimable row now profile = true ∧
      ∀ entry ∈ jobs.entries, entry.1 ∉ locked → claimable entry.2 now profile = true →
        row.createdAt ≤ entry.2.createdAt

instance (jobs : Jobs) (locked : List String) (now : Instant) (profile : String)
    (selected : Option String) : Decidable (Selects jobs locked now profile selected) :=
  match selected with
  | none => inferInstanceAs (Decidable (∀ entry ∈ jobs.entries, _ → _))
  | some jobId => inferInstanceAs (Decidable (∃ row ∈ jobs.lookup jobId, _ ∧ _))

/-- Domain job plus opaque claim token and continuation context for fenced worker. -/
structure ClaimedResearchJob where
  job : ResearchJob
  claimToken : String
  continuationMode : ContinuationMode
  activeWorkflowExecutionId : Option String
  traceparent : Option String
  useTraceparentAsParent : Bool
  evaluationProfile : String
  deriving DecidableEq, Repr

/-- Bind an unbound job or confirm an already-bound matching profile. -/
def bindEvaluationProfile (row : ResearchJobRow) (profile : String) : Option ResearchJobRow :=
  match row.evaluationProfile with
  | none => some { row with evaluationProfile := some profile }
  | some current => if current ≠ profile then none else some row

/-- Whether this claim consumes the stored trace context: at most one claim ever does. -/
def consumesTraceparent (row : ResearchJobRow) : Bool :=
  row.traceparent.isSome && row.initialTraceparentConsumedAt.isNone

/-- Atomically grant first-parent eligibility to at most one claim, ever. -/
def maybeConsumeInitialTraceparent (row : ResearchJobRow) (now : Instant) : ResearchJobRow :=
  if consumesTraceparent row then { row with initialTraceparentConsumedAt := some now } else row

/-- The end both branches of `claim_next` share: the new token and lease, the trace context, the
flush, and the claim handed to the worker. -/
def finishClaim (row : ResearchJobRow) (now leaseExpiresAt : Instant) (claimToken : String)
    (mode : ContinuationMode) (profile : String) :
    Except PersistenceError (ResearchJobRow × ClaimedResearchJob) := do
  let useTraceparent := consumesTraceparent row
  let row := maybeConsumeInitialTraceparent
    { row with claimToken := some claimToken, leaseExpiresAt := some leaseExpiresAt } now
  let row ← row.flush
  let job ← toDomain row
  return (row, {
    job := job, claimToken := claimToken, continuationMode := mode
    activeWorkflowExecutionId := row.activeWorkflowExecutionId, traceparent := row.traceparent
    useTraceparentAsParent := useTraceparent, evaluationProfile := profile })

/-- `job.start` for a fresh job, `job.resume_from_pending` for a delayed one. -/
def startOrResume (now : Instant) (job : ResearchJob) : Except DomainError ResearchJob :=
  if job.startedAt = none then job.start (.aware now) else job.resumeFromPending (.aware now)

/-- What `claim_next` does to the row it selected. -/
def claimRow (row : ResearchJobRow) (now leaseExpiresAt : Instant) (claimToken profile : String) :
    Except PersistenceError (Option (ResearchJobRow × ClaimedResearchJob)) :=
  match bindEvaluationProfile row profile with
  | none => .ok none
  | some row =>
      match row.status with
      | .pending => do
          let mode := row.continuationMode
          let row ← transition (startOrResume now)
            { row with claimedContinuationMode := mode, continuationMode := .none }
          let claim ← finishClaim { row with nextAttemptAt := none } now leaseExpiresAt claimToken
            mode profile
          return some claim
      | .running => do
          -- a reclaim: the job goes through the mapper unchanged and keeps the mode it was claimed in
          let mode := row.claimedContinuationMode
          let row ← transition pure row
          let claim ← finishClaim row now leaseExpiresAt claimToken mode profile
          return some claim
      | _ => .ok none

/-- The row a call writes: none when it returned `False` or raised and was rolled back. -/
def written {α : Type} : Except PersistenceError (Option α) → Option α
  | .ok r => r
  | .error _ => none

theorem written_eq_some {α : Type} {r : Except PersistenceError (Option α)} {a : α} :
    written r = some a ↔ r = .ok (some a) := by
  cases r <;> simp [written]

/-- What `claim_next` makes of the row it selected. -/
def claimSelected (jobs : Jobs) (jobId : String) (now leaseExpiresAt : Instant)
    (claimToken : String) (evaluationProfile : Option String) :
    Option (ResearchJobRow × ClaimedResearchJob) :=
  (jobs.lookup jobId).bind fun row =>
    written (claimRow row now leaseExpiresAt claimToken (workerProfile evaluationProfile))

/-! ### The fence -/

/-- `_owns_running_claim`. -/
def ownsRunningClaim (row : ResearchJobRow) (claimToken : String) (time : Instant) : Bool :=
  row.status = .running && row.claimToken = some claimToken && row.leaseExpiresAt.any (time < ·)

/-- Run `body` on the locked row when the claim token still owns it. -/
def underClaim {α : Type} (model : Option ResearchJobRow) (claimToken : String) (time : Instant)
    (body : ResearchJobRow → Except PersistenceError (Option α)) :
    Except PersistenceError (Option α) :=
  match model with
  | none => .ok none
  | some row => if ownsRunningClaim row claimToken time then body row else .ok none

/-- Reset all claim, lease, continuation, and active execution fields. -/
def clearClaimAndContinuation (row : ResearchJobRow) : ResearchJobRow :=
  { row with
    claimToken := none, leaseExpiresAt := none, nextAttemptAt := none
    continuationMode := .none, claimedContinuationMode := .none
    activeWorkflowExecutionId := none }

/-! ### The fenced operations -/

/-- Complete a RUNNING job when the claim token still owns it. -/
def finalizeCompletion (model : Option ResearchJobRow) (claimToken result : String)
    (time : Instant) : Except PersistenceError (Option ResearchJobRow) :=
  underClaim model claimToken time fun row => do
    let row ← transition (·.complete result (.aware time)) row
    some <$> (clearClaimAndContinuation row).flush

/-- Fail a RUNNING job when the claim token still owns it. -/
def finalizeFailure (model : Option ResearchJobRow) (claimToken reason : String)
    (time : Instant) : Except PersistenceError (Option ResearchJobRow) :=
  underClaim model claimToken time fun row => do
    let row ← transition (·.fail reason (.aware time)) row
    some <$> (clearClaimAndContinuation row).flush

/-- Write a row that binds an execution: the foreign key has to find it. -/
def flushBinding (executions : Executions) (row : ResearchJobRow) :
    Except PersistenceError ResearchJobRow := do
  let row ← row.flush
  ensure (activeExecutionExists executions row)
    (.integrity "fk_research_jobs_active_execution_job_pair")
  return row

/-- Bind a workflow execution to a claimed RUNNING job. -/
def setActiveWorkflowExecution (executions : Executions) (model : Option ResearchJobRow)
    (claimToken executionId : String) (time : Instant) :
    Except PersistenceError (Option ResearchJobRow) :=
  underClaim model claimToken time fun row =>
    some <$> flushBinding executions { row with activeWorkflowExecutionId := some executionId }

/-- Transition a claimed RUNNING job to delayed PENDING with JOB_RETRY mode.  With an execution
to abandon, that RUNNING execution of the job is abandoned in the same transaction. -/
def scheduleRetry (executions : Executions) (model : Option ResearchJobRow)
    (claimToken : String) (nextAttemptAt time : Instant) (abandonExecutionId : Option String) :
    Except PersistenceError (Option (ResearchJobRow × Executions)) :=
  underClaim model claimToken time fun row =>
    match abandonExecutionId with
    | none => do
        let row ← retryRow row
        return some (row, executions)
    | some executionId =>
        if row.activeWorkflowExecutionId ≠ some executionId then .ok none
        else do
          let (abandoned, executions) ← closeRunning executions executionId
            (fun execution => execution.researchJobId = row.id) .abandoned time
          if abandoned then do
            let row ← retryRow row
            return some (row, executions)
          else return none
where
  retryRow (row : ResearchJobRow) : Except PersistenceError ResearchJobRow := do
    let row ← transition (·.returnToPending (.aware time))
      { row with jobRetryCount := row.jobRetryCount + 1 }
    ResearchJobRow.flush { row with
      claimToken := none, leaseExpiresAt := none
      continuationMode := .jobRetry, claimedContinuationMode := .none
      nextAttemptAt := some nextAttemptAt, activeWorkflowExecutionId := none }

/-- Transition a claimed RUNNING job to AWAITING_REVIEW. -/
def transitionAwaitingReview (model : Option ResearchJobRow) (claimToken : String)
    (time : Instant) : Except PersistenceError (Option ResearchJobRow) :=
  underClaim model claimToken time fun row => do
    let row ← transition (·.awaitReview (.aware time)) row
    some <$> ResearchJobRow.flush { row with
      claimToken := none, leaseExpiresAt := none, claimedContinuationMode := .none }

/-- Increment repair_count by 1 under claim fence (max 1). -/
def incrementRepairCount (model : Option ResearchJobRow) (claimToken : String) (time : Instant) :
    Except PersistenceError (Option ResearchJobRow) :=
  underClaim model claimToken time fun row =>
    if row.repairCount ≥ 1 then .ok none
    else some <$> ResearchJobRow.flush { row with repairCount := row.repairCount + 1 }

/-- Increment evaluation_attempt_count by 1 under claim fence (max 4). -/
def incrementEvaluationAttemptCount (model : Option ResearchJobRow) (claimToken : String)
    (time : Instant) : Except PersistenceError (Option ResearchJobRow) :=
  underClaim model claimToken time fun row =>
    if row.evaluationAttemptCount ≥ 4 then .ok none
    else some <$> ResearchJobRow.flush
      { row with evaluationAttemptCount := row.evaluationAttemptCount + 1 }

/-! ### The review transitions -/

/-- Run `body` on the locked row of a job that awaits review. -/
def awaitingReview (model : Option ResearchJobRow)
    (body : ResearchJobRow → Except PersistenceError ResearchJobRow) :
    Except PersistenceError (Option ResearchJobRow) :=
  match model with
  | none => .ok none
  | some row => if row.status = .awaitingReview then some <$> body row else .ok none

/-- Transition AWAITING_REVIEW → delayed PENDING with REVIEW_COMPLETE mode. -/
def approveReviewToPending (executions : Executions) (model : Option ResearchJobRow)
    (executionId : String) (nextAttemptAt time : Instant) :
    Except PersistenceError (Option ResearchJobRow) :=
  awaitingReview model fun row => do
    let row ← transition (·.approveToPending (.aware time)) row
    flushBinding executions { row with
      continuationMode := .reviewComplete, nextAttemptAt := some nextAttemptAt
      activeWorkflowExecutionId := some executionId }

/-- Transition AWAITING_REVIEW → FAILED (operator reject). -/
def failFromReview (model : Option ResearchJobRow) (reason : String) (time : Instant) :
    Except PersistenceError (Option ResearchJobRow) :=
  awaitingReview model fun row => do
    let row ← transition (·.failFromReview reason (.aware time)) row
    (clearClaimAndContinuation row).flush

/-! ### Inserting and reading -/

/-- Insert a new research job with required idempotency metadata. -/
def addJob (jobs : Jobs) (job : ResearchJob) (idempotencyKey requestFingerprint : String)
    (traceparent : Option String) : Except PersistenceError Jobs := do
  let row ← ResearchJobRow.flush { toOrm job with
    idempotencyKey := some idempotencyKey, requestFingerprint := some requestFingerprint
    traceparent := traceparent }
  ensure (jobs.lookup row.id = none) (.researchJobAlreadyExists job.id)
  ensure (∀ entry ∈ jobs.entries, entry.2.idempotencyKey ≠ some idempotencyKey)
    .idempotencyKeyConflict
  return jobs.insert row.id row

/-- Return (repair_count, job_retry_count, evaluation_attempt_count). -/
def getAttemptCounts (model : Option ResearchJobRow) : ℕ × ℕ × ℕ :=
  match model with
  | none => (0, 0, 0)
  | some row => (row.repairCount, row.jobRetryCount, row.evaluationAttemptCount)

/-! ### What the operations do -/

section Spec

variable {α : Type} {model : Option ResearchJobRow} {row row' : ResearchJobRow} {token : String}
  {time : Instant}

theorem ownsRunningClaim_eq_true :
    ownsRunningClaim row token time = true ↔
      row.status = .running ∧ row.claimToken = some token ∧
        ∃ lease, row.leaseExpiresAt = some lease ∧ time < lease := by
  cases h : row.leaseExpiresAt <;> simp [ownsRunningClaim, h, and_assoc]

/-- **The fence**: a fenced operation writes only on a row whose running claim is the caller's. -/
theorem underClaim_eq_some {body : ResearchJobRow → Except PersistenceError (Option α)} {a : α} :
    underClaim model token time body = .ok (some a) ↔
      ∃ row, model = some row ∧ ownsRunningClaim row token time = true ∧
        body row = .ok (some a) := by
  cases model with
  | none => simp [underClaim]
  | some row =>
      by_cases h : ownsRunningClaim row token time = true
      · simp [underClaim, h]
      · simp [underClaim, h]

theorem awaitingReview_eq_some
    {body : ResearchJobRow → Except PersistenceError ResearchJobRow} :
    awaitingReview model body = .ok (some row') ↔
      ∃ row, model = some row ∧ row.status = .awaitingReview ∧ body row = .ok row' := by
  cases model with
  | none => simp [awaitingReview]
  | some row =>
      by_cases h : row.status = .awaitingReview
      · simp [awaitingReview, h]
      · simp [awaitingReview, h]

/-- A transition of the job leaves the columns of the queue as they are. -/
theorem transition_columns {op : ResearchJob → Except DomainError ResearchJob}
    (h : transition op row = .ok row') :
    ∃ job : ResearchJob, job.id = row.id ∧ row' = { row with toResearchJob := job } := by
  obtain ⟨_, -, job, -, rfl⟩ := transition_eq_ok.1 h
  exact ⟨{ job with id := row.id }, rfl, rfl⟩

/-- The row after a transition whose result always has one status. -/
theorem transition_status {op : ResearchJob → Except DomainError ResearchJob}
    (status : ResearchJobStatus) (hop : ∀ job job', op job = .ok job' → job'.status = status)
    (h : transition op row = .ok row') :
    row'.status = status ∧ ∃ job : ResearchJob, job.id = row.id ∧
      row' = { row with toResearchJob := job } := by
  obtain ⟨before, -, job, hjob, rfl⟩ := transition_eq_ok.1 h
  exact ⟨hop before job hjob, { job with id := row.id }, rfl, rfl⟩

theorem finishClaim_eq_ok {now lease : Instant} {mode : ContinuationMode} {profile : String}
    {claimed : ClaimedResearchJob}
    (h : finishClaim row now lease token mode profile = .ok (row', claimed)) :
    row' = maybeConsumeInitialTraceparent
        { row with claimToken := some token, leaseExpiresAt := some lease } now ∧
      CheckConstraint.AllHold researchJobChecks row' ∧
      ∃ job, toDomain row' = .ok job ∧ claimed = {
        job := job, claimToken := token, continuationMode := mode
        activeWorkflowExecutionId := row'.activeWorkflowExecutionId
        traceparent := row'.traceparent, useTraceparentAsParent := consumesTraceparent row
        evaluationProfile := profile } := by
  simp only [finishClaim, bind_eq_ok, flush_eq_ok, pure_eq_ok, Prod.mk.injEq] at h
  obtain ⟨_, ⟨hchecks, rfl⟩, job, hjob, rfl, rfl⟩ := h
  exact ⟨rfl, hchecks, job, hjob, rfl⟩

/-- The mapper keeps the status. -/
theorem toDomain_status {job : ResearchJob} (h : toDomain row = .ok job) :
    job.status = row.status := by
  rw [toDomain_eq_ok] at h
  simp only [ResearchJob.reconstitute, bind_eq_ok, pure_eq_ok] at h
  obtain ⟨_, -, _, -, _, -, _, -, _, -, _, -, rfl⟩ := h
  rfl

theorem startOrResume_status {now : Instant} (job job' : ResearchJob)
    (h : startOrResume now job = .ok job') : job'.status = .running := by
  unfold startOrResume at h
  split at h
  · obtain ⟨-, -, -, rfl⟩ := ResearchJob.start_eq_ok.1 h
    rfl
  · obtain ⟨-, -, -, rfl⟩ := ResearchJob.resumeFromPending_eq_ok.1 h
    rfl

/-- The mode a claim is made in: the one that waits on a PENDING row, or the one of the claim it
takes over. -/
def claimedMode (row : ResearchJobRow) : ContinuationMode :=
  match row.status with
  | .pending => row.continuationMode
  | _ => row.claimedContinuationMode

/-- What a claim makes of a row: it runs under the new token and lease, in the mode of the claim,
and is bound and counted as before. -/
structure ClaimedFrom (row row' : ResearchJobRow) (token : String) (lease : Instant)
    (profile : String) : Prop where
  claimable : row.status = .pending ∨ row.status = .running
  id : row'.id = row.id
  status : row'.status = .running
  token : row'.claimToken = some token
  lease : row'.leaseExpiresAt = some lease
  mode : row'.claimedContinuationMode = claimedMode row
  active : row'.activeWorkflowExecutionId = row.activeWorkflowExecutionId
  profile : row'.evaluationProfile = some profile
  counts : getAttemptCounts (some row') = getAttemptCounts (some row)
  checks : CheckConstraint.AllHold researchJobChecks row'

/-- What the worker is handed. -/
structure Handed (row' : ResearchJobRow) (claimed : ClaimedResearchJob) (token : String)
    (profile : String) : Prop where
  job : toDomain row' = .ok claimed.job
  token : claimed.claimToken = token
  mode : claimed.continuationMode = row'.claimedContinuationMode
  active : claimed.activeWorkflowExecutionId = row'.activeWorkflowExecutionId
  profile : claimed.evaluationProfile = profile

theorem bindEvaluationProfile_eq_some {profile : String}
    (h : bindEvaluationProfile row profile = some row') :
    row' = { row with evaluationProfile := some profile } := by
  unfold bindEvaluationProfile at h
  cases hprofile : row.evaluationProfile with
  | none =>
      rw [hprofile] at h
      cases h
      rfl
  | some current =>
      simp only [hprofile] at h
      split at h
      · cases h
      · rename_i hsame
        cases h
        rw [ne_eq, not_not] at hsame
        rw [← hsame, ← hprofile]

/-- A row finished as claimed from a row that runs. -/
theorem finishClaim_claimedFrom {before : ResearchJobRow} {now lease : Instant}
    {mode : ContinuationMode} {profile : String} {claimed : ClaimedResearchJob}
    (hclaimable : before.status = .pending ∨ before.status = .running) (hid : row.id = before.id)
    (hstatus : row.status = .running) (hmode : row.claimedContinuationMode = claimedMode before)
    (hmode' : mode = claimedMode before)
    (hactive : row.activeWorkflowExecutionId = before.activeWorkflowExecutionId)
    (hprofile : row.evaluationProfile = some profile)
    (hcounts : getAttemptCounts (some row) = getAttemptCounts (some before))
    (h : finishClaim row now lease token mode profile = .ok (row', claimed)) :
    ClaimedFrom before row' token lease profile ∧ Handed row' claimed token profile := by
  obtain ⟨hrow', hchecks, job, hjob, rfl⟩ := finishClaim_eq_ok h
  -- consuming the trace context changes one column of its own
  have hconsumed : ∃ consumed, row' = { row with
      claimToken := some token, leaseExpiresAt := some lease
      initialTraceparentConsumedAt := consumed } := by
    rw [hrow', maybeConsumeInitialTraceparent]
    split
    · exact ⟨some now, rfl⟩
    · exact ⟨row.initialTraceparentConsumedAt, rfl⟩
  obtain ⟨consumed, rfl⟩ := hconsumed
  exact ⟨⟨hclaimable, hid, hstatus, rfl, rfl, hmode, hactive, hprofile, hcounts, hchecks⟩,
    ⟨hjob, rfl, hmode'.trans hmode.symm, rfl, rfl⟩⟩

/-- **What a claim does**: the row runs under the new token and lease, and the worker is handed
what it says. -/
theorem claimRow_eq_some {now lease : Instant} {profile : String} {claimed : ClaimedResearchJob}
    (h : claimRow row now lease token profile = .ok (some (row', claimed))) :
    ClaimedFrom row row' token lease profile ∧ Handed row' claimed token profile := by
  unfold claimRow at h
  cases hbind : bindEvaluationProfile row profile with
  | none => simp [hbind] at h
  | some bound =>
      obtain rfl := bindEvaluationProfile_eq_some hbind
      simp only [hbind] at h
      cases hs : row.status with
      | pending =>
          simp only [hs, bind_eq_ok, pure_eq_ok, Option.some.injEq] at h
          obtain ⟨_, htransition, _, hfinish, rfl⟩ := h
          obtain ⟨hrunning, job, hid, rfl⟩ := transition_status .running startOrResume_status
            htransition
          refine finishClaim_claimedFrom (.inl hs) ?_ ?_ ?_ ?_ ?_ ?_ ?_ hfinish
          · exact hid
          · exact hrunning
          · rw [claimedMode, hs]
          · rw [claimedMode, hs]
          · rfl
          · rfl
          · rfl
      | running =>
          simp only [hs, bind_eq_ok, pure_eq_ok, Option.some.injEq] at h
          obtain ⟨_, htransition, _, hfinish, rfl⟩ := h
          obtain ⟨job, hjob, _, hop, rfl⟩ := transition_eq_ok.1 htransition
          cases hop
          refine finishClaim_claimedFrom (.inr hs) ?_ ?_ ?_ ?_ ?_ ?_ ?_ hfinish
          · rfl
          · exact (toDomain_status hjob).trans hs
          · rw [claimedMode, hs]
            rfl
          · rw [claimedMode, hs]
          · rfl
          · rfl
          · rfl
      | awaitingReview => simp [hs] at h
      | completed => simp [hs] at h
      | failed => simp [hs] at h

/-! Each operation writes exactly when its guard holds, its transition succeeds and the row it
builds meets the constraints. -/

theorem finalizeCompletion_eq_some {result : String} :
    finalizeCompletion model token result time = .ok (some row') ↔
      ∃ row, model = some row ∧ ownsRunningClaim row token time = true ∧
        ∃ row₁, transition (·.complete result (.aware time)) row = .ok row₁ ∧
          CheckConstraint.AllHold researchJobChecks (clearClaimAndContinuation row₁) ∧
          clearClaimAndContinuation row₁ = row' := by
  simp [finalizeCompletion, underClaim_eq_some, flush_eq_ok, and_assoc]

theorem finalizeFailure_eq_some {reason : String} :
    finalizeFailure model token reason time = .ok (some row') ↔
      ∃ row, model = some row ∧ ownsRunningClaim row token time = true ∧
        ∃ row₁, transition (·.fail reason (.aware time)) row = .ok row₁ ∧
          CheckConstraint.AllHold researchJobChecks (clearClaimAndContinuation row₁) ∧
          clearClaimAndContinuation row₁ = row' := by
  simp [finalizeFailure, underClaim_eq_some, flush_eq_ok, and_assoc]

theorem flushBinding_eq_ok {executions : Executions} :
    flushBinding executions row = .ok row' ↔
      CheckConstraint.AllHold researchJobChecks row ∧
        activeExecutionExists executions row = true ∧ row = row' := by
  simp only [flushBinding, bind_eq_ok, flush_eq_ok, ensure_eq_ok, pure_eq_ok]
  constructor
  · rintro ⟨_, ⟨hchecks, rfl⟩, _, hfk, rfl⟩
    exact ⟨hchecks, hfk, rfl⟩
  · rintro ⟨hchecks, hfk, rfl⟩
    exact ⟨row, ⟨hchecks, rfl⟩, (), hfk, rfl⟩

theorem setActiveWorkflowExecution_eq_some {executions : Executions} {executionId : String} :
    setActiveWorkflowExecution executions model token executionId time = .ok (some row') ↔
      ∃ row, model = some row ∧ ownsRunningClaim row token time = true ∧
        CheckConstraint.AllHold researchJobChecks
          { row with activeWorkflowExecutionId := some executionId } ∧
        activeExecutionExists executions
          { row with activeWorkflowExecutionId := some executionId } = true ∧
        { row with activeWorkflowExecutionId := some executionId } = row' := by
  simp [setActiveWorkflowExecution, underClaim_eq_some, flushBinding_eq_ok]

/-- The row of a scheduled retry, from the job returned to PENDING. -/
def retryScheduled (row : ResearchJobRow) (nextAttemptAt : Instant) : ResearchJobRow :=
  { row with
    claimToken := none, leaseExpiresAt := none
    continuationMode := .jobRetry, claimedContinuationMode := .none
    nextAttemptAt := some nextAttemptAt, activeWorkflowExecutionId := none }

theorem retryRow_eq_ok {nextAttemptAt : Instant} :
    scheduleRetry.retryRow nextAttemptAt time row = .ok row' ↔
      ∃ row₁, transition (·.returnToPending (.aware time))
          { row with jobRetryCount := row.jobRetryCount + 1 } = .ok row₁ ∧
        CheckConstraint.AllHold researchJobChecks (retryScheduled row₁ nextAttemptAt) ∧
        retryScheduled row₁ nextAttemptAt = row' := by
  simp [scheduleRetry.retryRow, flush_eq_ok, retryScheduled]

/-- A retry that names the execution it abandons is scheduled together with abandoning it. -/
theorem scheduleRetry_eq_some {executions executions' : Executions} {nextAttemptAt : Instant}
    {abandon : Option String} :
    scheduleRetry executions model token nextAttemptAt time abandon
        = .ok (some (row', executions')) ↔
      ∃ row, model = some row ∧ ownsRunningClaim row token time = true ∧
        scheduleRetry.retryRow nextAttemptAt time row = .ok row' ∧
        match abandon with
        | none => executions = executions'
        | some executionId => row.activeWorkflowExecutionId = some executionId ∧
            closeRunning executions executionId
              (fun execution => execution.researchJobId = row.id) .abandoned time
                = .ok (true, executions') := by
  rw [scheduleRetry, underClaim_eq_some]
  refine exists_congr fun row => and_congr_right fun _ => and_congr_right fun _ => ?_
  cases abandon with
  | none => simp
  | some executionId =>
      by_cases hactive : row.activeWorkflowExecutionId = some executionId
      · simp only [hactive, ne_eq, not_true_eq_false, if_false, bind_eq_ok, Prod.exists]
        constructor
        · rintro ⟨abandoned, executions₁, hclose, h⟩
          cases abandoned with
          | false => simp at h
          | true =>
              simp only [if_true, bind_eq_ok, pure_eq_ok, Option.some.injEq, Prod.mk.injEq] at h
              obtain ⟨_, hretry, rfl, rfl⟩ := h
              exact ⟨hretry, trivial, hclose⟩
        · rintro ⟨hretry, -, hclose⟩
          exact ⟨true, executions', hclose, by simpa using hretry⟩
      · simp [hactive]

theorem transitionAwaitingReview_eq_some :
    transitionAwaitingReview model token time = .ok (some row') ↔
      ∃ row, model = some row ∧ ownsRunningClaim row token time = true ∧
        ∃ row₁, transition (·.awaitReview (.aware time)) row = .ok row₁ ∧
          CheckConstraint.AllHold researchJobChecks { row₁ with
            claimToken := none, leaseExpiresAt := none, claimedContinuationMode := .none } ∧
          { row₁ with
            claimToken := none, leaseExpiresAt := none, claimedContinuationMode := .none }
              = row' := by
  simp [transitionAwaitingReview, underClaim_eq_some, flush_eq_ok, and_assoc]

theorem incrementRepairCount_eq_some :
    incrementRepairCount model token time = .ok (some row') ↔
      ∃ row, model = some row ∧ ownsRunningClaim row token time = true ∧ row.repairCount < 1 ∧
        CheckConstraint.AllHold researchJobChecks
          { row with repairCount := row.repairCount + 1 } ∧
        { row with repairCount := row.repairCount + 1 } = row' := by
  rw [incrementRepairCount, underClaim_eq_some]
  refine exists_congr fun row => and_congr_right fun _ => and_congr_right fun _ => ?_
  by_cases h : row.repairCount < 1
  · simp [Nat.lt_one_iff.1 h, flush_eq_ok]
  · simp [h, Nat.not_lt.1 h]

theorem incrementEvaluationAttemptCount_eq_some :
    incrementEvaluationAttemptCount model token time = .ok (some row') ↔
      ∃ row, model = some row ∧ ownsRunningClaim row token time = true ∧
        row.evaluationAttemptCount < 4 ∧
        CheckConstraint.AllHold researchJobChecks
          { row with evaluationAttemptCount := row.evaluationAttemptCount + 1 } ∧
        { row with evaluationAttemptCount := row.evaluationAttemptCount + 1 } = row' := by
  rw [incrementEvaluationAttemptCount, underClaim_eq_some]
  refine exists_congr fun row => and_congr_right fun _ => and_congr_right fun _ => ?_
  by_cases h : row.evaluationAttemptCount < 4
  · simp [h, Nat.not_le.2 h, flush_eq_ok]
  · simp [h, Nat.not_lt.1 h]

theorem approveReviewToPending_eq_some {executions : Executions} {executionId : String}
    {next : Instant} :
    approveReviewToPending executions model executionId next time = .ok (some row') ↔
      ∃ row, model = some row ∧ row.status = .awaitingReview ∧
        ∃ row₁, transition (·.approveToPending (.aware time)) row = .ok row₁ ∧
          flushBinding executions { row₁ with
            continuationMode := .reviewComplete, nextAttemptAt := some next
            activeWorkflowExecutionId := some executionId } = .ok row' := by
  simp [approveReviewToPending, awaitingReview_eq_some]

theorem failFromReview_eq_some {reason : String} :
    failFromReview model reason time = .ok (some row') ↔
      ∃ row, model = some row ∧ row.status = .awaitingReview ∧
        ∃ row₁, transition (·.failFromReview reason (.aware time)) row = .ok row₁ ∧
          CheckConstraint.AllHold researchJobChecks (clearClaimAndContinuation row₁) ∧
          clearClaimAndContinuation row₁ = row' := by
  simp [failFromReview, awaitingReview_eq_some, flush_eq_ok]

end Spec

end Atlas
