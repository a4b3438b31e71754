/-
**Processing a claimed job.**

`LangGraphResearchProcessor` of `workflow/processor.py`.  A call binds the job to an execution,
which it resumes or creates, runs the graph on it, and turns what the graph left into an outcome:
a result, a pause for review, a scheduled retry or a terminal failure.  Every write to the job or
its execution is fenced by the claim token.  An exception before the outcome goes to the recovery
policy; a `RuntimeError` goes to the caller instead.

Main definitions:

* `Atlas.ProcessingOutcome` — the outcomes;
* `Atlas.bindExecution` — `_bind`;
* `Atlas.invokeReviewComplete`, `Atlas.handlePostInvoke`, `Atlas.handleException` — the ends of a
  call;
* `Atlas.process` — the call.
-/

import Atlas.GraphRun

set_option relaxedAutoImplicit false
set_option autoImplicit false

namespace Atlas

/-- Typed processor outcomes for research-job workers. -/
inductive ProcessingOutcome where
  | completed (result workflowExecutionId : String)
  | pausedForReview (workflowExecutionId : String)
  | retryScheduled (workflowExecutionId : String) (nextAttemptAt : Instant) (attemptNumber : ℕ)
  | terminalFailed (reasonCode : String) (workflowExecutionId : Option String)
  deriving DecidableEq, Repr

/-! ### Closing the execution under the claim -/

/-- `complete_execution_for_claim` in a transaction of its own, which has to update a row. -/
def completeExecutionTx (jobId executionId claimToken : String) : Transaction Unit := do
  let now ← Tx.reading Env.now
  let ok ← onExecutions fun w =>
    completeExecutionForClaim w.jobs w.executions executionId jobId claimToken now
  require (ok = true) (.claimOwnership "complete_execution")

/-- `fail_execution_for_claim` in a transaction of its own, which has to update a row. -/
def failExecutionTx (jobId executionId claimToken : String) : Transaction Unit := do
  let now ← Tx.reading Env.now
  let ok ← onExecutions fun w =>
    failExecutionForClaim w.jobs w.executions executionId jobId claimToken now
  require (ok = true) (.claimOwnership "fail_execution")

/-! ### Binding -/

/-- Create an execution and bind the job to it in one transaction; unfinished executions of the
job are abandoned. -/
def createAndBind (jobId claimToken : String) : Transaction String := do
  let now ← Tx.reading Env.now
  let executionId ← Tx.reading fun e => e.uuid 0
  let executions ← Tx.compute fun w =>
    ((abandonUnfinishedForJob w.executions jobId now).bind fun executions =>
      createExecution executions executionId jobId now).mapError Exc.persistence
  Tx.modify fun w => { w with executions := executions }
  let ok ← onJob jobId (setActiveWorkflowExecution executions · claimToken executionId now)
  require (ok = true) (.claimOwnership "set_active_workflow_execution")
  return executionId

/-- The status of an execution, when it exists. -/
def executionStatus (executionId : String) : Activity (Option ExecutionStatus) :=
  Program.atomically
    (Tx.read fun w => (w.executions.lookup executionId).map WorkflowExecutionRow.status)

/-- Bind to an execution: resume existing or create fresh. -/
def bindExecution (jobId claimToken : String) (mode : ContinuationMode)
    (activeExecutionId : Option String) : Activity String :=
  match mode, activeExecutionId with
  | .reviewComplete, none => .raise
      (.valueError "REVIEW_COMPLETE requires active_workflow_execution_id")
  | .reviewComplete, some active => do
      let status ← executionStatus active
      if status = some .running then return active
      else .raise (.runtimeError "REVIEW_COMPLETE execution not found or not RUNNING")
  | .none, some active => do
      let status ← executionStatus active
      if status = some .running ∨ status = some .completed then return active
      else Program.atomically (createAndBind jobId claimToken)
  | .none, none | .jobRetry, _ => Program.atomically (createAndBind jobId claimToken)

/-! ### After the graph -/

/-- The pause for review: the policy decision, the transition of the job and its event. -/
def recordAwaitReview (ctx : GraphContext) (evaluationRunId : String) : Transaction Unit := do
  let now ← Tx.reading Env.now
  let decisionId ← Tx.reading fun e => e.uuid 0
  let eventId ← Tx.reading fun e => e.uuid 1
  let (repairCount, jobRetryCount, evaluationAttemptCount) ←
    Tx.read fun w => getAttemptCounts (w.jobs.lookup ctx.jobId)
  let fingerprint := fingerprintPolicyDecision ctx.settings.sha256
    { researchJobId := ctx.jobId, workflowExecutionId := some ctx.executionId
      evaluationRunId := some evaluationRunId, decision := .awaitReview
      failureCategory := .needsHumanReview, reasonCode := "AWAIT_REVIEW_POLICY"
      counts := ⟨repairCount, jobRetryCount, evaluationAttemptCount⟩ }
  let (_, created) ← recordPolicyDecision
    { id := decisionId, researchJobId := ctx.jobId
      workflowExecutionId := some ctx.executionId, evaluationRunId := some evaluationRunId
      decision := .awaitReview, failureCategory := .needsHumanReview
      reasonCode := "AWAIT_REVIEW_POLICY", decisionFingerprint := fingerprint
      createdAt := now }
  if created then do
    let ok ← onJob ctx.jobId (transitionAwaitingReview · ctx.claimToken now)
    require (ok = true) (.claimOwnership "transition_awaiting_review")
    enqueueEvent (buildResearchJobAwaitingReview eventId ctx.jobId ctx.executionId now)
  else return ()

/-- Check for interrupts after graph invoke and route accordingly. -/
def handlePostInvoke (ctx : GraphContext) (finalState : GraphState) :
    Activity ProcessingOutcome := do
  let snapshotAfter ← getState ctx.executionId
  match snapshotAfter.bind Checkpoint.next with
  | some next =>
      if next = .complete ∧ finalState.disposition = some .awaitReview then do
        Program.atomically (recordAwaitReview ctx finalState.evaluationRunId)
        return .pausedForReview ctx.executionId
      else do
        Program.atomically (failExecutionTx ctx.jobId ctx.executionId ctx.claimToken)
        .raise (.runtimeError "Workflow interrupted before completion")
  | none =>
      if Python.strip finalState.result = "" then
        .raise (.runtimeError "Workflow finished without a result")
      else do
        Program.atomically (completeExecutionTx ctx.jobId ctx.executionId ctx.claimToken)
        return .completed finalState.result ctx.executionId

/-- Handle REVIEW_COMPLETE: verify checkpoint, invoke complete only. -/
def invokeReviewComplete (ctx : GraphContext) : Activity ProcessingOutcome := do
  let snapshot ← getState ctx.executionId
  if snapshot.bind Checkpoint.next ≠ some .complete then do
    Program.atomically (failExecutionTx ctx.jobId ctx.executionId ctx.claimToken)
    return .terminalFailed "REVIEW_COMPLETE_BAD_CHECKPOINT" (some ctx.executionId)
  else do
    let finalState ← invokeGraph ctx none
    let snapshotAfter ← getState ctx.executionId
    if (snapshotAfter.bind Checkpoint.next).isSome then
      .raise (.runtimeError "Workflow interrupted after review-complete invoke")
    else if Python.strip finalState.result = "" then
      .raise (.runtimeError "Workflow finished without a result")
    else do
      Program.atomically (completeExecutionTx ctx.jobId ctx.executionId ctx.claimToken)
      return .completed finalState.result ctx.executionId

/-! ### Exceptions -/

/-- `schedule_retry` on the job and its executions. -/
def scheduleRetryTx (jobId claimToken : String) (nextAttemptAt now : Instant)
    (abandonExecutionId : Option String) : Transaction Unit := do
  let scheduled ← Tx.compute fun w =>
    (scheduleRetry w.executions (w.jobs.lookup jobId) claimToken nextAttemptAt now
      abandonExecutionId).mapError Exc.persistence
  match scheduled with
  | some (row, executions) =>
      Tx.modify fun w => { w with
        jobs := w.jobs.insert jobId row, executions := executions }
  | none => Tx.throw (.claimOwnership "schedule_retry")

/-- The row of the attempt a retry abandons, when there is one. -/
def recordAbandoned (jobId attemptId policyDecisionId : String) (executionId : Option String)
    (attemptNumber : ℕ) (nextAttemptAt now : Instant) : Transaction Unit :=
  match executionId with
  | some abandoned => do
      let attempts ← Tx.compute fun w => insertRecoveryAttempt w.recoveryAttempts
        { id := attemptId, researchJobId := jobId, policyDecisionId := policyDecisionId
          abandonedWorkflowExecutionId := abandoned, attemptNumber := attemptNumber
          nextAttemptAt := nextAttemptAt, createdAt := now }
      Tx.modify fun w => { w with recoveryAttempts := attempts }
  | none => pure ()

/-- The decision to retry, the abandoned attempt, the transition of the job and its event; or,
when the decision is stored already, what it scheduled. -/
def recordRetry (settings : Settings) (jobId claimToken : String) (executionId : Option String)
    (decision : PolicyDecision) (counts : AttemptCounts) : Transaction (Instant × ℕ) := do
  let now ← Tx.reading Env.now
  let jitter ← Tx.reading Env.jitter
  let decisionId ← Tx.reading fun e => e.uuid 0
  let attemptId ← Tx.reading fun e => e.uuid 1
  let eventId ← Tx.reading fun e => e.uuid 2
  let attemptNumber := counts.jobRetryCount + 1
  let nextAt := scheduleNextAttemptAt settings.retry now attemptNumber jitter
  let fingerprint := fingerprintPolicyDecision settings.sha256
    { researchJobId := jobId, workflowExecutionId := executionId, evaluationRunId := none
      decision := decision.action, failureCategory := decision.failureCategory
      reasonCode := decision.reasonCode, counts := counts }
  let (authoritativeId, created) ← recordPolicyDecision
    { id := decisionId, researchJobId := jobId, workflowExecutionId := executionId
      evaluationRunId := none, decision := decision.action
      failureCategory := decision.failureCategory, reasonCode := decision.reasonCode
      decisionFingerprint := fingerprint, createdAt := now }
  if created then do
    recordAbandoned jobId attemptId authoritativeId executionId attemptNumber nextAt now
    scheduleRetryTx jobId claimToken nextAt now executionId
    enqueueEvent
      (buildResearchJobRetryScheduled eventId jobId executionId attemptNumber nextAt now)
    return (nextAt, attemptNumber)
  else do
    let attempts ← Tx.read World.recoveryAttempts
    match attempts.find? (·.policyDecisionId = authoritativeId) with
    | some existing => return (existing.nextAttemptAt, existing.attemptNumber)
    | none => return (nextAt, attemptNumber)

/-- Fail the bound execution, when there is one. -/
def failBoundExecution (jobId claimToken : String) (executionId : Option String) :
    Activity Unit :=
  match executionId with
  | some executionId => Program.atomically (failExecutionTx jobId executionId claimToken)
  | none => .ret ()

/-- Categorize exception and decide retry vs terminal. -/
def handleException (settings : Settings) (jobId claimToken : String)
    (executionId : Option String) (x : Exc) : Activity ProcessingOutcome :=
  if x.isEvaluationTerminal then do
    failBoundExecution jobId claimToken executionId
    return .terminalFailed "EvaluationTerminalError" executionId
  else do
    let (repairCount, jobRetryCount, evaluationAttemptCount) ← Program.atomically
      (Tx.read fun w => getAttemptCounts (w.jobs.lookup jobId))
    let counts : AttemptCounts := ⟨repairCount, jobRetryCount, evaluationAttemptCount⟩
    let decision := decideForException x counts
    if decision.action = .retry then do
      let (nextAt, attemptNumber) ← Program.atomically
        (recordRetry settings jobId claimToken executionId decision counts)
      return .retryScheduled (executionId.getD "") nextAt attemptNumber
    else do
      failBoundExecution jobId claimToken executionId
      return .terminalFailed decision.reasonCode executionId

/-- The two `except` clauses of a call. -/
def exceptClauses (settings : Settings) (jobId claimToken : String)
    (executionId : Option String) (x : Exc) : Activity ProcessingOutcome :=
  if x.isRuntimeError then .raise x
  else handleException settings jobId claimToken executionId x

/-! ### The call -/

/-- The result of a job that has completed already, for a claim that does not continue one. -/
def completedReplay (w : World) (claimed : ClaimedResearchJob) (row : ResearchJobRow) :
    Option ProcessingOutcome :=
  match row.result with
  | some result =>
      if claimed.continuationMode = .none ∧ row.status = .completed ∧
          Python.strip result ≠ "" then
        some (.completed result
          (row.activeWorkflowExecutionId.getD (latestCompleted.getD claimed.job.id)))
      else none
  | none => none
where
  /-- A completed execution of the job that finished last. -/
  latestCompleted : Option String :=
    (((w.executions.entries.map (·.2)).filter fun execution =>
      execution.researchJobId = claimed.job.id && execution.status = .completed).foldl
        (fun latest execution => match latest with
          | none => some execution
          | some best => if best.finishedAt.getD 0 < execution.finishedAt.getD 0
              then some execution else some best) none).map (·.id)

/-- Fail closed when the durable job profile is missing or mismatched. -/
def requireBoundProfile (settings : Settings) (jobId : String) : Activity String := do
  let stored ← Program.atomically
    (Tx.read fun w => (w.jobs.lookup jobId).bind ResearchJobRow.evaluationProfile)
  Program.lift (Checked.ensure (stored = some settings.evaluationProfile)
    (.evaluation .profileMismatch))
  return settings.evaluationProfile

/-- Return durable result when the active execution already completed. -/
def completedExecutionResult (jobId executionId : String) :
    Activity (Option ProcessingOutcome) := do
  let execution ← Program.atomically (Tx.read fun w => w.executions.lookup executionId)
  if execution.any fun row => row.researchJobId = jobId && row.status = .completed then do
    let snapshot ← getState executionId
    match snapshot with
    | some ⟨values, none⟩ =>
        if Python.strip values.result ≠ "" then
          return some (.completed values.result executionId)
        else return none
    | _ => return none
  else return none

/-- The short-circuit of a call that continues nothing: its active execution has completed. -/
def completedShortCircuit (claimed : ClaimedResearchJob) (activeExecutionId : Option String) :
    Activity (Option ProcessingOutcome) :=
  match claimed.continuationMode, activeExecutionId with
  | .none, some executionId => completedExecutionResult claimed.job.id executionId
  | _, _ => .ret none

/-- The body of a call once it is bound. -/
def processBound (ctx : GraphContext) (question : String) (mode : ContinuationMode) :
    Activity ProcessingOutcome :=
  if mode = .reviewComplete then invokeReviewComplete ctx
  else do
    let snapshot ← getState ctx.executionId
    match snapshot with
    | some ⟨_, some _⟩ => do
        let finalState ← invokeGraph ctx none
        handlePostInvoke ctx finalState
    | some ⟨values, none⟩ =>
        if Python.strip values.result ≠ "" then do
          Program.atomically (completeExecutionTx ctx.jobId ctx.executionId ctx.claimToken)
          return .completed values.result ctx.executionId
        else do
          let finalState ← invokeGraph ctx (some (initialGraphState ctx.jobId question))
          handlePostInvoke ctx finalState
    | none => do
        let finalState ← invokeGraph ctx (some (initialGraphState ctx.jobId question))
        handlePostInvoke ctx finalState

/-- Bind, run the graph, and turn an exception into an outcome. -/
def processUnfinished (settings : Settings) (claimed : ClaimedResearchJob) (profile : String)
    (activeExecutionId : Option String) : Activity ProcessingOutcome := do
  let bound ← (bindExecution claimed.job.id claimed.claimToken claimed.continuationMode
    activeExecutionId).attempt
  match bound with
  | .error x => exceptClauses settings claimed.job.id claimed.claimToken none x
  | .ok executionId =>
      tryCatch
        (processBound
          { settings := settings, jobId := claimed.job.id, executionId := executionId
            claimToken := claimed.claimToken, evaluationProfile := profile }
          claimed.job.question claimed.continuationMode)
        (exceptClauses settings claimed.job.id claimed.claimToken (some executionId))

/-- What a call reads of its job first: the execution it is bound to, and the result it has. -/
def readJob (claimed : ClaimedResearchJob) (w : World) :
    Option String × Option ProcessingOutcome :=
  let job := w.jobs.lookup claimed.job.id
  (claimed.activeWorkflowExecutionId <|> job.bind (·.activeWorkflowExecutionId),
    job.bind (completedReplay w claimed))

/-- The call once it is known that the job has no result yet. -/
def processOpen (settings : Settings) (claimed : ClaimedResearchJob)
    (activeExecutionId : Option String) : Activity ProcessingOutcome := do
  let profile ← requireBoundProfile settings claimed.job.id
  let short ← completedShortCircuit claimed activeExecutionId
  match short with
  | some outcome => return outcome
  | none => processUnfinished settings claimed profile activeExecutionId

/-- Process a claimed research job. -/
def process (settings : Settings) (claimed : ClaimedResearchJob) :
    Activity ProcessingOutcome := do
  let _ ← Program.lift (fingerprintJobClaimToken settings.sha256 claimed.claimToken)
  let (active, replay) ← Program.atomically (Tx.read (readJob claimed))
  match replay with
  | some outcome => return outcome
  | none => processOpen settings claimed active

end Atlas
