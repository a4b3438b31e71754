/-
**Runs of the research graph.**

The nodes of the graph with what they do to the database, as `workflow/graph.py` and the callbacks
of `workflow/processor.py` have it: the audit rows around each node, the evaluation, the policy
callback, the look-up of an approval and the storing of the report.  A run goes from node to node
and stores a checkpoint after each, before the next one starts; a node that raises leaves the
checkpoint before it, from which a later run starts again.

Main definitions:

* `Atlas.GraphContext` — what the nodes know besides the state;
* `Atlas.policyCallback`, `Atlas.completionAuthorized`, `Atlas.persistFinal` — the callbacks;
* `Atlas.nodeBody`, `Atlas.wrapNode` — the nodes;
* `Atlas.runGraph`, `Atlas.invokeGraph` — runs and invocations.
-/

import Atlas.EvaluationService

set_option relaxedAutoImplicit false
set_option autoImplicit false

namespace Atlas

/-- The runtime context of a graph run. -/
structure GraphContext where
  settings : Settings
  jobId : String
  executionId : String
  claimToken : String
  evaluationProfile : String

/-! ### The audit rows -/

/-- The row of an attempt that is still open. -/
def NodeExecutionRow.isOpen (row : NodeExecutionRow) (executionId : String) (node : Node)
    (attempt : ℕ) : Bool :=
  row.workflowExecutionId = executionId && row.node = node && row.attempt = attempt &&
    row.status = .started

/-- Insert a STARTED node attempt; return the attempt number (>= 1). -/
def beginNodeAttempt (executionId : String) (node : Node) : Transaction ℕ := do
  let now ← Tx.reading Env.now
  let rows ← Tx.read World.nodeExecutions
  let attempt := ((rows.filter fun row =>
    row.workflowExecutionId = executionId && row.node = node).map (·.attempt)).foldl max 0 + 1
  Tx.modify fun w => { w with
    nodeExecutions := w.nodeExecutions ++ [
      { workflowExecutionId := executionId, node := node, attempt := attempt, status := .started
        startedAt := now, finishedAt := none, error := none }] }
  return attempt

/-- Close an open attempt with a status and an error. -/
def closeNodeAttempt (executionId : String) (node : Node) (attempt : ℕ)
    (status : NodeExecutionStatus) (error : Option String) : Transaction Unit := do
  let now ← Tx.reading Env.now
  Tx.modify fun w => { w with
    nodeExecutions := w.nodeExecutions.map fun row =>
      if row.isOpen executionId node attempt then
        { row with status := status, finishedAt := some now, error := error }
      else row }

/-- `sanitize_node_error`. -/
def sanitizeNodeError (x : Exc) : String := x.className ++ ": node execution failed"

/-! ### The callbacks -/

/-- The row of a decision of the policy callback. -/
def evaluationDecisionRow (ctx : GraphContext) (evalRunId : String) (decision : PolicyDecision)
    (counts : AttemptCounts) (id : String) (now : Instant) : PolicyDecisionRow where
  id := id
  researchJobId := ctx.jobId
  workflowExecutionId := some ctx.executionId
  evaluationRunId := some evalRunId
  decision := decision.action
  failureCategory := decision.failureCategory
  reasonCode := decision.reasonCode
  decisionFingerprint := fingerprintPolicyDecision ctx.settings.sha256
    { researchJobId := ctx.jobId, workflowExecutionId := some ctx.executionId
      evaluationRunId := some evalRunId, decision := decision.action
      failureCategory := decision.failureCategory, reasonCode := decision.reasonCode
      counts := counts }
  createdAt := now

/-- The decision of the policy callback, stored with the counter change that goes with it. -/
def recordEvaluationDecision (ctx : GraphContext) (evalRunId : String) (decision : PolicyDecision)
    (counts : AttemptCounts) : Transaction Unit := do
  let now ← Tx.reading Env.now
  let proposedId ← Tx.reading fun e => e.uuid 0
  let (_, created) ← recordPolicyDecision
    (evaluationDecisionRow ctx evalRunId decision counts proposedId now)
  if created ∧ decision.action = .repair then do
    let ok ← onJob ctx.jobId (incrementRepairCount · ctx.claimToken now)
    require (ok = true) (.claimOwnership "increment_repair_count")
  else return ()

/-- The counters the policy of an evaluation sees: the larger of the row's and the graph's. -/
def policyCounts (stored : ℕ × ℕ × ℕ) (repairCount evaluationAttempt : ℕ) : AttemptCounts :=
  { repairCount := max stored.1 repairCount, jobRetryCount := stored.2.1
    evaluationAttemptCount := max stored.2.2 evaluationAttempt }

/-- The policy of an evaluation that did not pass. -/
def policyCallback (ctx : GraphContext) (evalRunId : String)
    (repairCount evaluationAttempt : ℕ) : Activity PolicyAction :=
  if evalRunId = "" then .ret .terminal
  else do
    let runs ← Program.atomically (Tx.read fun w => runsOfJob w.evaluationRuns ctx.jobId)
    match runs.find? (·.runId = evalRunId) with
    | none => .ret .terminal
    | some result => do
        let stored ← Program.atomically
          (Tx.read fun w => getAttemptCounts (w.jobs.lookup ctx.jobId))
        let counts := policyCounts stored repairCount evaluationAttempt
        let decision := decideForEvaluation (result.passed.getD false) result.dimensions counts
        Program.atomically (recordEvaluationDecision ctx evalRunId decision counts)
        .ret decision.action

/-- Whether the latest approval of the execution is one of this very candidate. -/
def World.authorizes (w : World) (jobId executionId candidateFingerprint : String) : Bool :=
  candidateFingerprint.length = 64 &&
    (latestApproveForExecution w.reviewDecisions jobId executionId).any fun decision =>
      decision.candidateFingerprint = candidateFingerprint

/-- `_completion_auth_checker`. -/
def completionAuthorized (jobId executionId candidateFingerprint : String) : Activity Bool :=
  if candidateFingerprint.length ≠ 64 then .ret false
  else Program.atomically
    (Tx.read fun w => w.authorizes jobId executionId candidateFingerprint)

/-- The override the complete node goes by: without a passing evaluation it asks the checker. -/
def completionOverride (ctx : GraphContext) (state : GraphState) : Activity Bool :=
  if state.evaluationPassed then .ret false
  else completionAuthorized state.jobId ctx.executionId state.evaluationFingerprint

/-- `ReportArtifactConflictError`. -/
def reportArtifactConflict : Exc := .other "ReportArtifactConflictError" false

/-- Persist or idempotently replay a final report for an execution, under the claim. -/
def persistFinalReport (ctx : GraphContext) (jobId bodyText : String)
    (claims : List ClaimStructured) : Transaction Unit := do
  let now ← Tx.reading Env.now
  require (Python.strip ctx.claimToken ≠ "") .evidenceOwnership
  let job ← Tx.read fun w => w.jobs.lookup jobId
  require (job.any fun row => ownsRunningClaim row ctx.claimToken now) .evidenceOwnership
  let existing ← Tx.read fun w => w.reportArtifacts.lookup ctx.executionId
  match existing with
  | some artifact =>
      require (artifact.researchJobId = jobId ∧
        ctx.settings.sha256 artifact.bodyText = ctx.settings.sha256 bodyText ∧
        artifact.claims = claims) reportArtifactConflict
  | none =>
      Tx.modify fun w => { w with
        reportArtifacts := w.reportArtifacts.insert ctx.executionId
          { researchJobId := jobId, workflowExecutionId := ctx.executionId
            bodyText := bodyText, claims := claims, createdAt := now } }

/-- Store the report of the complete node. -/
def persistFinal (ctx : GraphContext) (jobId bodyText : String) (claims : List ClaimStructured) :
    Activity Unit := do
  Program.lift (Checked.ensure (Python.strip bodyText ≠ "")
    (.other "EvidenceValidationError" false))
  ask Outside.citations
  Program.atomically (persistFinalReport ctx jobId (Python.strip bodyText) claims)

/-! ### The nodes -/

/-- What the evaluate node makes of a foreign exception; those of evaluation and of models go
on. -/
def asEvaluationError {α : Type} (error : EvaluationError) (x : Exc) : Activity α :=
  match x with
  | .evaluation _ | .model _ => .raise x
  | _ => .raise (.evaluation error)

/-- 25 seconds, the time an evaluation has. -/
def evaluationDeadline : Instant := 25000000

/-- A node, from the state to the state it leaves. -/
def nodeBody (ctx : GraphContext) (node : Node) (state : GraphState) : Activity GraphState :=
  match node with
  | .validate => Program.lift (validateNode state)
  | .plan => do
      let tasks ← ask Outside.plan
      return planNode state tasks
  | .research => do
      let (findings, evidenceItemIds) ← ask Outside.research
      return researchNode state findings evidenceItemIds
  | .draft => do
      let (draft, claims) ← ask Outside.draft
      return draftNode state draft claims
  | .verifyCitations => do
      let claims ← ask Outside.verifiedClaims
      return verifyCitationsNode state claims
  | .evaluate => do
      let _ ← tryCatch (ask Outside.provenance) (asEvaluationError .terminal)
      let now ← Program.reading Env.now
      Program.lift (Checked.ensure (ctx.claimToken ≠ "") (.evaluation .validation))
      let result ← tryCatch
        (evaluationRun ctx.settings.sha256 ctx.executionId ctx.evaluationProfile
          (state.evaluationAttempt + 1) state.jobId ctx.claimToken (now + evaluationDeadline))
        (asEvaluationError .base)
      return evaluateNode state result.answer
  | .policy =>
      if state.evaluationPassed then .ret (policyNode state .complete)
      else do
        let disposition ← policyCallback ctx state.evaluationRunId state.repairCount
          state.evaluationAttempt
        return policyNode state disposition
  | .repair => .ret (repairNode state)
  | .awaitReview => .ret state
  | .complete => do
      let override ← completionOverride ctx state
      let report ← Program.lift (completeNode state override)
      Program.lift (Checked.ensure (ctx.claimToken ≠ "")
        (.valueError "Job claim token is required for report persistence."))
      persistFinal ctx state.jobId report state.claims
      return { state with result := report }
  | .terminal => .raise (.evaluation .terminal)

/-- A node with its audit rows. -/
def wrapNode (ctx : GraphContext) (node : Node) (state : GraphState) : Activity GraphState := do
  let attempt ← Program.atomically (beginNodeAttempt ctx.executionId node)
  let state ← tryCatch (nodeBody ctx node state) fun x => do
    Program.atomically
      (closeNodeAttempt ctx.executionId node attempt .failed (some (sanitizeNodeError x)))
    .raise x
  Program.atomically (closeNodeAttempt ctx.executionId node attempt .completed none)
  return state

/-! ### Runs -/

/-- `get_state`: the checkpoint of an execution's thread. -/
def getState (executionId : String) : Activity (Option Checkpoint) :=
  Program.atomically (Tx.read fun w => w.checkpoints.lookup executionId)

def saveCheckpoint (executionId : String) (checkpoint : Checkpoint) : Activity Unit :=
  Program.atomically
    (Tx.modify fun w => { w with checkpoints := w.checkpoints.insert executionId checkpoint })

/-- What the recursion below ends with where its fuel does not suffice. -/
def outOfFuel : Exc := .other "RuntimeError" true

/-- Run the graph from a node on; it stops after `await_review`.  The fuel is for the recursion: the
graph has no bound on its nodes. -/
def runGraph (ctx : GraphContext) : ℕ → GraphState → Node → Activity GraphState
  | 0, _, _ => .raise outOfFuel
  | fuel + 1, state, node => do
      let state ← wrapNode ctx node state
      saveCheckpoint ctx.executionId { values := state, next := node.next state }
      if node = .awaitReview then return state
      else
        match node.next state with
        | none => return state
        | some next => runGraph ctx fuel state next

/-- Invoke the graph: with an input from the start, without one from where its checkpoint says. -/
def invokeGraphWithin (ctx : GraphContext) (fuel : ℕ) (input : Option GraphState) :
    Activity GraphState :=
  match input with
  | some state => do
      saveCheckpoint ctx.executionId { values := state, next := some .validate }
      runGraph ctx fuel state .validate
  | none => do
      let checkpoint ← getState ctx.executionId
      match checkpoint with
      | some ⟨values, some next⟩ => runGraph ctx fuel values next
      | some ⟨values, none⟩ => return values
      | none => .raise (.other "EmptyInputError" false)

/-- The nodes a run can take, which is fuel enough for every run. -/
def maxNodeRuns : ℕ := 13

/-- An invocation of the graph. -/
def invokeGraph (ctx : GraphContext) (input : Option GraphState) : Activity GraphState :=
  invokeGraphWithin ctx maxNodeRuns input

end Atlas
