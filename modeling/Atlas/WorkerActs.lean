/-
**What a worker can commit.**

Everything a worker does to the database while it processes a claim is one of a few transactions.
This module names them, from the inside of a call to its outside: what the graph commits, what a
call commits around the graph, what it commits once it is bound, and what the worker commits in
all.  That each act of processing is one of these is proved once; every property of what workers
leave in the database is then a property of the transactions.

Main definitions:

* `Atlas.Aside` — changes beside the queue and its books;
* `Atlas.GraphCommit`, `Atlas.CallCommit`, `Atlas.BoundCommit`, `Atlas.WorkerCommit` — the
  transactions;
* `Atlas.NodeCommit` — those of a node, between its audit rows.

Main results:

* `Atlas.acts_process`, `Atlas.acts_settle` — **every act of a worker is one of these
  transactions**.
-/

import Atlas.EvaluationFencing
import Atlas.PolicyReplay

set_option relaxedAutoImplicit false
set_option autoImplicit false

namespace Atlas

/-! ### The transactions -/

/-- The change is beside the queue and its books: at most audit rows, checkpoints, reports and
recovery attempts are others. -/
structure Aside (w w' : World) : Prop where
  jobs : w'.jobs = w.jobs
  executions : w'.executions = w.executions
  evaluationRuns : w'.evaluationRuns = w.evaluationRuns
  policyDecisions : w'.policyDecisions = w.policyDecisions
  reviewDecisions : w'.reviewDecisions = w.reviewDecisions
  outbox : w'.outbox = w.outbox

theorem Aside.refl (w : World) : Aside w w := ⟨rfl, rfl, rfl, rfl, rfl, rfl⟩

/-- What a graph run commits. -/
inductive GraphCommit (settings : Settings) (jobId token : String) (e : Env) (w w' : World) : Prop
  | aside (h : Aside w w')
  | lockRun (request : EvaluationService.Request) (loaded : EvaluationService.LoadedJob)
      (found : Option (String × String × Option EvaluationRunResult))
      (h : EvaluationService.lockRun settings.sha256 request loaded e w = .ok (found, w'))
  | beginRun (request : EvaluationService.Request) (loaded : EvaluationService.LoadedJob)
      (answer : String × String × Option EvaluationRunResult)
      (h : EvaluationService.beginRun settings.sha256 request loaded e w = .ok (answer, w'))
  | finalizeSuccess (runId ownershipToken : String) (passed : Bool)
      (dimensions : List DimensionResult) (result : EvaluationRunResult)
      (h : EvaluationService.finalizeSuccess runId ownershipToken passed dimensions e w
        = .ok (result, w'))
  | finalizeFailure (runId ownershipToken : String)
      (h : EvaluationService.finalizeFailure runId ownershipToken e w = .ok ((), w'))
  | recordEvaluationDecision (ctx : GraphContext) (evalRunId : String) (passed : Bool)
      (dimensions : List DimensionResult) (counts : AttemptCounts) (hjob : ctx.jobId = jobId)
      (htoken : ctx.claimToken = token)
      (h : Atlas.recordEvaluationDecision ctx evalRunId
        (decideForEvaluation passed dimensions counts) counts e w = .ok ((), w'))

/-- What a node commits between its audit rows. -/
structure NodeCommit (settings : Settings) (jobId token : String) (e : Env) (w w' : World) :
    Prop where
  graph : GraphCommit settings jobId token e w w'
  rows : w'.nodeExecutions = w.nodeExecutions

/-- What a call commits around its graph. -/
inductive CallCommit (settings : Settings) (jobId token : String) (e : Env) (w w' : World) : Prop
  | graph (h : GraphCommit settings jobId token e w w')
  | completeExecution (executionId : String)
      (h : completeExecutionTx jobId executionId token e w = .ok ((), w'))
  | failExecution (executionId : String)
      (h : failExecutionTx jobId executionId token e w = .ok ((), w'))
  | recordAwaitReview (ctx : GraphContext) (evaluationRunId : String) (hjob : ctx.jobId = jobId)
      (htoken : ctx.claimToken = token)
      (h : Atlas.recordAwaitReview ctx evaluationRunId e w = .ok ((), w'))

/-- What a worker commits that creates no execution. -/
inductive BoundCommit (settings : Settings) (jobId token : String) (e : Env) (w w' : World) : Prop
  | call (h : CallCommit settings jobId token e w w')
  | recordRetry (executionId : Option String) (x : Exc) (counts : AttemptCounts)
      (scheduled : Instant × ℕ) (haction : (decideForException x counts).action = .retry)
      (h : Atlas.recordRetry settings jobId token executionId (decideForException x counts) counts
        e w = .ok (scheduled, w'))
  | finalizeCompletion (result : String) (owned : Bool)
      (h : finalizeCompletionTx jobId token result e w = .ok (owned, w'))
  | finalizeFailure (reason reasonClass : String) (owned : Bool)
      (h : finalizeFailureTx jobId token reason reasonClass e w = .ok (owned, w'))

/-- What a worker commits. -/
inductive WorkerCommit (settings : Settings) (jobId token : String) (e : Env) (w w' : World) : Prop
  | bound (h : BoundCommit settings jobId token e w w')
  | createAndBind (executionId : String)
      (h : Atlas.createAndBind jobId token e w = .ok (executionId, w'))

section Refl

variable {settings : Settings} {jobId token : String} (e : Env) (w : World)

theorem GraphCommit.refl : GraphCommit settings jobId token e w w := .aside (.refl w)

theorem NodeCommit.refl : NodeCommit settings jobId token e w w := ⟨.refl e w, rfl⟩

theorem CallCommit.refl : CallCommit settings jobId token e w w := .graph (.refl e w)

theorem BoundCommit.refl : BoundCommit settings jobId token e w w := .call (.refl e w)

theorem WorkerCommit.refl : WorkerCommit settings jobId token e w w := .bound (.refl e w)

end Refl

/-! ### The graph -/

section Graph

/-- The acts of a program are commits of a graph run. -/
abbrev GraphActs (ctx : GraphContext) {α : Type} (p : Activity α) : Prop :=
  p.Acts (GraphCommit ctx.settings ctx.jobId ctx.claimToken)

/-- The acts of a program are commits of a node. -/
abbrev NodeActs (ctx : GraphContext) {α : Type} (p : Activity α) : Prop :=
  p.Acts (NodeCommit ctx.settings ctx.jobId ctx.claimToken)

variable {ctx : GraphContext} {α : Type}

theorem acts_ask {R : Env → World → World → Prop} (hrefl : ∀ e w, R e w w)
    (question : Outside → Except Exc α) : (ask question).Acts R :=
  .bind (.reading hrefl) fun _ => .lift _

theorem nodeActs_atomically {t : Transaction α}
    (ht : ∀ e w a w', t e w = .ok (a, w') → NodeCommit ctx.settings ctx.jobId ctx.claimToken e w w') :
    NodeActs ctx (Program.atomically t) :=
  .atomically NodeCommit.refl ht

theorem nodeActs_beginOrResume (request : EvaluationService.Request) :
    NodeActs ctx (EvaluationService.beginOrResume ctx.settings.sha256 request) := by
  refine .bind (nodeActs_atomically fun e w loaded w' h => ?_) fun loaded => ?_
  · obtain ⟨-, -, rfl⟩ := EvaluationService.loadJob_eq_ok h
    exact .refl e _
  refine .bind (nodeActs_atomically fun e w found w' h => ?_) fun found => ?_
  · refine ⟨.lockRun request loaded found h, ?_⟩
    obtain ⟨runs, rfl⟩ := EvaluationService.lockRun_onlyRuns h
    rfl
  cases found with
  | some answer => exact .ret answer
  | none =>
      refine nodeActs_atomically fun e w answer w' h => ⟨.beginRun request loaded answer h, ?_⟩
      obtain ⟨-, row, row', runs, -, rfl⟩ := EvaluationService.beginRun_recounts h
      rfl

theorem nodeActs_finalizeFailure (runId ownershipToken : String) :
    NodeActs ctx (Program.atomically (EvaluationService.finalizeFailure runId ownershipToken)) := by
  refine nodeActs_atomically fun e w u w' h => ⟨.finalizeFailure runId ownershipToken h, ?_⟩
  obtain ⟨runs, rfl⟩ := EvaluationService.finalizeFailure_onlyRuns h
  rfl

theorem nodeActs_evaluationRun (executionId profile : String) (attempt : ℕ) (stateJobId : String)
    (deadline : Instant) :
    NodeActs ctx (evaluationRun ctx.settings.sha256 executionId profile attempt stateJobId
      ctx.claimToken deadline) := by
  refine .bind (acts_ask NodeCommit.refl _) fun fingerprint => ?_
  refine .bind (nodeActs_beginOrResume _) ?_
  rintro ⟨runId, ownershipToken, replay⟩
  cases replay with
  | some result => exact .ret result
  | none =>
      have hfail : NodeActs ctx
          (Program.atomically (EvaluationService.finalizeFailure runId ownershipToken)) :=
        nodeActs_finalizeFailure runId ownershipToken
      refine .tryCatch ?_ fun x => ?_
      · refine .bind (acts_ask NodeCommit.refl _) ?_
        rintro ⟨passed, dimensions⟩
        refine nodeActs_atomically fun e w result w' h => ?_
        refine ⟨.finalizeSuccess runId ownershipToken passed dimensions result h, ?_⟩
        obtain ⟨runs, rfl⟩ := EvaluationService.finalizeSuccess_onlyRuns h
        rfl
      · -- the attempt is failed, unless its ownership is lost
        unfold finalizeOwnedFailure
        split
        · exact .raise _
        · exact .raise _
        · exact .bind hfail fun _ => .raise _
        · exact .bind hfail fun _ => .raise _
        · exact .bind hfail fun _ => .raise _

theorem acts_asEvaluationError {R : Env → World → World → Prop} (error : EvaluationError)
    (x : Exc) : (asEvaluationError error x : Activity α).Acts R := by
  unfold asEvaluationError
  split <;> exact .raise _

theorem nodeActs_policyCallback (evalRunId : String) (repairCount evaluationAttempt : ℕ) :
    NodeActs ctx (policyCallback ctx evalRunId repairCount evaluationAttempt) := by
  unfold policyCallback
  split
  · exact .ret _
  · refine .bind (.read NodeCommit.refl) fun runs => ?_
    cases runs.find? (·.runId = evalRunId) with
    | none => exact .ret _
    | some result =>
        refine .bind (.read NodeCommit.refl) fun stored => ?_
        refine .bind (nodeActs_atomically fun e w u w' h => ?_) fun _ => .ret _
        refine ⟨.recordEvaluationDecision ctx evalRunId _ _ _ rfl rfl h, ?_⟩
        obtain ⟨id, decisions, -, ⟨-, -, row, -, rfl⟩ | ⟨-, rfl⟩⟩ := recordEvaluationDecision_eq_ok h
        · rfl
        · rfl

theorem nodeActs_completionOverride (state : GraphState) :
    NodeActs ctx (completionOverride ctx state) := by
  unfold completionOverride completionAuthorized
  split
  · exact .ret _
  · split
    · exact .ret _
    · exact .read NodeCommit.refl

/-- **The acts of a node between its audit rows.** -/
theorem nodeActs_nodeBody (node : Node) (state : GraphState) :
    NodeActs ctx (nodeBody ctx node state) := by
  cases node with
  | validate => exact .lift _
  | plan | research | draft | verifyCitations =>
      exact .bind (acts_ask NodeCommit.refl _) fun _ => .ret _
  | evaluate =>
      refine .bind (.tryCatch (acts_ask NodeCommit.refl _) (acts_asEvaluationError _)) fun _ => ?_
      refine .bind (.reading NodeCommit.refl) fun now => ?_
      refine .bind (.lift _) fun _ => ?_
      refine .bind (.tryCatch ?_ (acts_asEvaluationError _)) fun _ => .ret _
      exact nodeActs_evaluationRun _ _ _ _ _
  | policy =>
      simp only [nodeBody]
      split
      · exact .ret _
      · exact .bind (nodeActs_policyCallback _ _ _) fun _ => .ret _
  | repair | awaitReview => exact .ret _
  | complete =>
      refine .bind (nodeActs_completionOverride state) fun override => ?_
      refine .bind (.lift _) fun report => ?_
      refine .bind (.lift _) fun _ => ?_
      refine .bind ?_ fun _ => .ret _
      refine .bind (.lift _) fun _ => ?_
      refine .bind (acts_ask NodeCommit.refl _) fun _ => ?_
      refine nodeActs_atomically fun e w u w' h => ?_
      obtain ⟨reports, rfl⟩ := persistFinalReport_onlyReports h
      exact ⟨.aside ⟨rfl, rfl, rfl, rfl, rfl, rfl⟩, rfl⟩
  | terminal => exact .raise _

/-- A transaction beside the books. -/
theorem graphActs_aside {t : Transaction α}
    (ht : ∀ e w a w', t e w = .ok (a, w') → Aside w w') : GraphActs ctx (Program.atomically t) :=
  .atomically GraphCommit.refl fun e w a w' h => .aside (ht e w a w' h)

/-- The acts of a node are commits of a graph run. -/
theorem graphActs_nodeBody (node : Node) (state : GraphState) :
    GraphActs ctx (nodeBody ctx node state) :=
  (nodeActs_nodeBody node state).mono fun _ _ _ h => h.graph

theorem graphActs_closeNodeAttempt (executionId : String) (node : Node) (attempt : ℕ)
    (status : NodeExecutionStatus) (error : Option String) :
    GraphActs ctx (Program.atomically (closeNodeAttempt executionId node attempt status error)) := by
  refine graphActs_aside fun e w u w' h => ?_
  simp only [closeNodeAttempt, Tx.bind_eq_ok, Tx.reading_eq_ok, Tx.modify_eq_ok] at h
  obtain ⟨_, _, ⟨-, rfl⟩, rfl⟩ := h
  exact ⟨rfl, rfl, rfl, rfl, rfl, rfl⟩

theorem graphActs_wrapNode (node : Node) (state : GraphState) :
    GraphActs ctx (wrapNode ctx node state) := by
  refine .bind (graphActs_aside fun e w attempt w' h => ?_) fun attempt => ?_
  · simp only [beginNodeAttempt, Tx.bind_eq_ok, Tx.reading_eq_ok, Tx.read_eq_ok, Tx.modify_eq_ok,
      Tx.pure_eq_ok] at h
    obtain ⟨_, _, ⟨-, rfl⟩, _, _, ⟨-, rfl⟩, _, _, rfl, -, rfl⟩ := h
    exact ⟨rfl, rfl, rfl, rfl, rfl, rfl⟩
  · refine .bind (.tryCatch (graphActs_nodeBody node state) fun x => ?_) fun state => ?_
    · exact .bind (graphActs_closeNodeAttempt _ _ _ _ _) fun _ => .raise x
    · exact .bind (graphActs_closeNodeAttempt _ _ _ _ _) fun _ => .ret state

theorem graphActs_saveCheckpoint (executionId : String) (checkpoint : Checkpoint) :
    GraphActs ctx (saveCheckpoint executionId checkpoint) := by
  refine graphActs_aside fun e w u w' h => ?_
  obtain rfl := Tx.modify_eq_ok.1 h
  exact ⟨rfl, rfl, rfl, rfl, rfl, rfl⟩

theorem graphActs_runGraph (fuel : ℕ) (state : GraphState) (node : Node) :
    GraphActs ctx (runGraph ctx fuel state node) := by
  induction fuel generalizing state node with
  | zero => exact .raise _
  | succ fuel ih =>
      refine .bind (graphActs_wrapNode node state) fun state' => ?_
      refine .bind (graphActs_saveCheckpoint _ _) fun _ => ?_
      split
      · exact .ret _
      · cases node.next state' with
        | none => exact .ret _
        | some next => exact ih state' next

/-- **The acts of a graph run.** -/
theorem graphActs_invokeGraph (input : Option GraphState) :
    GraphActs ctx (invokeGraph ctx input) := by
  cases input with
  | some state =>
      exact .bind (graphActs_saveCheckpoint _ _) fun _ => graphActs_runGraph _ _ _
  | none =>
      refine .bind (.read GraphCommit.refl) fun checkpoint => ?_
      match checkpoint with
      | some ⟨values, some next⟩ => exact graphActs_runGraph _ _ _
      | some ⟨values, none⟩ => exact .ret _
      | none => exact .raise _

end Graph

/-! ### The call -/

section Call

/-- The acts of a program are commits of a call around its graph. -/
abbrev CallActs (settings : Settings) (jobId token : String) {α : Type} (p : Activity α) : Prop :=
  p.Acts (CallCommit settings jobId token)

variable {settings : Settings} {jobId token : String} {α : Type}

theorem callActs_completeExecution (executionId : String) :
    CallActs settings jobId token
      (Program.atomically (completeExecutionTx jobId executionId token)) :=
  .atomically CallCommit.refl fun _ _ _ _ h => .completeExecution executionId h

theorem callActs_failExecution (executionId : String) :
    CallActs settings jobId token (Program.atomically (failExecutionTx jobId executionId token)) :=
  .atomically CallCommit.refl fun _ _ _ _ h => .failExecution executionId h

theorem callActs_invokeGraph (ctx : GraphContext) (input : Option GraphState) :
    CallActs ctx.settings ctx.jobId ctx.claimToken (invokeGraph ctx input) :=
  (graphActs_invokeGraph input).mono fun _ _ _ h => .graph h

theorem callActs_handlePostInvoke (ctx : GraphContext) (finalState : GraphState) :
    CallActs ctx.settings ctx.jobId ctx.claimToken (handlePostInvoke ctx finalState) := by
  refine .bind (.read CallCommit.refl) fun snapshot => ?_
  cases snapshot.bind Checkpoint.next with
  | some next =>
      dsimp only
      split
      · refine .bind (.atomically CallCommit.refl fun e w u w' h => ?_) fun _ => .ret _
        exact .recordAwaitReview ctx _ rfl rfl h
      · exact .bind (callActs_failExecution _) fun _ => .raise _
  | none =>
      dsimp only
      split
      · exact .raise _
      · exact .bind (callActs_completeExecution _) fun _ => .ret _

theorem callActs_invokeReviewComplete (ctx : GraphContext) :
    CallActs ctx.settings ctx.jobId ctx.claimToken (invokeReviewComplete ctx) := by
  refine .bind (.read CallCommit.refl) fun snapshot => ?_
  split
  · exact .bind (callActs_failExecution _) fun _ => .ret _
  · refine .bind (callActs_invokeGraph ctx none) fun finalState => ?_
    refine .bind (.read CallCommit.refl) fun snapshotAfter => ?_
    split
    · exact .raise _
    · split
      · exact .raise _
      · exact .bind (callActs_completeExecution _) fun _ => .ret _

/-- The acts of the body of a call, once it is bound. -/
theorem callActs_processBound (ctx : GraphContext) (question : String) (mode : ContinuationMode) :
    CallActs ctx.settings ctx.jobId ctx.claimToken (processBound ctx question mode) := by
  unfold processBound
  split
  · exact callActs_invokeReviewComplete ctx
  · refine .bind (.read CallCommit.refl) fun snapshot => ?_
    have hrun (input : Option GraphState) : CallActs ctx.settings ctx.jobId ctx.claimToken
        (invokeGraph ctx input >>= handlePostInvoke ctx) :=
      .bind (callActs_invokeGraph ctx input) fun state => callActs_handlePostInvoke ctx state
    match snapshot with
    | some ⟨_, some _⟩ => exact hrun none
    | some ⟨values, none⟩ =>
        dsimp only
        split
        · exact .bind (callActs_completeExecution _) fun _ => .ret _
        · exact hrun _
    | none => exact hrun _

theorem callActs_failBoundExecution (executionId : Option String) :
    CallActs settings jobId token (failBoundExecution jobId token executionId) := by
  cases executionId with
  | none => exact .ret ()
  | some executionId => exact callActs_failExecution executionId

/-- The acts of a program are commits that create no execution. -/
abbrev BoundActs (settings : Settings) (jobId token : String) {α : Type} (p : Activity α) : Prop :=
  p.Acts (BoundCommit settings jobId token)

theorem boundActs_exceptClauses (executionId : Option String) (x : Exc) :
    BoundActs settings jobId token (exceptClauses settings jobId token executionId x) := by
  have hfail : BoundActs settings jobId token (failBoundExecution jobId token executionId) :=
    (callActs_failBoundExecution executionId).mono fun _ _ _ h => .call h
  unfold exceptClauses
  split
  · exact .raise _
  unfold handleException
  split
  · exact .bind hfail fun _ => .ret _
  · refine .bind (.read BoundCommit.refl) ?_
    rintro ⟨repairCount, jobRetryCount, evaluationAttemptCount⟩
    dsimp only
    split
    · rename_i haction
      refine .bind (.atomically BoundCommit.refl fun e w scheduled w' h => ?_) fun _ => .ret _
      exact .recordRetry executionId x _ scheduled haction h
    · exact .bind hfail fun _ => .ret _

theorem boundActs_processBound (ctx : GraphContext) (question : String) (mode : ContinuationMode) :
    BoundActs ctx.settings ctx.jobId ctx.claimToken (processBound ctx question mode) :=
  (callActs_processBound ctx question mode).mono fun _ _ _ h => .call h

/-- What is done once the job is bound, or could not be bound, creates no execution. -/
theorem boundActs_afterBinding (claimed : ClaimedResearchJob) (profile : String)
    (bound : Except Exc String) :
    BoundActs settings claimed.job.id claimed.claimToken
      (match bound with
      | .error x => exceptClauses settings claimed.job.id claimed.claimToken none x
      | .ok executionId =>
          tryCatch
            (processBound
              { settings := settings, jobId := claimed.job.id, executionId := executionId
                claimToken := claimed.claimToken, evaluationProfile := profile }
              claimed.job.question claimed.continuationMode)
            (exceptClauses settings claimed.job.id claimed.claimToken (some executionId))) := by
  cases bound with
  | error x => exact boundActs_exceptClauses none x
  | ok executionId =>
      let ctx : GraphContext :=
        { settings := settings, jobId := claimed.job.id, executionId := executionId
          claimToken := claimed.claimToken, evaluationProfile := profile }
      have hbody := boundActs_processBound ctx claimed.job.question claimed.continuationMode
      exact .tryCatch hbody (boundActs_exceptClauses (some executionId))

/-- What a call reads before it is bound changes nothing. -/
theorem acts_completedShortCircuit {R : Env → World → World → Prop} (hrefl : ∀ e w, R e w w)
    (claimed : ClaimedResearchJob) (active : Option String) :
    (completedShortCircuit claimed active).Acts R := by
  unfold completedShortCircuit
  split
  · refine .bind (.read hrefl) fun execution => ?_
    split
    · refine .bind (.read hrefl) fun snapshot => ?_
      match snapshot with
      | some ⟨values, none⟩ =>
          dsimp only
          split <;> exact .ret _
      | some ⟨_, some _⟩ => exact .ret _
      | none => exact .ret _
    · exact .ret _
  · exact .ret _

theorem acts_requireBoundProfile {R : Env → World → World → Prop} (hrefl : ∀ e w, R e w w)
    (settings : Settings) (jobId : String) : (requireBoundProfile settings jobId).Acts R :=
  .bind (.read hrefl) fun _ => .bind (.lift _) fun _ => .ret _

end Call

/-! ### The worker -/

section Worker

variable {settings : Settings} {claimed : ClaimedResearchJob}

/-- The acts of a program are commits of the worker of a claim. -/
abbrev WorkerActs (settings : Settings) (claimed : ClaimedResearchJob) {α : Type}
    (p : Activity α) : Prop :=
  p.Acts (WorkerCommit settings claimed.job.id claimed.claimToken)

theorem workerActs_bindExecution (mode : ContinuationMode) (active : Option String) :
    WorkerActs settings claimed
      (bindExecution claimed.job.id claimed.claimToken mode active) := by
  have hcreate : WorkerActs settings claimed
      (Program.atomically (createAndBind claimed.job.id claimed.claimToken)) :=
    .atomically WorkerCommit.refl fun _ _ executionId _ h => .createAndBind executionId h
  cases mode with
  | reviewComplete =>
      cases active with
      | none => exact .raise _
      | some active =>
          refine .bind (.read WorkerCommit.refl) fun status => ?_
          split
          · exact .ret _
          · exact .raise _
  | jobRetry => exact hcreate
  | none =>
      cases active with
      | none => exact hcreate
      | some active =>
          refine .bind (.read WorkerCommit.refl) fun status => ?_
          split
          · exact .ret _
          · exact hcreate

/-- **Every act of a call of the processor is one of the transactions.** -/
theorem acts_process (settings : Settings) (claimed : ClaimedResearchJob) :
    WorkerActs settings claimed (process settings claimed) := by
  unfold process
  refine .bind (.lift _) fun _ => ?_
  refine .bind (.read WorkerCommit.refl) ?_
  rintro ⟨active, replay⟩
  cases replay with
  | some outcome => exact .ret _
  | none =>
      dsimp only
      unfold processOpen
      refine .bind (acts_requireBoundProfile WorkerCommit.refl _ _) fun profile => ?_
      refine .bind (acts_completedShortCircuit WorkerCommit.refl _ _) fun short => ?_
      cases short with
      | some outcome => exact .ret _
      | none =>
          dsimp only
          unfold processUnfinished
          refine .bind (.attempt (workerActs_bindExecution _ _)) fun bound => ?_
          exact (boundActs_afterBinding claimed profile bound).mono fun _ _ _ h => .bound h

theorem boundActs_failClaimed (reason reasonClass : String) :
    BoundActs settings claimed.job.id claimed.claimToken
      (failClaimed claimed reason reasonClass) := by
  refine .bind (.atomically BoundCommit.refl fun e w owned w' h => ?_) fun _ => .ret ()
  exact .finalizeFailure reason reasonClass owned h

/-- **Every act of the worker itself is one of the transactions**, and creates no execution. -/
theorem acts_settle (outcome : Except Exc ProcessingOutcome) :
    BoundActs settings claimed.job.id claimed.claimToken (settle claimed outcome) := by
  unfold settle
  split
  · refine .bind (.atomically BoundCommit.refl fun e w owned w' h => ?_) fun _ => .ret ()
    exact .finalizeCompletion _ owned h
  · exact boundActs_failClaimed _ _
  · exact .ret ()
  · exact .ret ()
  · exact boundActs_failClaimed _ _
  · exact .ret ()
  · exact boundActs_failClaimed _ _

end Worker

end Atlas
