/-
**Graph runs keep to the claim, and what a call knows of its job.**

Within a graph run a worker writes evaluation runs, decisions, reports, audit rows and checkpoints,
and counts evaluations and repairs on the job's row: all of it quiet, so that a run keeps every
steady assertion.  The assertion that matters is what a call of the processor knows of its job as
long as the job runs under the claim: the execution it is bound to, and what was read of it.

Main definitions:

* `Atlas.Claimed` — what a call knows of its job;
* `Atlas.Present`, `Atlas.Done` — what it knows of the bound execution.

Main results:

* `Atlas.keeps_invokeGraph` — **a graph run keeps every steady assertion**;
* `Atlas.Claimed.steady` — what a call knows is steady.
-/

import Atlas.ClaimConduct

set_option relaxedAutoImplicit false
set_option autoImplicit false

namespace Atlas

variable {le : World → World → Prop} {jobId token : String} {K : World → Prop} {e : Env}
  {w w' : World}

/-! ### The graph -/

section Graph

theorem keeps_finalizeOwnedFailure {α : Type} (hK : Steady le jobId token K)
    (runId ownershipToken : String) (x : Exc) :
    Keeps le jobId token K (finalizeOwnedFailure runId ownershipToken x : Activity α) := by
  have hfail : Keeps le jobId token K
      (Program.atomically (EvaluationService.finalizeFailure runId ownershipToken)) := by
    refine keeps_quiet hK ?_
    intro e w a w' _ h
    obtain ⟨runs, rfl⟩ := EvaluationService.finalizeFailure_onlyRuns h
    exact .untouched rfl rfl rfl
  unfold finalizeOwnedFailure
  split
  · exact keeps_raise _
  · exact keeps_raise _
  · exact keeps_bind hfail fun _ => keeps_raise _
  · exact keeps_bind hfail fun _ => keeps_raise _
  · exact keeps_bind hfail fun _ => keeps_raise _

/-- An evaluation attempt is taken from the claim's own job: no other carries the token, so the
instance of no other shows the claim. -/
theorem keeps_beginOrResume (hK : Steady le jobId token K) (sha256 : String → String)
    {request : EvaluationService.Request} (htoken : request.claimToken = token) :
    Keeps le jobId token K (EvaluationService.beginOrResume sha256 request) := by
  have hload : Program.Triple le (Conduct jobId token) K
      (Program.atomically (EvaluationService.loadJob request))
      (fun loaded w => K w ∧ (loaded.row.claimToken = some token → request.jobId = jobId))
      (fun _ => K) := by
    refine Program.Triple.atomically ?_ ?_ ?_
    · exact hK.rely
    · intro e w loaded w' hw h
      obtain ⟨hrow, -, rfl⟩ := EvaluationService.loadJob_eq_ok h
      refine ⟨.refl _, hw, ?_⟩
      intro hclaim
      by_contra hjob
      exact (hK.exclusive _ hw).others _ _ hjob hrow hclaim
    · intro e w x hw _
      exact ⟨.refl w, hw⟩
  refine Program.Triple.bind hload ?_
  rintro loaded s ⟨hs, hjob⟩
  refine keeps_bind (keeps_quiet hK ?_) ?_ s hs
  · intro e w found w' _ h
    obtain ⟨runs, rfl⟩ := EvaluationService.lockRun_onlyRuns h
    exact .untouched rfl rfl rfl
  · intro found
    cases found with
    | some answer => exact keeps_ret answer
    | none =>
        refine keeps_quiet hK ?_
        intro e w answer w' _ h
        obtain ⟨howns, row, row', runs, hrecounted, rfl⟩ := EvaluationService.beginRun_recounts h
        obtain ⟨count, rfl⟩ := hrecounted.columns
        obtain ⟨-, hclaim, -⟩ := ownsRunningClaim_eq_true.1 howns
        obtain rfl := hjob (htoken ▸ hclaim)
        exact .recounted row count hrecounted.lookup rfl rfl rfl

theorem keeps_evaluationRun (hK : Steady le jobId token K) (sha256 : String → String)
    (executionId profile : String) (attempt : ℕ) (stateJobId : String) (deadline : Instant) :
    Keeps le jobId token K
      (evaluationRun sha256 executionId profile attempt stateJobId token deadline) := by
  refine keeps_bind (keeps_ask hK _) ?_
  intro fingerprint
  refine keeps_bind (keeps_beginOrResume hK _ rfl) ?_
  rintro ⟨runId, ownershipToken, replay⟩
  cases replay with
  | some result => exact keeps_ret result
  | none =>
      refine keeps_tryCatch ?_ (keeps_finalizeOwnedFailure hK runId ownershipToken)
      refine keeps_bind (keeps_ask hK _) ?_
      rintro ⟨passed, dimensions⟩
      refine keeps_quiet hK ?_
      intro e w result w' _ h
      obtain ⟨runs, rfl⟩ := EvaluationService.finalizeSuccess_onlyRuns h
      exact .untouched rfl rfl rfl

theorem keeps_asEvaluationError {α : Type} (error : EvaluationError) (x : Exc) :
    Keeps le jobId token K (asEvaluationError error x : Activity α) := by
  unfold asEvaluationError
  split <;> exact keeps_raise _

/-- The decision of the policy callback changes the queue by at most one repair counted. -/
theorem recordEvaluationDecision_quiet {ctx : GraphContext} {evalRunId : String}
    {decision : PolicyDecision} {counts : AttemptCounts} {u : Unit}
    (h : recordEvaluationDecision ctx evalRunId decision counts e w = .ok (u, w')) :
    Quiet ctx.jobId ctx.claimToken w w' := by
  simp only [recordEvaluationDecision, Tx.bind_eq_ok, Tx.reading_eq_ok] at h
  obtain ⟨_, _, ⟨-, rfl⟩, _, _, ⟨-, rfl⟩, ⟨id, created⟩, _, hrecord, h⟩ := h
  obtain ⟨decisions, -, -, rfl⟩ := recordPolicyDecision_eq_ok.1 hrecord
  split at h
  · simp only [Tx.bind_eq_ok, onJob_eq_ok, require_eq_ok] at h
    obtain ⟨ok, _, hjob, rfl, rfl⟩ := h
    rcases hjob with ⟨row, hrow, -, rfl⟩ | ⟨-, hfalse, -⟩
    · obtain ⟨before, hbefore, howns, -, -, rfl⟩ := incrementRepairCount_eq_some.1 hrow
      exact .counted before _ (Owned.of_owns hbefore howns) rfl rfl rfl
    · cases hfalse
  · obtain ⟨-, rfl⟩ := Tx.pure_eq_ok.1 h
    exact .untouched rfl rfl rfl

theorem keeps_policyCallback {ctx : GraphContext} (hK : Steady le ctx.jobId ctx.claimToken K)
    (evalRunId : String) (repairCount evaluationAttempt : ℕ) :
    Keeps le ctx.jobId ctx.claimToken K
      (policyCallback ctx evalRunId repairCount evaluationAttempt) := by
  unfold policyCallback
  split
  · exact keeps_ret _
  · refine keeps_bind (keeps_read hK _) ?_
    intro runs
    cases runs.find? (·.runId = evalRunId) with
    | none => exact keeps_ret _
    | some result =>
        refine keeps_bind (keeps_read hK _) ?_
        intro stored
        refine keeps_bind (keeps_quiet hK ?_) fun _ => keeps_ret _
        intro e w u w' _ h
        exact recordEvaluationDecision_quiet h

/-- Storing the final report changes the reports only. -/
theorem persistFinalReport_onlyReports {ctx : GraphContext} {stateJobId bodyText : String}
    {claims : List ClaimStructured} {u : Unit}
    (h : persistFinalReport ctx stateJobId bodyText claims e w = .ok (u, w')) :
    ∃ reports, w' = { w with reportArtifacts := reports } := by
  simp only [persistFinalReport, Tx.bind_eq_ok, Tx.reading_eq_ok, Tx.read_eq_ok,
    require_eq_ok] at h
  obtain ⟨_, _, ⟨-, rfl⟩, _, _, ⟨-, rfl⟩, _, _, ⟨-, rfl⟩, _, _, ⟨-, rfl⟩, existing, _, ⟨-, rfl⟩, h⟩ :=
    h
  cases existing with
  | some artifact =>
      obtain ⟨-, rfl⟩ := require_eq_ok.1 h
      exact ⟨_, rfl⟩
  | none =>
      obtain rfl := Tx.modify_eq_ok.1 h
      exact ⟨_, rfl⟩

theorem keeps_completionAuthorized (hK : Steady le jobId token K)
    (stateJobId executionId fingerprint : String) :
    Keeps le jobId token K (completionAuthorized stateJobId executionId fingerprint) := by
  unfold completionAuthorized
  split
  · exact keeps_ret _
  · exact keeps_read hK _

theorem keeps_completionOverride {ctx : GraphContext} (hK : Steady le ctx.jobId ctx.claimToken K)
    (state : GraphState) : Keeps le ctx.jobId ctx.claimToken K (completionOverride ctx state) := by
  unfold completionOverride
  split
  · exact keeps_ret _
  · exact keeps_completionAuthorized hK _ _ _

/-- Every node keeps every steady assertion. -/
theorem keeps_nodeBody {ctx : GraphContext} (hK : Steady le ctx.jobId ctx.claimToken K) (node : Node)
    (state : GraphState) : Keeps le ctx.jobId ctx.claimToken K (nodeBody ctx node state) := by
  cases node with
  | validate => exact keeps_lift _
  | plan => exact keeps_bind (keeps_ask hK _) fun _ => keeps_ret _
  | research => exact keeps_bind (keeps_ask hK _) fun _ => keeps_ret _
  | draft => exact keeps_bind (keeps_ask hK _) fun _ => keeps_ret _
  | verifyCitations => exact keeps_bind (keeps_ask hK _) fun _ => keeps_ret _
  | evaluate =>
      refine keeps_bind (keeps_tryCatch (keeps_ask hK _) (keeps_asEvaluationError _)) ?_
      intro provenance
      refine keeps_bind (keeps_reading hK _) ?_
      intro now
      refine keeps_bind (keeps_lift _) ?_
      intro _
      refine keeps_bind (keeps_tryCatch (keeps_evaluationRun hK _ _ _ _ _ _) (keeps_asEvaluationError _)) ?_
      intro result
      exact keeps_ret _
  | policy =>
      simp only [nodeBody]
      split
      · exact keeps_ret _
      · exact keeps_bind (keeps_policyCallback hK _ _ _) fun _ => keeps_ret _
  | repair => exact keeps_ret _
  | awaitReview => exact keeps_ret _
  | complete =>
      refine keeps_bind (keeps_completionOverride hK state) ?_
      intro override
      refine keeps_bind (keeps_lift _) ?_
      intro report
      refine keeps_bind (keeps_lift _) ?_
      intro _
      refine keeps_bind ?_ fun _ => keeps_ret _
      refine keeps_bind (keeps_lift _) ?_
      intro _
      refine keeps_bind (keeps_ask hK _) ?_
      intro _
      refine keeps_quiet hK ?_
      intro e w u w' _ h
      obtain ⟨reports, rfl⟩ := persistFinalReport_onlyReports h
      exact .untouched rfl rfl rfl
  | terminal => exact keeps_raise _

theorem keeps_closeNodeAttempt (hK : Steady le jobId token K) (executionId : String) (node : Node)
    (attempt : ℕ) (status : NodeExecutionStatus) (error : Option String) :
    Keeps le jobId token K
      (Program.atomically (closeNodeAttempt executionId node attempt status error)) := by
  refine keeps_quiet hK ?_
  intro e w u w' _ h
  simp only [closeNodeAttempt, Tx.bind_eq_ok, Tx.reading_eq_ok, Tx.modify_eq_ok] at h
  obtain ⟨_, _, ⟨-, rfl⟩, rfl⟩ := h
  exact .untouched rfl rfl rfl

theorem keeps_wrapNode {ctx : GraphContext} (hK : Steady le ctx.jobId ctx.claimToken K) (node : Node)
    (state : GraphState) : Keeps le ctx.jobId ctx.claimToken K (wrapNode ctx node state) := by
  refine keeps_bind (keeps_quiet hK ?_) ?_
  · intro e w attempt w' _ h
    simp only [beginNodeAttempt, Tx.bind_eq_ok, Tx.reading_eq_ok, Tx.read_eq_ok, Tx.modify_eq_ok,
      Tx.pure_eq_ok] at h
    obtain ⟨_, _, ⟨-, rfl⟩, _, _, ⟨-, rfl⟩, _, _, rfl, -, rfl⟩ := h
    exact .untouched rfl rfl rfl
  · intro attempt
    refine keeps_bind (keeps_tryCatch (keeps_nodeBody hK node state) ?_) ?_
    · intro x
      exact keeps_bind (keeps_closeNodeAttempt hK _ _ _ _ _) fun _ => keeps_raise x
    · intro state
      exact keeps_bind (keeps_closeNodeAttempt hK _ _ _ _ _) fun _ => keeps_ret state

theorem keeps_saveCheckpoint (hK : Steady le jobId token K) (executionId : String)
    (checkpoint : Checkpoint) : Keeps le jobId token K (saveCheckpoint executionId checkpoint) := by
  refine keeps_quiet hK ?_
  intro e w u w' _ h
  obtain rfl := Tx.modify_eq_ok.1 h
  exact .untouched rfl rfl rfl

theorem keeps_runGraph {ctx : GraphContext} (hK : Steady le ctx.jobId ctx.claimToken K) (fuel : ℕ)
    (state : GraphState) (node : Node) :
    Keeps le ctx.jobId ctx.claimToken K (runGraph ctx fuel state node) := by
  induction fuel generalizing state node with
  | zero => exact keeps_raise _
  | succ fuel ih =>
      refine keeps_bind (keeps_wrapNode hK node state) ?_
      intro state'
      refine keeps_bind (keeps_saveCheckpoint hK _ _) ?_
      intro _
      split
      · exact keeps_ret _
      · cases node.next state' with
        | none => exact keeps_ret _
        | some next => exact ih state' next

/-- A graph run keeps every steady assertion. -/
theorem keeps_invokeGraph {ctx : GraphContext} (hK : Steady le ctx.jobId ctx.claimToken K)
    (input : Option GraphState) : Keeps le ctx.jobId ctx.claimToken K (invokeGraph ctx input) := by
  cases input with
  | some state =>
      exact keeps_bind (keeps_saveCheckpoint hK _ _) fun _ => keeps_runGraph hK _ _ _
  | none =>
      refine keeps_bind (keeps_read hK _) ?_
      intro checkpoint
      match checkpoint with
      | some ⟨values, some next⟩ => exact keeps_runGraph hK _ _ _
      | some ⟨values, none⟩ => exact keeps_ret _
      | none => exact keeps_raise _

end Graph

/-! ### What a call knows of its job -/

/-- As long as the job runs under the claim, it is bound to `active`, was claimed in `mode`, and
the execution it is bound to exists, is the job's, and has the property `P`. -/
structure Claimed (jobId token : String) (active : Option String) (mode : ContinuationMode)
    (P : WorkflowExecutionRow → Prop) (w : World) : Prop where
  exclusive : Exclusive jobId token w
  bound : ∀ row, Owned jobId token w row →
    row.activeWorkflowExecutionId = active ∧ row.claimedContinuationMode = mode ∧
      ∀ id, active = some id → ∃ execution, w.executions.lookup id = some execution ∧
        execution.researchJobId = jobId ∧ P execution

/-- Nothing else is known of the execution. -/
def Present (_ : WorkflowExecutionRow) : Prop := True

/-- The execution has completed. -/
def Done (execution : WorkflowExecutionRow) : Prop := execution.status = .completed

section Claimed

variable {active : Option String} {executionId : String} {mode : ContinuationMode}
  {P P' : WorkflowExecutionRow → Prop}

theorem Claimed.steady :
    Steady (Undisturbed jobId token) jobId token (Claimed jobId token active mode P) where
  rely w w' h hw := by
    refine ⟨h.exclusive hw.exclusive, ?_⟩
    intro row hrow
    obtain ⟨⟨before, count, howned, rfl⟩, hexec⟩ := h.owned row hrow
    obtain ⟨hactive, hmode, hbound⟩ := hw.bound before howned
    refine ⟨hactive, hmode, ?_⟩
    intro id hid
    obtain ⟨execution, hlookup, hjob, hP⟩ := hbound id hid
    exact ⟨execution, (hexec id execution hjob).2 hlookup, hjob, hP⟩
  quiet w w' h hw := by
    refine ⟨hw.exclusive.quiet h, ?_⟩
    intro row hrow
    cases h with
    | untouched hjobs hexecutions hreviews =>
        rw [Owned, hjobs] at hrow
        rw [hexecutions]
        exact hw.bound row hrow
    | recounted before count hbefore hjobs hexecutions hreviews =>
        rw [Owned, hjobs, AList.lookup_insert] at hrow
        obtain ⟨hrow, hstatus, htoken⟩ := hrow
        cases hrow
        rw [hexecutions]
        exact hw.bound before ⟨hbefore, hstatus, htoken⟩
    | counted before repairs howned hjobs hexecutions hreviews =>
        rw [Owned, hjobs, AList.lookup_insert] at hrow
        obtain ⟨hrow, -, -⟩ := hrow
        cases hrow
        rw [hexecutions]
        exact hw.bound before howned
  exclusive w hw := hw.exclusive

theorem Claimed.imp (h : Claimed jobId token active mode P w) (hP : ∀ x, P x → P' x) :
    Claimed jobId token active mode P' w where
  exclusive := h.exclusive
  bound row hrow := by
    obtain ⟨hactive, hmode, hbound⟩ := h.bound row hrow
    refine ⟨hactive, hmode, ?_⟩
    intro id hid
    obtain ⟨execution, hlookup, hjob, hx⟩ := hbound id hid
    exact ⟨execution, hlookup, hjob, hP execution hx⟩

/-- What is read of the bound execution may be added to what is known of it. -/
theorem Claimed.learn (h : Claimed jobId token (some executionId) mode P w)
    (hread : ∀ execution, w.executions.lookup executionId = some execution → P' execution) :
    Claimed jobId token (some executionId) mode P' w where
  exclusive := h.exclusive
  bound row hrow := by
    obtain ⟨hactive, hmode, hbound⟩ := h.bound row hrow
    refine ⟨hactive, hmode, ?_⟩
    rintro _ ⟨⟩
    obtain ⟨execution, hlookup, hjob, -⟩ := hbound executionId rfl
    exact ⟨execution, hlookup, hjob, hread execution hlookup⟩

/-- A job that no longer runs under the claim promises whatever one likes. -/
theorem Claimed.of_not_owned (hexclusive : Exclusive jobId token w)
    (h : ∀ row, ¬ Owned jobId token w row) : Claimed jobId token active mode P w :=
  ⟨hexclusive, fun row hrow => absurd hrow (h row)⟩

end Claimed

end Atlas
