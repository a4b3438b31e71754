/-
**A crash at the review gate.**

The graph stops after `await_review`, and its checkpoint names `complete` as the node to go on
with; the job is paused by a transaction of its own afterwards.  When the worker crashes in
between, the job is still RUNNING, and whoever reclaims it finds a checkpoint with a next node.
The call resumes the graph there: it enters the complete node, which nobody has approved.

So no call brings the job to its review.  From the complete node the graph either ends, and then
its checkpoint has no next node, or it raises, and then the policy of exceptions fails the job or
schedules a retry; the pause is never recorded.

Main definitions:

* `Atlas.AtReviewGate` — the state the crash leaves;
* `Atlas.ReviewReached` — what the recovery would have to bring about;
* `Atlas.Unpaused` — the job does not wait for review.

Main results:

* `Atlas.unpaused_process` — a call at the review gate does not pause the job;
* `Atlas.review_gate_never_reached` — **no reclaim after the crash brings the job to its review**.
-/

import Atlas.ProcessorConduct

set_option relaxedAutoImplicit false
set_option autoImplicit false

namespace Atlas

/-! ### The gate -/

/-- The worker of a job claimed in mode NONE has crashed after the graph stopped for review, and
before the job was paused. -/
structure AtReviewGate (w : World) (jobId executionId : String) (row : ResearchJobRow)
    (values : GraphState) : Prop where
  stored : StoredJob w.jobs jobId row
  running : row.status = .running
  mode : row.claimedContinuationMode = .none
  active : row.activeWorkflowExecutionId = some executionId
  execution : ∃ execution, w.executions.lookup executionId = some execution ∧
    execution.researchJobId = jobId ∧ execution.status = .running
  checkpoint : w.checkpoints.lookup executionId = some ⟨values, some .complete⟩
  disposition : values.disposition = some .awaitReview
  notPassed : values.evaluationPassed = false

/-- The events of a type an outbox has for a job. -/
def Outbox.countEvents (outbox : Outbox) (jobId : String) (type : EventType) : ℕ :=
  (outbox.eventsOf jobId).countP fun row => row.event.type = type

/-- The attempts of a node of an execution. -/
def World.nodeAttempts (w : World) (executionId : String) (node : Node) : ℕ :=
  w.nodeExecutions.countP fun row => row.workflowExecutionId = executionId && row.node = node

/-- The recovery of a job at the review gate: it waits for review, with the one event that says so,
the complete node has not been entered, and the job has not failed. -/
structure ReviewReached (jobId executionId : String) (w w' : World) : Prop where
  paused : (w'.jobs.lookup jobId).map (·.status) = some .awaitingReview
  event : w'.outbox.countEvents jobId .awaitingReview = 1
  notEntered : w'.nodeAttempts executionId .complete = w.nodeAttempts executionId .complete
  notFailed : (w'.jobs.lookup jobId).map (·.status) ≠ some .failed

/-! ### What leaves the job unpaused -/

/-- The job does not wait for review, and no other job carries the token. -/
structure Unpaused (jobId token : String) (w : World) : Prop where
  exclusive : Exclusive jobId token w
  status : ∀ row, w.jobs.lookup jobId = some row → row.status ≠ .awaitingReview

section Unpaused

variable {jobId token executionId : String} {w w' : World} {e : Env} {α β : Type}

theorem Unpaused.of_sameJobs (hw : Unpaused jobId token w) (h : w'.jobs = w.jobs) :
    Unpaused jobId token w' where
  exclusive := by
    constructor
    · rw [h]
      exact hw.exclusive.others
    · rw [h]
      exact hw.exclusive.key
  status := by
    rw [h]
    exact hw.status

/-- The job's row is written, and its status is not the one of a paused job. -/
theorem Unpaused.of_write {row : ResearchJobRow} (hw : Unpaused jobId token w)
    (h : w'.jobs = w.jobs.insert jobId row) (hid : row.id = jobId)
    (hstatus : row.status ≠ .awaitingReview) : Unpaused jobId token w' where
  exclusive := by
    constructor
    · intro other row' hother hrow'
      rw [h, AList.lookup_insert_ne hother] at hrow'
      exact hw.exclusive.others other row' hother hrow'
    · intro row' hrow'
      rw [h, AList.lookup_insert] at hrow'
      cases hrow'
      exact hid
  status row' hrow' := by
    rw [h, AList.lookup_insert] at hrow'
    cases hrow'
    exact hstatus

/-- The acts within a graph run do not pause the job. -/
theorem Unpaused.steady : Steady Eq jobId token (Unpaused jobId token) where
  rely w w' h hw := h ▸ hw
  quiet w w' h hw := by
    cases h with
    | untouched hjobs _ _ => exact hw.of_sameJobs hjobs
    | recounted row count hrow hjobs _ _ =>
        exact hw.of_write hjobs (hw.exclusive.key row hrow) (hw.status row hrow)
    | counted row repairs howned hjobs _ _ =>
        exact hw.of_write hjobs (hw.exclusive.key row howned.1) (hw.status row howned.1)
  exclusive _ hw := hw.exclusive

/-- A program that runs alone and leaves the job unpaused, whatever it returns or raises. -/
def Spares (jobId token : String) (p : Activity α) : Prop :=
  Program.Hoare (Unpaused jobId token) p (fun _ => Unpaused jobId token)
    (fun _ => Unpaused jobId token)

theorem Spares.ret (a : α) : Spares jobId token (.ret a : Activity α) :=
  Program.Triple.ret fun _ h => h

theorem Spares.raise (x : Exc) : Spares jobId token (.raise x : Activity α) :=
  Program.Triple.raise fun _ h => h

theorem Spares.bind {p : Activity α} {k : α → Activity β} (hp : Spares jobId token p)
    (hk : ∀ a, Spares jobId token (k a)) : Spares jobId token (p >>= k) :=
  Program.Triple.bind hp hk

theorem Spares.atomically {t : Transaction α}
    (ht : ∀ e w a w', Unpaused jobId token w → t e w = .ok (a, w') → Unpaused jobId token w') :
    Spares jobId token (Program.atomically t) :=
  Program.Hoare.atomically ht fun _ _ _ hw _ => hw

theorem Spares.read (f : World → α) : Spares jobId token (Program.atomically (Tx.read f)) :=
  Program.Hoare.read fun _ hw => hw

theorem Keeps.spares {p : Activity α} (hp : Keeps Eq jobId token (Unpaused jobId token) p) :
    Spares jobId token p :=
  Program.Hoare.of_triple (fun _ => rfl) hp

theorem spares_completeExecutionTx :
    Spares jobId token (Program.atomically (completeExecutionTx jobId executionId token)) := by
  refine Spares.atomically ?_
  intro e w u w' hw h
  obtain ⟨executions, -, rfl⟩ := completeExecutionTx_eq_ok h
  exact hw.of_sameJobs rfl

theorem spares_failBoundExecution (executionId : Option String) :
    Spares jobId token (failBoundExecution jobId token executionId) := by
  cases executionId with
  | none => exact Spares.ret ()
  | some executionId =>
      refine Spares.atomically ?_
      intro e w u w' hw h
      obtain ⟨executions, -, rfl⟩ := failExecutionTx_eq_ok h
      exact hw.of_sameJobs rfl

/-- A retry returns the job to PENDING. -/
theorem spares_recordRetry (settings : Settings) (abandon : Option String)
    (decision : PolicyDecision) (counts : AttemptCounts) :
    Spares jobId token (Program.atomically
      (recordRetry settings jobId token abandon decision counts)) := by
  refine Spares.atomically ?_
  intro e w scheduled w' hw h
  rcases recordRetry_eq_ok h with hsame | ⟨w₁, w₂, next, now, u, hsame, hschedule, hsame'⟩
  · exact hw.of_sameJobs hsame.jobs
  · have hw₁ := hw.of_sameJobs hsame.jobs
    obtain ⟨row, row', executions, howned, hreleased, -, -, -, rfl⟩ :=
      scheduleRetryTx_eq_ok hschedule
    refine hw₁.of_write hsame'.jobs ?_ ?_
    · exact hreleased.id.trans (hw₁.exclusive.key row howned.1)
    · rw [hreleased.status]
      exact nofun

theorem spares_exceptClauses (settings : Settings) (executionId : Option String) (x : Exc) :
    Spares jobId token (exceptClauses settings jobId token executionId x) := by
  have hfail (outcome : ProcessingOutcome) : Spares jobId token (do
      failBoundExecution jobId token executionId
      return outcome) :=
    Spares.bind (spares_failBoundExecution executionId) fun _ => Spares.ret outcome
  unfold exceptClauses
  split
  · exact Spares.raise x
  · unfold handleException
    split
    · exact hfail _
    · refine Spares.bind (Spares.read _) ?_
      rintro ⟨repairCount, jobRetryCount, evaluationAttemptCount⟩
      dsimp only
      split
      · refine Spares.bind (spares_recordRetry settings executionId _ _) ?_
        rintro ⟨nextAt, attemptNumber⟩
        exact Spares.ret _
      · exact hfail _

/-- What the worker does with an outcome does not pause the job. -/
theorem spares_settle {claimed : ClaimedResearchJob} (hjob : claimed.job.id = jobId)
    (outcome : Except Exc ProcessingOutcome) : Spares jobId token (settle claimed outcome) := by
  subst hjob
  have hfail (reason reasonClass : String) :
      Spares claimed.job.id token (failClaimed claimed reason reasonClass) := by
    refine Spares.bind (Spares.atomically ?_) fun _ => Spares.ret ()
    intro e w owned w' hw h
    rcases finalizeFailureTx_eq_ok h with ⟨row', _, _, -, hrow', -, -, -, rfl⟩ | ⟨-, rfl⟩
    · obtain ⟨row, howned, hreleased, -⟩ := finalizeFailure_released hrow'
      refine hw.of_write rfl ?_ ?_
      · exact hreleased.id.trans (hw.exclusive.key row howned.1)
      · rw [hreleased.status]
        exact nofun
    · exact hw
  unfold settle
  split
  · refine Spares.bind (Spares.atomically ?_) fun _ => Spares.ret ()
    intro e w owned w' hw h
    rcases finalizeCompletionTx_eq_ok h with ⟨row', _, _, -, hrow', -, -, -, rfl⟩ | ⟨-, rfl⟩
    · obtain ⟨row, howned, hreleased, -⟩ := finalizeCompletion_released hrow'
      refine hw.of_write rfl ?_ ?_
      · exact hreleased.id.trans (hw.exclusive.key row howned.1)
      · rw [hreleased.status]
        exact nofun
    · exact hw
  · exact hfail _ _
  · exact Spares.ret ()
  · exact Spares.ret ()
  · exact hfail _ _
  · exact Spares.ret ()
  · exact hfail _ _

end Unpaused

/-! ### A call at the gate -/

/-- The job runs under a claim, and its bound execution is the one at the gate. -/
structure HeldAtGate (jobId token executionId : String) (values : GraphState) (w : World) :
    Prop where
  exclusive : Exclusive jobId token w
  owned : ∃ row, Owned jobId token w row ∧ row.activeWorkflowExecutionId = some executionId
  execution : ∃ execution, w.executions.lookup executionId = some execution ∧
    execution.status = .running
  checkpoint : w.checkpoints.lookup executionId = some ⟨values, some .complete⟩

section Gate

variable {jobId token executionId : String} {values : GraphState} {w : World}
  {claimed : ClaimedResearchJob} {settings : Settings}

theorem HeldAtGate.unpaused (hw : HeldAtGate jobId token executionId values w) :
    Unpaused jobId token w where
  exclusive := hw.exclusive
  status row hrow := by
    obtain ⟨row', howned, -⟩ := hw.owned
    obtain rfl := howned.unique hrow
    rw [howned.2.1]
    exact nofun

/-- **A graph run from the complete node ends, or raises**: when it returns, nothing is left to go
on with. -/
theorem runGraph_complete {ctx : GraphContext} (fuel : ℕ) (state : GraphState) :
    Program.Hoare (Unpaused ctx.jobId ctx.claimToken) (runGraph ctx fuel state .complete)
      (fun _ w => Unpaused ctx.jobId ctx.claimToken w ∧
        ∃ values, w.checkpoints.lookup ctx.executionId = some ⟨values, none⟩)
      (fun _ => Unpaused ctx.jobId ctx.claimToken) := by
  cases fuel with
  | zero => exact Program.Triple.raise fun _ hw => hw
  | succ fuel =>
      refine Program.Triple.bind (Keeps.spares (keeps_wrapNode Unpaused.steady _ _)) ?_
      intro state'
      refine Program.Triple.bind (Q := fun _ w => Unpaused ctx.jobId ctx.claimToken w ∧
        ∃ values, w.checkpoints.lookup ctx.executionId = some ⟨values, none⟩) ?_ ?_
      · refine Program.Hoare.atomically ?_ fun _ _ _ hw _ => hw
        intro e w u w' hw h
        obtain rfl := Tx.modify_eq_ok.1 h
        exact ⟨hw.of_sameJobs rfl, state', AList.lookup_insert _⟩
      · intro _
        exact Program.Triple.ret fun _ hw => hw

/-- What a graph run from the complete node leaves does not pause the job. -/
theorem spares_afterComplete {ctx : GraphContext} (state : GraphState) :
    Program.Hoare (fun w => Unpaused ctx.jobId ctx.claimToken w ∧
        ∃ values, w.checkpoints.lookup ctx.executionId = some ⟨values, none⟩)
      (handlePostInvoke ctx state) (fun _ => Unpaused ctx.jobId ctx.claimToken)
      (fun _ => Unpaused ctx.jobId ctx.claimToken) := by
  refine Program.Triple.bind (Q := fun snapshot w => Unpaused ctx.jobId ctx.claimToken w ∧
    snapshot.bind Checkpoint.next = none) ?_ ?_
  · refine Program.Hoare.read ?_
    rintro w ⟨hw, values, hvalues⟩
    exact ⟨hw, by rw [hvalues]; rfl⟩
  · intro snapshot
    by_cases hnext : snapshot.bind Checkpoint.next = none
    · simp only [hnext]
      refine Program.Triple.pre (A := Unpaused ctx.jobId ctx.claimToken) ?_ fun w hw => hw.1
      split
      · exact Spares.raise _
      · exact Spares.bind spares_completeExecutionTx fun _ => Spares.ret _
    · exact fun w hw => absurd hw.2 hnext

/-- The body of a call at the gate resumes the graph at the complete node. -/
theorem spares_processBound (ctx : GraphContext) (values : GraphState) (question : String) :
    Program.Hoare (HeldAtGate ctx.jobId ctx.claimToken ctx.executionId values)
      (processBound ctx question .none) (fun _ => Unpaused ctx.jobId ctx.claimToken)
      (fun _ => Unpaused ctx.jobId ctx.claimToken) := by
  have hresume : Program.Hoare (HeldAtGate ctx.jobId ctx.claimToken ctx.executionId values)
      (invokeGraph ctx none) (fun _ w => Unpaused ctx.jobId ctx.claimToken w ∧
        ∃ values, w.checkpoints.lookup ctx.executionId = some ⟨values, none⟩)
      (fun _ => Unpaused ctx.jobId ctx.claimToken) := by
    refine Program.Triple.bind (Q := fun snapshot w => Unpaused ctx.jobId ctx.claimToken w ∧
      snapshot = some ⟨values, some .complete⟩) ?_ ?_
    · exact Program.Hoare.read fun w hw => ⟨hw.unpaused, hw.checkpoint⟩
    · rintro snapshot w ⟨hw, rfl⟩
      exact runGraph_complete _ _ w hw
  refine Program.Triple.bind (Q := fun snapshot w =>
    HeldAtGate ctx.jobId ctx.claimToken ctx.executionId values w ∧
      snapshot = some ⟨values, some .complete⟩) ?_ ?_
  · exact Program.Hoare.read fun w hw => ⟨hw, hw.checkpoint⟩
  · rintro snapshot w ⟨hw, rfl⟩
    exact Program.Triple.bind hresume (fun state => spares_afterComplete state) w hw

/-- A binding at the gate resumes the execution. -/
theorem bindExecution_gate :
    Program.Hoare (HeldAtGate jobId token executionId values)
      (bindExecution jobId token .none (some executionId)).attempt
      (fun bound w => HeldAtGate jobId token executionId values w ∧ bound = .ok executionId)
      (fun _ => Unpaused jobId token) := by
  refine Program.Triple.attempt (Q := fun id w =>
    HeldAtGate jobId token executionId values w ∧ id = executionId) (X := fun _ _ => False) ?_ ?_ ?_
  · refine Program.Triple.bind (Q := fun status w =>
      HeldAtGate jobId token executionId values w ∧ status = some .running) ?_ ?_
    · refine Program.Hoare.read fun w hw => ⟨hw, ?_⟩
      obtain ⟨execution, hlookup, hrunning⟩ := hw.execution
      rw [hlookup, Option.map_some, hrunning]
    · rintro status w ⟨hw, rfl⟩
      exact Program.Triple.ret (fun _ hw => hw) w ⟨hw, rfl⟩
  · rintro id w ⟨hw, rfl⟩
    exact ⟨hw, rfl⟩
  · exact fun _ _ hfalse => hfalse.elim

/-- At the gate the job runs, so it has no result to replay. -/
theorem readJob_gate (hactive : claimed.activeWorkflowExecutionId = some executionId)
    (hw : HeldAtGate claimed.job.id token executionId values w) :
    readJob claimed w = (some executionId, none) := by
  obtain ⟨row, hrow, -⟩ := hw.owned
  have hreplay : completedReplay w claimed row = none := by
    unfold completedReplay
    split
    · simp [hrow.2.1]
    · rfl
  rw [readJob, hactive, hrow.1, Option.bind_some, Option.bind_some, hreplay]
  rfl

/-- Its execution runs, so it has not completed. -/
theorem completedShortCircuit_gate (hmode : claimed.continuationMode = .none) :
    Program.Hoare (HeldAtGate claimed.job.id token executionId values)
      (completedShortCircuit claimed (some executionId))
      (fun short w => HeldAtGate claimed.job.id token executionId values w ∧ short = none)
      (fun _ => Unpaused claimed.job.id token) := by
  simp only [completedShortCircuit, hmode, completedExecutionResult]
  refine Program.Triple.bind (Q := fun execution w =>
    HeldAtGate claimed.job.id token executionId values w ∧
      ∀ row, execution = some row → row.status = .running) ?_ ?_
  · refine Program.Hoare.read fun w hw => ⟨hw, ?_⟩
    intro row hrow
    obtain ⟨execution, hlookup, hrunning⟩ := hw.execution
    rw [hlookup] at hrow
    cases hrow
    exact hrunning
  · intro execution w hw
    have hnot : (execution.any fun row =>
        row.researchJobId = claimed.job.id && row.status = .completed) = false := by
      cases execution with
      | none => rfl
      | some row => simp [hw.2 row rfl]
    simp only [hnot, Bool.false_eq_true, if_false]
    exact Program.Triple.ret (fun _ hw => hw) w ⟨hw.1, rfl⟩

/-- The rest of a call at the gate. -/
theorem spares_processOpen (htoken : claimed.claimToken = token)
    (hmode : claimed.continuationMode = .none) :
    Program.Hoare (HeldAtGate claimed.job.id token executionId values)
      (processOpen settings claimed (some executionId)) (fun _ => Unpaused claimed.job.id token)
      (fun _ => Unpaused claimed.job.id token) := by
  subst htoken
  have hprofile : Program.Hoare (HeldAtGate claimed.job.id claimed.claimToken executionId values)
      (requireBoundProfile settings claimed.job.id)
      (fun _ => HeldAtGate claimed.job.id claimed.claimToken executionId values)
      (fun _ => Unpaused claimed.job.id claimed.claimToken) := by
    refine Program.Triple.bind (Q := fun _ =>
      HeldAtGate claimed.job.id claimed.claimToken executionId values)
      (Program.Hoare.read fun _ hw => hw) fun stored => ?_
    refine Program.Triple.bind (Program.Triple.lift (Q := fun _ =>
      HeldAtGate claimed.job.id claimed.claimToken executionId values) ?_ ?_) ?_
    · exact fun _ _ _ hw => hw
    · exact fun _ _ _ hw => hw.unpaused
    · exact fun _ => Program.Triple.ret fun _ hw => hw
  refine Program.Triple.bind hprofile fun profile => ?_
  refine Program.Triple.bind (completedShortCircuit_gate hmode) ?_
  rintro short w ⟨hw, rfl⟩
  simp only [processUnfinished, hmode]
  refine Program.Triple.bind bindExecution_gate ?_ w hw
  rintro bound w ⟨hw, rfl⟩
  let ctx : GraphContext :=
    { settings := settings, jobId := claimed.job.id, executionId := executionId
      claimToken := claimed.claimToken, evaluationProfile := profile }
  have hbody := spares_processBound ctx values claimed.job.question
  refine Program.Triple.tryCatch hbody ?_ w hw
  exact fun x => spares_exceptClauses settings (some executionId) x

/-- **A call at the review gate does not pause the job.** -/
theorem unpaused_process (settings : Settings) (values : GraphState)
    (htoken : claimed.claimToken = token) (hmode : claimed.continuationMode = .none)
    (hactive : claimed.activeWorkflowExecutionId = some executionId) :
    Program.Hoare (HeldAtGate claimed.job.id token executionId values) (process settings claimed)
      (fun _ => Unpaused claimed.job.id token) (fun _ => Unpaused claimed.job.id token) := by
  unfold process
  generalize fingerprintJobClaimToken settings.sha256 claimed.claimToken = fingerprint
  refine Program.Triple.bind (Program.Triple.lift (Q := fun _ =>
    HeldAtGate claimed.job.id token executionId values) ?_ ?_) ?_
  · exact fun _ _ _ hw => hw
  · exact fun _ _ _ hw => hw.unpaused
  intro _
  refine Program.Triple.bind (Q := fun read w =>
    HeldAtGate claimed.job.id token executionId values w ∧
      read = (some executionId, none)) ?_ ?_
  · exact Program.Hoare.read fun w hw => ⟨hw, readJob_gate hactive hw⟩
  · rintro read w ⟨hw, rfl⟩
    exact spares_processOpen htoken hmode w hw

end Gate

/-! ### The recovery -/

/-- **No reclaim after a crash at the review gate brings the job to its review.**  Whatever the
worker that reclaims the lease reads and asks for, and however its call goes, the job does not
wait for review afterwards. -/
theorem review_gate_never_reached {settings : Settings} {w w₁ w' : World} {now lease : Instant}
    {jobId executionId token : String} {row : ResearchJobRow} {values : GraphState}
    {claimed : ClaimedResearchJob} {env : ℕ → Env} {i j : ℕ} {r : Except Exc Unit}
    (hgate : AtReviewGate w jobId executionId row values)
    (hfresh : ∀ other row, w.jobs.lookup other = some row → row.claimToken ≠ some token)
    (hclaim : claimNext settings w now lease token jobId = some (w₁, claimed))
    (hrun : (processClaimed settings claimed).run env i w₁ = (r, j, w')) :
    ¬ ReviewReached jobId executionId w w' := by
  obtain ⟨hjob, htoken, hmode, hactive, row', hfrom, hid, rfl⟩ :=
    reclaim_eq_some hgate.stored hgate.running hclaim
  rw [hgate.mode] at hmode
  rw [hgate.active] at hactive
  -- the claim is under way at the gate
  have hheld : HeldAtGate claimed.job.id token executionId values
      { w with jobs := w.jobs.insert jobId row' } := by
    rw [hjob]
    constructor
    · constructor
      · intro other row hother hrow
        rw [AList.lookup_insert_ne hother] at hrow
        exact hfresh other row hrow
      · intro row hrow
        rw [AList.lookup_insert] at hrow
        cases hrow
        exact hid
    · refine ⟨row', ⟨AList.lookup_insert _, hfrom.status, hfrom.token⟩, ?_⟩
      exact hfrom.active.trans hgate.active
    · obtain ⟨execution, hlookup, -, hrunning⟩ := hgate.execution
      exact ⟨execution, hlookup, hrunning⟩
    · exact hgate.checkpoint
  have hcall := unpaused_process settings values htoken hmode hactive
  have hends : Program.Hoare (HeldAtGate claimed.job.id token executionId values)
      (processClaimed settings claimed) (fun _ => Unpaused claimed.job.id token)
      (fun _ => Unpaused claimed.job.id token) := by
    refine Program.Triple.bind (Program.Triple.attempt (R := fun _ =>
      Unpaused claimed.job.id token) hcall ?_ ?_) ?_
    · exact fun _ _ hw => hw
    · exact fun _ _ hw => hw
    · exact fun outcome => spares_settle rfl outcome
  have hunpaused : Unpaused claimed.job.id token w' := by
    cases r with
    | ok u => exact hends.run_ok (fun _ => rfl) hheld hrun
    | error x => exact hends.run_error (fun _ => rfl) hheld hrun
  intro hreached
  obtain ⟨row₂, hrow₂, hpaused⟩ := Option.map_eq_some_iff.1 hreached.paused
  rw [hjob] at hunpaused
  exact hunpaused.status row₂ hrow₂ hpaused

/-! ### An instance -/

/-- A job that runs under a claim whose lease ends at 20, bound to the execution `exec-1`. -/
def sampleRow (mode : ContinuationMode) : ResearchJobRow where
  id := "job-1"
  question := "why?"
  status := .running
  createdAt := 0
  updatedAt := 10
  startedAt := some 10
  finishedAt := none
  result := none
  failureReason := none
  idempotencyKey := some "key-1"
  requestFingerprint := some (String.ofList (List.replicate 64 'f'))
  leaseExpiresAt := some 20
  claimToken := some (String.ofList (List.replicate 64 'a'))
  evaluationAttemptCount := 1
  claimedContinuationMode := mode
  activeWorkflowExecutionId := some "exec-1"
  evaluationProfile := some "evaluation.candidate.v1"

theorem sampleRow_valid (mode : ContinuationMode) : (sampleRow mode).Valid where
  id_clean := (by decide +kernel : Clean "job-1")
  id_length := (by decide : "job-1".length ≤ maxResearchJobIdLength)
  question_clean := (by decide +kernel : Clean "why?")
  result_clean := nofun
  failure_clean := nofun
  created_le_updated := (by decide : (0 : Instant) ≤ 10)
  status_fields := rfl

/-- The database after a crash of the job's worker: its execution runs, and the graph has the given
checkpoint. -/
def sampleWorld (mode : ContinuationMode) (checkpoint : Checkpoint) : World where
  jobs := (∅ : Jobs).insert "job-1" (sampleRow mode)
  executions := (∅ : Executions).insert "exec-1"
    { id := "exec-1", researchJobId := "job-1", threadId := "exec-1", status := .running
      startedAt := 10, finishedAt := none }
  checkpoints := (∅ : Table String Checkpoint).insert "exec-1" checkpoint

/-- The token of the reclaim. -/
def sampleToken : String := String.ofList (List.replicate 64 'b')

/-- A worker; the digest is the one of its token. -/
def sampleSettings : Settings where
  evaluationProfile := "evaluation.candidate.v1"
  profile_allowed := by decide
  retry := ⟨30000000, 900000000⟩
  sha256 _ := "a0fab1377f49a759b57f63318262ebe89fabfc990e8e93ceac2984561482b9d4"

/-- The environments of the worker's acts. -/
def sampleEnv (i : ℕ) : Env where
  now := 40
  uuid n := "id-" ++ toString i ++ "-" ++ toString n
  tokenHex := sampleToken
  jitter := 0
  traceparent := none
  outside := .unavailable

/-- The reclaim of the job. -/
abbrev sampleReclaim (w : World) : Option (World × ClaimedResearchJob) :=
  claimNext sampleSettings w 30 1000 sampleToken "job-1"

theorem sampleReclaim_eq_some {w : World} (h : (sampleReclaim w).isSome = true) :
    sampleReclaim w = some (((sampleReclaim w).get h).1, ((sampleReclaim w).get h).2) :=
  (Option.some_get h).symm

/-- The database after the reclaim has been processed. -/
def sampleEnd (w : World) (h : (sampleReclaim w).isSome = true) : World :=
  finalWorld sampleSettings ((sampleReclaim w).get h).2 sampleEnv 0 ((sampleReclaim w).get h).1

/-- The candidate that waits for review. -/
def gateValues : GraphState where
  jobId := "job-1"
  question := "why?"
  draft := "because"
  disposition := some .awaitReview
  evaluationRunId := "run-1"
  evaluationAttempt := 1
  evaluationFingerprint := String.ofList (List.replicate 64 'e')

/-- The database after the crash at the review gate. -/
def gateWorld : World := sampleWorld .none ⟨gateValues, some .complete⟩

theorem gateWorld_atReviewGate :
    AtReviewGate gateWorld "job-1" "exec-1" (sampleRow .none) gateValues where
  stored := ⟨rfl, rfl, sampleRow_valid .none⟩
  running := rfl
  mode := rfl
  active := rfl
  execution := ⟨_, rfl, rfl, rfl⟩
  checkpoint := rfl
  disposition := rfl
  notPassed := rfl

theorem gateWorld_reclaim : (sampleReclaim gateWorld).isSome = true := by decide +kernel

/-- The database after the reclaim at the gate has been processed. -/
def gateEnd : World := sampleEnd gateWorld gateWorld_reclaim

/-- A reclaim at the gate: nobody has reviewed the candidate, the complete node is entered, and the
job fails. -/
theorem review_gate_fails :
    AtReviewGate gateWorld "job-1" "exec-1" (sampleRow .none) gateValues ∧
      gateEnd.reviewDecisions = [] ∧ gateEnd.nodeAttempts "exec-1" .complete = 1 ∧
      (gateEnd.jobs.lookup "job-1").map (·.status) = some .failed ∧
      ¬ ReviewReached "job-1" "exec-1" gateWorld gateEnd := by
  obtain ⟨hreviews, hentered, hfailed⟩ : gateEnd.reviewDecisions = [] ∧
      gateEnd.nodeAttempts "exec-1" .complete = 1 ∧
      (gateEnd.jobs.lookup "job-1").map (·.status) = some .failed := by
    decide +kernel
  refine ⟨gateWorld_atReviewGate, hreviews, hentered, hfailed, ?_⟩
  intro hreached
  exact hreached.notFailed hfailed

/-- The token of the reclaim is on no row. -/
theorem sampleToken_fresh {mode : ContinuationMode} {checkpoint : Checkpoint} (other : String)
    (row : ResearchJobRow) (hrow : (sampleWorld mode checkpoint).jobs.lookup other = some row) :
    row.claimToken ≠ some sampleToken := by
  change ((∅ : Jobs).insert "job-1" (sampleRow mode)).lookup other = some row at hrow
  rw [Table.lookup_insert_eq] at hrow
  split at hrow
  · cases hrow
    change some (String.ofList (List.replicate 64 'a')) ≠ some sampleToken
    decide +kernel
  · cases hrow

/-- The same reclaim, as an instance of the general fact. -/
theorem review_gate_never_reached_instance :
    ¬ ReviewReached "job-1" "exec-1" gateWorld gateEnd :=
  review_gate_never_reached gateWorld_atReviewGate sampleToken_fresh
    (sampleReclaim_eq_some gateWorld_reclaim)
    (Program.run_eta (processClaimed sampleSettings
      ((sampleReclaim gateWorld).get gateWorld_reclaim).2))

end Atlas
