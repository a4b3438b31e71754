/-
**A crash after the completion.**

The complete node has stored its report and the checkpoint of the finished graph, and the worker
crashes before the job is completed: before or after its execution is.  Whoever reclaims the lease
takes the claim over in the mode it was made in, and the modes differ.  In mode NONE the call finds
the execution completed, or completes it, and returns the result of the checkpoint.  In mode
JOB_RETRY the binding abandons the execution and creates another one; in mode REVIEW_COMPLETE a
checkpoint without a next node is a bad one, and the execution is failed, or refused when it has
completed.

Main definitions:

* `Atlas.AfterCompletion` — the state the crash leaves;
* `Atlas.Recovers` — the recovery: the checkpointed result is returned, nothing is created or run
  again, and the job does not fail.

Main results:

* `Atlas.process_run_afterCompletion` — a call in mode NONE returns the checkpointed result;
* `Atlas.process_outcome_jobRetry`, `Atlas.process_outcome_reviewComplete` — the other two modes
  never return a result of the execution;
* `Atlas.crash_after_completion` — **the reclaim recovers exactly when the mode is NONE**.
-/

import Atlas.ReviewGate

set_option relaxedAutoImplicit false
set_option autoImplicit false

namespace Atlas

/-! ### The state after the crash -/

/-- The graph of the job's execution has completed with a result, the job has not; the execution
may have. -/
structure AfterCompletion (w : World) (jobId executionId : String) (row : ResearchJobRow)
    (execution : WorkflowExecutionRow) (values : GraphState) : Prop where
  stored : StoredJob w.jobs jobId row
  running : row.status = .running
  active : row.activeWorkflowExecutionId = some executionId
  lookup : w.executions.lookup executionId = some execution
  job : execution.researchJobId = jobId
  status : execution.status = .running ∨ execution.status = .completed
  checks : CheckConstraint.AllHold workflowExecutionChecks execution
  checkpoint : w.checkpoints.lookup executionId = some ⟨values, none⟩
  result : Python.strip values.result ≠ ""

/-- The recovery: the call returns the checkpointed result of the execution, no execution is
created, no node runs, and the job does not fail. -/
structure Recovers (settings : Settings) (claimed : ClaimedResearchJob) (env : ℕ → Env) (i : ℕ)
    (w : World) (executionId : String) (values : GraphState) : Prop where
  outcome : ((process settings claimed).run env i w).1 = .ok (.completed values.result executionId)
  noExecution : ∀ id, ((finalWorld settings claimed env i w).executions.lookup id).isSome
    = (w.executions.lookup id).isSome
  noNode : (finalWorld settings claimed env i w).nodeExecutions = w.nodeExecutions
  notFailed : ((finalWorld settings claimed env i w).jobs.lookup claimed.job.id).map (·.status)
    ≠ some .failed

/-- The job runs under the reclaim, on the execution whose graph has completed. -/
structure Reclaimed (w : World) (claimed : ClaimedResearchJob) (executionId profile : String)
    (lease : Instant) (execution : WorkflowExecutionRow) (values : GraphState) : Prop where
  row : ∃ row, w.jobs.lookup claimed.job.id = some row ∧ row.status = .running ∧
    row.claimToken = some claimed.claimToken ∧ row.leaseExpiresAt = some lease ∧
    row.activeWorkflowExecutionId = some executionId ∧ row.evaluationProfile = some profile
  active : claimed.activeWorkflowExecutionId = some executionId
  token : IsTokenHex claimed.claimToken
  lookup : w.executions.lookup executionId = some execution
  job : execution.researchJobId = claimed.job.id
  status : execution.status = .running ∨ execution.status = .completed
  checks : CheckConstraint.AllHold workflowExecutionChecks execution
  checkpoint : w.checkpoints.lookup executionId = some ⟨values, none⟩
  result : Python.strip values.result ≠ ""

section Recovery

variable {settings : Settings} {claimed : ClaimedResearchJob} {env : ℕ → Env} {i : ℕ}
  {w : World} {executionId : String} {lease : Instant} {execution : WorkflowExecutionRow}
  {values : GraphState}

/-! ### Mode NONE -/

/-- A job that runs has no result to replay. -/
theorem Reclaimed.readJob
    (h : Reclaimed w claimed executionId settings.evaluationProfile lease execution values) :
    readJob claimed w = (some executionId, none) := by
  obtain ⟨row, hrow, hrunning, -⟩ := h.row
  have hreplay : completedReplay w claimed row = none := by
    unfold completedReplay
    split
    · simp [hrunning]
    · rfl
  rw [Atlas.readJob, h.active, hrow, Option.bind_some, Option.bind_some, hreplay]
  rfl

theorem Reclaimed.requireBoundProfile
    (h : Reclaimed w claimed executionId settings.evaluationProfile lease execution values) :
    (requireBoundProfile settings claimed.job.id).run env i w
      = (.ok settings.evaluationProfile, i + 1, w) := by
  obtain ⟨row, hrow, -, -, -, -, hprofile⟩ := h.row
  have hstored : (w.jobs.lookup claimed.job.id).bind ResearchJobRow.evaluationProfile
      = some settings.evaluationProfile := by
    rw [hrow, Option.bind_some, hprofile]
  simp [Atlas.requireBoundProfile, Program.run_bind, hstored, Checked.ensure]

/-- A call of the mode NONE sees at once whether the execution has completed. -/
theorem Reclaimed.shortCircuit_completed
    (h : Reclaimed w claimed executionId settings.evaluationProfile lease execution values)
    (hmode : claimed.continuationMode = .none) (hdone : execution.status = .completed) :
    (completedShortCircuit claimed (some executionId)).run env i w
      = (.ok (some (.completed values.result executionId)), i + 2, w) := by
  simp [completedShortCircuit, hmode, completedExecutionResult, Program.run_bind, h.lookup, h.job,
    hdone, getState, h.checkpoint, h.result]

theorem Reclaimed.shortCircuit_running
    (h : Reclaimed w claimed executionId settings.evaluationProfile lease execution values)
    (hmode : claimed.continuationMode = .none) (hrunning : execution.status = .running) :
    (completedShortCircuit claimed (some executionId)).run env i w = (.ok none, i + 1, w) := by
  simp [completedShortCircuit, hmode, completedExecutionResult, Program.run_bind, h.lookup,
    hrunning]

/-- The constraints of a closed execution. -/
theorem allHold_close {target : ExecutionStatus} {time : Instant}
    (hchecks : CheckConstraint.AllHold workflowExecutionChecks execution)
    (htarget : target ≠ .running) (htime : execution.startedAt ≤ time) :
    CheckConstraint.AllHold workflowExecutionChecks (execution.close target time) := by
  simp only [CheckConstraint.AllHold, workflowExecutionChecks, List.forall_mem_cons,
    WorkflowExecutionRow.close] at hchecks ⊢
  obtain ⟨hid, hjob, hthread, -, hidLength, hthreadLength, -⟩ := hchecks
  refine ⟨hid, hjob, hthread, ?_, hidLength, hthreadLength, by simp⟩
  simp [htarget, sqlOrdered, htime]

/-- Under the reclaim the execution is completed. -/
theorem Reclaimed.completeExecutionTx
    (h : Reclaimed w claimed executionId settings.evaluationProfile lease execution values)
    (hrunning : execution.status = .running) {e : Env} (hstarted : execution.startedAt ≤ e.now)
    (hlease : e.now < lease) :
    completeExecutionTx claimed.job.id executionId claimed.claimToken e w
      = .ok ((), { w with
          executions := w.executions.insert executionId (execution.close .completed e.now) }) := by
  obtain ⟨row, hrow, hstatus, htoken, hrowLease, hactive, -⟩ := h.row
  have hbinds : claimBindsExecution w.jobs executionId claimed.job.id claimed.claimToken e.now
      = true :=
    claimBindsExecution_eq_true.2
      ⟨row, lease, hrow, hstatus, htoken, hrowLease, hlease, hactive⟩
  have hclose : completeExecutionForClaim w.jobs w.executions executionId claimed.job.id
      claimed.claimToken e.now
        = .ok (true, w.executions.insert executionId (execution.close .completed e.now)) := by
    refine closeRunning_eq_ok.2 (.inl ⟨execution, h.lookup, hrunning, ?_, ?_, rfl, rfl⟩)
    · simp [h.job, hbinds]
    · exact allHold_close h.checks nofun hstarted
  simp only [Atlas.completeExecutionTx, Tx.bind_eq_ok, Tx.reading_eq_ok, onExecutions_eq_ok,
    require_eq_ok]
  exact ⟨e.now, w, ⟨rfl, rfl⟩, true, _, ⟨_, hclose, rfl⟩, rfl, rfl⟩

/-- The database after a recovery: the execution has completed. -/
def recoveredWorld (w : World) (executionId : String) (execution : WorkflowExecutionRow)
    (time : Instant) : World :=
  if execution.status = .running then
    { w with executions := w.executions.insert executionId (execution.close .completed time) }
  else w

/-- **In mode NONE the call returns the checkpointed result.** -/
theorem Reclaimed.process_run
    (h : Reclaimed w claimed executionId settings.evaluationProfile lease execution values)
    (hmode : claimed.continuationMode = .none)
    (hclock : ∀ k, execution.startedAt ≤ (env k).now ∧ (env k).now < lease) :
    ∃ j time, (process settings claimed).run env i w
      = (.ok (.completed values.result executionId), j,
          recoveredWorld w executionId execution time) := by
  have hstart : (process settings claimed).run env i w
      = (processOpen settings claimed (some executionId)).run env (i + 1) w := by
    simp [process, fingerprintJobClaimToken_of_isTokenHex h.token, Program.run_bind, h.readJob]
  rw [hstart, processOpen, Program.run_bind, h.requireBoundProfile]
  simp only [Program.run_bind]
  rcases h.status with hrunning | hdone
  · -- the execution runs: it is bound again, its checkpoint has the result, and it is completed
    have hcomplete := h.completeExecutionTx hrunning (hclock (i + 1 + 1 + 1 + 1 + 1)).1
      (hclock (i + 1 + 1 + 1 + 1 + 1)).2
    have hbind : (bindExecution claimed.job.id claimed.claimToken .none (some executionId)).run env
        (i + 1 + 1 + 1) w = (.ok executionId, i + 1 + 1 + 1 + 1, w) := by
      simp [bindExecution, executionStatus, Program.run_bind, h.lookup, hrunning]
    refine ⟨i + 1 + 1 + 1 + 1 + 1 + 1, (env (i + 1 + 1 + 1 + 1 + 1)).now, ?_⟩
    rw [h.shortCircuit_running hmode hrunning]
    simp only [processUnfinished, hmode, Program.run_bind, Program.run_attempt, hbind,
      Program.run_tryCatch, processBound, reduceCtorEq, if_false, getState, Program.run_read,
      h.checkpoint]
    rw [if_pos h.result]
    simp only [Program.run_bind, Program.run_atomically, hcomplete]
    rw [recoveredWorld, if_pos hrunning]
    rfl
  · refine ⟨i + 1 + 1 + 2, 0, ?_⟩
    rw [h.shortCircuit_completed hmode hdone]
    simp only [recoveredWorld, hdone, reduceCtorEq, if_false]
    rfl

/-! ### What the worker makes of it -/

/-- Completing the job leaves the executions, the node attempts, and a job that has not failed. -/
theorem settle_completed (env : ℕ → Env) (i : ℕ) (result executionId : String)
    {row : ResearchJobRow} (hrow : w.jobs.lookup claimed.job.id = some row) (hrunning : row.status = .running) :
    ((settle claimed (.ok (.completed result executionId))).run env i w).2.2.executions
        = w.executions ∧
      ((settle claimed (.ok (.completed result executionId))).run env i w).2.2.nodeExecutions
        = w.nodeExecutions ∧
      (((settle claimed (.ok (.completed result executionId))).run env i w).2.2.jobs.lookup
        claimed.job.id).map (·.status) ≠ some .failed := by
  have hsame : (w.jobs.lookup claimed.job.id).map (·.status) ≠ some .failed := by
    rw [hrow, Option.map_some, hrunning]
    exact nofun
  simp only [settle, Program.run_bind, Program.run_atomically]
  cases hfinal : finalizeCompletionTx claimed.job.id claimed.claimToken result (env i) w with
  | error x => exact ⟨rfl, rfl, hsame⟩
  | ok answer =>
      obtain ⟨owned, w'⟩ := answer
      rcases finalizeCompletionTx_eq_ok hfinal with ⟨row', _, _, -, hrow', -, -, -, rfl⟩ | ⟨-, rfl⟩
      · refine ⟨rfl, rfl, ?_⟩
        obtain ⟨_, _, hreleased, _⟩ := finalizeCompletion_released hrow'
        change ((w.jobs.insert claimed.job.id row').lookup claimed.job.id).map (·.status) ≠ _
        rw [AList.lookup_insert, Option.map_some, hreleased.status]
        exact nofun
      · exact ⟨rfl, rfl, hsame⟩

theorem processClaimed_run :
    (processClaimed settings claimed).run env i w
      = (settle claimed ((process settings claimed).run env i w).1).run env
          ((process settings claimed).run env i w).2.1
          ((process settings claimed).run env i w).2.2 := by
  rw [processClaimed, Program.run_bind, Program.run_attempt]

/-- The recovery in mode NONE. -/
theorem Reclaimed.recovers
    (h : Reclaimed w claimed executionId settings.evaluationProfile lease execution values)
    (hmode : claimed.continuationMode = .none)
    (hclock : ∀ k, execution.startedAt ≤ (env k).now ∧ (env k).now < lease) :
    Recovers settings claimed env i w executionId values := by
  obtain ⟨j, time, hrun⟩ := h.process_run (i := i) hmode hclock
  have hjobs : (recoveredWorld w executionId execution time).jobs = w.jobs := by
    rw [recoveredWorld]
    split <;> rfl
  have hnodes : (recoveredWorld w executionId execution time).nodeExecutions = w.nodeExecutions := by
    rw [recoveredWorld]
    split <;> rfl
  have hexecutions (id : String) :
      ((recoveredWorld w executionId execution time).executions.lookup id).isSome
        = (w.executions.lookup id).isSome := by
    rw [recoveredWorld]
    split
    · change ((w.executions.insert executionId _).lookup id).isSome = _
      rw [Table.lookup_insert_eq]
      split
      · rename_i heq
        rw [heq, h.lookup]
        rfl
      · rfl
    · rfl
  obtain ⟨row, hrow, hrunning, -⟩ := h.row
  rw [← hjobs] at hrow
  have hsettle := settle_completed env j values.result executionId hrow hrunning
  have hfinal : finalWorld settings claimed env i w
      = ((settle claimed (.ok (.completed values.result executionId))).run env j
          (recoveredWorld w executionId execution time)).2.2 := by
    rw [finalWorld, processClaimed_run, hrun]
  constructor
  · rw [hrun]
  · intro id
    rw [hfinal, hsettle.1, hexecutions]
  · rw [hfinal, hsettle.2.1, hnodes]
  · rw [hfinal]
    exact hsettle.2.2

/-! ### The other modes -/

/-- The outcome is not a result. -/
def NoResult (outcome : ProcessingOutcome) : Prop :=
  ∀ result executionId, outcome ≠ .completed result executionId

/-- The policy of exceptions never makes a result of one. -/
theorem exceptClauses_noResult {A : World → Prop} (jobId token : String) (bound : Option String)
    (x : Exc) :
    Program.Hoare A (exceptClauses settings jobId token bound x) (fun outcome _ => NoResult outcome)
      (fun _ _ => True) := by
  have hfail (reason : String) : Program.Hoare (fun _ => True) (do
      failBoundExecution jobId token bound
      return .terminalFailed reason bound) (fun outcome _ => NoResult outcome)
      (fun _ _ => True) :=
    Program.Triple.bind (Program.Hoare.trivial _) fun _ => Program.Triple.ret fun _ _ => nofun
  refine Program.Triple.pre (A := fun _ => True) ?_ fun _ _ => trivial
  unfold exceptClauses
  split
  · exact Program.Triple.raise fun _ h => h
  · unfold handleException
    split
    · exact hfail _
    · refine Program.Triple.bind (Program.Hoare.trivial _) ?_
      rintro ⟨repairCount, jobRetryCount, evaluationAttemptCount⟩
      dsimp only
      split
      · refine Program.Triple.bind (Program.Hoare.trivial _) ?_
        rintro ⟨nextAt, attemptNumber⟩
        exact Program.Triple.ret fun _ _ => nofun
      · exact hfail _

/-- A result is one of the bound execution. -/
def ResultOf (executionId : String) (outcome : ProcessingOutcome) : Prop :=
  ∀ result id, outcome = .completed result id → id = executionId

theorem handlePostInvoke_resultOf (ctx : GraphContext) (state : GraphState) :
    Program.Hoare (fun _ => True) (handlePostInvoke ctx state)
      (fun outcome _ => ResultOf ctx.executionId outcome) (fun _ _ => True) := by
  refine Program.Triple.bind (Program.Hoare.trivial _) fun snapshot => ?_
  cases snapshot.bind Checkpoint.next with
  | some next =>
      dsimp only
      split
      · refine Program.Triple.bind (Program.Hoare.trivial _) fun _ => ?_
        exact Program.Triple.ret fun _ _ => nofun
      · refine Program.Triple.bind (Program.Hoare.trivial _) fun _ => ?_
        exact Program.Triple.raise fun _ h => h
  | none =>
      dsimp only
      split
      · exact Program.Triple.raise fun _ h => h
      · refine Program.Triple.bind (Program.Hoare.trivial _) fun _ => Program.Triple.ret ?_
        rintro _ _ _ _ ⟨⟩
        rfl

/-- The body of a call that retries returns results of its own execution. -/
theorem processBound_resultOf (ctx : GraphContext) (question : String) :
    Program.Hoare (fun _ => True) (processBound ctx question .jobRetry)
      (fun outcome _ => ResultOf ctx.executionId outcome) (fun _ _ => True) := by
  have hrun (input : Option GraphState) : Program.Hoare (fun _ => True)
      (invokeGraph ctx input >>= handlePostInvoke ctx)
      (fun outcome _ => ResultOf ctx.executionId outcome) (fun _ _ => True) :=
    Program.Triple.bind (Program.Hoare.trivial _) (handlePostInvoke_resultOf ctx)
  refine Program.Triple.bind (Program.Hoare.trivial _) fun snapshot => ?_
  match snapshot with
  | some ⟨_, some _⟩ => exact hrun none
  | some ⟨values, none⟩ =>
      dsimp only
      split
      · refine Program.Triple.bind (Program.Hoare.trivial _) fun _ => Program.Triple.ret ?_
        rintro _ _ _ _ ⟨⟩
        rfl
      · exact hrun _
  | none => exact hrun _

/-- A binding that retries creates another execution. -/
theorem bindExecution_jobRetry (jobId token : String) (active : Option String) :
    Program.Hoare (fun w => (w.executions.lookup executionId).isSome = true)
      (bindExecution jobId token .jobRetry active) (fun id _ => id ≠ executionId)
      (fun _ _ => True) := by
  refine Program.Hoare.atomically ?_ fun _ _ _ _ _ => trivial
  rintro e w id w' hold h rfl
  obtain ⟨abandoned, executions, row, habandon, hcreate, -, rfl⟩ := createAndBind_eq_ok h
  obtain ⟨hnew, -⟩ := createExecution_eq_ok hcreate
  rw [abandonUnfinishedForJob_lookup_none habandon hnew] at hold
  cases hold

/-- The parts of a call before the binding leave the database as it is. -/
theorem process_unbound {A : World → Prop} {Q : ProcessingOutcome → World → Prop}
    (hmode : claimed.continuationMode ≠ .none)
    (hactive : claimed.activeWorkflowExecutionId = some executionId)
    (hrest : ∀ profile, Program.Hoare A
      (processUnfinished settings claimed profile (some executionId)) Q (fun _ _ => True)) :
    Program.Hoare A (process settings claimed) Q (fun _ _ => True) := by
  unfold process
  refine Program.Triple.bind (Program.Triple.lift (fun _ _ _ hw => hw) fun _ _ _ _ => trivial) ?_
  intro _
  refine Program.Triple.bind (Q := fun read w => A w ∧ read = (some executionId, none)) ?_ ?_
  · refine Program.Hoare.read fun w hw => ⟨hw, ?_⟩
    have hreplay (row : ResearchJobRow) : completedReplay w claimed row = none := by
      unfold completedReplay
      split
      · simp [hmode]
      · rfl
    rw [readJob, hactive]
    cases w.jobs.lookup claimed.job.id with
    | none => rfl
    | some row =>
        rw [Option.bind_some, Option.bind_some, hreplay]
        rfl
  rintro read w ⟨hw, rfl⟩
  have hshort : completedShortCircuit claimed (some executionId) = .ret none := by
    unfold completedShortCircuit
    cases hcontinuation : claimed.continuationMode with
    | none => exact absurd hcontinuation hmode
    | jobRetry => rfl
    | reviewComplete => rfl
  have hopen : Program.Hoare A (processOpen settings claimed (some executionId)) Q
      (fun _ _ => True) := by
    unfold processOpen
    rw [hshort]
    refine Program.Triple.bind (Q := fun _ => A) ?_ fun profile => hrest profile
    refine Program.Triple.bind (Q := fun _ => A) (Program.Hoare.read fun w hw => hw) fun stored => ?_
    refine Program.Triple.bind (Program.Triple.lift (Q := fun _ => A) ?_ ?_) ?_
    · exact fun _ _ _ hw => hw
    · exact fun _ _ _ _ => trivial
    · exact fun _ => Program.Triple.ret fun _ hw => hw
  exact hopen w hw

/-- **A retry returns no result of the execution that has completed.** -/
theorem process_outcome_jobRetry (hmode : claimed.continuationMode = .jobRetry)
    (hactive : claimed.activeWorkflowExecutionId = some executionId) :
    Program.Hoare (fun w => (w.executions.lookup executionId).isSome = true)
      (process settings claimed)
      (fun outcome _ => ∀ result, outcome ≠ .completed result executionId)
      (fun _ _ => True) := by
  refine process_unbound (by simp [hmode]) hactive fun profile => ?_
  simp only [processUnfinished, hmode]
  let bound (r : Except Exc String) (_ : World) : Prop := r ≠ .ok executionId
  refine Program.Triple.bind (Q := bound) ?_ ?_
  · refine Program.Triple.attempt (bindExecution_jobRetry _ _ _) ?_ ?_
    · rintro id w hne heq
      exact hne (Except.ok.inj heq)
    · intro _ _ _ heq
      cases heq
  · intro r
    cases r with
    | error x =>
        refine Program.Triple.consequence
          (exceptClauses_noResult claimed.job.id claimed.claimToken none x) (fun _ h => h) ?_
          fun _ _ h => h
        exact fun outcome _ hno result => hno result executionId
    | ok id =>
        intro w hne
        let ctx : GraphContext :=
          { settings := settings, jobId := claimed.job.id, executionId := id
            claimToken := claimed.claimToken, evaluationProfile := profile }
        have hbody : Program.Hoare (fun _ => True)
            (processBound ctx claimed.job.question .jobRetry)
            (fun outcome _ => ∀ result, outcome ≠ .completed result executionId)
            (fun _ _ => True) := by
          refine Program.Triple.consequence (processBound_resultOf ctx claimed.job.question)
            (fun _ h => h) ?_ fun _ _ h => h
          intro outcome _ hresult result heq
          exact hne (congrArg Except.ok (hresult result executionId heq).symm)
        refine Program.Triple.tryCatch hbody (fun x => ?_) w trivial
        refine Program.Triple.consequence
          (exceptClauses_noResult claimed.job.id claimed.claimToken (some id) x) (fun _ h => h) ?_
          fun _ _ h => h
        exact fun outcome _ hno result => hno result executionId

/-- **A review continuation returns no result of a graph that has completed.** -/
theorem process_outcome_reviewComplete (hmode : claimed.continuationMode = .reviewComplete)
    (hactive : claimed.activeWorkflowExecutionId = some executionId) :
    Program.Hoare (fun w => w.checkpoints.lookup executionId = some ⟨values, none⟩)
      (process settings claimed) (fun outcome _ => NoResult outcome) (fun _ _ => True) := by
  refine process_unbound (by simp [hmode]) hactive fun profile => ?_
  simp only [processUnfinished, hmode]
  let bound (r : Except Exc String) (w : World) : Prop :=
    w.checkpoints.lookup executionId = some ⟨values, none⟩ ∧
      ∀ id, r = .ok id → id = executionId
  refine Program.Triple.bind (Q := bound) ?_ ?_
  · refine Program.Triple.attempt (Q := fun id w =>
      w.checkpoints.lookup executionId = some ⟨values, none⟩ ∧ id = executionId)
      (X := fun _ w => w.checkpoints.lookup executionId = some ⟨values, none⟩) ?_ ?_ ?_
    · refine Program.Triple.bind (Q := fun _ w =>
        w.checkpoints.lookup executionId = some ⟨values, none⟩) ?_ fun status => ?_
      · exact Program.Hoare.read fun w hw => hw
      · split
        · exact Program.Triple.ret fun _ hw => ⟨hw, rfl⟩
        · exact Program.Triple.raise fun _ hw => hw
    · rintro id w ⟨hw, rfl⟩
      exact ⟨hw, fun _ heq => (Except.ok.inj heq).symm⟩
    · intro x w hw
      refine ⟨hw, ?_⟩
      intro id heq
      cases heq
  · intro r
    cases r with
    | error x => exact exceptClauses_noResult claimed.job.id claimed.claimToken none x
    | ok id =>
        rintro w ⟨hw, hid⟩
        obtain rfl := hid id rfl
        let ctx : GraphContext :=
          { settings := settings, jobId := claimed.job.id, executionId := id
            claimToken := claimed.claimToken, evaluationProfile := profile }
        have hbody : Program.Hoare (fun w => w.checkpoints.lookup id = some ⟨values, none⟩)
            (processBound ctx claimed.job.question .reviewComplete)
            (fun outcome _ => NoResult outcome) (fun _ _ => True) := by
          refine Program.Triple.bind (Q := fun snapshot _ => snapshot = some ⟨values, none⟩)
            (Program.Hoare.read fun w hw => hw) ?_
          rintro snapshot w rfl
          refine Program.Triple.bind (A := fun _ => True) (Program.Hoare.trivial _) (fun _ => ?_) w
            trivial
          refine Program.Triple.ret ?_
          intro _ _ result executionId heq
          cases heq
        refine Program.Triple.tryCatch hbody (fun x => ?_) w hw
        exact exceptClauses_noResult claimed.job.id claimed.claimToken (some id) x

end Recovery

/-! ### The recovery -/

/-- **A reclaim after the completion recovers exactly when the job was claimed in mode NONE.**  The
clocks of the call read instants after the start of the execution and before the lease ends. -/
theorem crash_after_completion {settings : Settings} {w w₁ : World} {now lease : Instant}
    {jobId executionId token : String} {row : ResearchJobRow} {execution : WorkflowExecutionRow}
    {values : GraphState} {claimed : ClaimedResearchJob} {env : ℕ → Env} {i : ℕ}
    (hcrash : AfterCompletion w jobId executionId row execution values)
    (htoken : IsTokenHex token)
    (hclaim : claimNext settings w now lease token jobId = some (w₁, claimed))
    (hclock : ∀ k, execution.startedAt ≤ (env k).now ∧ (env k).now < lease) :
    Recovers settings claimed env i w₁ executionId values ↔
      row.claimedContinuationMode = .none := by
  obtain ⟨hjob, hclaimedToken, hmode, hactive, row', hfrom, hid, hw₁⟩ :=
    reclaim_eq_some hcrash.stored hcrash.running hclaim
  rw [hcrash.active] at hactive
  rw [← hmode]
  -- the reclaim leaves the execution and its checkpoint as they are
  have hlookup : w₁.executions.lookup executionId = some execution := hw₁ ▸ hcrash.lookup
  have hcheckpoint : w₁.checkpoints.lookup executionId = some ⟨values, none⟩ :=
    hw₁ ▸ hcrash.checkpoint
  have hrow : w₁.jobs.lookup claimed.job.id = some row' := by
    rw [hw₁, hjob]
    exact AList.lookup_insert _
  constructor
  · intro hrecovers
    cases hcontinuation : claimed.continuationMode with
    | none => rfl
    | jobRetry =>
        have hold : (w₁.executions.lookup executionId).isSome = true := by
          rw [hlookup]
          rfl
        have hother := Program.Hoare.run_result
          (process_outcome_jobRetry hcontinuation hactive) hold hrecovers.outcome
        exact absurd rfl (hother values.result)
    | reviewComplete =>
        have hnone := Program.Hoare.run_result
          (process_outcome_reviewComplete hcontinuation hactive) hcheckpoint hrecovers.outcome
        exact absurd rfl (hnone values.result executionId)
  · intro hnone
    have hreclaimed : Reclaimed w₁ claimed executionId settings.evaluationProfile lease execution
        values :=
      ⟨⟨row', hrow, hfrom.status, hclaimedToken ▸ hfrom.token, hfrom.lease,
        hfrom.active.trans hcrash.active, hfrom.profile⟩, hactive, hclaimedToken ▸ htoken, hlookup,
        hcrash.job.trans hjob.symm, hcrash.status, hcrash.checks, hcheckpoint, hcrash.result⟩
    exact hreclaimed.recovers hnone hclock

/-! ### Instances -/

/-- The finished graph. -/
def finishedValues : GraphState where
  jobId := "job-1"
  question := "why?"
  draft := "because"
  result := "the report"
  evaluationPassed := true

/-- The database after the crash, for a job claimed in a mode. -/
def finishedWorld (mode : ContinuationMode) : World := sampleWorld mode ⟨finishedValues, none⟩

theorem finishedWorld_afterCompletion (mode : ContinuationMode) :
    AfterCompletion (finishedWorld mode) "job-1" "exec-1" (sampleRow mode)
      { id := "exec-1", researchJobId := "job-1", threadId := "exec-1", status := .running
        startedAt := 10, finishedAt := none } finishedValues where
  stored := ⟨rfl, rfl, sampleRow_valid mode⟩
  running := rfl
  active := rfl
  lookup := rfl
  job := rfl
  status := .inl rfl
  checks := by decide +kernel
  checkpoint := rfl
  result := by decide +kernel

theorem finishedWorld_reclaim (mode : ContinuationMode) :
    (sampleReclaim (finishedWorld mode)).isSome = true := by
  cases mode <;> decide +kernel

theorem sampleEnv_clock (k : ℕ) : (10 : Instant) ≤ (sampleEnv k).now ∧ (sampleEnv k).now < 1000 := by
  change (10 : ℤ) ≤ 40 ∧ (40 : ℤ) < 1000
  omega

/-- A reclaim in mode NONE recovers the result. -/
theorem crash_after_completion_none :
    let claim := (sampleReclaim (finishedWorld .none)).get (finishedWorld_reclaim .none)
    Recovers sampleSettings claim.2 sampleEnv 0 claim.1 "exec-1" finishedValues :=
  (crash_after_completion (finishedWorld_afterCompletion .none) (by decide +kernel)
    (sampleReclaim_eq_some (finishedWorld_reclaim .none)) sampleEnv_clock).2 rfl

/-- A reclaim in mode JOB_RETRY starts over: the finished execution is abandoned and another one is
created. -/
theorem crash_after_completion_retried :
    let claim := (sampleReclaim (finishedWorld .jobRetry)).get (finishedWorld_reclaim .jobRetry)
    AfterCompletion (finishedWorld .jobRetry) "job-1" "exec-1" (sampleRow .jobRetry)
        { id := "exec-1", researchJobId := "job-1", threadId := "exec-1", status := .running
          startedAt := 10, finishedAt := none } finishedValues ∧
      (sampleEnd (finishedWorld .jobRetry) (finishedWorld_reclaim .jobRetry)).executions.keys.length
        = 2 ∧
      ¬ Recovers sampleSettings claim.2 sampleEnv 0 claim.1 "exec-1" finishedValues := by
  intro claim
  obtain ⟨hkeys, hcreated⟩ : (sampleEnd (finishedWorld .jobRetry)
        (finishedWorld_reclaim .jobRetry)).executions.keys.length = 2 ∧
      (sampleEnd (finishedWorld .jobRetry) (finishedWorld_reclaim .jobRetry)).nodeExecutions
        ≠ [] := by
    decide +kernel
  refine ⟨finishedWorld_afterCompletion .jobRetry, hkeys, ?_⟩
  intro hrecovers
  exact hcreated hrecovers.noNode

end Atlas
