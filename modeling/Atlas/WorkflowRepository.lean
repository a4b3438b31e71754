/-
**The repository of workflow executions.**

The writes of `persistence/repositories/workflow.py` to `workflow_executions`.  An execution is
created RUNNING and is closed by an `UPDATE` whose condition includes that it is still RUNNING; the
fenced variants also require, in the same statement, that the job row carries the caller's live
claim and is bound to this very execution.

Main definitions:

* `Atlas.closeRunning` — the `UPDATE` all closing operations are;
* `Atlas.createExecution`, `Atlas.abandonUnfinishedForJob`, `Atlas.failExecution`,
  `Atlas.completeExecutionForClaim`, `Atlas.failExecutionForClaim` — the operations.

Main results:

* `Atlas.closeRunning_eq_ok` — **what closing an execution does**: nothing, or the one RUNNING row
  is closed;
* `Atlas.terminalExecutionForClaim_true` — a fenced close owned the job's live claim;
* `Atlas.ExecutionsChange` — what the operations of one job leave as it is: the executions of the
  other jobs, and every execution that has ended.
-/

import Atlas.JobRow

set_option relaxedAutoImplicit false
set_option autoImplicit false

namespace Atlas

open Checked

def WorkflowExecutionRow.flush (row : WorkflowExecutionRow) :
    Except PersistenceError WorkflowExecutionRow :=
  match CheckConstraint.firstViolated workflowExecutionChecks row with
  | none => .ok row
  | some check => .error (.integrity check.name)

theorem WorkflowExecutionRow.flush_eq_ok {row row' : WorkflowExecutionRow} :
    row.flush = .ok row' ↔
      CheckConstraint.AllHold workflowExecutionChecks row ∧ row = row' := by
  rw [← CheckConstraint.firstViolated_eq_none, WorkflowExecutionRow.flush]
  cases CheckConstraint.firstViolated workflowExecutionChecks row <;> simp

/-- The row after `SET status = target, finished_at = at`. -/
def WorkflowExecutionRow.close (row : WorkflowExecutionRow) (target : ExecutionStatus)
    (time : Instant) : WorkflowExecutionRow :=
  { row with status := target, finishedAt := some time }

/-- `UPDATE workflow_executions SET status = target, finished_at = at WHERE id = executionId AND
status = 'RUNNING' AND …`, and whether a row was updated. -/
def closeRunning (executions : Executions) (executionId : String)
    (condition : WorkflowExecutionRow → Bool) (target : ExecutionStatus) (time : Instant) :
    Except PersistenceError (Bool × Executions) :=
  match executions.lookup executionId with
  | none => .ok (false, executions)
  | some row =>
      if row.status = .running && condition row then do
        let row ← (row.close target time).flush
        return (true, executions.insert executionId row)
      else .ok (false, executions)

/-- Insert a RUNNING workflow execution for one worker processing attempt; its checkpoints are
those of the thread of the same id. -/
def createExecution (executions : Executions) (executionId researchJobId : String)
    (time : Instant) : Except PersistenceError Executions := do
  ensure (executions.lookup executionId = none) (.integrity "workflow_executions_pkey")
  let row ← WorkflowExecutionRow.flush
    { id := executionId, researchJobId := researchJobId, threadId := executionId
      status := .running, startedAt := time, finishedAt := none }
  return executions.insert executionId row

/-- The rows `abandon_unfinished_for_job` updates. -/
def WorkflowExecutionRow.Unfinished (row : WorkflowExecutionRow) (researchJobId : String) : Bool :=
  row.researchJobId = researchJobId && row.status = .running

/-- Mark unfinished executions for a job as ABANDONED. -/
def abandonUnfinishedForJob (executions : Executions) (researchJobId : String) (time : Instant) :
    Except PersistenceError Executions :=
  let unfinished := executions.entries.filter fun entry => entry.2.Unfinished researchJobId
  let violated := unfinished.findSome? fun entry =>
    CheckConstraint.firstViolated workflowExecutionChecks (entry.2.close .abandoned time)
  match violated with
  | some check => .error (.integrity check.name)
  | none =>
      .ok (executions.mapRows fun _ row =>
        if row.Unfinished researchJobId then row.close .abandoned time else row)

/-- Mark RUNNING execution FAILED; operator rejection uses this. -/
def failExecution (executions : Executions) (executionId : String) (time : Instant) :
    Except PersistenceError (Bool × Executions) :=
  closeRunning executions executionId (fun _ => true) .failed time

/-- The subquery of the fenced `UPDATE`: the job row carries the caller's live claim and is bound
to the execution. -/
def claimBindsExecution (jobs : Jobs) (executionId researchJobId claimToken : String)
    (time : Instant) : Bool :=
  (jobs.lookup researchJobId).any fun job =>
    job.status = .running && job.claimToken = some claimToken &&
      job.leaseExpiresAt.any (time < ·) && job.activeWorkflowExecutionId = some executionId

/-- Atomically terminalize an execution when the job claim still owns it. -/
def terminalExecutionForClaim (jobs : Jobs) (executions : Executions)
    (executionId researchJobId claimToken : String) (time : Instant) (target : ExecutionStatus) :
    Except PersistenceError (Bool × Executions) :=
  closeRunning executions executionId
    (fun row => row.researchJobId = researchJobId &&
      claimBindsExecution jobs executionId researchJobId claimToken time)
    target time

/-- Complete RUNNING execution only under a valid job claim fence. -/
def completeExecutionForClaim (jobs : Jobs) (executions : Executions)
    (executionId researchJobId claimToken : String) (time : Instant) :
    Except PersistenceError (Bool × Executions) :=
  terminalExecutionForClaim jobs executions executionId researchJobId claimToken time .completed

/-- Fail RUNNING execution only under a valid job claim fence. -/
def failExecutionForClaim (jobs : Jobs) (executions : Executions)
    (executionId researchJobId claimToken : String) (time : Instant) :
    Except PersistenceError (Bool × Executions) :=
  terminalExecutionForClaim jobs executions executionId researchJobId claimToken time .failed

/-! ### What the operations do -/

section Spec

variable {jobs : Jobs} {executions executions' : Executions} {executionId jobId token : String}
  {time : Instant} {target : ExecutionStatus}

/-- **Closing an execution does nothing, or closes the one RUNNING row.** -/
theorem closeRunning_eq_ok {condition : WorkflowExecutionRow → Bool} {updated : Bool} :
    closeRunning executions executionId condition target time = .ok (updated, executions') ↔
      (∃ row, executions.lookup executionId = some row ∧ row.status = .running ∧
          condition row = true ∧
          CheckConstraint.AllHold workflowExecutionChecks (row.close target time) ∧
          true = updated ∧ executions.insert executionId (row.close target time) = executions') ∨
      ((∀ row, executions.lookup executionId = some row → row.status = .running →
          condition row = false) ∧ false = updated ∧ executions = executions') := by
  rw [closeRunning]
  cases hrow : executions.lookup executionId with
  | none => simp
  | some row =>
      by_cases hcond : row.status = .running ∧ condition row = true
      · simp [hcond, WorkflowExecutionRow.flush_eq_ok, and_assoc]
      · have hcond' : (decide (row.status = .running) && condition row) = false := by
          simpa using hcond
        simp only [hcond', Option.some.injEq]
        simp only [Bool.false_eq_true, if_false, Except.ok.injEq, Prod.mk.injEq]
        constructor
        · rintro ⟨rfl, rfl⟩
          refine .inr ⟨?_, rfl, rfl⟩
          rintro _ rfl hrunning
          simpa [hrunning] using hcond
        · rintro (⟨_, rfl, hrunning, hc, -⟩ | ⟨-, rfl, rfl⟩)
          · exact absurd ⟨hrunning, hc⟩ hcond
          · exact ⟨rfl, rfl⟩

theorem claimBindsExecution_eq_true :
    claimBindsExecution jobs executionId jobId token time = true ↔
      ∃ job lease, jobs.lookup jobId = some job ∧ job.status = .running ∧
        job.claimToken = some token ∧ job.leaseExpiresAt = some lease ∧ time < lease ∧
        job.activeWorkflowExecutionId = some executionId := by
  cases hjob : jobs.lookup jobId with
  | none => simp [claimBindsExecution, hjob]
  | some job => cases hlease : job.leaseExpiresAt <;> simp [claimBindsExecution, hjob, hlease, and_assoc]

/-- **A fenced close that updates a row closes the execution the job's live claim is bound to.** -/
theorem terminalExecutionForClaim_true
    (h : terminalExecutionForClaim jobs executions executionId jobId token time target
      = .ok (true, executions')) :
    ∃ job execution, jobs.lookup jobId = some job ∧ job.status = .running ∧
      job.claimToken = some token ∧ job.activeWorkflowExecutionId = some executionId ∧
      executions.lookup executionId = some execution ∧ execution.status = .running ∧
      execution.researchJobId = jobId ∧
      executions' = executions.insert executionId (execution.close target time) := by
  rcases closeRunning_eq_ok.1 h with ⟨row, hrow, hrunning, hcond, -, -, rfl⟩ | ⟨-, hfalse, -⟩
  · rw [Bool.and_eq_true, decide_eq_true_eq] at hcond
    obtain ⟨job, lease, hjob, hstatus, htoken, -, -, hactive⟩ :=
      claimBindsExecution_eq_true.1 hcond.2
    exact ⟨job, row, hjob, hstatus, htoken, hactive, hrow, hrunning, hcond.1, rfl⟩
  · cases hfalse

/-! ### What the operations leave as it is -/

/-- A change of the executions of one job: no execution goes away or changes its job, an execution
that is not RUNNING stays as it is, and so does every execution of another job. -/
structure ExecutionsChange (jobId : String) (executions executions' : Executions) : Prop where
  lasting : ∀ id row, executions.lookup id = some row →
    ∃ row', executions'.lookup id = some row' ∧ row'.researchJobId = row.researchJobId ∧
      (row.status ≠ .running → row' = row)
  others : ∀ id row, row.researchJobId ≠ jobId →
    (executions'.lookup id = some row ↔ executions.lookup id = some row)

namespace ExecutionsChange

variable {executions'' : Executions}

theorem refl (executions : Executions) : ExecutionsChange jobId executions executions where
  lasting _ row hrow := ⟨row, hrow, rfl, fun _ => rfl⟩
  others _ _ _ := Iff.rfl

theorem trans (h : ExecutionsChange jobId executions executions')
    (h' : ExecutionsChange jobId executions' executions'') :
    ExecutionsChange jobId executions executions'' where
  lasting id row hrow := by
    obtain ⟨row', hrow', hjob, hended⟩ := h.lasting id row hrow
    obtain ⟨row'', hrow'', hjob', hended'⟩ := h'.lasting id row' hrow'
    refine ⟨row'', hrow'', hjob'.trans hjob, ?_⟩
    intro hstatus
    have heq := hended hstatus
    rw [← heq] at hstatus
    rw [hended' hstatus, heq]
  others id row hjob := (h'.others id row hjob).trans (h.others id row hjob)

/-- Writing a row of the job that is new, or that was RUNNING, is such a change. -/
theorem insert {id : String} {row' : WorkflowExecutionRow} (hjob : row'.researchJobId = jobId)
    (hold : ∀ row, executions.lookup id = some row → row.status = .running ∧
      row.researchJobId = jobId) :
    ExecutionsChange jobId executions (executions.insert id row') where
  lasting id' row hrow := by
    rw [Table.lookup_insert_eq]
    split
    · rename_i heq
      subst heq
      obtain ⟨hrunning, hold⟩ := hold row hrow
      exact ⟨row', rfl, hjob.trans hold.symm, fun h => absurd hrunning h⟩
    · exact ⟨row, hrow, rfl, fun _ => rfl⟩
  others id' row hother := by
    rw [Table.lookup_insert_eq]
    split
    · rename_i heq
      subst heq
      constructor
      · intro h
        cases h
        exact absurd hjob hother
      · intro h
        exact absurd (hold row h).2 hother
    · exact Iff.rfl

end ExecutionsChange

/-- Closing an execution of the job. -/
theorem closeRunning_change {condition : WorkflowExecutionRow → Bool} {updated : Bool}
    (hcondition : ∀ row, condition row = true → row.researchJobId = jobId)
    (h : closeRunning executions executionId condition target time = .ok (updated, executions')) :
    ExecutionsChange jobId executions executions' := by
  rcases closeRunning_eq_ok.1 h with ⟨row, hrow, hrunning, hcond, -, -, rfl⟩ | ⟨-, -, rfl⟩
  · refine .insert (hcondition row hcond) ?_
    intro row' hrow'
    rw [hrow] at hrow'
    cases hrow'
    exact ⟨hrunning, hcondition row hcond⟩
  · exact .refl executions

theorem createExecution_eq_ok
    (h : createExecution executions executionId jobId time = .ok executions') :
    executions.lookup executionId = none ∧ ∃ row : WorkflowExecutionRow,
      row.researchJobId = jobId ∧ row.status = .running ∧ row.startedAt = time ∧
        executions' = executions.insert executionId row := by
  simp only [createExecution, bind_eq_ok, ensure_eq_ok, WorkflowExecutionRow.flush_eq_ok,
    pure_eq_ok] at h
  obtain ⟨_, hnew, row, ⟨-, rfl⟩, rfl⟩ := h
  exact ⟨hnew, _, rfl, rfl, rfl, rfl⟩

theorem createExecution_change
    (h : createExecution executions executionId jobId time = .ok executions') :
    ExecutionsChange jobId executions executions' := by
  obtain ⟨hnew, row, hjob, -, -, rfl⟩ := createExecution_eq_ok h
  refine .insert hjob ?_
  intro row' hrow'
  rw [hnew] at hrow'
  cases hrow'

theorem abandonUnfinishedForJob_eq_ok
    (h : abandonUnfinishedForJob executions jobId time = .ok executions') :
    executions' = executions.mapRows fun _ row =>
      if row.Unfinished jobId then row.close .abandoned time else row := by
  simp only [abandonUnfinishedForJob] at h
  split at h
  · cases h
  · cases h
    rfl

/-- Abandoning the unfinished executions of the job. -/
theorem ExecutionsChange.abandoned (time : Instant) :
    ExecutionsChange jobId executions (executions.mapRows fun _ row =>
      if row.Unfinished jobId then row.close .abandoned time else row) := by
  constructor
  · intro id row hrow
    rw [Table.lookup_mapRows, hrow, Option.map_some]
    refine ⟨_, rfl, ?_, ?_⟩
    · split <;> rfl
    · intro hstatus
      rw [if_neg]
      simp [WorkflowExecutionRow.Unfinished, hstatus]
  · intro id row hother
    rw [Table.lookup_mapRows, Option.map_eq_some_iff]
    constructor
    · rintro ⟨before, hbefore, hrow⟩
      split at hrow
      · rename_i hunfinished
        subst hrow
        simp only [WorkflowExecutionRow.Unfinished, Bool.and_eq_true, decide_eq_true_eq]
          at hunfinished
        exact absurd hunfinished.1 hother
      · rw [← hrow]
        exact hbefore
    · intro hrow
      refine ⟨row, hrow, ?_⟩
      rw [if_neg]
      simp [WorkflowExecutionRow.Unfinished, hother]

theorem abandonUnfinishedForJob_change
    (h : abandonUnfinishedForJob executions jobId time = .ok executions') :
    ExecutionsChange jobId executions executions' := by
  obtain rfl := abandonUnfinishedForJob_eq_ok h
  exact .abandoned time

end Spec

end Atlas
