/-
**The executions of a job: one of them runs at most.**

A transaction that creates an execution abandons the unfinished ones of the job before, and binds
the job in the same transaction; whoever has lost the claim by then is refused by the job row, and
everything is rolled back.  The rows of `workflow_executions` carry no token of their own, so a
transaction of a stale worker has nothing but this to stop it.

The transactions are taken here with arbitrary arguments, in any order, whatever else happens to
the jobs in between; that they may be taken one after another rests on the lock of the job row,
which a transaction that writes it holds until it commits, and which a claim skips.

Main definitions:

* `Atlas.SingleRunning` — one execution of a job runs at most;
* `Atlas.ExecutionsStep` — what a transaction does to the executions;
* `Atlas.BindingCall`, `Atlas.bindings` — the transactions and the system.

Main results:

* `Atlas.createAndBind_owned`, `Atlas.scheduleRetryTx_commit` — when the two transactions commit;
* `Atlas.singleRunning_of_system` — every step of the whole system is such a step;
* `Atlas.execution_binding` — **one execution runs at most, and nothing is half done**.
-/

import Atlas.WriteOnce

set_option relaxedAutoImplicit false
set_option autoImplicit false

namespace Atlas

/-! ### One running execution -/

/-- Each job has at most one RUNNING execution. -/
def SingleRunning (executions : Executions) : Prop :=
  ∀ id id' row row', executions.lookup id = some row → executions.lookup id' = some row' →
    row.status = .running → row'.status = .running → row.researchJobId = row'.researchJobId →
      id = id'

/-- What a transaction does to the executions: nothing, it closes one, or it abandons the
unfinished ones of a job and creates one. -/
inductive ExecutionsStep (executions executions' : Executions) : Prop
  | same (h : executions' = executions)
  | closed (id : String) (row : WorkflowExecutionRow) (target : ExecutionStatus) (time : Instant)
      (htarget : target ≠ .running)
      (h : executions' = executions.insert id (row.close target time))
  | created (jobId id : String) (row : WorkflowExecutionRow) (time : Instant)
      (hjob : row.researchJobId = jobId)
      (h : executions' = (executions.mapRows fun _ row =>
        if row.Unfinished jobId then row.close .abandoned time else row).insert id row)

theorem singleRunning_empty : SingleRunning ∅ := by
  intro id id' row row' hrow
  rw [AList.lookup_empty] at hrow
  cases hrow

/-- An execution that runs after the unfinished ones of a job were abandoned ran before, and is of
another job. -/
theorem running_of_abandoned {executions : Executions} {jobId id : String} {time : Instant}
    {row : WorkflowExecutionRow}
    (h : (executions.mapRows fun _ row =>
      if row.Unfinished jobId then row.close .abandoned time else row).lookup id = some row)
    (hrunning : row.status = .running) :
    executions.lookup id = some row ∧ row.researchJobId ≠ jobId := by
  rw [Table.lookup_mapRows] at h
  obtain ⟨before, hbefore, hrow⟩ := Option.map_eq_some_iff.1 h
  split at hrow
  · subst hrow
    cases hrunning
  · rename_i hunfinished
    subst hrow
    refine ⟨hbefore, ?_⟩
    intro hjob
    apply hunfinished
    simp [WorkflowExecutionRow.Unfinished, hjob, hrunning]

/-- **No transaction leaves two running executions of a job.** -/
theorem SingleRunning.step {executions executions' : Executions} (h : SingleRunning executions)
    (hstep : ExecutionsStep executions executions') : SingleRunning executions' := by
  cases hstep with
  | same heq => exact heq ▸ h
  | closed closedId closedRow target time htarget heq =>
      subst heq
      intro id id' row row' hrow hrow' hrunning hrunning' hjob
      rw [Table.lookup_insert_eq] at hrow hrow'
      -- the closed execution does not run
      split at hrow
      · cases hrow
        exact absurd hrunning htarget
      · split at hrow'
        · cases hrow'
          exact absurd hrunning' htarget
        · exact h id id' row row' hrow hrow' hrunning hrunning' hjob
  | created jobId newId newRow time hnewJob heq =>
      subst heq
      intro id id' row row' hrow hrow' hrunning hrunning' hjob
      rw [Table.lookup_insert_eq] at hrow hrow'
      split at hrow
      · rename_i hid
        cases hrow
        split at hrow'
        · rename_i hid'
          exact hid.trans hid'.symm
        · obtain ⟨-, hother⟩ := running_of_abandoned hrow' hrunning'
          exact absurd (hjob.symm.trans hnewJob) hother
      · obtain ⟨hbefore, hother⟩ := running_of_abandoned hrow hrunning
        split at hrow'
        · cases hrow'
          exact absurd (hjob.trans hnewJob) hother
        · obtain ⟨hbefore', -⟩ := running_of_abandoned hrow' hrunning'
          exact h id id' row row' hbefore hbefore' hrunning hrunning' hjob

/-! ### What the transactions leave -/

section Transactions

variable {jobId executionId token : String} {e : Env} {w w' : World}

/-- **A binding that commits owns the claim when it binds**; one that has lost it raises. -/
theorem createAndBind_owned (h : createAndBind jobId token e w = .ok (executionId, w')) :
    ∃ row, w.jobs.lookup jobId = some row ∧ ownsRunningClaim row token e.now = true := by
  simp only [createAndBind, Tx.bind_eq_ok, Tx.reading_eq_ok, Tx.compute_eq_ok, Tx.modify_eq_ok,
    onJob_eq_ok, require_eq_ok] at h
  obtain ⟨_, _, ⟨rfl, rfl⟩, _, _, ⟨rfl, rfl⟩, executions, _, ⟨-, rfl⟩, _, _, rfl, ok, _, hjob,
    _, _, ⟨rfl, rfl⟩, -⟩ := h
  rcases hjob with ⟨row', hrow', -⟩ | ⟨-, hfalse, -⟩
  · obtain ⟨row, hrow, howns, -⟩ := setActiveWorkflowExecution_eq_some.1 hrow'
    exact ⟨row, hrow, howns⟩
  · cases hfalse

/-- The executions a committed binding leaves. -/
theorem createAndBind_executions (h : createAndBind jobId token e w = .ok (executionId, w')) :
    ∃ execution : WorkflowExecutionRow, execution.researchJobId = jobId ∧
      w'.executions = (w.executions.mapRows fun _ row =>
        if row.Unfinished jobId then row.close .abandoned e.now else row).insert
          executionId execution := by
  obtain ⟨abandoned, executions, row', habandon, hcreate, -, rfl⟩ := createAndBind_eq_ok h
  obtain rfl := abandonUnfinishedForJob_eq_ok habandon
  obtain ⟨-, execution, hjob, -, -, rfl⟩ := createExecution_eq_ok hcreate
  exact ⟨execution, hjob, rfl⟩

/-- **A retry that names an execution does both or nothing**: the execution it abandons is the
RUNNING one the row was bound to, and the job waits for its retry; or nothing is changed. -/
theorem scheduleRetryTx_commit (jobId token : String) (next now : Instant) (executionId : String)
    (e : Env) (w : World) :
    (scheduleRetryTx jobId token next now (some executionId)).commit e w = w ∨
      ∃ row row' execution, w.jobs.lookup jobId = some row ∧
        ownsRunningClaim row token now = true ∧
        row.activeWorkflowExecutionId = some executionId ∧
        w.executions.lookup executionId = some execution ∧ execution.status = .running ∧
        execution.researchJobId = row.id ∧ row'.status = .pending ∧
        row'.continuationMode = .jobRetry ∧ row'.activeWorkflowExecutionId = none ∧
        row'.jobRetryCount = row.jobRetryCount + 1 ∧
        (scheduleRetryTx jobId token next now (some executionId)).commit e w = { w with
          jobs := w.jobs.insert jobId row'
          executions := w.executions.insert executionId (execution.close .abandoned now) } := by
  cases h : scheduleRetryTx jobId token next now (some executionId) e w with
  | error x => exact .inl (Tx.commit_of_error h)
  | ok answer =>
      obtain ⟨u, w'⟩ := answer
      refine .inr ?_
      rw [Tx.commit_of_ok h]
      simp only [scheduleRetryTx, Tx.bind_eq_ok, Tx.compute_eq_ok, mapError_eq_ok] at h
      obtain ⟨written, _, ⟨hschedule, rfl⟩, hwrite⟩ := h
      cases written with
      | none => exact absurd hwrite Tx.throw_ne_ok
      | some rows =>
          obtain ⟨row', executions⟩ := rows
          obtain rfl := Tx.modify_eq_ok.1 hwrite
          obtain ⟨row, hrow, howns, hretry, hactive, hclose⟩ := scheduleRetry_eq_some.1 hschedule
          obtain ⟨hstatus, hmode, hunbound, hcount, -, -⟩ := retryRow_columns hretry
          rcases closeRunning_eq_ok.1 hclose with
            ⟨execution, hlookup, hrunning, hjob, -, -, rfl⟩ | ⟨-, hfalse, -⟩
          · exact ⟨row, row', execution, hrow, howns, hactive, hlookup, hrunning,
              of_decide_eq_true hjob, hstatus, hmode, hunbound, hcount, rfl⟩
          · cases hfalse

end Transactions

/-! ### The transactions in any order -/

/-- The transactions that write executions, and anything else that happens to the database. -/
inductive BindingCall where
  | bind (jobId claimToken : String) (e : Env)
  | scheduleRetry (jobId claimToken : String) (nextAttemptAt now : Instant)
      (abandonExecutionId : Option String) (e : Env)
  | completeExecution (jobId executionId claimToken : String) (e : Env)
  | failExecution (jobId executionId claimToken : String) (e : Env)
  | rejectReview (executionId : String) (e : Env)
  | claim (settings : Settings) (now leaseExpiresAt : Instant) (claimToken jobId : String)
  | elsewhere (w : World)

/-- The database after a call. -/
def BindingCall.apply (w : World) : BindingCall → World
  | bind jobId token e => (createAndBind jobId token).commit e w
  | scheduleRetry jobId token next now abandon e =>
      (scheduleRetryTx jobId token next now abandon).commit e w
  | completeExecution jobId executionId token e =>
      (completeExecutionTx jobId executionId token).commit e w
  | failExecution jobId executionId token e => (failExecutionTx jobId executionId token).commit e w
  | rejectReview executionId e =>
      (onExecutions fun w => Atlas.failExecution w.executions executionId e.now).commit e w
  | claim settings now lease token jobId =>
      ((claimNext settings w now lease token jobId).map Prod.fst).getD w
  | elsewhere w' => w'

/-- The transactions on one database, with any arguments and in any order.  What happens elsewhere
leaves the executions alone. -/
def bindings : Lts World BindingCall where
  init w := w.executions = ∅
  step w call w' := w' = call.apply w ∧
    match call with
    | .elsewhere w' => w'.executions = w.executions
    | _ => True

theorem executionsStep_closeRunning {executions executions' : Executions} {executionId : String}
    {condition : WorkflowExecutionRow → Bool} {target : ExecutionStatus} {time : Instant}
    {updated : Bool} (htarget : target ≠ .running)
    (h : closeRunning executions executionId condition target time = .ok (updated, executions')) :
    ExecutionsStep executions executions' := by
  rcases closeRunning_eq_ok.1 h with ⟨row, -, -, -, -, -, rfl⟩ | ⟨-, -, rfl⟩
  · exact .closed executionId row target time htarget rfl
  · exact .same rfl

theorem executionsStep_scheduleRetryTx {jobId token : String} {next now : Instant}
    {abandon : Option String} {e : Env} {w w' : World} {u : Unit}
    (h : scheduleRetryTx jobId token next now abandon e w = .ok (u, w')) :
    ExecutionsStep w.executions w'.executions := by
  simp only [scheduleRetryTx, Tx.bind_eq_ok, Tx.compute_eq_ok, mapError_eq_ok] at h
  obtain ⟨written, _, ⟨hschedule, rfl⟩, hwrite⟩ := h
  cases written with
  | none => exact absurd hwrite Tx.throw_ne_ok
  | some rows =>
      obtain ⟨row', executions⟩ := rows
      obtain rfl := Tx.modify_eq_ok.1 hwrite
      obtain ⟨row, -, -, -, habandon⟩ := scheduleRetry_eq_some.1 hschedule
      cases abandon with
      | none => exact .same habandon.symm
      | some executionId => exact executionsStep_closeRunning (by decide) habandon.2

/-- A transaction changes the executions by its commit, or not at all. -/
theorem executionsStep_commit {α : Type} {t : Transaction α} {e : Env} {w : World}
    (h : ∀ a w', t e w = .ok (a, w') → ExecutionsStep w.executions w'.executions) :
    ExecutionsStep w.executions (t.commit e w).executions := by
  cases ht : t e w with
  | error x =>
      rw [Tx.commit_of_error ht]
      exact .same rfl
  | ok answer =>
      rw [Tx.commit_of_ok ht]
      exact h answer.1 answer.2 ht

theorem executionsStep_of_call {w w' : World} {call : BindingCall} (h : bindings.step w call w') :
    ExecutionsStep w.executions w'.executions := by
  obtain ⟨rfl, hallows⟩ := h
  cases call with
  | bind jobId token e =>
      refine executionsStep_commit fun executionId w' h => ?_
      obtain ⟨execution, hjob, heq⟩ := createAndBind_executions h
      exact .created jobId executionId execution e.now hjob heq
  | scheduleRetry jobId token next now abandon e =>
      exact executionsStep_commit fun _ _ => executionsStep_scheduleRetryTx
  | completeExecution jobId executionId token e =>
      refine executionsStep_commit fun u w' h => ?_
      obtain ⟨executions, hclose, rfl⟩ := completeExecutionTx_eq_ok h
      exact executionsStep_closeRunning (by decide) hclose
  | failExecution jobId executionId token e =>
      refine executionsStep_commit fun u w' h => ?_
      obtain ⟨executions, hclose, rfl⟩ := failExecutionTx_eq_ok h
      exact executionsStep_closeRunning (by decide) hclose
  | rejectReview executionId e =>
      refine executionsStep_commit fun updated w' h => ?_
      obtain ⟨executions, hclose, rfl⟩ := onExecutions_eq_ok.1 h
      exact executionsStep_closeRunning (by decide) hclose
  | claim settings now lease token jobId =>
      cases hclaim : claimNext settings w now lease token jobId with
      | none =>
          rw [BindingCall.apply, hclaim]
          exact .same rfl
      | some claim =>
          obtain ⟨w', claimed⟩ := claim
          obtain ⟨row, row', -, -, -, rfl⟩ := claimNext_eq_some hclaim
          rw [BindingCall.apply, hclaim]
          exact .same rfl
  | elsewhere w' => exact .same hallows

/-- In every reachable state one execution of a job runs at most. -/
theorem singleRunning_of_reachable {w : World} (h : bindings.Reachable w) :
    SingleRunning w.executions := by
  refine h.invariant (I := fun w => SingleRunning w.executions) ?_ ?_
  · intro w hw
    rw [hw]
    exact singleRunning_empty
  · intro w call w' hw hstep
    exact hw.step (executionsStep_of_call hstep)

/-- Every step of the whole system is, on the executions, one of these steps. -/
theorem WorldChange.executionsStep {issued issued' : List String} {w w' : World}
    (h : WorldChange issued issued' w w') : ExecutionsStep w.executions w'.executions := by
  cases h with
  | worked jobId token h =>
      cases h with
      | aside h => exact .same h.executions
      | decided _ _ _ h | repaired _ _ _ _ _ _ _ h | reran _ _ _ h
      | evaluated _ _ _ _ _ _ _ h | paused _ _ _ _ _ _ _ _ _ _ _ _ h
      | ended _ _ _ _ _ _ _ _ _ _ h => exact .same (by rw [h])
      | closed row executionId execution target time _ _ _ _ _ htarget h =>
          refine .closed executionId execution target time ?_ (by rw [h])
          rcases htarget with rfl | rfl <;> decide
      | created row row' executionId execution time _ _ _ _ hjob _ h =>
          exact .created jobId executionId execution time hjob (by rw [h])
      | retried row row' decision event outbox executions attempts abandon _ _ time _ _ _ _ _ _ _
          _ _ _ _ _ _ habandon h =>
          cases abandon with
          | none => exact .same (by rw [h, habandon])
          | some executionId =>
              obtain ⟨-, execution, -, -, -, heq⟩ := habandon
              exact .closed executionId execution .abandoned time (by decide) (by rw [h, heq])
  | submitted key fingerprint row event h =>
      obtain ⟨outbox, -, hworld⟩ := h.world
      exact .same (by rw [hworld])
  | claimed _ _ _ _ _ _ _ _ _ _ _ _ h => exact .same (by rw [h])
  | reviewed request fingerprint answer h =>
      cases h with
      | replayed _ _ _ _ h => exact .same (by rw [h])
      | approved _ _ _ _ _ _ _ _ _ _ _ h => exact .same (by rw [h])
      | rejected row row' executionId now executions decision _ _ _ _ _ hfail _ h =>
          subst h
          exact executionsStep_closeRunning (by decide) hfail
  | relayed outbox _ h => exact .same (by rw [h])

/-- In every reachable state of the system one execution of a job runs at most. -/
theorem singleRunning_of_system {s : SystemState} (h : system.Reachable s) :
    SingleRunning s.world.executions := by
  -- together with the soundness of the state, which says what a step can change
  have hboth : s.Sound ∧ SingleRunning s.world.executions := by
    refine h.invariant (I := fun s => s.Sound ∧ SingleRunning s.world.executions) ?_ ?_
    · rintro s rfl
      exact ⟨systemSound_of_reachable (.of_init rfl), singleRunning_empty⟩
    · rintro s action s' ⟨hsound, hsingle⟩ hstep
      refine ⟨systemSound_preserved s action s' hsound hstep, hsingle.step ?_⟩
      exact (change_of_step hsound.tasks hsound.world.runs hstep).executionsStep
  exact hboth.2

/-- **Binding an execution is atomic, and single.**  Whatever transactions ran, in any order and
with any arguments, each job has at most one RUNNING execution; a binding whose claim is lost at its
instant leaves the database as it was; and a retry that names an execution either abandons exactly
the RUNNING execution the job is bound to and sends the job to its retry, or changes nothing. -/
theorem execution_binding {w : World} (h : bindings.Reachable w) :
    SingleRunning w.executions ∧
    (∀ jobId token e,
      (∀ row, w.jobs.lookup jobId = some row → ownsRunningClaim row token e.now = false) →
        (createAndBind jobId token).commit e w = w) ∧
    (∀ jobId token next now executionId e,
      (scheduleRetryTx jobId token next now (some executionId)).commit e w = w ∨
        ∃ row row' execution, w.jobs.lookup jobId = some row ∧
          ownsRunningClaim row token now = true ∧
          row.activeWorkflowExecutionId = some executionId ∧
          w.executions.lookup executionId = some execution ∧ execution.status = .running ∧
          execution.researchJobId = row.id ∧ row'.status = .pending ∧
          row'.continuationMode = .jobRetry ∧ row'.activeWorkflowExecutionId = none ∧
          row'.jobRetryCount = row.jobRetryCount + 1 ∧
          (scheduleRetryTx jobId token next now (some executionId)).commit e w = { w with
            jobs := w.jobs.insert jobId row'
            executions := w.executions.insert executionId (execution.close .abandoned now) }) := by
  refine ⟨singleRunning_of_reachable h, ?_, ?_⟩
  · intro jobId token e hlost
    cases hbind : createAndBind jobId token e w with
    | error x => exact Tx.commit_of_error hbind
    | ok answer =>
        obtain ⟨row, hrow, howns⟩ := createAndBind_owned hbind
        rw [hlost row hrow] at howns
        cases howns
  · intro jobId token next now executionId e
    exact scheduleRetryTx_commit jobId token next now executionId e w

/-! ### A stale binding -/

/-- A job runs under the claim of a first worker. -/
def firstClaim : World where
  jobs := (∅ : Jobs).insert "job-1"
    { id := "job-1", question := "why?", status := .running, createdAt := 0, updatedAt := 10
      startedAt := some 10, finishedAt := none, result := none, failureReason := none
      leaseExpiresAt := some 40, claimToken := some (repeatedToken 'a')
      evaluationProfile := some "evaluation.candidate.v1" }

/-- The first worker binds the job; a second one reclaims it after the lease and binds it again. -/
def bindingCalls : List BindingCall := [
  .elsewhere firstClaim,
  .bind "job-1" (repeatedToken 'a') { submissionEnv with now := 35 },
  .claim sampleSettings 50 60 (repeatedToken 'b') "job-1",
  .bind "job-1" (repeatedToken 'b')
    { submissionEnv with now := 55, uuid := fun _ => "5a1c0000-0000-4000-8000-000000000003" }]

def boundTwice : World := bindingCalls.foldl BindingCall.apply {}

theorem boundTwice_reachable : bindings.Reachable boundTwice :=
  ⟨{}, bindingCalls, rfl, .cons ⟨rfl, rfl⟩ (.cons ⟨rfl, trivial⟩ (.cons ⟨rfl, trivial⟩
    (.cons ⟨rfl, trivial⟩ .nil)))⟩

/-- The first worker comes back and binds once more: its transaction is rolled back. -/
theorem execution_binding_stale :
    (createAndBind "job-1" (repeatedToken 'a')).commit { submissionEnv with now := 57 } boundTwice
      = boundTwice := by
  refine (execution_binding boundTwice_reachable).2.1 "job-1" (repeatedToken 'a') _ ?_
  intro row hrow
  have hrows : ∀ entry ∈ boundTwice.jobs.entries,
      ownsRunningClaim entry.2 (repeatedToken 'a') 57 = false := by
    decide +kernel
  exact hrows ⟨"job-1", row⟩ (AList.mem_lookup_iff.1 hrow)

end Atlas
