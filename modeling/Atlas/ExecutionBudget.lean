/-
**How many executions a job may have.**

A call of the processor binds its job once: to the execution the job has, or to a new one.  So a
claim pays for one execution at most, and whatever workers crash, time out or lose their leases, a
job has no more executions than it was claimed.  The budget of a task is what it may still create.

Main definitions:

* `Atlas.World.executionsOf` — the number of executions of a job;
* `Atlas.Task.Budget` — a task creates at most so many executions of a job;
* `Atlas.SystemState.WithinClaims` — the executions and the budgets left are within the claims.

Main results:

* `Atlas.adds_process` — **a call of the processor creates one execution at most**;
* `Atlas.executions_le_claims` — **a job has no more executions than claims**.
-/

import Atlas.ReviewDecisions
import Atlas.WorkerFrames
import Atlas.WriteOnce
import Mathlib.Algebra.BigOperators.Group.Finset.Basic
import Mathlib.Algebra.BigOperators.Group.Finset.Piecewise

set_option relaxedAutoImplicit false
set_option autoImplicit false

namespace Atlas

/-! ### What is created -/

/-- The number of executions of a job. -/
def World.executionsOf (jobId : String) (w : World) : ℕ :=
  w.executions.count (·.researchJobId = jobId)

section Commits

variable {settings : Settings} {jobId other token : String} {e : Env} {w w' : World}
  {executions : Executions}

/-- An execution that is closed stays one of its job. -/
theorem count_close {executionId : String} {condition : WorkflowExecutionRow → Bool}
    {target : ExecutionStatus} {time : Instant} {updated : Bool}
    (h : closeRunning w.executions executionId condition target time = .ok (updated, executions)) :
    executions.count (·.researchJobId = other) = w.executionsOf other := by
  rcases closeRunning_eq_ok.1 h with ⟨row, hrow, -, -, -, -, rfl⟩ | ⟨-, -, rfl⟩
  · exact Table.count_insert_same _ hrow rfl
  · rfl

theorem executionsOf_of_eq (h : w'.executions = w.executions) :
    w'.executionsOf other = w.executionsOf other := by
  rw [World.executionsOf, h, World.executionsOf]

theorem recordAwaitReview_executionsOf {ctx : GraphContext} {evaluationRunId : String} {u : Unit}
    (h : recordAwaitReview ctx evaluationRunId e w = .ok (u, w')) :
    w'.executionsOf other = w.executionsOf other := by
  simp only [recordAwaitReview, Tx.bind_eq_ok, Tx.reading_eq_ok, Tx.read_eq_ok] at h
  obtain ⟨_, _, ⟨-, rfl⟩, _, _, ⟨rfl, rfl⟩, _, _, ⟨-, rfl⟩, _, _, ⟨-, rfl⟩, ⟨id, created⟩, w₁,
    hrecord, h⟩ := h
  have hdecided : w₁.executions = w.executions :=
    congrArg Prod.snd (leaves_recordPolicyDecision _ _ _ _ _ hrecord)
  refine executionsOf_of_eq (Eq.trans ?_ hdecided)
  split at h
  · simp only [Tx.bind_eq_ok, require_eq_ok, enqueueEvent_eq_ok] at h
    obtain ⟨ok, w₂, hjob, _, _, ⟨-, rfl⟩, built, outbox, -, -, rfl⟩ := h
    exact congrArg Prod.snd (leaves_onJob _ _ _ _ _ _ hjob)
  · rw [(Tx.pure_eq_ok.1 h).2]

/-- A retry closes the execution it abandons. -/
theorem recordRetry_executionsOf {abandon : Option String} {decision : PolicyDecision}
    {counts : AttemptCounts} {scheduled : Instant × ℕ}
    (h : recordRetry settings jobId token abandon decision counts e w = .ok (scheduled, w')) :
    w'.executionsOf other = w.executionsOf other := by
  simp only [recordRetry, Tx.bind_eq_ok, Tx.reading_eq_ok] at h
  obtain ⟨now, _, ⟨-, rfl⟩, _, _, ⟨-, rfl⟩, _, _, ⟨rfl, rfl⟩, _, _, ⟨-, rfl⟩, _, _, ⟨-, rfl⟩,
    ⟨id, created⟩, w₁, hrecord, h⟩ := h
  have hdecided : w₁.executions = w.executions :=
    congrArg Prod.snd (leaves_recordPolicyDecision _ _ _ _ _ hrecord)
  rw [← executionsOf_of_eq hdecided]
  split at h
  · simp only [Tx.bind_eq_ok, scheduleRetryTx, Tx.compute_eq_ok, mapError_eq_ok,
      enqueueEvent_eq_ok, Tx.pure_eq_ok] at h
    obtain ⟨_, w₂, habandoned, _, _, ⟨written, _, ⟨hschedule, rfl⟩, hwrite⟩, _, _,
      ⟨built, outbox, -, -, rfl⟩, -, rfl⟩ := h
    have hsame : w₂.executions = w₁.executions :=
      congrArg Prod.snd (leaves_recordAbandoned _ _ _ _ _ _ _ _ _ _ _ habandoned)
    rw [← executionsOf_of_eq hsame]
    cases written with
    | none => exact absurd hwrite Tx.throw_ne_ok
    | some rows =>
        obtain ⟨row', executions⟩ := rows
        obtain rfl := Tx.modify_eq_ok.1 hwrite
        obtain ⟨row, hrow, howns, hretry, habandon⟩ := scheduleRetry_eq_some.1 hschedule
        cases abandon with
        | none => exact executionsOf_of_eq habandon.symm
        | some executionId => exact count_close habandon.2
  · refine executionsOf_of_eq ?_
    refine (Tx.Leaves.bind (.read _) fun attempts => ?_) _ _ _ _ h
    split
    · exact .pure _
    · exact .pure _

/-- **Nothing but binding creates an execution.** -/
theorem BoundCommit.executionsOf (h : BoundCommit settings jobId token e w w') :
    w'.executionsOf other = w.executionsOf other := by
  cases h with
  | recordRetry executionId x counts scheduled haction h => exact recordRetry_executionsOf h
  | finalizeCompletion result owned h =>
      rcases finalizeCompletionTx_eq_ok h with ⟨_, _, _, -, -, -, -, -, rfl⟩ | ⟨-, rfl⟩ <;> rfl
  | finalizeFailure reason reasonClass owned h =>
      rcases finalizeFailureTx_eq_ok h with ⟨_, _, _, -, -, -, -, -, rfl⟩ | ⟨-, rfl⟩ <;> rfl
  | call h =>
      cases h with
      | graph h => exact executionsOf_of_eq h.leaves.2
      | recordAwaitReview ctx evaluationRunId hjob htoken h =>
          exact recordAwaitReview_executionsOf h
      | completeExecution executionId h =>
          obtain ⟨executions, hclose, rfl⟩ := completeExecutionTx_eq_ok h
          exact count_close hclose
      | failExecution executionId h =>
          obtain ⟨executions, hclose, rfl⟩ := failExecutionTx_eq_ok h
          exact count_close hclose

/-- Binding to a new execution adds one of its job, and closes the unfinished ones. -/
theorem createAndBind_executionsOf {executionId : String}
    (h : createAndBind jobId token e w = .ok (executionId, w')) :
    w'.executionsOf other = w.executionsOf other + if jobId = other then 1 else 0 := by
  obtain ⟨abandoned, executions, row, habandon, hcreate, howned, rfl⟩ := createAndBind_eq_ok h
  obtain rfl := abandonUnfinishedForJob_eq_ok habandon
  obtain ⟨hnew, execution, hjob, -, -, rfl⟩ := createExecution_eq_ok hcreate
  change Table.count _ _ = Table.count _ _ + _
  rw [Table.count_insert_new _ hnew, Table.count_mapRows, hjob]
  · simp
  · intro id row
    split <;> rfl

end Commits

/-! ### What a call creates -/

section Calls

variable {settings : Settings} {claimed : ClaimedResearchJob} {jobId : String}

/-- What a claim of a job pays for. -/
def perClaim (claimedId jobId : String) : ℕ := if claimedId = jobId then 1 else 0

theorem adds_boundActs {token target : String} {α : Type} {p : Activity α}
    (h : BoundActs settings target token p) : p.Adds (World.executionsOf jobId) 0 :=
  .of_acts h fun _ _ _ hcommit => hcommit.executionsOf.le

/-- What a worker does of its claim once the call is over creates no execution. -/
theorem adds_settle (settings : Settings) (claimed : ClaimedResearchJob)
    (outcome : Except Exc ProcessingOutcome) :
    (settle claimed outcome).Adds (World.executionsOf jobId) 0 := by
  have h : BoundActs settings claimed.job.id claimed.claimToken (settle claimed outcome) :=
    acts_settle outcome
  exact adds_boundActs h

theorem adds_failTimedOut (settings : Settings) (claimed : ClaimedResearchJob) :
    (failTimedOut claimed).Adds (World.executionsOf jobId) 0 := by
  have h : BoundActs settings claimed.job.id claimed.claimToken (failTimedOut claimed) :=
    boundActs_failClaimed _ _
  exact adds_boundActs h

theorem adds_bindExecution (mode : ContinuationMode) (active : Option String) :
    (bindExecution claimed.job.id claimed.claimToken mode active).Adds (World.executionsOf jobId)
      (perClaim claimed.job.id jobId) := by
  have hcreate : (Program.atomically (createAndBind claimed.job.id claimed.claimToken)).Adds
      (World.executionsOf jobId) (perClaim claimed.job.id jobId) :=
    .atomically fun _ _ _ _ h => (createAndBind_executionsOf h).le
  have hstatus (executionId : String) :
      (executionStatus executionId).Adds (World.executionsOf jobId) 0 :=
    .atomically fun _ _ _ _ h => by rw [← (Tx.read_eq_ok.1 h).2]; exact le_refl _
  have hread {k : Option ExecutionStatus → Activity String} (executionId : String)
      (hk : ∀ status, (k status).Adds (World.executionsOf jobId) (perClaim claimed.job.id jobId)) :
      (executionStatus executionId >>= k).Adds (World.executionsOf jobId)
        (perClaim claimed.job.id jobId) :=
    ((hstatus executionId).bind hk).mono (Nat.zero_add _).le
  cases mode with
  | reviewComplete =>
      cases active with
      | none => exact .raise _
      | some active =>
          refine hread active fun status => ?_
          split
          · exact .ret _
          · exact .raise _
  | jobRetry => exact hcreate
  | none =>
      cases active with
      | none => exact hcreate
      | some active =>
          refine hread active fun status => ?_
          split
          · exact .ret _
          · exact hcreate

/-- **A call of the processor creates one execution at most**, of the job it was claimed for. -/
theorem adds_process (settings : Settings) (claimed : ClaimedResearchJob) (jobId : String) :
    (process settings claimed).Adds (World.executionsOf jobId)
      (perClaim claimed.job.id jobId) := by
  -- what only reads adds nothing to what follows it
  have hsame {α β : Type} {p : Activity α} {k : α → Activity β} {n : ℕ}
      (hp : p.Acts fun _ w w' => w = w') (hk : ∀ a, (k a).Adds (World.executionsOf jobId) n) :
      (p >>= k).Adds (World.executionsOf jobId) n := by
    have hzero : p.Adds (World.executionsOf jobId) 0 :=
      .of_acts hp fun _ _ _ heq => (executionsOf_of_eq (by rw [heq])).le
    exact (hzero.bind hk).mono (Nat.zero_add n).le
  unfold process
  refine hsame (.lift _) fun _ => hsame (.read fun _ _ => rfl) ?_
  rintro ⟨active, replay⟩
  cases replay with
  | some outcome => exact .ret _
  | none =>
      dsimp only
      unfold processOpen
      refine hsame (acts_requireBoundProfile (fun _ _ => rfl) _ _) fun profile => ?_
      refine hsame (acts_completedShortCircuit (fun _ _ => rfl) _ _) fun short => ?_
      cases short with
      | some outcome => exact .ret _
      | none =>
          dsimp only
          unfold processUnfinished
          exact (adds_bindExecution _ _).attempt.bind fun bound =>
            adds_boundActs (boundActs_afterBinding claimed profile bound)

end Calls

/-! ### Tasks -/

/-- The task creates at most `n` executions of the job. -/
def Task.Budget (jobId : String) (n : ℕ) : Task → Prop
  | .processing _ _ call => call.Adds (World.executionsOf jobId) n
  | .timedOut _ _ call rest =>
      call.Adds (World.executionsOf jobId) n ∧ rest.Adds (World.executionsOf jobId) 0
  | .settling _ _ rest => rest.Adds (World.executionsOf jobId) 0
  | .submitting _ _ _ call => call.Adds (World.executionsOf jobId) 0
  | .reviewing _ _ call => call.Adds (World.executionsOf jobId) 0

section Tasks

variable {jobId : String} {n : ℕ} {e : Env} {w w' : World} {task : Task}

/-- No request creates an execution. -/
theorem RequestCommit.executionsOf (h : RequestCommit e w w') :
    w'.executionsOf jobId = w.executionsOf jobId := by
  cases h with
  | same h => rw [h]
  | submitted question idempotencyKey requestFingerprint job h =>
      obtain ⟨row, event, -, hsubmitted⟩ := insertJob_eq_ok h
      obtain ⟨outbox, -, hworld⟩ := hsubmitted.world
      exact executionsOf_of_eq (by rw [hworld])
  | reviewed request fingerprint target answer h =>
      cases recordReview_eq_ok h with
      | replayed _ _ _ _ h => rw [h]
      | approved _ _ _ _ _ _ _ _ _ _ _ h => exact executionsOf_of_eq (by rw [h])
      | rejected row row' executionId now executions decision hverdict hrecords hrow hstatus hactive
          hfail hreject h =>
          subst h
          exact count_close hfail

theorem adds_request {α : Type} {p : Activity α} (h : p.Acts RequestCommit) :
    p.Adds (World.executionsOf jobId) 0 :=
  .of_acts h fun _ _ _ hcommit => hcommit.executionsOf.le

/-- **What a task creates is taken from its budget.** -/
theorem Task.Budget.act (h : task.Budget jobId n) (e : Env) (w : World) :
    ∃ now later, now + later = n ∧
      (task.act e w).1.executionsOf jobId ≤ w.executionsOf jobId + now ∧
      (task.act e w).2.Budget jobId later := by
  cases task with
  | processing settings claimed call =>
      cases call with
      | ret outcome => exact ⟨0, n, n.zero_add, le_refl _, adds_settle settings claimed _⟩
      | raise x => exact ⟨0, n, n.zero_add, le_refl _, adds_settle settings claimed _⟩
      | act update next => exact Program.adds_act.1 h e w
  | timedOut settings claimed call rest =>
      obtain ⟨now, later, hsum, hnow, hlater⟩ := h.1.perform e w
      exact ⟨now, later, hsum, hnow, hlater, h.2⟩
  | settling settings claimed rest =>
      obtain ⟨hnow, hlater⟩ := Program.Adds.perform_zero h e w
      exact ⟨0, n, n.zero_add, hnow, hlater⟩
  | submitting sha256 question idempotencyKey call =>
      obtain ⟨hnow, hlater⟩ := Program.Adds.perform_zero h e w
      exact ⟨0, n, n.zero_add, hnow, hlater⟩
  | reviewing sha256 request call =>
      obtain ⟨hnow, hlater⟩ := Program.Adds.perform_zero h e w
      exact ⟨0, n, n.zero_add, hnow, hlater⟩

/-- A worker that has given its call up creates nothing itself. -/
theorem Task.Budget.abandon (h : task.Budget jobId n) (e : Env) (w : World) :
    (task.abandon e w).1.executionsOf jobId ≤ w.executionsOf jobId ∧
      (task.abandon e w).2.Budget jobId n := by
  cases task with
  | timedOut settings claimed call rest =>
      obtain ⟨hnow, hlater⟩ := h.2.perform_zero e w
      exact ⟨hnow, h.1, hlater⟩
  | processing | settling | submitting | reviewing => exact ⟨le_refl _, h⟩

theorem Task.Budget.timeOut (h : task.Budget jobId n) : task.timeOut.Budget jobId n := by
  cases task with
  | processing settings claimed call =>
      exact ⟨h, adds_failTimedOut settings claimed⟩
  | timedOut | settling | submitting | reviewing => exact h

end Tasks

/-! ### Claims along a run -/

namespace SystemState

/-- The executions of the job, and what its tasks may still create, are within the claims. -/
def WithinClaims (jobId : String) (count : ℕ) (s : SystemState) : Prop :=
  ∃ budget : String → ℕ,
    (s.Tasks fun name task => name ∈ s.issued ∧ task.Budget jobId (budget name)) ∧
      s.world.executionsOf jobId + ∑ name ∈ s.issued.toFinset, budget name ≤ count

end SystemState

section Steps

open SystemState

variable {s s' : SystemState} {action : SystemAction} {jobId : String} {count : ℕ}

/-- A task that is started brings its own budget. -/
theorem withinClaims_start {name : String} {task : Task} {w : World} {own : ℕ}
    (h : WithinClaims jobId count s) (hname : name ∉ s.issued) (htask : task.Budget jobId own)
    (hw : w.executions = s.world.executions) :
    WithinClaims jobId (count + own) ({ s with world := w }.start name task) := by
  obtain ⟨budget, htasks, hcount⟩ := h
  refine ⟨Function.update budget name own, ?_, ?_⟩
  · refine SystemState.Tasks.start (s := { s with world := w }) ?_ ?_
    · intro other task' hlookup
      obtain ⟨hissued, hbudget⟩ := htasks other task' hlookup
      refine ⟨List.mem_cons_of_mem _ hissued, ?_⟩
      rwa [Function.update_of_ne]
      rintro rfl
      exact hname hissued
    · exact ⟨List.mem_cons_self, by rwa [Function.update_self]⟩
  · have hnew : name ∉ s.issued.toFinset := by rwa [List.mem_toFinset]
    change w.executionsOf jobId
      + ∑ other ∈ (name :: s.issued).toFinset, Function.update budget name own other ≤ _
    rw [List.toFinset_cons, Finset.sum_insert hnew, Function.update_self,
      Finset.sum_update_of_notMem hnew, executionsOf_of_eq hw]
    omega

/-- A task that proceeds takes what it creates from its budget. -/
theorem withinClaims_proceed {name : String} {step : World → Task → World × Task}
    (h : WithinClaims jobId count s)
    (hstep : ∀ task n, task.Budget jobId n → ∃ now later, now + later = n ∧
      (step s.world task).1.executionsOf jobId ≤ s.world.executionsOf jobId + now ∧
      (step s.world task).2.Budget jobId later) :
    WithinClaims jobId count (s.proceed name step) := by
  obtain ⟨budget, htasks, hcount⟩ := h
  cases hname : s.tasks.lookup name with
  | none =>
      simp only [SystemState.proceed, hname]
      exact ⟨budget, htasks, hcount⟩
  | some task =>
      obtain ⟨hissued, hbudget⟩ := htasks name task hname
      obtain ⟨now, later, hsum, hnow, hlater⟩ := hstep task _ hbudget
      have hmem : name ∈ s.issued.toFinset := List.mem_toFinset.2 hissued
      have hold := Finset.sum_erase_add s.issued.toFinset budget hmem
      simp only [SystemState.proceed, hname]
      refine ⟨Function.update budget name later, ?_, ?_⟩
      · intro other task' hlookup
        rw [Table.lookup_insert_eq] at hlookup
        split at hlookup
        · rename_i heq
          cases hlookup
          subst heq
          exact ⟨hissued, by rwa [Function.update_self]⟩
        · rename_i hne
          rw [Function.update_of_ne hne]
          exact htasks other task' hlookup
      · rw [Finset.sum_update_of_mem hmem, ← Finset.erase_eq]
        dsimp only
        omega

/-- The claim is of the job whose row was selected. -/
theorem claimed_id {settings : Settings} {w : World} {now lease : Instant}
    {token selected : String} {claimed : ClaimedResearchJob} (hsound : s.world.Sound s.issued)
    (h : claimNext settings s.world now lease token selected = some (w, claimed)) :
    claimed.job.id = selected := by
  obtain ⟨row, row', hrow, hfrom, hhanded, hclaims, -⟩ := claimNext_claims h
  have hvalid := hclaims.valid (hsound.valid selected row hrow)
  have hjob := (toDomain_of_valid hvalid).symm.trans hhanded.job
  rw [← Except.ok.inj hjob, ← hsound.key selected row hrow]
  exact hfrom.id

/-- **A claim pays for what it starts, and every other step for what it creates.** -/
theorem withinClaims_of_step (hreach : system.Reachable s) (h : WithinClaims jobId count s)
    (hstep : system.step s action s') :
    WithinClaims jobId (count + (s.committedClaim jobId action).toList.length) s' := by
  obtain ⟨hallows, rfl⟩ := hstep
  cases action with
  | submit name sha256 question idempotencyKey =>
      exact withinClaims_start h hallows (adds_request (acts_submit _ _ _)) rfl
  | review name sha256 request =>
      exact withinClaims_start h hallows (adds_request (acts_submitDecision _ _)) rfl
  | claim settings locked now lease token selected =>
      rcases apply_claim s settings locked now lease token selected with
        heq | ⟨target, w, claimed, rfl, hnext, heq⟩
      · rw [heq]
        obtain ⟨budget, htasks, hcount⟩ := h
        exact ⟨budget, htasks, by omega⟩
      · rw [heq]
        have hid := claimed_id (systemSound_of_reachable hreach).world hnext
        have hpays : (s.committedClaim jobId
            (.claim settings locked now lease token (some target))).toList.length
              = perClaim claimed.job.id jobId := by
          by_cases htarget : target = jobId
          · subst htarget
            simp [committedClaim, hnext, perClaim, hid]
          · simp [committedClaim, htarget, perClaim, hid]
        rw [hpays]
        obtain ⟨row, row', -, -, -, -, hw⟩ := claimNext_claims hnext
        exact withinClaims_start h hallows.1 (adds_process settings claimed jobId) (by rw [hw])
  | act name e => exact withinClaims_proceed h fun task n htask => htask.act e s.world
  | abandon name e =>
      refine withinClaims_proceed h fun task n htask => ?_
      obtain ⟨hnow, hlater⟩ := htask.abandon e s.world
      exact ⟨0, n, n.zero_add, hnow, hlater⟩
  | timeOut name =>
      refine withinClaims_proceed h fun task n htask => ?_
      exact ⟨0, n, n.zero_add, le_refl _, htask.timeOut⟩
  | crash name =>
      obtain ⟨budget, htasks, hcount⟩ := h
      exact ⟨budget, htasks.crash, hcount⟩
  | relay outbox => exact h

end Steps

/-- **A job has no more executions than claims**, whatever its workers do, time out or crash. -/
theorem executions_le_claims {s : SystemState} {actions : List SystemAction}
    (h : system.Run {} actions s) (jobId : String) :
    s.world.executionsOf jobId ≤ (SystemState.claims jobId {} actions).length := by
  have hwithin : SystemState.WithinClaims jobId (SystemState.claims jobId {} actions).length s := by
    induction h with
    | nil =>
        refine ⟨fun _ => 0, ?_, by simp [World.executionsOf]⟩
        intro name task hlookup
        rw [AList.lookup_empty] at hlookup
        cases hlookup
    | @snoc t u actions action hrun hstep ih =>
        rw [SystemState.claims_snoc jobId hrun, List.length_append]
        exact withinClaims_of_step ⟨{}, actions, rfl, hrun⟩ ih hstep
  obtain ⟨budget, -, hcount⟩ := hwithin
  exact (Nat.le_add_right _ _).trans hcount

/-- The job that awaits its review was claimed once, and has one execution. -/
theorem executions_le_claims_awaiting :
    ∃ s, system.Run {} awaitingActions s ∧ s.world.executionsOf overlapRequest.jobId = 1 ∧
      s.world.executionsOf overlapRequest.jobId
        ≤ (SystemState.claims overlapRequest.jobId {} awaitingActions).length := by
  obtain ⟨s, hreplay, hawaits⟩ := (Option.any_eq_true _ _).1 awaitingActions_replay
  have hrun := run_of_replay hreplay
  refine ⟨s, hrun, ?_, executions_le_claims hrun overlapRequest.jobId⟩
  rw [(of_decide_eq_true hawaits).eq_awaitingSystem]
  rfl

end Atlas
