/-
**What the commits of a worker change.**

A transaction of a worker can change the tables of the queue and of its books in eleven ways.  Each
is stated here with the whole database it leaves, and with what the transaction had checked; every
later invariant of the system is a case analysis on them and looks at no transaction again.

Two things have to hold before.  The evaluation runs have to be stored under their ids, and the
identifier the transaction draws has to be new: `recordPolicyDecision` tells a new decision from a
stored one by the id alone.

Main definitions:

* `Atlas.Env.DrawsNew` — the drawn identifier is one of `uuid4`, and new;
* `Atlas.RowWrite` — a write of the job's row under the claim;
* `Atlas.WorkerEffect` — the eleven changes.

Main results:

* `Atlas.WorkerCommit.effect` — **every commit of a worker is one of the changes**.
-/

import Atlas.PolicyReplay
import Atlas.RowColumns
import Atlas.WorkerActs

set_option relaxedAutoImplicit false
set_option autoImplicit false

namespace Atlas

/-! ### The changes -/

/-- A text as `uuid4` draws it: 36 hexadecimal digits and dashes. -/
def IsUuid (text : String) : Prop :=
  text.length = 36 ∧ text.toList.all (fun c => isLowerHex c || c == '-') = true

instance (text : String) : Decidable (IsUuid text) := inferInstanceAs (Decidable (_ ∧ _))

/-- The first identifier drawn is one of `uuid4`, and no decision has it. -/
structure Env.DrawsNew (e : Env) (w : World) : Prop where
  uuid : IsUuid (e.uuid 0)
  new : ∀ decision ∈ w.policyDecisions, decision.id ≠ e.uuid 0

/-- The row of a job is written under the claim: it keeps the token or loses it, and keeps the
columns that are written once. -/
structure RowWrite (jobId token : String) (w : World) (row row' : ResearchJobRow) : Prop where
  checks : CheckConstraint.AllHold researchJobChecks row'
  owned : Owned jobId token w row
  kept : Kept row row'
  token : row'.claimToken = some token ∨ row'.claimToken = none

/-- Another count keeps the columns that are written once. -/
theorem EvaluationService.Recounted.kept {w : World} {jobId : String} {row row' : ResearchJobRow}
    (h : EvaluationService.Recounted w jobId row row') : Kept row row' := by
  obtain ⟨count, rfl⟩ := h.columns
  exact ⟨rfl, rfl, rfl, rfl, rfl, rfl, fun hvalid => hvalid⟩

/-- The ways a worker with the claim of a job changes the queue and its books. -/
inductive WorkerEffect (jobId token : String) (w w' : World) : Prop
  /-- Nothing of them. -/
  | aside (h : Aside w w')
  /-- A decision that neither repairs nor retries. -/
  | decided (decision : PolicyDecisionRow) (hrepair : decision.decision ≠ .repair)
      (hretry : decision.decision ≠ .retry)
      (h : w' = { w with policyDecisions := w.policyDecisions ++ [decision] })
  /-- A decision to repair, with the repair counted. -/
  | repaired (row row' : ResearchJobRow) (decision : PolicyDecisionRow)
      (hwrite : RowWrite jobId token w row row')
      (hrow : row' = { row with repairCount := row.repairCount + 1 })
      (hjob : decision.researchJobId = jobId) (hrepair : decision.decision = .repair)
      (h : w' = { w with
        policyDecisions := w.policyDecisions ++ [decision], jobs := w.jobs.insert jobId row' })
  /-- An evaluation run taken over or finalized. -/
  | reran (run run' : EvaluationRunRow) (hlookup : w.evaluationRuns.lookup run.id = some run)
      (h : w' = { w with evaluationRuns := w.evaluationRuns.insert run.id run' })
      (hid : run'.id = run.id) (hkey : run'.key = run.key)
      (hjob : run'.researchJobId = run.researchJobId)
  /-- A new evaluation run, with the attempts of a job counted from an earlier read of its row. -/
  | evaluated (target : String) (row row' : ResearchJobRow) (run : EvaluationRunRow)
      (hrow : EvaluationService.Recounted w target row row')
      (hnew : w.evaluationRuns.lookup run.id = none)
      (hplace : runByExecutionKey w.evaluationRuns run.workflowExecutionId run.evaluationProfile
        run.evaluationAttempt = none)
      (h : w' = { w with
        jobs := w.jobs.insert target row', evaluationRuns := w.evaluationRuns.insert run.id run })
  /-- The end of the bound execution. -/
  | closed (row : ResearchJobRow) (executionId : String) (execution : WorkflowExecutionRow)
      (target : ExecutionStatus) (time : Instant) (howned : Owned jobId token w row)
      (hactive : row.activeWorkflowExecutionId = some executionId)
      (hexecution : w.executions.lookup executionId = some execution)
      (hrunning : execution.status = .running) (hjob : execution.researchJobId = jobId)
      (htarget : target = .completed ∨ target = .failed)
      (h : w' = { w with
        executions := w.executions.insert executionId (execution.close target time) })
  /-- A new execution, to which the job is bound; the unfinished ones are abandoned. -/
  | created (row row' : ResearchJobRow) (executionId : String) (execution : WorkflowExecutionRow)
      (time : Instant) (hwrite : RowWrite jobId token w row row')
      (hrow : row' = { row with activeWorkflowExecutionId := some executionId })
      (huuid : IsUuid executionId) (hnew : w.executions.lookup executionId = none)
      (hjob : execution.researchJobId = jobId) (hrunning : execution.status = .running)
      (h : w' = { w with
        jobs := w.jobs.insert jobId row'
        executions := (w.executions.mapRows fun _ row =>
          if row.Unfinished jobId then row.close .abandoned time else row).insert
            executionId execution })
  /-- A pause for review, with its decision and its event. -/
  | paused (row row' : ResearchJobRow) (decision : PolicyDecisionRow) (event : OutboxRow)
      (outbox : Outbox) (hwrite : RowWrite jobId token w row row')
      (hstatus : row'.status = .awaitingReview)
      (hactive : row'.activeWorkflowExecutionId = row.activeWorkflowExecutionId)
      (hcounts : getAttemptCounts (some row') = getAttemptCounts (some row))
      (hdecision : decision.decision = .awaitReview)
      (htype : event.event.type = .awaitingReview) (hrows : outbox.rows = w.outbox.rows ++ [event])
      (h : w' = { w with
        jobs := w.jobs.insert jobId row', policyDecisions := w.policyDecisions ++ [decision]
        outbox := outbox })
  /-- A scheduled retry, with its decision, its event and the execution it abandons. -/
  | retried (row row' : ResearchJobRow) (decision : PolicyDecisionRow) (event : OutboxRow)
      (outbox : Outbox) (executions : Executions) (attempts : List RecoveryAttemptRow)
      (abandon : Option String) (count : ℕ) (next time : Instant)
      (hwrite : RowWrite jobId token w row row')
      (hstatus : row'.status = .pending) (hmode : row'.continuationMode = .jobRetry)
      (hactive : row'.activeWorkflowExecutionId = none)
      (hretries : row'.jobRetryCount = row.jobRetryCount + 1)
      (hrepairs : row'.repairCount = row.repairCount)
      (hevaluations : row'.evaluationAttemptCount = row.evaluationAttemptCount)
      (hjob : decision.researchJobId = jobId) (hretry : decision.decision = .retry)
      (hexecution : decision.workflowExecutionId = abandon)
      (haggregate : event.event.aggregateId = jobId)
      (hpayload : event.event.payload = .retryScheduled (abandon.map Python.strip) count next)
      (hrows : outbox.rows = w.outbox.rows ++ [event])
      (habandon : match abandon with
        | none => executions = w.executions
        | some executionId => row.activeWorkflowExecutionId = some executionId ∧
            ∃ execution, w.executions.lookup executionId = some execution ∧
              execution.status = .running ∧ execution.researchJobId = row.id ∧
              executions = w.executions.insert executionId (execution.close .abandoned time))
      (h : w' = { w with
        jobs := w.jobs.insert jobId row', executions := executions
        policyDecisions := w.policyDecisions ++ [decision], recoveryAttempts := attempts
        outbox := outbox })
  /-- The end of the job, with its event. -/
  | ended (row row' : ResearchJobRow) (event : OutboxRow) (outbox : Outbox)
      (hwrite : RowWrite jobId token w row row')
      (hstatus : row'.status = .completed ∨ row'.status = .failed)
      (hactive : row'.activeWorkflowExecutionId = none)
      (hcounts : getAttemptCounts (some row') = getAttemptCounts (some row))
      (htype : event.event.type.Terminal) (hrows : outbox.rows = w.outbox.rows ++ [event])
      (h : w' = { w with jobs := w.jobs.insert jobId row', outbox := outbox })

/-! ### Decisions -/

section Effects

variable {settings : Settings} {jobId token : String} {e : Env} {w w' : World}

/-- A fenced operation that writes the row of a job writes it under the claim. -/
theorem rowWrite_of_fenced {row row' : ResearchJobRow} {time : Instant} (call : FencedCall)
    (h : call.run (w.jobs.lookup jobId) token time = .ok (some row'))
    (hrow : w.jobs.lookup jobId = some row) : RowWrite jobId token w row row' := by
  obtain ⟨_, hsome, howns, htoken⟩ := fenced_run_eq_some h
  obtain rfl := Option.some.inj (hrow.symm.trans hsome)
  have howned : Owned jobId token w row := Owned.of_owns hrow howns
  refine ⟨ResearchJobRow.fits_iff.2 (fits_of_fenced h), howned, kept_of_fenced (hrow ▸ h), ?_⟩
  rcases htoken with htoken | htoken
  · exact .inl (htoken.trans howned.2.2)
  · exact .inr htoken

theorem rowWrite_of_scheduleRetry {row row' : ResearchJobRow} {executions executions' : Executions}
    {next time : Instant} {abandon : Option String}
    (h : scheduleRetry executions (w.jobs.lookup jobId) token next time abandon
      = .ok (some (row', executions')))
    (hrow : w.jobs.lookup jobId = some row) : RowWrite jobId token w row row' := by
  have hrun : (FencedCall.scheduleRetry executions next abandon).run (w.jobs.lookup jobId) token time
      = .ok (some row') := by
    rw [FencedCall.run, h]
    rfl
  exact rowWrite_of_fenced _ hrun hrow

/-- **Under a new id a decision is stored, or its equal is found and nothing changes.** -/
theorem recordPolicyDecision_cases {row : PolicyDecisionRow} {id : String} {created : Bool}
    (hnew : ∀ decision ∈ w.policyDecisions, decision.id ≠ row.id)
    (h : recordPolicyDecision row e w = .ok ((id, created), w')) :
    (created = true ∧ w' = { w with policyDecisions := w.policyDecisions ++ [row] }) ∨
      (created = false ∧ w' = w ∧ ∃ existing ∈ w.policyDecisions, existing.agrees row = true) := by
  obtain ⟨decisions, hinsert, rfl, rfl⟩ := recordPolicyDecision_eq_ok.1 h
  obtain ⟨-, ⟨existing, hfind, hagrees, rfl, rfl⟩ | ⟨-, -, -, rfl, rfl⟩⟩ :=
    insertPolicyDecision_eq_ok.1 hinsert
  · have hmem := List.mem_of_find?_eq_some hfind
    exact .inr ⟨decide_eq_false (hnew existing hmem), rfl, existing, hmem, hagrees⟩
  · exact .inl ⟨decide_eq_true rfl, rfl⟩

/-- The decision of the policy callback: stored, stored with a repair, or found. -/
theorem recordEvaluationDecision_effect {ctx : GraphContext} {evalRunId : String} {passed : Bool}
    {dimensions : List DimensionResult} {counts : AttemptCounts} (he : e.DrawsNew w)
    (h : recordEvaluationDecision ctx evalRunId (decideForEvaluation passed dimensions counts) counts
      e w = .ok ((), w')) : WorkerEffect ctx.jobId ctx.claimToken w w' := by
  simp only [recordEvaluationDecision, Tx.bind_eq_ok, Tx.reading_eq_ok] at h
  obtain ⟨_, _, ⟨rfl, rfl⟩, _, _, ⟨rfl, rfl⟩, ⟨id, created⟩, _, hrecord, h⟩ := h
  rcases recordPolicyDecision_cases he.new hrecord with ⟨rfl, rfl⟩ | ⟨rfl, rfl, -⟩
  · split at h
    · rename_i hrepair
      simp only [Tx.bind_eq_ok, onJob_eq_ok, require_eq_ok] at h
      obtain ⟨ok, _, hjob, rfl, rfl⟩ := h
      rcases hjob with ⟨row', hrow', -, rfl⟩ | ⟨-, hfalse, -⟩
      · obtain ⟨row, hrow, howns, -, hchecks, rfl⟩ := incrementRepairCount_eq_some.1 hrow'
        exact .repaired row _ _ (rowWrite_of_fenced .incrementRepairCount hrow' hrow) rfl rfl
          hrepair.2 rfl
      · cases hfalse
    · rename_i hplain
      obtain ⟨-, rfl⟩ := Tx.pure_eq_ok.1 h
      refine .decided _ ?_ (decideForEvaluation_ne_retry _ _ _) rfl
      exact fun hrepair => hplain ⟨rfl, hrepair⟩
  · rw [if_neg (by simp)] at h
    obtain ⟨-, rfl⟩ := Tx.pure_eq_ok.1 h
    exact .aside (.refl _)

/-- The columns of the queue that a transition of the job leaves as they are. -/
structure SameColumns (row row' : ResearchJobRow) : Prop where
  active : row'.activeWorkflowExecutionId = row.activeWorkflowExecutionId
  counts : getAttemptCounts (some row') = getAttemptCounts (some row)

theorem transition_sameColumns {op : ResearchJob → Except DomainError ResearchJob}
    {row row' : ResearchJobRow} (h : transition op row = .ok row') : SameColumns row row' := by
  obtain ⟨job, hid, rfl⟩ := transition_columns h
  exact ⟨rfl, rfl⟩

/-- The pause for review: recorded, or found. -/
theorem recordAwaitReview_effect {ctx : GraphContext} {evaluationRunId : String}
    (he : e.DrawsNew w) (h : recordAwaitReview ctx evaluationRunId e w = .ok ((), w')) :
    WorkerEffect ctx.jobId ctx.claimToken w w' := by
  simp only [recordAwaitReview, Tx.bind_eq_ok, Tx.reading_eq_ok, Tx.read_eq_ok] at h
  obtain ⟨_, _, ⟨-, rfl⟩, _, _, ⟨rfl, rfl⟩, _, _, ⟨-, rfl⟩, _, _, ⟨-, rfl⟩, ⟨id, created⟩, _,
    hrecord, h⟩ := h
  rcases recordPolicyDecision_cases he.new hrecord with ⟨rfl, rfl⟩ | ⟨rfl, rfl, -⟩
  · simp only [if_true, Tx.bind_eq_ok, onJob_eq_ok, require_eq_ok, enqueueEvent_eq_ok,
      buildResearchJobAwaitingReview, buildEvent_eq_ok] at h
    obtain ⟨ok, _, hjob, _, _, ⟨rfl, rfl⟩, built, outbox, ⟨-, -, -, hpayload⟩, henqueue, rfl⟩ := h
    obtain ⟨event, hevent, -, hrows, -⟩ := Outbox.enqueue_eq_ok henqueue
    rcases hjob with ⟨row', hrow', -, rfl⟩ | ⟨-, hfalse, -⟩
    · obtain ⟨row, hrow, howns, row₁, htransition, hchecks, rfl⟩ :=
        transitionAwaitingReview_eq_some.1 hrow'
      have howned : Owned ctx.jobId ctx.claimToken w row := Owned.of_owns hrow howns
      have hsame := transition_sameColumns htransition
      obtain ⟨hstatus, -⟩ := transition_status .awaitingReview
        (fun _ _ hop => by
          obtain ⟨-, -, rfl⟩ := ResearchJob.awaitReview_eq_ok.1 hop
          rfl) htransition
      refine .paused row _ _ event outbox (rowWrite_of_fenced .transitionAwaitingReview hrow' hrow)
        hstatus hsame.active hsame.counts rfl ?_ hrows rfl
      rw [hevent, DomainEvent.type, hpayload]
      rfl
    · cases hfalse
  · simp only [Bool.false_eq_true, if_false, Tx.pure_eq_ok] at h
    obtain ⟨-, rfl⟩ := h
    exact .aside (.refl _)

theorem recordAbandoned_eq_ok {attemptId decisionId : String} {abandon : Option String}
    {attemptNumber : ℕ} {next now : Instant} {u : Unit}
    (h : recordAbandoned jobId attemptId decisionId abandon attemptNumber next now e w
      = .ok (u, w')) : ∃ attempts, w' = { w with recoveryAttempts := attempts } := by
  cases abandon with
  | none =>
      obtain ⟨-, rfl⟩ := Tx.pure_eq_ok.1 h
      exact ⟨_, rfl⟩
  | some abandoned =>
      simp only [recordAbandoned, Tx.bind_eq_ok, Tx.compute_eq_ok, Tx.modify_eq_ok] at h
      obtain ⟨attempts, _, ⟨-, rfl⟩, rfl⟩ := h
      exact ⟨_, rfl⟩

/-- The row a scheduled retry leaves: counted, released and unbound. -/
theorem retryRow_columns {row row' : ResearchJobRow} {next time : Instant}
    (h : scheduleRetry.retryRow next time row = .ok row') :
    row'.status = .pending ∧ row'.continuationMode = .jobRetry ∧
      row'.activeWorkflowExecutionId = none ∧
      row'.jobRetryCount = row.jobRetryCount + 1 ∧ row'.repairCount = row.repairCount ∧
      row'.evaluationAttemptCount = row.evaluationAttemptCount := by
  obtain ⟨row₁, htransition, hchecks, rfl⟩ := retryRow_eq_ok.1 h
  obtain ⟨hstatus, job, hid, rfl⟩ := transition_status .pending
    (fun _ _ hop => by
      obtain ⟨-, -, rfl⟩ := ResearchJob.returnToPending_eq_ok.1 hop
      rfl) htransition
  exact ⟨hstatus, rfl, rfl, rfl, rfl, rfl⟩

/-- The decision to retry: everything of it, or, when it is found, nothing. -/
theorem recordRetry_effect {abandon : Option String} {decision : PolicyDecision}
    {counts : AttemptCounts} {scheduled : Instant × ℕ} (he : e.DrawsNew w)
    (haction : decision.action = .retry)
    (h : recordRetry settings jobId token abandon decision counts e w = .ok (scheduled, w')) :
    WorkerEffect jobId token w w' := by
  simp only [recordRetry, Tx.bind_eq_ok, Tx.reading_eq_ok] at h
  obtain ⟨now, _, ⟨-, rfl⟩, _, _, ⟨-, rfl⟩, _, _, ⟨rfl, rfl⟩, _, _, ⟨-, rfl⟩, _, _, ⟨-, rfl⟩,
    ⟨id, created⟩, w₁, hrecord, h⟩ := h
  rcases recordPolicyDecision_cases he.new hrecord with ⟨rfl, rfl⟩ | ⟨rfl, rfl, -⟩
  · simp only [if_true, Tx.bind_eq_ok, scheduleRetryTx, Tx.compute_eq_ok, mapError_eq_ok,
      enqueueEvent_eq_ok, buildResearchJobRetryScheduled, buildEvent_eq_ok, Tx.pure_eq_ok] at h
    obtain ⟨_, _, habandoned, _, _, ⟨written, _, ⟨hschedule, rfl⟩, hwrite⟩, _, _,
      ⟨built, outbox, ⟨-, haggregate, -, hpayload⟩, henqueue, rfl⟩, -, rfl⟩ := h
    obtain ⟨attempts, rfl⟩ := recordAbandoned_eq_ok habandoned
    obtain ⟨event, hevent, -, hrows, -⟩ := Outbox.enqueue_eq_ok henqueue
    cases written with
    | none => exact absurd hwrite Tx.throw_ne_ok
    | some rows =>
        obtain ⟨row', executions⟩ := rows
        obtain rfl := Tx.modify_eq_ok.1 hwrite
        obtain ⟨row, hrow, howns, hretry, habandon⟩ := scheduleRetry_eq_some.1 hschedule
        obtain ⟨hstatus, hmode, hactive, hretries, hrepairs, hevaluations⟩ := retryRow_columns hretry
        have hwrite : RowWrite jobId token w row row' := rowWrite_of_scheduleRetry hschedule hrow
        refine .retried row row' _ event outbox executions attempts abandon
          (counts.jobRetryCount + 1) _ now hwrite hstatus hmode hactive hretries hrepairs
          hevaluations rfl haction rfl (hevent ▸ haggregate) (hevent ▸ hpayload) hrows ?_ rfl
        cases abandon with
        | none => exact habandon.symm
        | some executionId =>
            obtain ⟨hbound, hclose⟩ := habandon
            rcases closeRunning_eq_ok.1 hclose with
              ⟨execution, hlookup, hrunning, hcondition, -, -, rfl⟩ | ⟨-, hfalse, -⟩
            · exact ⟨hbound, execution, hlookup, hrunning, of_decide_eq_true hcondition, rfl⟩
            · cases hfalse
  · simp only [Bool.false_eq_true, if_false, Tx.bind_eq_ok, Tx.read_eq_ok] at h
    obtain ⟨attempts, _, ⟨-, rfl⟩, h⟩ := h
    have hsame : w' = w₁ := by
      cases hfound : attempts.find? (·.policyDecisionId = id) with
      | some existing =>
          simp only [hfound] at h
          exact (Tx.pure_eq_ok.1 h).2.symm
      | none =>
          simp only [hfound] at h
          exact (Tx.pure_eq_ok.1 h).2.symm
    rw [hsame]
    exact .aside (.refl w₁)

/-! ### Evaluations -/

/-- A new attempt: the run is stored, and the attempt is counted. -/
theorem beginRun_effect {request : EvaluationService.Request}
    {loaded : EvaluationService.LoadedJob} {answer : String × String × Option EvaluationRunResult}
    (h : EvaluationService.beginRun settings.sha256 request loaded e w = .ok (answer, w')) :
    WorkerEffect jobId token w w' := by
  obtain ⟨-, row, row', runs, hrecounted, rfl⟩ := EvaluationService.beginRun_recounts h
  obtain ⟨-, -, run, -, hkey, -, -, -, hnew, hplace, hruns⟩ := EvaluationService.beginRun_eq_ok h
  obtain rfl : runs = w.evaluationRuns.insert run.id run := hruns
  simp only [EvaluationRunRow.key, Prod.mk.injEq] at hkey
  obtain ⟨hexecution, hprofile, hattempt⟩ := hkey
  rw [← hexecution, ← hprofile, ← hattempt] at hplace
  exact .evaluated request.jobId row row' run hrecounted hnew hplace rfl

/-- Under the lock of the run: a replay, a take-over, or nothing. -/
theorem lockRun_effect {request : EvaluationService.Request}
    {loaded : EvaluationService.LoadedJob}
    {found : Option (String × String × Option EvaluationRunResult)}
    (htable : RunTable w.evaluationRuns)
    (h : EvaluationService.lockRun settings.sha256 request loaded e w = .ok (found, w')) :
    WorkerEffect jobId token w w' := by
  obtain ⟨_, -, -, -, -, rfl⟩ | ⟨run, answer, hrun, -, -, hresume⟩ | ⟨-, -, rfl⟩ :=
    EvaluationService.lockRun_cases h
  · exact .aside (.refl _)
  · obtain ⟨hlookup, -⟩ := runByExecutionKey_eq_some htable hrun
    obtain ⟨-, -, -, -, claimFingerprint, rfl⟩ := EvaluationService.resumeRun_eq_ok hresume
    exact .reran run _ hlookup rfl rfl rfl rfl
  · exact .aside (.refl _)

/-- A run of the table written over. -/
theorem reran_effect {runId : String} {run run' : EvaluationRunRow}
    (htable : RunTable w.evaluationRuns) (hlookup : w.evaluationRuns.lookup runId = some run)
    (h : w' = { w with evaluationRuns := w.evaluationRuns.insert run.id run' })
    (hid : run'.id = run.id) (hkey : run'.key = run.key)
    (hjob : run'.researchJobId = run.researchJobId) : WorkerEffect jobId token w w' := by
  refine .reran run run' ?_ h hid hkey hjob
  rw [htable.key runId run hlookup]
  exact hlookup

/-! ### Every commit -/

theorem GraphCommit.effect (he : e.DrawsNew w) (htable : RunTable w.evaluationRuns)
    (h : GraphCommit settings jobId token e w w') : WorkerEffect jobId token w w' := by
  cases h with
  | aside h => exact .aside h
  | lockRun request loaded found h => exact lockRun_effect htable h
  | beginRun request loaded answer h => exact beginRun_effect h
  | finalizeSuccess runId ownershipToken passed dimensions result h =>
      obtain ⟨run, hlookup, -, rfl⟩ := EvaluationService.finalizeSuccess_eq_ok h
      exact reran_effect htable hlookup rfl rfl rfl rfl
  | finalizeFailure runId ownershipToken h =>
      obtain ⟨run, hlookup, -, rfl⟩ := EvaluationService.finalizeFailure_eq_ok h
      exact reran_effect htable hlookup rfl rfl rfl rfl
  | recordEvaluationDecision ctx evalRunId passed dimensions counts hjob htoken h =>
      subst hjob htoken
      exact recordEvaluationDecision_effect he h

/-- The bound execution is closed. -/
theorem terminalExecution_effect {executionId : String} {time : Instant} {target : ExecutionStatus}
    {executions : Executions} (htarget : target = .completed ∨ target = .failed)
    (h : terminalExecutionForClaim w.jobs w.executions executionId jobId token time target
      = .ok (true, executions)) :
    WorkerEffect jobId token w { w with executions := executions } := by
  obtain ⟨row, execution, hrow, hstatus, htoken, hactive, hlookup, hrunning, hjob, rfl⟩ :=
    terminalExecutionForClaim_true h
  exact .closed row executionId execution target time ⟨hrow, hstatus, htoken⟩ hactive hlookup
    hrunning hjob htarget rfl

theorem CallCommit.effect (he : e.DrawsNew w) (htable : RunTable w.evaluationRuns)
    (h : CallCommit settings jobId token e w w') : WorkerEffect jobId token w w' := by
  cases h with
  | graph h => exact h.effect he htable
  | completeExecution executionId h =>
      obtain ⟨executions, hclose, rfl⟩ := completeExecutionTx_eq_ok h
      exact terminalExecution_effect (.inl rfl) hclose
  | failExecution executionId h =>
      obtain ⟨executions, hclose, rfl⟩ := failExecutionTx_eq_ok h
      exact terminalExecution_effect (.inr rfl) hclose
  | recordAwaitReview ctx evaluationRunId hjob htoken h =>
      subst hjob htoken
      exact recordAwaitReview_effect he h

theorem createAndBind_effect {executionId : String} (he : e.DrawsNew w)
    (h : createAndBind jobId token e w = .ok (executionId, w')) : WorkerEffect jobId token w w' := by
  simp only [createAndBind, Tx.bind_eq_ok, Tx.reading_eq_ok, Tx.compute_eq_ok, Tx.modify_eq_ok,
    onJob_eq_ok, require_eq_ok, Tx.pure_eq_ok] at h
  obtain ⟨_, _, ⟨rfl, rfl⟩, _, _, ⟨rfl, rfl⟩, executions, _, ⟨hcreate, rfl⟩, _, _, rfl, ok, _, hjob,
    _, _, ⟨rfl, rfl⟩, rfl, rfl⟩ := h
  rw [mapError_eq_ok] at hcreate
  obtain ⟨abandoned, habandon, hcreate⟩ := Checked.bind_eq_ok.1 hcreate
  obtain rfl := abandonUnfinishedForJob_eq_ok habandon
  obtain ⟨hnew, execution, hexecution, hrunning, -, rfl⟩ := createExecution_eq_ok hcreate
  rcases hjob with ⟨row', hrow', -, rfl⟩ | ⟨-, hfalse, -⟩
  · obtain ⟨row, hrow, howns, hchecks, -, rfl⟩ := setActiveWorkflowExecution_eq_some.1 hrow'
    exact .created row _ (e.uuid 0) execution e.now
      (rowWrite_of_fenced (.setActiveWorkflowExecution _ _) hrow' hrow) rfl he.uuid
      (abandonUnfinishedForJob_lookup_none habandon hnew) hexecution hrunning rfl
  · cases hfalse

theorem finalizeCompletionTx_effect {result : String} {owned : Bool}
    (h : finalizeCompletionTx jobId token result e w = .ok (owned, w')) :
    WorkerEffect jobId token w w' := by
  rcases finalizeCompletionTx_eq_ok h with
    ⟨row', built, outbox, -, hrow', -, htype, henqueue, rfl⟩ | ⟨-, rfl⟩
  · obtain ⟨row, hrow, howns, row₁, htransition, hchecks, rfl⟩ := finalizeCompletion_eq_some.1 hrow'
    obtain ⟨event, hevent, -, hrows, -⟩ := Outbox.enqueue_eq_ok henqueue
    have hsame := transition_sameColumns htransition
    obtain ⟨hstatus, -⟩ := transition_status .completed
      (fun _ _ hop => by
        obtain ⟨-, _, _, -, -, rfl⟩ := ResearchJob.complete_eq_ok.1 hop
        rfl) htransition
    exact .ended row _ event outbox (rowWrite_of_fenced (.finalizeCompletion result) hrow' hrow)
      (.inl hstatus) rfl hsame.counts (hevent ▸ .inl htype) hrows rfl
  · exact .aside (.refl _)

theorem finalizeFailureTx_effect {reason reasonClass : String} {owned : Bool}
    (h : finalizeFailureTx jobId token reason reasonClass e w = .ok (owned, w')) :
    WorkerEffect jobId token w w' := by
  rcases finalizeFailureTx_eq_ok h with
    ⟨row', built, outbox, -, hrow', -, htype, henqueue, rfl⟩ | ⟨-, rfl⟩
  · obtain ⟨row, hrow, howns, row₁, htransition, hchecks, rfl⟩ := finalizeFailure_eq_some.1 hrow'
    obtain ⟨event, hevent, -, hrows, -⟩ := Outbox.enqueue_eq_ok henqueue
    have hsame := transition_sameColumns htransition
    obtain ⟨hstatus, -⟩ := transition_status .failed
      (fun _ _ hop => by
        obtain ⟨-, _, _, -, -, rfl⟩ := ResearchJob.fail_eq_ok.1 hop
        rfl) htransition
    exact .ended row _ event outbox (rowWrite_of_fenced (.finalizeFailure reason) hrow' hrow)
      (.inr hstatus) rfl hsame.counts (hevent ▸ .inr htype) hrows rfl
  · exact .aside (.refl _)

/-- **Every commit of a worker is one of the changes.** -/
theorem WorkerCommit.effect (he : e.DrawsNew w) (htable : RunTable w.evaluationRuns)
    (h : WorkerCommit settings jobId token e w w') : WorkerEffect jobId token w w' := by
  cases h with
  | bound h =>
      cases h with
      | call h => exact h.effect he htable
      | recordRetry executionId x counts scheduled haction h =>
          exact recordRetry_effect he haction h
      | finalizeCompletion result owned h => exact finalizeCompletionTx_effect h
      | finalizeFailure reason reasonClass owned h => exact finalizeFailureTx_effect h
  | createAndBind executionId h => exact createAndBind_effect he h

end Effects

end Atlas
