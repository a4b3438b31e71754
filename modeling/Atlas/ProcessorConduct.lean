/-
**Processing keeps to its claim.**

Each transaction of a call of the processor is one of the changes the holder of a claim may make,
and what the call knows of its job before the transaction is enough to say so.  What a call returns
is tied to the execution it worked on: a result is returned only when the bound execution has
completed.  With it the worker's own two transactions keep to the claim as well.

Main definitions:

* `Atlas.OutcomeHolds` — what the outcome of a call promises.

Main results:

* `Atlas.createAndBind_conduct`, `Atlas.recordRetry_conduct`, … — each transaction is one of the
  changes;
* `Atlas.process_conduct` — **a call of the processor keeps to its claim**;
* `Atlas.settle_conduct` — so does what the worker does with the outcome.
-/

import Atlas.GraphConduct

set_option relaxedAutoImplicit false
set_option autoImplicit false

namespace Atlas

variable {jobId token executionId : String} {active : Option String} {mode : ContinuationMode}
  {e : Env} {w w' : World}

/-! ### The transactions -/

section Transactions

/-- A change of the job's row and of executions of the job, with other tables, is one elsewhere. -/
theorem Elsewhere.of_row {row : ResearchJobRow} (hjobs : w'.jobs = w.jobs.insert jobId row)
    (hexecutions : ExecutionsChange jobId w.executions w'.executions)
    (hreviews : w'.reviewDecisions = w.reviewDecisions) : Elsewhere jobId w w' where
  jobs other hother := by rw [hjobs, AList.lookup_insert_ne hother]
  executions := hexecutions
  reviews := hreviews

/-- The executions change by closing one RUNNING execution of the job. -/
theorem ExecutionsChange.of_close {executions : Executions} {execution : WorkflowExecutionRow}
    (target : ExecutionStatus) (time : Instant) (hlookup : executions.lookup executionId = some execution)
    (hrunning : execution.status = .running) (hjob : execution.researchJobId = jobId) :
    ExecutionsChange jobId executions
      (executions.insert executionId (execution.close target time)) := by
  refine .insert hjob ?_
  intro row hrow
  rw [hlookup] at hrow
  cases hrow
  exact ⟨hrunning, hjob⟩

/-- What a fenced close of the execution does. -/
theorem closeTx_conduct {target : ExecutionStatus} {time : Instant} {executions : Executions}
    (htarget : target = .completed ∨ target = .failed)
    (h : terminalExecutionForClaim w.jobs w.executions executionId jobId token time target
      = .ok (true, executions)) :
    Conduct jobId token w { w with executions := executions } ∧
      ∀ row, Owned jobId token { w with executions := executions } row →
        row.activeWorkflowExecutionId = some executionId ∧
          ∃ execution, executions.lookup executionId = some execution ∧
            execution.researchJobId = jobId ∧ execution.status = target := by
  obtain ⟨row, execution, hrow, hstatus, htoken, hactive, hlookup, hrunning, hjob, rfl⟩ :=
    terminalExecutionForClaim_true h
  have howned : Owned jobId token w row := ⟨hrow, hstatus, htoken⟩
  refine ⟨⟨⟨fun _ _ => rfl, .of_close target time hlookup hrunning hjob, rfl⟩, ?_⟩, ?_⟩
  · exact .closed row executionId execution target time howned hactive hlookup hrunning htarget
      rfl rfl
  · intro row' hrow'
    obtain rfl := howned.unique hrow'.1
    exact ⟨hactive, _, AList.lookup_insert _, hjob, rfl⟩

theorem completeExecutionTx_eq_ok {u : Unit}
    (h : completeExecutionTx jobId executionId token e w = .ok (u, w')) :
    ∃ executions, completeExecutionForClaim w.jobs w.executions executionId jobId token e.now
        = .ok (true, executions) ∧ w' = { w with executions := executions } := by
  simp only [completeExecutionTx, Tx.bind_eq_ok, Tx.reading_eq_ok, onExecutions_eq_ok,
    require_eq_ok] at h
  obtain ⟨_, _, ⟨rfl, rfl⟩, _, _, ⟨executions, hclose, rfl⟩, rfl, rfl⟩ := h
  exact ⟨executions, hclose, rfl⟩

theorem failExecutionTx_eq_ok {u : Unit}
    (h : failExecutionTx jobId executionId token e w = .ok (u, w')) :
    ∃ executions, failExecutionForClaim w.jobs w.executions executionId jobId token e.now
        = .ok (true, executions) ∧ w' = { w with executions := executions } := by
  simp only [failExecutionTx, Tx.bind_eq_ok, Tx.reading_eq_ok, onExecutions_eq_ok,
    require_eq_ok] at h
  obtain ⟨_, _, ⟨rfl, rfl⟩, _, _, ⟨executions, hclose, rfl⟩, rfl, rfl⟩ := h
  exact ⟨executions, hclose, rfl⟩

/-- Completing the bound execution, which then has completed. -/
theorem completeExecutionTx_conduct {P : WorkflowExecutionRow → Prop} {u : Unit}
    (hw : Claimed jobId token (some executionId) mode P w)
    (h : completeExecutionTx jobId executionId token e w = .ok (u, w')) :
    Conduct jobId token w w' ∧ Claimed jobId token (some executionId) mode Done w' := by
  obtain ⟨executions, hclose, rfl⟩ := completeExecutionTx_eq_ok h
  obtain ⟨hconduct, hafter⟩ := closeTx_conduct (.inl rfl) hclose
  refine ⟨hconduct, ⟨hw.exclusive.others, hw.exclusive.key⟩, ?_⟩
  intro row hrow
  obtain ⟨-, hmode, -⟩ := hw.bound row hrow
  obtain ⟨hactive, execution, hlookup, hjob, hstatus⟩ := hafter row hrow
  refine ⟨hactive, hmode, ?_⟩
  rintro _ ⟨⟩
  exact ⟨execution, hlookup, hjob, hstatus⟩

theorem failExecutionTx_conduct {u : Unit}
    (h : failExecutionTx jobId executionId token e w = .ok (u, w')) : Conduct jobId token w w' := by
  obtain ⟨executions, hclose, rfl⟩ := failExecutionTx_eq_ok h
  exact (closeTx_conduct (.inr rfl) hclose).1

/-- What binding a new execution does, up to the fence. -/
theorem createAndBind_eq_ok
    (h : createAndBind jobId token e w = .ok (executionId, w')) :
    ∃ abandoned executions row, abandonUnfinishedForJob w.executions jobId e.now = .ok abandoned ∧
      createExecution abandoned executionId jobId e.now = .ok executions ∧
      Owned jobId token w row ∧
      w' = { w with
        executions := executions
        jobs := w.jobs.insert jobId
          { row with activeWorkflowExecutionId := some executionId } } := by
  simp only [createAndBind, Tx.bind_eq_ok, Tx.reading_eq_ok, Tx.compute_eq_ok, Tx.modify_eq_ok,
    onJob_eq_ok, require_eq_ok, Tx.pure_eq_ok] at h
  obtain ⟨_, _, ⟨rfl, rfl⟩, _, _, ⟨rfl, rfl⟩, executions, _, ⟨hcreate, rfl⟩, _, _, rfl, ok, _, hjob,
    _, _, ⟨rfl, rfl⟩, rfl, rfl⟩ := h
  rw [mapError_eq_ok] at hcreate
  obtain ⟨abandoned, habandon, hcreate⟩ := Checked.bind_eq_ok.1 hcreate
  rcases hjob with ⟨row, hrow, -, rfl⟩ | ⟨-, hfalse, -⟩
  · obtain ⟨before, hbefore, howns, -, -, rfl⟩ := setActiveWorkflowExecution_eq_some.1 hrow
    exact ⟨abandoned, executions, before, habandon, hcreate, Owned.of_owns hbefore howns, rfl⟩
  · cases hfalse

/-- Abandoned executions are still there. -/
theorem abandonUnfinishedForJob_lookup_none {executions executions' : Executions} {time : Instant}
    (h : abandonUnfinishedForJob executions jobId time = .ok executions')
    (hnone : executions'.lookup executionId = none) : executions.lookup executionId = none := by
  obtain rfl := abandonUnfinishedForJob_eq_ok h
  rw [Table.lookup_mapRows, Option.map_eq_none_iff] at hnone
  exact hnone

/-- Binding a new execution, when the job does not continue a review. -/
theorem createAndBind_conduct (hmode : mode ≠ .reviewComplete)
    (hw : Claimed jobId token active mode Present w)
    (h : createAndBind jobId token e w = .ok (executionId, w')) :
    Conduct jobId token w w' ∧ Claimed jobId token (some executionId) mode Present w' := by
  obtain ⟨abandoned, executions, row, habandon, hcreate, howned, rfl⟩ := createAndBind_eq_ok h
  obtain ⟨hnew, execution, hjob, hrunning, -, rfl⟩ := createExecution_eq_ok hcreate
  obtain ⟨-, hrowmode, -⟩ := hw.bound row howned
  have hexecution : (abandoned.insert executionId execution).lookup executionId = some execution :=
    AList.lookup_insert _
  refine ⟨⟨.of_row rfl ?_ rfl, ?_⟩, ?_, ?_⟩
  · exact (abandonUnfinishedForJob_change habandon).trans (createExecution_change hcreate)
  · refine .bound row executionId howned (hrowmode ▸ hmode) ?_ ?_ ?_
    · exact abandonUnfinishedForJob_lookup_none habandon hnew
    · exact ⟨execution, hexecution, hjob, hrunning⟩
    · exact AList.lookup_insert _
  · refine ⟨fun other row' hother hrow' => ?_, fun row' hrow' => ?_⟩
    · rw [AList.lookup_insert_ne hother] at hrow'
      exact hw.exclusive.others other row' hother hrow'
    · rw [AList.lookup_insert] at hrow'
      cases hrow'
      exact hw.exclusive.key row howned.1
  · rintro row' ⟨hrow', -, -⟩
    rw [AList.lookup_insert] at hrow'
    cases hrow'
    refine ⟨rfl, hrowmode, ?_⟩
    rintro _ ⟨⟩
    exact ⟨execution, hexecution, hjob, trivial⟩

/-- The row a pause leaves. -/
theorem transitionAwaitingReview_released {row' : ResearchJobRow} {time : Instant}
    (h : transitionAwaitingReview (w.jobs.lookup jobId) token time = .ok (some row')) :
    ∃ row, Owned jobId token w row ∧ Released row row' .awaitingReview ∧
      row'.activeWorkflowExecutionId = row.activeWorkflowExecutionId := by
  obtain ⟨row, hrow, howns, row₁, htransition, -, rfl⟩ := transitionAwaitingReview_eq_some.1 h
  obtain ⟨hstatus, job, hid, rfl⟩ := transition_status .awaitingReview
    (fun _ _ hop => by
      obtain ⟨-, -, rfl⟩ := ResearchJob.awaitReview_eq_ok.1 hop
      rfl) htransition
  exact ⟨row, Owned.of_owns hrow howns, ⟨hid, hstatus, rfl⟩, rfl⟩

/-- The pause for review, or the replay of its decision. -/
theorem recordAwaitReview_conduct {ctx : GraphContext} {evaluationRunId : String} {u : Unit}
    (hmode : mode ≠ .reviewComplete)
    (hw : Claimed ctx.jobId ctx.claimToken active mode Present w)
    (h : recordAwaitReview ctx evaluationRunId e w = .ok (u, w')) :
    Conduct ctx.jobId ctx.claimToken w w' := by
  simp only [recordAwaitReview, Tx.bind_eq_ok, Tx.reading_eq_ok, Tx.read_eq_ok] at h
  obtain ⟨_, _, ⟨-, rfl⟩, _, _, ⟨-, rfl⟩, _, _, ⟨-, rfl⟩, _, _, ⟨-, rfl⟩, ⟨id, created⟩, _, hrecord,
    h⟩ := h
  obtain ⟨decisions, -, -, rfl⟩ := recordPolicyDecision_eq_ok.1 hrecord
  cases created with
  | false =>
      simp only [Bool.false_eq_true, if_false, Tx.pure_eq_ok] at h
      obtain ⟨-, rfl⟩ := h
      exact Quiet.conduct (.untouched rfl rfl rfl)
  | true =>
      simp only [if_true, Tx.bind_eq_ok, onJob_eq_ok, require_eq_ok, enqueueEvent_eq_ok] at h
      obtain ⟨ok, _, hjob, _, _, ⟨rfl, rfl⟩, event, outbox, -, -, rfl⟩ := h
      rcases hjob with ⟨row', hrow', -, rfl⟩ | ⟨-, hfalse, -⟩
      · obtain ⟨row, howned, hreleased, hactive⟩ := transitionAwaitingReview_released hrow'
        have howned' : Owned ctx.jobId ctx.claimToken w row := howned
        obtain ⟨-, hrowmode, -⟩ := hw.bound row howned'
        refine ⟨.of_insert rfl rfl rfl, ?_⟩
        exact .paused row row' howned' (hrowmode ▸ hmode) (AList.lookup_insert _) hreleased hactive
          rfl
      · cases hfalse

/-- What scheduling a retry leaves: the job released, and the execution it abandons, if any, closed;
that is the bound one, which was RUNNING. -/
theorem scheduleRetryTx_eq_ok {next now : Instant} {abandon : Option String} {u : Unit}
    (h : scheduleRetryTx jobId token next now abandon e w = .ok (u, w')) :
    ∃ row row' executions, Owned jobId token w row ∧ Released row row' .pending ∧
      row'.continuationMode = .jobRetry ∧ row'.activeWorkflowExecutionId = none ∧
      (match abandon with
        | none => w.executions = executions
        | some executionId => row.activeWorkflowExecutionId = some executionId ∧
            closeRunning w.executions executionId
              (fun execution => execution.researchJobId = row.id) .abandoned now
                = .ok (true, executions)) ∧
      w' = { w with jobs := w.jobs.insert jobId row', executions := executions } := by
  simp only [scheduleRetryTx, Tx.bind_eq_ok, Tx.compute_eq_ok, mapError_eq_ok] at h
  obtain ⟨scheduled, _, ⟨hschedule, rfl⟩, h⟩ := h
  cases scheduled with
  | none => exact absurd h Tx.throw_ne_ok
  | some rows =>
      obtain ⟨row', executions⟩ := rows
      obtain rfl := Tx.modify_eq_ok.1 h
      obtain ⟨row, hrow, howns, hretry, habandon⟩ := scheduleRetry_eq_some.1 hschedule
      obtain ⟨row₁, htransition, -, rfl⟩ := retryRow_eq_ok.1 hretry
      obtain ⟨hstatus, job, hid, rfl⟩ := transition_status .pending
        (fun _ _ hop => by
          obtain ⟨-, -, rfl⟩ := ResearchJob.returnToPending_eq_ok.1 hop
          rfl) htransition
      refine ⟨row, retryScheduled { row with toResearchJob := job
                                             jobRetryCount := row.jobRetryCount + 1 } next,
        executions, Owned.of_owns hrow howns, ⟨hid, hstatus, rfl⟩, rfl, rfl, ?_, rfl⟩
      exact habandon

/-- A scheduled retry releases the job; with an execution to abandon, that is the bound one, which
was RUNNING. -/
theorem scheduleRetryTx_conduct {next now : Instant} {abandon : Option String} {u : Unit}
    (hw : Exclusive jobId token w)
    (h : scheduleRetryTx jobId token next now abandon e w = .ok (u, w')) :
    Conduct jobId token w w' := by
  obtain ⟨row, row', executions, howned, hreleased, hmode, hactive, habandon, rfl⟩ :=
    scheduleRetryTx_eq_ok h
  have hinsert := AList.lookup_insert (a := jobId) (b := row') w.jobs
  cases abandon with
  | none =>
      obtain rfl := habandon
      refine ⟨.of_insert rfl rfl rfl, ?_⟩
      exact .retried row row' howned hinsert hreleased hmode hactive
  | some abandoned =>
      obtain ⟨hbound, hclose⟩ := habandon
      have hkey := hw.key row howned.1
      refine ⟨.of_row rfl (closeRunning_change ?_ hclose) rfl, ?_⟩
      · intro execution hcondition
        exact (of_decide_eq_true hcondition).trans hkey
      · exact .retried row row' howned hinsert hreleased hmode hactive

theorem recordAbandoned_sameQueue {decisions : List PolicyDecisionRow}
    {attemptId decisionId : String} {abandon : Option String} {attemptNumber : ℕ}
    {next now : Instant} {u : Unit}
    (h : recordAbandoned jobId attemptId decisionId abandon attemptNumber next now e
      { w with policyDecisions := decisions } = .ok (u, w')) : SameQueue w' w := by
  cases abandon with
  | none =>
      obtain ⟨-, rfl⟩ := Tx.pure_eq_ok.1 h
      exact ⟨rfl, rfl, rfl⟩
  | some abandoned =>
      simp only [recordAbandoned, Tx.bind_eq_ok, Tx.compute_eq_ok, Tx.modify_eq_ok] at h
      obtain ⟨attempts, _, ⟨-, rfl⟩, rfl⟩ := h
      exact ⟨rfl, rfl, rfl⟩

/-- The decision to retry schedules one, or is a replay and leaves the queue as it is. -/
theorem recordRetry_eq_ok {settings : Settings} {decision : PolicyDecision}
    {counts : AttemptCounts} {abandon : Option String} {scheduled : Instant × ℕ}
    (h : recordRetry settings jobId token abandon decision counts e w = .ok (scheduled, w')) :
    SameQueue w' w ∨ ∃ w₁ w₂ next now u, SameQueue w₁ w ∧
      scheduleRetryTx jobId token next now abandon e w₁ = .ok (u, w₂) ∧ SameQueue w' w₂ := by
  simp only [recordRetry, Tx.bind_eq_ok, Tx.reading_eq_ok] at h
  obtain ⟨_, _, ⟨-, rfl⟩, _, _, ⟨-, rfl⟩, _, _, ⟨-, rfl⟩, _, _, ⟨-, rfl⟩, _, _, ⟨-, rfl⟩,
    ⟨id, created⟩, _, hrecord, h⟩ := h
  obtain ⟨decisions, -, -, rfl⟩ := recordPolicyDecision_eq_ok.1 hrecord
  cases created with
  | false =>
      simp only [Bool.false_eq_true, if_false, Tx.bind_eq_ok, Tx.read_eq_ok] at h
      obtain ⟨attempts, _, ⟨-, rfl⟩, h⟩ := h
      have hw' : w' = { w with policyDecisions := decisions } := by
        cases hfound : attempts.find? (·.policyDecisionId = id) with
        | some existing =>
            simp only [hfound] at h
            exact (Tx.pure_eq_ok.1 h).2.symm
        | none =>
            simp only [hfound] at h
            exact (Tx.pure_eq_ok.1 h).2.symm
      subst hw'
      exact .inl ⟨rfl, rfl, rfl⟩
  | true =>
      simp only [if_true, Tx.bind_eq_ok, enqueueEvent_eq_ok, Tx.pure_eq_ok] at h
      obtain ⟨_, w₁, habandoned, u, w₂, hschedule, _, _, ⟨_, outbox, -, -, rfl⟩, -, rfl⟩ := h
      exact .inr ⟨w₁, w₂, _, _, u, recordAbandoned_sameQueue habandoned, hschedule, rfl, rfl, rfl⟩

/-- The decision to retry, or the replay of it. -/
theorem recordRetry_conduct {settings : Settings} {decision : PolicyDecision}
    {counts : AttemptCounts} {abandon : Option String} {scheduled : Instant × ℕ}
    (hw : Exclusive jobId token w)
    (h : recordRetry settings jobId token abandon decision counts e w = .ok (scheduled, w')) :
    Conduct jobId token w w' := by
  rcases recordRetry_eq_ok h with hsame | ⟨w₁, w₂, next, now, u, hsame, hschedule, hsame'⟩
  · exact Quiet.conduct (.untouched hsame.jobs hsame.executions hsame.reviews)
  · have hexclusive : Exclusive jobId token w₁ := by
      constructor
      · rw [hsame.jobs]
        exact hw.others
      · rw [hsame.jobs]
        exact hw.key
    have hconduct : Conduct jobId token w₁ w₂ := scheduleRetryTx_conduct hexclusive hschedule
    refine Conduct.congr ?_ hsame' hconduct
    exact ⟨hsame.jobs.symm, hsame.executions.symm, hsame.reviews.symm⟩

end Transactions

/-! ### Calls -/

section Calls

/-- A part of a call of the processor: it acts under the claim, and whatever it raises, the token
is on no other job. -/
def Call {α : Type} (jobId token : String) (A : World → Prop) (p : Activity α)
    (Q : α → World → Prop) : Prop :=
  Program.Triple (Undisturbed jobId token) (Conduct jobId token) A p Q
    (fun _ => Exclusive jobId token)

variable {α β : Type} {K A : World → Prop} {Q : α → World → Prop} {R : β → World → Prop}

theorem Call.bind {p : Activity α} {k : α → Activity β} (hp : Call jobId token A p Q)
    (hk : ∀ a, Call jobId token (Q a) (k a) R) : Call jobId token A (p >>= k) R :=
  Program.Triple.bind hp hk

theorem Call.ret {a : α} (h : ∀ w, A w → Q a w) : Call jobId token A (.ret a : Activity α) Q :=
  Program.Triple.ret h

theorem Call.raise {x : Exc} (h : ∀ w, A w → Exclusive jobId token w) :
    Call jobId token A (.raise x : Activity α) Q :=
  Program.Triple.raise h

theorem Call.pre {A' : World → Prop} {p : Activity α} (hp : Call jobId token A p Q)
    (hA : ∀ w, A' w → A w) : Call jobId token A' p Q :=
  Program.Triple.pre hp hA

/-- What keeps a steady assertion is a part of a call. -/
theorem Keeps.call {p : Activity α} (hp : Keeps (Undisturbed jobId token) jobId token K p)
    (hK : Steady (Undisturbed jobId token) jobId token K) :
    Call jobId token K p (fun _ => K) :=
  Program.Triple.consequence hp (fun _ h => h) (fun _ _ h => h) (fun _ w h => hK.exclusive w h)

/-- A transaction under the claim. -/
theorem Call.atomically {t : Transaction α} (hK : Steady (Undisturbed jobId token) jobId token K)
    (ht : ∀ e w a w', K w → t e w = .ok (a, w') → Conduct jobId token w w' ∧ Q a w') :
    Call jobId token K (Program.atomically t) Q :=
  Program.Triple.atomically hK.rely ht fun _ w _ hw _ => ⟨.refl w, hK.exclusive w hw⟩

/-- What a call reads, it knows of the state it reads it from. -/
theorem Call.read {f : World → α} (hK : Steady (Undisturbed jobId token) jobId token K)
    (hf : ∀ w, K w → Q (f w) w) :
    Call jobId token K (Program.atomically (Tx.read f)) Q := by
  refine Call.atomically hK ?_
  intro e w a w' hw h
  obtain ⟨rfl, rfl⟩ := Tx.read_eq_ok.1 h
  exact ⟨.refl w, hf w hw⟩

/-- What the outcome of a call promises: a result is one of the bound execution, which has
completed. -/
def OutcomeHolds (jobId token : String) (mode : ContinuationMode) :
    ProcessingOutcome → World → Prop
  | .completed _ executionId, w => Claimed jobId token (some executionId) mode Done w
  | _, _ => True

/-- Completing the bound execution, and returning its result. -/
theorem call_complete {result : String} (P : WorkflowExecutionRow → Prop) :
    Call jobId token (Claimed jobId token (some executionId) mode P)
      (do
        Program.atomically (completeExecutionTx jobId executionId token)
        return .completed result executionId)
      (OutcomeHolds jobId token mode) := by
  refine Call.bind (Call.atomically Claimed.steady ?_) (fun _ => Call.ret fun w hw => hw)
  intro e w u w' hw h
  exact completeExecutionTx_conduct hw h

/-- Failing the bound execution. -/
theorem call_fail (P : WorkflowExecutionRow → Prop) :
    Call jobId token (Claimed jobId token (some executionId) mode P)
      (Program.atomically (failExecutionTx jobId executionId token))
      (fun _ => Exclusive jobId token) := by
  refine Call.atomically Claimed.steady ?_
  intro e w u w' hw h
  have hconduct := failExecutionTx_conduct h
  exact ⟨hconduct, hconduct.exclusive hw.exclusive⟩

theorem call_getState (P : WorkflowExecutionRow → Prop) :
    Call jobId token (Claimed jobId token active mode P) (getState executionId)
      (fun _ => Claimed jobId token active mode P) :=
  (keeps_read Claimed.steady _).call Claimed.steady

theorem call_invokeGraph {ctx : GraphContext} (P : WorkflowExecutionRow → Prop)
    (input : Option GraphState) :
    Call ctx.jobId ctx.claimToken (Claimed ctx.jobId ctx.claimToken active mode P)
      (invokeGraph ctx input) (fun _ => Claimed ctx.jobId ctx.claimToken active mode P) :=
  (keeps_invokeGraph Claimed.steady input).call Claimed.steady

/-- After the graph: the pause, the failure, or the result. -/
theorem call_handlePostInvoke {ctx : GraphContext} (hmode : mode ≠ .reviewComplete)
    (finalState : GraphState) :
    Call ctx.jobId ctx.claimToken (Claimed ctx.jobId ctx.claimToken (some ctx.executionId) mode Present)
      (handlePostInvoke ctx finalState) (OutcomeHolds ctx.jobId ctx.claimToken mode) := by
  refine Call.bind (call_getState Present) ?_
  intro snapshot
  cases snapshot.bind Checkpoint.next with
  | some next =>
      dsimp only
      split
      · refine Call.bind (Call.atomically (Q := fun _ _ => True) Claimed.steady ?_) ?_
        · intro e w u w' hw h
          exact ⟨recordAwaitReview_conduct hmode hw h, trivial⟩
        · exact fun _ => Call.ret fun _ _ => trivial
      · exact Call.bind (call_fail Present) fun _ => Call.raise fun _ hw => hw
  | none =>
      dsimp only
      split
      · exact Call.raise fun _ hw => hw.exclusive
      · exact call_complete Present

/-- The continuation of a review. -/
theorem call_invokeReviewComplete {ctx : GraphContext} :
    Call ctx.jobId ctx.claimToken (Claimed ctx.jobId ctx.claimToken (some ctx.executionId) mode Present)
      (invokeReviewComplete ctx) (OutcomeHolds ctx.jobId ctx.claimToken mode) := by
  refine Call.bind (call_getState Present) ?_
  intro snapshot
  split
  · exact Call.bind (call_fail Present) fun _ => Call.ret fun _ _ => trivial
  · refine Call.bind (call_invokeGraph Present none) ?_
    intro finalState
    refine Call.bind (call_getState Present) ?_
    intro snapshotAfter
    split
    · exact Call.raise fun _ hw => hw.exclusive
    · split
      · exact Call.raise fun _ hw => hw.exclusive
      · exact call_complete Present

theorem call_processBound (ctx : GraphContext) (mode : ContinuationMode) (question : String) :
    Call ctx.jobId ctx.claimToken (Claimed ctx.jobId ctx.claimToken (some ctx.executionId) mode Present)
      (processBound ctx question mode) (OutcomeHolds ctx.jobId ctx.claimToken mode) := by
  unfold processBound
  split
  · exact call_invokeReviewComplete
  · rename_i hmode
    refine Call.bind (call_getState Present) ?_
    intro snapshot
    have hrun (input : Option GraphState) :
        Call ctx.jobId ctx.claimToken
          (Claimed ctx.jobId ctx.claimToken (some ctx.executionId) mode Present)
          (invokeGraph ctx input >>= handlePostInvoke ctx)
          (OutcomeHolds ctx.jobId ctx.claimToken mode) :=
      Call.bind (call_invokeGraph Present input) (call_handlePostInvoke hmode)
    match snapshot with
    | some ⟨_, some _⟩ => exact hrun none
    | some ⟨values, none⟩ =>
        dsimp only
        split
        · exact call_complete Present
        · exact hrun _
    | none => exact hrun _

/-- The policy of an exception. -/
theorem call_handleException {settings : Settings} {abandon : Option String} {x : Exc}
    (hK : Steady (Undisturbed jobId token) jobId token K) :
    Call jobId token K (handleException settings jobId token abandon x)
      (OutcomeHolds jobId token mode) := by
  have hfail : Call jobId token K (failBoundExecution jobId token abandon) (fun _ _ => True) := by
    cases abandon with
    | none => exact Call.ret fun _ _ => trivial
    | some executionId =>
        refine Call.atomically hK ?_
        intro e w u w' _ h
        exact ⟨failExecutionTx_conduct h, trivial⟩
  unfold handleException
  split
  · exact Call.bind hfail fun _ => Call.ret fun _ _ => trivial
  · refine Call.bind ((keeps_read hK _).call hK) ?_
    rintro ⟨repairCount, jobRetryCount, evaluationAttemptCount⟩
    dsimp only
    split
    · refine Call.bind (Call.atomically (Q := fun _ _ => True) hK ?_) ?_
      · intro e w scheduled w' hw h
        exact ⟨recordRetry_conduct (hK.exclusive w hw) h, trivial⟩
      · rintro ⟨nextAt, attemptNumber⟩
        exact Call.ret fun _ _ => trivial
    · exact Call.bind hfail fun _ => Call.ret fun _ _ => trivial

/-- A binding resumes the execution of the job, or creates one. -/
theorem call_bindExecution :
    Program.Triple (Undisturbed jobId token) (Conduct jobId token)
      (Claimed jobId token active mode Present) (bindExecution jobId token mode active)
      (fun executionId => Claimed jobId token (some executionId) mode Present)
      (fun _ => Claimed jobId token active mode Present) := by
  have hcreate (hmode : mode ≠ .reviewComplete) :
      Program.Triple (Undisturbed jobId token) (Conduct jobId token)
        (Claimed jobId token active mode Present)
        (Program.atomically (createAndBind jobId token))
        (fun executionId => Claimed jobId token (some executionId) mode Present)
        (fun _ => Claimed jobId token active mode Present) := by
    refine Program.Triple.atomically Claimed.steady.rely ?_ fun e w x hw _ => ⟨.refl w, hw⟩
    intro e w executionId w' hw h
    exact createAndBind_conduct hmode hw h
  cases mode with
  | reviewComplete =>
      cases active with
      | none => exact Program.Triple.raise fun w hw => hw
      | some executionId =>
          refine Program.Triple.bind (keeps_read Claimed.steady _) ?_
          intro status
          split
          · exact Program.Triple.ret fun w hw => hw
          · exact Program.Triple.raise fun w hw => hw
  | jobRetry => exact hcreate nofun
  | none =>
      cases active with
      | none => exact hcreate nofun
      | some executionId =>
          refine Program.Triple.bind (keeps_read Claimed.steady _) ?_
          intro status
          split
          · exact Program.Triple.ret fun w hw => hw
          · exact hcreate nofun

/-- Binding, the graph, and what an exception makes of it. -/
theorem call_processUnfinished {settings : Settings} {claimed : ClaimedResearchJob}
    (profile : String) (hjob : claimed.job.id = jobId) (htoken : claimed.claimToken = token)
    (hmode : claimed.continuationMode = mode) :
    Call jobId token (Claimed jobId token active mode Present)
      (processUnfinished settings claimed profile active) (OutcomeHolds jobId token mode) := by
  subst hjob htoken hmode
  refine Call.bind (Program.Triple.answered call_bindExecution) ?_
  intro r
  cases r with
  | error x =>
      change Call claimed.job.id claimed.claimToken (Claimed claimed.job.id claimed.claimToken
        active claimed.continuationMode Present) _ _
      dsimp only
      unfold exceptClauses
      split
      · exact Call.raise fun w hw => hw.exclusive
      · exact call_handleException Claimed.steady
  | ok executionId =>
      let ctx : GraphContext :=
        { settings := settings, jobId := claimed.job.id, executionId := executionId
          claimToken := claimed.claimToken, evaluationProfile := profile }
      have hbody := call_processBound ctx claimed.continuationMode claimed.job.question
      refine Program.Triple.tryCatch hbody ?_
      intro x
      change Call claimed.job.id claimed.claimToken _ _ _
      unfold exceptClauses
      split
      · exact Call.raise fun w hw => hw
      · exact call_handleException Exclusive.steady

/-- The execution of the job that has completed already. -/
theorem call_completedShortCircuit (claimed : ClaimedResearchJob) :
    Call jobId token (Claimed jobId token active mode Present)
      (completedShortCircuit claimed active)
      (fun short w => Claimed jobId token active mode Present w ∧
        ∀ outcome, short = some outcome → OutcomeHolds jobId token mode outcome w) := by
  have hnone {K : World → Prop} {w : World} (hw : K w) :
      K w ∧ ∀ outcome, none = some outcome → OutcomeHolds jobId token mode outcome w :=
    ⟨hw, nofun⟩
  unfold completedShortCircuit
  split
  · rename_i executionId hcontinuation
    refine Call.bind (Q := fun execution => Claimed jobId token (some executionId) mode
      (fun row => execution = some row)) ?_ ?_
    · refine Call.read Claimed.steady fun w hw => ?_
      exact hw.learn fun execution hlookup => hlookup
    · intro execution
      split
      · rename_i hcompleted
        refine Call.bind (call_getState _) ?_
        intro snapshot
        match snapshot with
        | some ⟨values, none⟩ =>
            dsimp only
            split
            · refine Call.ret fun w hw => ⟨hw.imp fun _ _ => trivial, ?_⟩
              rintro _ ⟨⟩
              refine hw.imp ?_
              rintro row rfl
              simp only [Option.any_some, Bool.and_eq_true, decide_eq_true_eq] at hcompleted
              exact hcompleted.2
            · exact Call.ret fun w hw => hnone (hw.imp fun _ _ => trivial)
        | some ⟨_, some _⟩ => exact Call.ret fun w hw => hnone (hw.imp fun _ _ => trivial)
        | none => exact Call.ret fun w hw => hnone (hw.imp fun _ _ => trivial)
      · exact Call.ret fun w hw => hnone (hw.imp fun _ _ => trivial)
  · exact Call.ret fun w hw => hnone hw

/-- What is known after a call has read its job. -/
def ReadJob (jobId token : String) (mode : ContinuationMode)
    (read : Option String × Option ProcessingOutcome) (w : World) : Prop :=
  Claimed jobId token read.1 mode Present w ∧
    ∀ outcome, read.2 = some outcome → OutcomeHolds jobId token mode outcome w

/-- As long as the job runs under the claim, it is bound as it was claimed and has no result; when
it does not, nothing is promised. -/
theorem readJob_holds {claimed : ClaimedResearchJob} (hjob : claimed.job.id = jobId)
    (hw : Claimed jobId token claimed.activeWorkflowExecutionId mode Present w) :
    ReadJob jobId token mode (readJob claimed w) w := by
  subst hjob
  by_cases howned : ∃ row, Owned claimed.job.id token w row
  · obtain ⟨row, hrow⟩ := howned
    obtain ⟨hactive, -, -⟩ := hw.bound row hrow
    constructor
    · have heq : (readJob claimed w).1 = claimed.activeWorkflowExecutionId := by
        rw [readJob, hrow.1, Option.bind_some, hactive]
        cases claimed.activeWorkflowExecutionId <;> rfl
      rw [heq]
      exact hw
    · -- a job that runs has not completed
      intro outcome hreplay
      simp only [readJob, hrow.1, Option.bind_some, completedReplay] at hreplay
      split at hreplay
      · simp [hrow.2.1] at hreplay
      · cases hreplay
  · have hnot : ∀ row, ¬ Owned claimed.job.id token w row :=
      fun row hrow => howned ⟨row, hrow⟩
    refine ⟨.of_not_owned hw.exclusive hnot, ?_⟩
    intro outcome _
    cases outcome with
    | completed result executionId => exact .of_not_owned hw.exclusive hnot
    | pausedForReview _ | retryScheduled _ _ _ | terminalFailed _ _ => exact trivial

theorem call_processOpen (settings : Settings) {claimed : ClaimedResearchJob}
    (hjob : claimed.job.id = jobId) (htoken : claimed.claimToken = token)
    (hmode : claimed.continuationMode = mode) :
    Call jobId token (Claimed jobId token active mode Present)
      (processOpen settings claimed active) (OutcomeHolds jobId token mode) := by
  refine Call.bind (Q := fun _ => Claimed jobId token active mode Present) ?_ ?_
  · refine Keeps.call ?_ Claimed.steady
    refine keeps_bind (keeps_read Claimed.steady _) fun _ => ?_
    exact keeps_bind (keeps_lift _) fun _ => keeps_ret _
  · intro profile
    refine Call.bind (call_completedShortCircuit claimed) ?_
    intro short
    cases short with
    | some outcome => exact Call.ret fun w hw => hw.2 outcome rfl
    | none =>
        exact Call.pre (call_processUnfinished profile hjob htoken hmode) fun w hw => hw.1

/-- **A call of the processor keeps to its claim.** -/
theorem process_conduct (settings : Settings) (claimed : ClaimedResearchJob) :
    Call claimed.job.id claimed.claimToken
      (Claimed claimed.job.id claimed.claimToken claimed.activeWorkflowExecutionId
        claimed.continuationMode Present)
      (process settings claimed)
      (OutcomeHolds claimed.job.id claimed.claimToken claimed.continuationMode) := by
  unfold process
  -- whether the token has the right form does not matter here
  generalize fingerprintJobClaimToken settings.sha256 claimed.claimToken = fingerprint
  refine Call.bind (Q := fun _ => Claimed claimed.job.id claimed.claimToken
    claimed.activeWorkflowExecutionId claimed.continuationMode
    Present) ?_ ?_
  · refine Keeps.call ?_ Claimed.steady
    exact keeps_lift _
  intro _
  refine Call.bind (Q := ReadJob claimed.job.id claimed.claimToken claimed.continuationMode) ?_ ?_
  · exact Call.read Claimed.steady fun w hw => readJob_holds rfl hw
  · rintro ⟨active, replay⟩
    cases replay with
    | some outcome => exact Call.ret fun w hw => hw.2 outcome rfl
    | none => exact Call.pre (call_processOpen settings rfl rfl rfl) fun w hw => hw.1

/-! ### The worker -/

/-- The row a failed job is left in. -/
theorem finalizeFailure_released {reason : String} {time : Instant} {row' : ResearchJobRow}
    (h : finalizeFailure (w.jobs.lookup jobId) token reason time = .ok (some row')) :
    ∃ row, Owned jobId token w row ∧ Released row row' .failed ∧
      row'.activeWorkflowExecutionId = none := by
  obtain ⟨row, hrow, howns, row₁, htransition, -, rfl⟩ := finalizeFailure_eq_some.1 h
  obtain ⟨hstatus, job, hid, rfl⟩ := transition_status .failed
    (fun _ _ hop => by
      obtain ⟨-, _, _, -, -, rfl⟩ := ResearchJob.fail_eq_ok.1 hop
      rfl) htransition
  exact ⟨row, Owned.of_owns hrow howns, ⟨hid, hstatus, rfl⟩, rfl⟩

theorem finalizeFailureTx_conduct {reason reasonClass : String} {owned : Bool}
    (h : finalizeFailureTx jobId token reason reasonClass e w = .ok (owned, w')) :
    Conduct jobId token w w' := by
  rcases finalizeFailureTx_eq_ok h with ⟨row', event, outbox, -, hrow', -, -, -, rfl⟩ | ⟨-, rfl⟩
  · obtain ⟨row, howned, hreleased, hinactive⟩ := finalizeFailure_released hrow'
    refine ⟨.of_insert rfl rfl rfl, ?_⟩
    exact .failed row row' howned (AList.lookup_insert _) hreleased hinactive rfl
  · exact .refl _

/-- The row a completed job is left in. -/
theorem finalizeCompletion_released {result : String} {time : Instant} {row' : ResearchJobRow}
    (h : finalizeCompletion (w.jobs.lookup jobId) token result time = .ok (some row')) :
    ∃ row, Owned jobId token w row ∧ Released row row' .completed ∧
      row'.activeWorkflowExecutionId = none := by
  obtain ⟨row, hrow, howns, row₁, htransition, -, rfl⟩ := finalizeCompletion_eq_some.1 h
  obtain ⟨hstatus, job, hid, rfl⟩ := transition_status .completed
    (fun _ _ hop => by
      obtain ⟨-, _, _, -, -, rfl⟩ := ResearchJob.complete_eq_ok.1 hop
      rfl) htransition
  exact ⟨row, Owned.of_owns hrow howns, ⟨hid, hstatus, rfl⟩, rfl⟩

/-- Completing the job, with a result of its bound execution. -/
theorem finalizeCompletionTx_conduct {result executionId : String} {owned : Bool}
    (hw : Claimed jobId token (some executionId) mode Done w)
    (h : finalizeCompletionTx jobId token result e w = .ok (owned, w')) :
    Conduct jobId token w w' := by
  rcases finalizeCompletionTx_eq_ok h with ⟨row', event, outbox, -, hrow', -, -, -, rfl⟩ | ⟨-, rfl⟩
  · obtain ⟨row, howned, hreleased, hinactive⟩ := finalizeCompletion_released hrow'
    obtain ⟨hactive, -, hbound⟩ := hw.bound row howned
    obtain ⟨execution, hexecution, -, hdone⟩ := hbound executionId rfl
    refine ⟨.of_insert rfl rfl rfl, ?_⟩
    exact .completed row row' executionId execution howned hactive hexecution hdone
      (AList.lookup_insert _) hreleased hinactive rfl
  · exact .refl _

/-- What is known of the outcome of a call when the worker turns to it. -/
def Settles (jobId token : String) (mode : ContinuationMode) :
    Except Exc ProcessingOutcome → World → Prop
  | .ok outcome => OutcomeHolds jobId token mode outcome
  | .error _ => fun _ => True

/-- An act of the worker alone, in a state of which nothing is known. -/
theorem failClaimed_complies (claimed : ClaimedResearchJob) (reason reasonClass : String) :
    Program.Triple (Undisturbed claimed.job.id claimed.claimToken)
      (Conduct claimed.job.id claimed.claimToken) (fun _ => True)
      (failClaimed claimed reason reasonClass) (fun _ _ => True) (fun _ _ => True) := by
  refine Program.Triple.bind (Q := fun _ _ => True) ?_ fun _ => Program.Triple.ret fun _ _ => trivial
  refine Program.Triple.atomically (fun _ _ _ h => h) ?_ fun e w x _ _ => ⟨.refl w, trivial⟩
  intro e w owned w' _ h
  exact ⟨finalizeFailureTx_conduct h, trivial⟩

/-- **What the worker does with the outcome of a call keeps to the claim.** -/
theorem settle_conduct (claimed : ClaimedResearchJob) (outcome : Except Exc ProcessingOutcome) :
    Program.Triple (Undisturbed claimed.job.id claimed.claimToken)
      (Conduct claimed.job.id claimed.claimToken)
      (Settles claimed.job.id claimed.claimToken claimed.continuationMode outcome)
      (settle claimed outcome) (fun _ _ => True) (fun _ _ => True) := by
  have hfail (reason reasonClass : String) {A : World → Prop} :
      Program.Triple (Undisturbed claimed.job.id claimed.claimToken)
        (Conduct claimed.job.id claimed.claimToken) A (failClaimed claimed reason reasonClass)
        (fun _ _ => True) (fun _ _ => True) :=
    (failClaimed_complies claimed reason reasonClass).pre fun _ _ => trivial
  unfold settle
  split
  · refine Program.Triple.bind (Q := fun _ _ => True) ?_ fun _ =>
      Program.Triple.ret fun _ _ => trivial
    refine Program.Triple.atomically Claimed.steady.rely ?_ fun e w x _ _ => ⟨.refl w, trivial⟩
    intro e w owned w' hw h
    exact ⟨finalizeCompletionTx_conduct hw h, trivial⟩
  · exact hfail _ _
  · exact Program.Triple.ret fun _ _ => trivial
  · exact Program.Triple.ret fun _ _ => trivial
  · exact hfail _ _
  · exact Program.Triple.ret fun _ _ => trivial
  · exact hfail _ _

end Calls

end Atlas
