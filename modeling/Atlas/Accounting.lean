/-
**The counters of a job and its books.**

A job row counts its repairs and its retries.  Both are also in the books: the decisions of the
policy to repair and to retry; and each retry is announced by an event besides.  The counters are
written in the same transactions as the books, from a row that is read under its lock, so that they
agree in every reachable state.  (The evaluation attempts are counted from an unlocked read, and may
fall behind.)  The bounds are the `CHECK` constraints of the row: neither `schedule_retry` nor
`record_policy_decision` has one of its own.

Main definitions:

* `Atlas.World.counted`, `Atlas.World.books` — what the row of a job has counted, and what the books
  hold;
* `Atlas.Enters` — a step adds to the counters what it adds to the books;
* `Atlas.Balanced` — the counters are what the books hold;
* `Atlas.Retried`, `Atlas.NotRetried` — a step schedules a retry, with all that belongs to it, or
  does nothing of it.

Main results:

* `Atlas.enters_of_change` — **every step enters what it counts**;
* `Atlas.repair_accounting` — **the repairs of a job are counted twice alike**;
* `Atlas.retry_accounting` — **the retries of a job are counted three times alike**;
* `Atlas.retries_of_change` — **a step retries a job, or does nothing of it**;
* `Atlas.retries_accounted` — every retry is accounted for, and can be announced.
-/

import Atlas.JobHistory
import Atlas.SystemConduct
import Mathlib.Algebra.Group.Prod

set_option relaxedAutoImplicit false
set_option autoImplicit false

namespace Atlas

/-! ### Books -/

/-- What a decision adds to the counters of its job. -/
def PolicyAction.entry : PolicyAction → ℕ × ℕ
  | .repair => (1, 0)
  | .retry => (0, 1)
  | .complete | .awaitReview | .terminal => 0

namespace World

/-- What the row of a job has counted: its repairs and its retries. -/
def counted (w : World) (jobId : String) : ℕ × ℕ :=
  match w.jobs.lookup jobId with
  | none => 0
  | some row => (row.repairCount, row.jobRetryCount)

/-- The decisions of a job with the action. -/
def decided (w : World) (jobId : String) (action : PolicyAction) : ℕ :=
  (w.decisionsOf jobId).countP (·.decision = action)

/-- What the books of a job hold: its repairs and its retries. -/
def books (w : World) (jobId : String) : ℕ × ℕ := (w.decided jobId .repair, w.decided jobId .retry)

end World

/-- A step adds to the counters of each job what it adds to its books. -/
structure Enters (entry : String → ℕ × ℕ) (w w' : World) : Prop where
  counted : ∀ jobId, w'.counted jobId = w.counted jobId + entry jobId
  books : ∀ jobId, w'.books jobId = w.books jobId + entry jobId

/-- The counters are what the books hold. -/
def Balanced (w : World) : Prop := ∀ jobId, w.counted jobId = w.books jobId

theorem Balanced.enters {entry : String → ℕ × ℕ} {w w' : World} (hw : Balanced w)
    (h : Enters entry w w') : Balanced w' := by
  intro jobId
  rw [h.counted, h.books, hw]

section Entries

variable {w w' : World} {jobId : String} {row row' : ResearchJobRow}

/-- The entry of one job. -/
def entryOf (jobId : String) (entry : ℕ × ℕ) : String → ℕ × ℕ :=
  fun other => if other = jobId then entry else 0

@[simp] theorem entryOf_zero (jobId other : String) : entryOf jobId 0 other = 0 := by
  simp [entryOf]

/-! ### What is counted -/

theorem counted_of_row (hrow : w.jobs.lookup jobId = some row) :
    w.counted jobId = (row.repairCount, row.jobRetryCount) := by
  rw [World.counted, hrow]

theorem counted_of_jobs (h : w'.jobs = w.jobs) (other : String) :
    w'.counted other = w.counted other := by
  rw [World.counted, World.counted, h]

theorem counted_of_insert {entry : ℕ × ℕ} (hrow : w.jobs.lookup jobId = some row)
    (hjobs : w'.jobs = w.jobs.insert jobId row')
    (hcounted : (row'.repairCount, row'.jobRetryCount)
      = (row.repairCount, row.jobRetryCount) + entry)
    (other : String) : w'.counted other = w.counted other + entryOf jobId entry other := by
  rw [World.counted, World.counted, hjobs, Table.lookup_insert_eq, entryOf]
  by_cases heq : other = jobId
  · rw [if_pos heq, if_pos heq, heq, hrow]
    exact hcounted
  · rw [if_neg heq, if_neg heq, add_zero]

/-! ### What is booked -/

theorem books_of_eq (hdecisions : w'.policyDecisions = w.policyDecisions) (other : String) :
    w'.books other = w.books other := by
  simp only [World.books, World.decided, World.decisionsOf, hdecisions]

/-- A decision is entered for its job. -/
theorem books_of_decision {decision : PolicyDecisionRow}
    (hdecisions : w'.policyDecisions = w.policyDecisions ++ [decision]) (other : String) :
    w'.books other
      = w.books other + entryOf decision.researchJobId decision.decision.entry other := by
  simp only [World.books, World.decided, World.decisionsOf, hdecisions, List.filter_append,
    List.countP_append, entryOf]
  by_cases hjob : decision.researchJobId = other
  · cases haction : decision.decision <;> simp [hjob, haction, PolicyAction.entry]
  · simp [hjob, Ne.symm hjob]

/-! ### Every step -/

/-- Nothing is counted, and nothing is booked. -/
theorem enters_nothing (hcounted : ∀ other, w'.counted other = w.counted other)
    (hbooks : ∀ other, w'.books other = w.books other) : ∃ entry, Enters entry w w' := by
  refine ⟨fun _ => 0, fun other => ?_, fun other => ?_⟩
  · rw [hcounted, add_zero]
  · rw [hbooks, add_zero]

/-- A row is written that counts as before. -/
theorem enters_written (hrow : w.jobs.lookup jobId = some row)
    (hjobs : w'.jobs = w.jobs.insert jobId row')
    (hcounted : (row'.repairCount, row'.jobRetryCount) = (row.repairCount, row.jobRetryCount))
    (hbooks : ∀ other, w'.books other = w.books other) : ∃ entry, Enters entry w w' := by
  refine enters_nothing (fun other => ?_) hbooks
  have hzero : (row'.repairCount, row'.jobRetryCount)
      = (row.repairCount, row.jobRetryCount) + 0 := by
    rw [hcounted, add_zero]
  have h := counted_of_insert hrow hjobs hzero other
  rwa [entryOf_zero, add_zero] at h

/-- What counts alike, repairs and retries alike. -/
theorem counted_of_attemptCounts
    (h : getAttemptCounts (some row') = getAttemptCounts (some row)) :
    (row'.repairCount, row'.jobRetryCount) = (row.repairCount, row.jobRetryCount) :=
  congrArg (fun counts => (counts.1, counts.2.1)) h

/-- **What a worker counts it enters.** -/
theorem WorkerEffect.enters {target token : String} (h : WorkerEffect target token w w') :
    ∃ entry, Enters entry w w' := by
  cases h with
  | aside h => exact enters_nothing (counted_of_jobs h.jobs) (books_of_eq h.policyDecisions)
  | decided decision hrepair hretry h =>
      have hdecisions : w'.policyDecisions = w.policyDecisions ++ [decision] := by rw [h]
      have hentry : decision.decision.entry = 0 := by
        cases haction : decision.decision with
        | repair => exact absurd haction hrepair
        | retry => exact absurd haction hretry
        | complete | awaitReview | terminal => rfl
      refine enters_nothing (counted_of_jobs (by rw [h])) fun other => ?_
      rw [books_of_decision hdecisions, hentry, entryOf_zero, add_zero]
  | repaired row row' decision hwrite hrow hjob hrepair h =>
      have hdecisions : w'.policyDecisions = w.policyDecisions ++ [decision] := by rw [h]
      have hjobs : w'.jobs = w.jobs.insert target row' := by rw [h]
      refine ⟨entryOf target (1, 0), ?_, fun other => ?_⟩
      · subst hrow
        exact counted_of_insert hwrite.owned.1 hjobs rfl
      · rw [books_of_decision hdecisions, hjob, hrepair]
        rfl
  | reran run run' hlookup h hid hkey hjob =>
      exact enters_nothing (counted_of_jobs (by rw [h])) (books_of_eq (by rw [h]))
  | evaluated target row row' run hrecounted hnew hplace h =>
      have hjobs : w'.jobs = w.jobs.insert target row' := by rw [h]
      obtain ⟨count, hcolumns⟩ := hrecounted.columns
      refine enters_written hrecounted.lookup hjobs ?_ (books_of_eq (by rw [h]))
      rw [hcolumns]
  | closed row executionId execution target time howned hactive hlookup hrunning hjob htarget h =>
      exact enters_nothing (counted_of_jobs (by rw [h])) (books_of_eq (by rw [h]))
  | created row row' executionId execution time hwrite hrow huuid hnew hjob hrunning h =>
      have hjobs : w'.jobs = w.jobs.insert target row' := by rw [h]
      subst hrow
      exact enters_written hwrite.owned.1 hjobs rfl (books_of_eq (by rw [h]))
  | paused row row' decision event outbox hwrite hstatus hactive hcounts hdecision htype hrows h =>
      have hdecisions : w'.policyDecisions = w.policyDecisions ++ [decision] := by rw [h]
      have hjobs : w'.jobs = w.jobs.insert target row' := by rw [h]
      refine enters_written hwrite.owned.1 hjobs (counted_of_attemptCounts hcounts) fun other => ?_
      have hentry : PolicyAction.awaitReview.entry = 0 := rfl
      rw [books_of_decision hdecisions, hdecision, hentry, entryOf_zero, add_zero]
  | retried row row' decision event outbox executions attempts abandon count next time hwrite
      hstatus hmode hactive hretries hrepairs hevaluations hjob hretry hexecution haggregate
      hpayload hrows habandon h =>
      have hdecisions : w'.policyDecisions = w.policyDecisions ++ [decision] := by rw [h]
      have hjobs : w'.jobs = w.jobs.insert target row' := by rw [h]
      refine ⟨entryOf target (0, 1), counted_of_insert hwrite.owned.1 hjobs ?_, fun other => ?_⟩
      · rw [hretries, hrepairs]
        rfl
      · rw [books_of_decision hdecisions, hjob, hretry]
        rfl
  | ended row row' event outbox hwrite hstatus hactive hcounts htype hrows h =>
      have hjobs : w'.jobs = w.jobs.insert target row' := by rw [h]
      exact enters_written hwrite.owned.1 hjobs (counted_of_attemptCounts hcounts)
        (books_of_eq (by rw [h]))

/-- A review counts nothing. -/
theorem Reviewed.enters {request : ReviewRequest} {fingerprint : String} {answer : String × Bool}
    (h : Reviewed request fingerprint answer w w') : ∃ entry, Enters entry w w' := by
  cases h with
  | replayed decision hfound hsame hanswer h =>
      subst h
      exact enters_nothing (fun _ => rfl) fun _ => rfl
  | approved row row' executionId now decision hverdict hrecords hrow hstatus hactive happrove h =>
      subst h
      obtain ⟨_, hsome, -, row₁, htransition, hflush⟩ := approveReviewToPending_eq_some.1 happrove
      cases hsome
      obtain ⟨-, -, rfl⟩ := flushBinding_eq_ok.1 hflush
      exact enters_written hrow rfl
        (counted_of_attemptCounts (transition_sameColumns htransition).counts) fun _ => rfl
  | rejected row row' executionId now executions decision hverdict hrecords hrow hstatus hactive
      hfail hreject h =>
      subst h
      obtain ⟨_, hsome, -, row₁, htransition, -, rfl⟩ := failFromReview_eq_some.1 hreject
      cases hsome
      exact enters_written hrow rfl
        (counted_of_attemptCounts (transition_sameColumns htransition).counts) fun _ => rfl

/-- **Every step enters what it counts.** -/
theorem enters_of_change {issued issued' : List String} (h : WorldChange issued issued' w w') :
    ∃ entry, Enters entry w w' := by
  cases h with
  | worked target token heffect => exact heffect.enters
  | submitted key fingerprint row event hsubmitted =>
      obtain ⟨outbox, -, hworld⟩ := hsubmitted.world
      refine enters_nothing (fun other => ?_) (books_of_eq (by rw [hworld]))
      rw [World.counted, World.counted, hsubmitted.lookup_eq]
      by_cases heq : other = row.id
      · rw [if_pos heq, heq, hsubmitted.new]
        exact congrArg (fun counts => (counts.1, counts.2.1)) hsubmitted.fresh.counts
      · rw [if_neg heq]
  | claimed target token profile lease row row' claimed hnew htoken hrow hfrom hclaims h =>
      subst h
      exact enters_written hrow rfl (counted_of_attemptCounts hfrom.counts) fun _ => rfl
  | reviewed request fingerprint answer hreviewed => exact hreviewed.enters
  | relayed outbox hevents h =>
      subst h
      exact enters_nothing (fun _ => rfl) fun _ => rfl

end Entries

/-! ### A retry, all of it or nothing -/

section Retries

variable {w w' : World} {jobId target token : String} {row row' : ResearchJobRow}
  {issued issued' : List String}

/-- All of a retry: the running job is to be claimed again, unbound and counted, with the decision,
the event, and the end of the execution that is given up. -/
structure Retried (jobId : String) (row row' : ResearchJobRow) (decision : PolicyDecisionRow)
    (event : OutboxRow) (w w' : World) : Prop where
  lookup : w.jobs.lookup jobId = some row
  running : row.status = .running
  lookup' : w'.jobs.lookup jobId = some row'
  pending : row'.status = .pending ∧ row'.continuationMode = .jobRetry ∧
    row'.activeWorkflowExecutionId = none
  counted : row'.jobRetryCount = row.jobRetryCount + 1
  decisions : w'.policyDecisions = w.policyDecisions ++ [decision]
  decided : decision.researchJobId = jobId ∧ decision.decision = .retry
  events : w'.outbox.rows = w.outbox.rows ++ [event]
  announced : event.event.aggregateId = jobId ∧ event.event.type = .retryScheduled
  abandoned : ∀ executionId, decision.workflowExecutionId = some executionId →
    row.activeWorkflowExecutionId = some executionId ∧
      ∃ execution execution', w.executions.lookup executionId = some execution ∧
        execution.status = .running ∧ w'.executions.lookup executionId = some execution' ∧
        execution'.status = .abandoned

/-- Nothing of it in the queue: no retry is counted, a running job is not to be claimed again, and
its bound execution is not abandoned, unless it is bound to a new one. -/
structure Unscheduled (jobId : String) (w w' : World) : Prop where
  counted : (w'.counted jobId).2 = (w.counted jobId).2
  status : ∀ row row', w.jobs.lookup jobId = some row → row.status = .running →
    w'.jobs.lookup jobId = some row' → row'.status ≠ .pending
  abandoned : ∀ row executionId execution execution', w.jobs.lookup jobId = some row →
    row.activeWorkflowExecutionId = some executionId →
    w.executions.lookup executionId = some execution → execution.status = .running →
    w'.executions.lookup executionId = some execution' → execution'.status = .abandoned →
      ∃ row' created, w'.jobs.lookup jobId = some row' ∧
        row'.activeWorkflowExecutionId = some created ∧ w.executions.lookup created = none

/-- Nothing of a retry: neither in the queue, nor in the books. -/
structure NotRetried (jobId : String) (w w' : World) : Prop extends Unscheduled jobId w w' where
  decided : w'.decided jobId .retry = w.decided jobId .retry
  announced : (w'.journalOf jobId).count .retryScheduled
    = (w.journalOf jobId).count .retryScheduled

/-- No running execution is abandoned. -/
def NoneAbandoned (executions executions' : Executions) : Prop :=
  ∀ executionId execution execution', executions.lookup executionId = some execution →
    execution.status = .running → executions'.lookup executionId = some execution' →
      execution'.status ≠ .abandoned

theorem NoneAbandoned.refl (executions : Executions) : NoneAbandoned executions executions := by
  intro executionId execution execution' hlookup hrunning hlookup'
  obtain rfl := Option.some.inj (hlookup.symm.trans hlookup')
  rw [hrunning]
  decide

theorem NoneAbandoned.of_eq {executions executions' : Executions} (h : executions' = executions) :
    NoneAbandoned executions executions' :=
  h ▸ .refl executions

theorem NoneAbandoned.insert {executions : Executions} {executionId : String}
    {execution : WorkflowExecutionRow} (h : execution.status ≠ .abandoned) :
    NoneAbandoned executions (executions.insert executionId execution) := by
  intro other before after hbefore hrunning hafter
  rw [Table.lookup_insert_eq] at hafter
  split at hafter
  · cases hafter
    exact h
  · exact NoneAbandoned.refl executions other before after hbefore hrunning hafter

/-- Failing an execution abandons none. -/
theorem noneAbandoned_failExecution {executions executions' : Executions} {executionId : String}
    {time : Instant} {updated : Bool}
    (h : failExecution executions executionId time = .ok (updated, executions')) :
    NoneAbandoned executions executions' := by
  rcases closeRunning_eq_ok.1 h with ⟨execution, -, -, -, -, -, rfl⟩ | ⟨-, -, rfl⟩
  · exact .insert ExecutionStatus.noConfusion
  · exact .refl executions

theorem Unscheduled.of_jobs (hjobs : w'.jobs = w.jobs)
    (hexecutions : NoneAbandoned w.executions w'.executions) : Unscheduled jobId w w' where
  counted := by rw [counted_of_jobs hjobs]
  status row row' hrow hrunning hrow' := by
    rw [hjobs, hrow] at hrow'
    cases hrow'
    rw [hrunning]
    decide
  abandoned row executionId execution execution' hrow hactive hlookup hrunning hlookup'
      habandoned :=
    absurd habandoned (hexecutions _ _ _ hlookup hrunning hlookup')

/-- A row is written that counts no retry, and is not sent back to the queue. -/
theorem Unscheduled.of_write (hrow : w.jobs.lookup target = some row)
    (hjobs : w'.jobs = w.jobs.insert target row')
    (hretries : row'.jobRetryCount = row.jobRetryCount)
    (hstatus : row.status = .running → row'.status ≠ .pending)
    (hexecutions : NoneAbandoned w.executions w'.executions) : Unscheduled jobId w w' where
  counted := by
    rw [World.counted, World.counted, hjobs, Table.lookup_insert_eq]
    by_cases heq : jobId = target
    · rw [if_pos heq, heq, hrow]
      exact hretries
    · rw [if_neg heq]
  status before after hbefore hrunning hafter := by
    rw [hjobs, Table.lookup_insert_eq] at hafter
    split at hafter
    · rename_i heq
      cases hafter
      rw [heq, hrow] at hbefore
      cases hbefore
      exact hstatus hrunning
    · rw [hbefore] at hafter
      cases hafter
      rw [hrunning]
      decide
  abandoned before executionId execution execution' hbefore hactive hlookup hrunning hlookup'
      habandoned :=
    absurd habandoned (hexecutions _ _ _ hlookup hrunning hlookup')

/-- Whatever is written of another job with its executions. -/
theorem Unscheduled.of_other (hne : jobId ≠ target) (hw : w.Sound issued)
    (hjobs : w'.jobs = w.jobs.insert target row')
    (hexecutions : ExecutionsChange target w.executions w'.executions) :
    Unscheduled jobId w w' := by
  have hlookup : w'.jobs.lookup jobId = w.jobs.lookup jobId := by
    rw [hjobs, Table.lookup_insert_eq, if_neg hne]
  constructor
  · rw [World.counted, World.counted, hlookup]
  · intro before after hbefore hrunning hafter
    rw [hlookup, hbefore] at hafter
    cases hafter
    rw [hrunning]
    decide
  · intro before executionId execution execution' hbefore hactive hexecution hrunning hexecution'
      habandoned
    -- the execution is of the job, and stays
    obtain ⟨bound, hbound, hjob⟩ := hw.bound jobId before executionId hbefore hactive
    obtain rfl := Option.some.inj (hexecution.symm.trans hbound)
    have hstays := (hexecutions.others executionId execution (hjob ▸ hne)).2 hexecution
    obtain rfl := Option.some.inj (hstays.symm.trans hexecution')
    rw [hrunning] at habandoned
    cases habandoned

/-- What counts alike, retries alike. -/
theorem retries_of_attemptCounts
    (h : getAttemptCounts (some row') = getAttemptCounts (some row)) :
    row'.jobRetryCount = row.jobRetryCount :=
  congrArg Prod.snd (counted_of_attemptCounts h)

/-- **A worker retries a job, or does nothing of it.** -/
theorem WorkerEffect.retries (h : WorkerEffect target token w w') (hw : w.Sound issued)
    (jobId : String) :
    (∃ row row' decision event, Retried jobId row row' decision event w w') ∨
      Unscheduled jobId w w' := by
  have hrunning {row row' : ResearchJobRow} {status : ResearchJobStatus}
      (hwritten : row'.status = status) (hne : status ≠ .pending) :
      row.status = .running → row'.status ≠ .pending := by
    intro _
    rw [hwritten]
    exact hne
  cases h with
  | aside h => exact .inr (.of_jobs h.jobs (.of_eq h.executions))
  | decided decision hrepair hretry h =>
      subst h
      exact .inr (.of_jobs rfl (.refl _))
  | repaired row row' decision hwrite hrow hjob hrepair h =>
      subst h hrow
      refine .inr (.of_write hwrite.owned.1 rfl rfl ?_ (.refl _))
      exact hrunning hwrite.owned.2.1 (by decide)
  | reran run run' hlookup h hid hkey hjob =>
      subst h
      exact .inr (.of_jobs rfl (.refl _))
  | evaluated counted row row' run hrecounted hnew hplace h =>
      subst h
      obtain ⟨count, rfl⟩ := hrecounted.columns
      refine .inr (.of_write hrecounted.lookup rfl rfl (fun hstatus => ?_) (.refl _))
      exact @hrunning row _ _ hstatus (by decide) hstatus
  | closed row executionId execution status time howned hactive hexecution hrunning hjob htarget
      h =>
      subst h
      refine .inr (.of_jobs rfl (.insert ?_))
      rcases htarget with rfl | rfl <;> exact ExecutionStatus.noConfusion
  | created row row' executionId execution time hwrite hrow huuid hnew hjob hstatus h =>
      subst h
      refine .inr ?_
      by_cases hself : jobId = target
      · subst hself hrow
        have hlookup := AList.lookup_insert (b := { row with
          activeWorkflowExecutionId := some executionId }) (a := jobId) w.jobs
        constructor
        · rw [World.counted, World.counted, hlookup, hwrite.owned.1]
        · intro before after hbefore hrunning' hafter
          obtain rfl := Option.some.inj (hlookup.symm.trans hafter)
          exact @hrunning row _ _ hwrite.owned.2.1 (by decide) hwrite.owned.2.1
        · -- the job is bound to the execution that is created
          intro _ _ _ _ _ _ _ _ _ _
          exact ⟨_, executionId, hlookup, rfl, hnew⟩
      · have habandoned : ExecutionsChange target w.executions _ := .abandoned time
        refine .of_other hself hw rfl (habandoned.trans (.insert hjob ?_))
        intro before hbefore
        rw [Table.lookup_mapRows, hnew] at hbefore
        cases hbefore
  | paused row row' decision event outbox hwrite hstatus hactive hcounts hdecision htype hrows h =>
      subst h
      exact .inr (.of_write hwrite.owned.1 rfl (retries_of_attemptCounts hcounts)
        (hrunning hstatus (by decide)) (.refl _))
  | retried row row' decision event outbox executions attempts abandon count next time hwrite
      hstatus hmode hactive hretries hrepairs hevaluations hjob hretry hexecution haggregate
      hpayload hrows habandon h =>
      subst h
      by_cases hself : jobId = target
      · subst hself
        refine .inl ⟨row, row', decision, event, hwrite.owned.1, hwrite.owned.2.1,
          AList.lookup_insert _, ⟨hstatus, hmode, hactive⟩, hretries, rfl, ⟨hjob, hretry⟩, hrows,
          ⟨haggregate, by rw [DomainEvent.type, hpayload]; rfl⟩, ?_⟩
        intro executionId hgiven
        obtain rfl := hexecution.symm.trans hgiven
        obtain ⟨hbound, execution, hlookup, hrun, -, rfl⟩ := habandon
        exact ⟨hbound, execution, _, hlookup, hrun, AList.lookup_insert _, rfl⟩
      · refine .inr (.of_other hself hw rfl ?_)
        cases abandon with
        | none =>
            subst habandon
            exact .refl _
        | some executionId =>
            obtain ⟨-, execution, hlookup, hrun, hexecutionJob, rfl⟩ := habandon
            exact .of_close _ _ hlookup hrun
              (hexecutionJob.trans (hw.key target row hwrite.owned.1))
  | ended row row' event outbox hwrite hstatus hactive hcounts htype hrows h =>
      subst h
      refine .inr (.of_write hwrite.owned.1 rfl (retries_of_attemptCounts hcounts) ?_ (.refl _))
      rcases hstatus with hstatus | hstatus <;> exact hrunning hstatus (by decide)

/-- A review retries nothing. -/
theorem Reviewed.unscheduled {request : ReviewRequest} {fingerprint : String}
    {answer : String × Bool} (h : Reviewed request fingerprint answer w w') :
    Unscheduled jobId w w' := by
  have hwaiting {row row' : ResearchJobRow} (hstatus : row.status = .awaitingReview) :
      row.status = .running → row'.status ≠ .pending := by
    rw [hstatus]
    exact fun hrunning => ResearchJobStatus.noConfusion hrunning
  cases h with
  | replayed decision hfound hsame hanswer h =>
      subst h
      exact .of_jobs rfl (.refl _)
  | approved row row' executionId now decision hverdict hrecords hrow hstatus hactive happrove h =>
      subst h
      exact .of_write hrow rfl (approveReviewToPending_columns happrove).2 (hwaiting hstatus)
        (.refl _)
  | rejected row row' executionId now executions decision hverdict hrecords hrow hstatus hactive
      hfail hreject h =>
      subst h
      exact .of_write hrow rfl (failFromReview_columns hreject).2 (hwaiting hstatus)
        (noneAbandoned_failExecution hfail)

/-- **A step retries a job, or does nothing of it.** -/
theorem retries_of_change (h : WorldChange issued issued' w w') (hw : w.Sound issued)
    (jobId : String) :
    (∃ row row' decision event, Retried jobId row row' decision event w w') ∨
      Unscheduled jobId w w' := by
  cases h with
  | worked target token heffect => exact heffect.retries hw jobId
  | submitted key fingerprint row event hsubmitted =>
      obtain ⟨outbox, -, rfl⟩ := hsubmitted.world
      refine .inr ?_
      by_cases hself : jobId = row.id
      · have hnone : w.jobs.lookup jobId = none := by rw [hself, hsubmitted.new]
        constructor
        · rw [hself, World.counted, World.counted, AList.lookup_insert, hsubmitted.new]
          exact congrArg (fun counts => counts.2.1) hsubmitted.fresh.counts
        · intro before after hbefore
          rw [hnone] at hbefore
          cases hbefore
        · intro before executionId execution execution' hbefore
          rw [hnone] at hbefore
          cases hbefore
      · exact .of_other hself hw rfl (.refl _)
  | claimed target token profile lease row row' claimed hnew htoken hrow hfrom hclaims h =>
      subst h
      refine .inr (.of_write hrow rfl (retries_of_attemptCounts hfrom.counts) ?_ (.refl _))
      intro _
      rw [hfrom.status]
      decide
  | reviewed request fingerprint answer hreviewed => exact .inr hreviewed.unscheduled
  | relayed outbox hevents h =>
      subst h
      exact .inr (.of_jobs rfl (.refl _))

/-- The event of a retry the policy asks for can be built. -/
theorem buildResearchJobRetryScheduled_ok {x : Exc} {counts : AttemptCounts}
    {abandon : Option String} {eventId : String} {next now : Instant} (hid : jobId ≠ "")
    (hdecision : (decideForException x counts).action = .retry)
    (habandon : ∀ executionId, abandon = some executionId → IsUuid executionId) :
    ∃ event, buildResearchJobRetryScheduled eventId jobId abandon (counts.jobRetryCount + 1) next
      now = .ok event := by
  have hbelow : counts.jobRetryCount < maxJobRetries := by
    rcases decideForException_action x counts with ⟨-, hbelow⟩ | hterminal
    · exact hbelow
    · rw [hterminal] at hdecision
      cases hdecision
  have hstripped : abandon.map Python.strip ≠ some "" := by
    cases abandon with
    | none => exact (Option.some_ne_none "").symm
    | some executionId =>
        obtain ⟨hclean, hne⟩ := clean_of_isUuid (habandon executionId rfl)
        rw [Option.map_some, hclean]
        exact fun h => hne (Option.some.inj h)
  rw [buildResearchJobRetryScheduled, buildEvent, dif_pos ⟨hid, hstripped, by omega, hbelow⟩]
  exact ⟨_, rfl⟩

end Retries

/-! ### Reachable states -/

section Reachable

variable {s : SystemState} {jobId : String} {row : ResearchJobRow}

/-- **In every reachable state the counters are what the books hold.** -/
theorem balanced_of_reachable (h : system.Reachable s) : Balanced s.world := by
  have hpreserved : system.Preserved fun s => system.Reachable s ∧ Balanced s.world := by
    rintro s action s' ⟨hreach, hs⟩ hstep
    obtain ⟨entry, hentry⟩ := enters_of_change (change_of_reachable hreach hstep)
    exact ⟨hreach.step hstep, hs.enters hentry⟩
  refine (h.invariant ?_ hpreserved).2
  rintro s rfl
  exact ⟨.of_init rfl, fun _ => rfl⟩

/-- **The repairs of a job are counted twice alike**, by its row and by the decisions to repair, and
they are within their bound. -/
theorem repair_accounting (h : system.Reachable s)
    (hrow : s.world.jobs.lookup jobId = some row) :
    row.repairCount = s.world.decided jobId .repair ∧ row.repairCount ≤ maxRepairs := by
  have hbalanced := balanced_of_reachable h jobId
  rw [counted_of_row hrow] at hbalanced
  have hfits := ResearchJobRow.fits_iff.1 ((systemSound_of_reachable h).world.checks jobId row hrow)
  exact ⟨congrArg Prod.fst hbalanced, hfits.repair_count⟩

/-- **The retries of a job are counted three times alike**: by its row, by the decisions to retry,
and by the events that announce them; and there are two at most. -/
theorem retry_accounting (h : system.Reachable s) (hrow : s.world.jobs.lookup jobId = some row) :
    row.jobRetryCount = s.world.decided jobId .retry ∧
      row.jobRetryCount = (s.world.journalOf jobId).count .retryScheduled ∧
      row.jobRetryCount ≤ maxJobRetries := by
  have hbalanced := balanced_of_reachable h jobId
  rw [counted_of_row hrow] at hbalanced
  have htold := told_of_journal (journal_of_reachable h jobId)
  rw [stageOf_of_row hrow] at htold
  exact ⟨congrArg Prod.snd hbalanced, htold.retries.symm, htold.bounded⟩

/-- The retries counted are those decided and those announced, of a job that is there or not. -/
theorem retries_of_reachable (h : system.Reachable s) (jobId : String) :
    s.world.decided jobId .retry = (s.world.counted jobId).2 ∧
      (s.world.journalOf jobId).count .retryScheduled = (s.world.counted jobId).2 ∧
      (s.world.counted jobId).2 ≤ maxJobRetries := by
  have htold := told_of_journal (journal_of_reachable h jobId)
  have hstage : (s.world.stageOf jobId).retries = (s.world.counted jobId).2 := by
    rw [World.stageOf, World.counted]
    cases s.world.jobs.lookup jobId <;> rfl
  rw [← hstage]
  exact ⟨(congrArg Prod.snd (balanced_of_reachable h jobId)).symm.trans hstage.symm, htold.retries,
    htold.bounded⟩

/-- **Every retry is accounted for.**  The retries a row counts are those that were decided and
those that were announced, and they are within the cap; the event of a retry that the policy asks
for can be built; and a step commits all of a retry, or nothing. -/
theorem retries_accounted (h : system.Reachable s) :
    (∀ jobId row, s.world.jobs.lookup jobId = some row →
      row.jobRetryCount = s.world.decided jobId .retry ∧
        row.jobRetryCount = (s.world.journalOf jobId).count .retryScheduled ∧
        row.jobRetryCount ≤ maxJobRetries) ∧
    (∀ jobId row x counts abandon eventId next now, s.world.jobs.lookup jobId = some row →
      (decideForException x counts).action = .retry →
      (∀ executionId, abandon = some executionId →
        (s.world.executions.lookup executionId).isSome = true) →
      ∃ event, buildResearchJobRetryScheduled eventId jobId abandon (counts.jobRetryCount + 1)
        next now = .ok event) ∧
    ∀ action s', system.step s action s' → ∀ jobId,
      (∃ row row' decision event, Retried jobId row row' decision event s.world s'.world) ∨
        NotRetried jobId s.world s'.world := by
  have hsound := (systemSound_of_reachable h).world
  refine ⟨?_, ?_, ?_⟩
  · intro jobId row hrow
    obtain ⟨hdecided, hannounced, hbounded⟩ := retries_of_reachable h jobId
    rw [counted_of_row hrow] at hdecided hannounced hbounded
    exact ⟨hdecided.symm, hannounced.symm, hbounded⟩
  · intro jobId row x counts abandon eventId next now hrow hdecision habandon
    have hid : jobId ≠ "" := hsound.key jobId row hrow ▸ (hsound.valid jobId row hrow).id_clean.2
    refine buildResearchJobRetryScheduled_ok hid hdecision fun executionId hgiven => ?_
    obtain ⟨execution, hlookup⟩ := Option.isSome_iff_exists.1 (habandon executionId hgiven)
    exact hsound.uuids executionId execution hlookup
  · intro action s' hstep jobId
    rcases retries_of_change (change_of_reachable h hstep) hsound jobId with hretried | hnone
    · exact .inl hretried
    · -- what the row did not count is not in the books either
      obtain ⟨hdecided, hannounced, -⟩ := retries_of_reachable h jobId
      obtain ⟨hdecided', hannounced', -⟩ := retries_of_reachable (h.step hstep) jobId
      refine .inr ⟨hnone, ?_, ?_⟩
      · rw [hdecided', hnone.counted, hdecided]
      · rw [hannounced', hnone.counted, hannounced]

end Reachable

/-! ### A repaired and retried job -/

/-- The graders find no structure in the report. -/
def repairEnv : Env :=
  { overlapEnv 0 with
    outside := { (overlapEnv 0).outside with
      grading := .ok (false, [⟨.reportStructure, false, .deterministic⟩]) } }

/-- The synthesizer cannot be reached. -/
def retryEnv : Env :=
  { overlapEnv 1 with
    outside := { (overlapEnv 1).outside with draft := .error (.model .temporary) } }

/-- A job is processed until its draft is repaired, and then until the synthesizer has failed. -/
def repairedActions : List SystemAction :=
  [.submit "request-1" (fun _ => repeatedToken 'f') "why?" "key-1",
    .act "request-1" submissionEnv,
    .claim overlapSettings [] 30 1000 (repeatedToken 'a') (some overlapRequest.jobId)] ++
  List.replicate 39 (.act (repeatedToken 'a') repairEnv) ++
  List.replicate 9 (.act (repeatedToken 'a') retryEnv)

/-- The act that schedules its retry. -/
def retryAction : SystemAction := .act (repeatedToken 'a') retryEnv

set_option maxRecDepth 4000 in
theorem repairedActions_replay :
    ((SystemState.replay {} repairedActions).any fun s =>
      decide (s.world.counted overlapRequest.jobId = (1, 0)) &&
        decide (s.Allows retryAction) &&
        decide ((s.apply retryAction).world.counted overlapRequest.jobId = (1, 1))) = true := by
  decide +kernel

/-- The job of the run was repaired once, and a step retries it. -/
theorem repairedJob_reachable : ∃ s s', system.Reachable s ∧ system.step s retryAction s' ∧
    s.world.counted overlapRequest.jobId = (1, 0) ∧
      s'.world.counted overlapRequest.jobId = (1, 1) := by
  obtain ⟨s, hreplay, hs⟩ := (Option.any_eq_true _ _).1 repairedActions_replay
  obtain ⟨hs, hcounted'⟩ := Bool.and_eq_true_iff.1 hs
  obtain ⟨hcounted, hallows⟩ := Bool.and_eq_true_iff.1 hs
  exact ⟨s, s.apply retryAction, ⟨{}, repairedActions, rfl, run_of_replay hreplay⟩,
    ⟨of_decide_eq_true hallows, rfl⟩, of_decide_eq_true hcounted, of_decide_eq_true hcounted'⟩

/-- The row of a job that has counted. -/
theorem row_of_counted {w : World} {jobId : String} {repairs retries : ℕ}
    (h : w.counted jobId = (repairs + 1, retries)) :
    ∃ row, w.jobs.lookup jobId = some row ∧ row.repairCount = repairs + 1 ∧
      row.jobRetryCount = retries := by
  rw [World.counted] at h
  cases hrow : w.jobs.lookup jobId with
  | none =>
      rw [hrow] at h
      cases h
  | some row =>
      rw [hrow, Prod.mk.injEq] at h
      exact ⟨row, rfl, h.1, h.2⟩

/-- One decision of the policy repaired it. -/
theorem repair_accounting_repaired : ∃ s, system.Reachable s ∧
    s.world.decided overlapRequest.jobId .repair = 1 := by
  obtain ⟨s, -, hreach, -, hcounted, -⟩ := repairedJob_reachable
  obtain ⟨row, hrow, hrepairs, -⟩ := row_of_counted hcounted
  exact ⟨s, hreach, (repair_accounting hreach hrow).1.symm.trans hrepairs⟩

/-- One decision of the policy retried it, and one event announces the retry. -/
theorem retry_accounting_retried : ∃ s, system.Reachable s ∧
    s.world.decided overlapRequest.jobId .retry = 1 ∧
    (s.world.journalOf overlapRequest.jobId).count .retryScheduled = 1 := by
  obtain ⟨s, s', hreach, hstep, -, hcounted⟩ := repairedJob_reachable
  obtain ⟨row, hrow, -, hretries⟩ := row_of_counted hcounted
  obtain ⟨hdecided, hannounced, -⟩ := retry_accounting (hreach.step hstep) hrow
  exact ⟨s', hreach.step hstep, hdecided.symm.trans hretries, hannounced.symm.trans hretries⟩

/-- The step that retries it commits all of the retry. -/
theorem retries_accounted_retried : ∃ s s' row row' decision event, system.Reachable s ∧
    system.step s retryAction s' ∧ row.jobRetryCount = 0 ∧ row'.jobRetryCount = 1 ∧
    Retried overlapRequest.jobId row row' decision event s.world s'.world ∧
    s.world.decided overlapRequest.jobId .retry = 0 ∧
    s'.world.decided overlapRequest.jobId .retry = 1 := by
  obtain ⟨s, s', hreach, hstep, hcounted, hcounted'⟩ := repairedJob_reachable
  obtain ⟨row, hrow, -, hretries⟩ := row_of_counted hcounted
  obtain ⟨row', hrow', -, hretries'⟩ := row_of_counted hcounted'
  obtain ⟨haccounts, -, hsteps⟩ := retries_accounted hreach
  have hdecided := (haccounts _ row hrow).1.symm.trans hretries
  have hdecided' := ((retries_accounted (hreach.step hstep)).1 _ row' hrow').1.symm.trans hretries'
  rcases hsteps _ s' hstep overlapRequest.jobId with
    ⟨row₁, row₁', decision, event, hretried⟩ | hnone
  · obtain rfl := Option.some.inj (hrow.symm.trans hretried.lookup)
    obtain rfl := Option.some.inj (hrow'.symm.trans hretried.lookup')
    exact ⟨s, s', row, row', decision, event, hreach, hstep, hretries, hretries', hretried,
      hdecided, hdecided'⟩
  · have hsame := hnone.counted
    rw [hcounted, hcounted'] at hsame
    cases hsame

end Atlas
