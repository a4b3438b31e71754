/-
**The history of a job, as its events tell it.**

A job is submitted, works, is paused for reviews and sent on, is retried, and ends.  The abstract
machine of this module is that life and nothing else: its state is a phase with the number of
retries and of decided reviews, and each of its moves writes the event that announces it, or none.

The whole system is seen through this machine, one job at a time: whatever workers, reviewers,
submissions, crashes and the relay do, the events of a job are a journal of the machine, and the row
of the job, together with the decisions on it, says where the machine is.  What the events then tell
of a job is read off the machine.

Two moves write nothing: a review sends the job on, or rejects it.  So a job that an operator has
rejected is FAILED, and no event says so.

Main definitions:

* `Atlas.JobPhase`, `Atlas.JobStage`, `Atlas.JobMove`, `Atlas.jobLife` — the machine;
* `Atlas.Told` — what the journal of a stage contains;
* `Atlas.World.stageOf`, `Atlas.World.journalOf` — the stage and the journal of a job;
* `Atlas.Announces` — what a transaction of a worker adds to the outbox.

Main results:

* `Atlas.told_of_journal` — the journals of the machine;
* `Atlas.WorkerCommit.announces` — a worker writes an event only with the job it is of;
* `Atlas.observes_of_step` — every step is no move of a job or one;
* `Atlas.job_history` — **the events of a job are a history of it**;
* `Atlas.terminal_events` — **when a job has a terminal event**.
-/

import Atlas.Journal
import Atlas.ReviewDecisions
import Atlas.WorkerFrames

set_option relaxedAutoImplicit false
set_option autoImplicit false

namespace Atlas

/-! ### The life of a job -/

inductive JobPhase where
  | absent
  | underway
  | inReview
  | completed
  | failed
  | rejected
  deriving DecidableEq, Repr

/-- The phase of a job, its retries and the reviews of it that were decided. -/
structure JobStage where
  phase : JobPhase
  retries : ℕ
  reviews : ℕ
  deriving DecidableEq, Repr

/-- The moves of a job, with the events that announce them. -/
inductive JobMove : JobStage → Option EventType → JobStage → Prop
  | submit : JobMove ⟨.absent, 0, 0⟩ (some .created) ⟨.underway, 0, 0⟩
  | retry {retries reviews : ℕ} (h : retries < maxJobRetries) :
      JobMove ⟨.underway, retries, reviews⟩ (some .retryScheduled) ⟨.underway, retries + 1, reviews⟩
  | pause {retries reviews : ℕ} :
      JobMove ⟨.underway, retries, reviews⟩ (some .awaitingReview) ⟨.inReview, retries, reviews⟩
  | approve {retries reviews : ℕ} :
      JobMove ⟨.inReview, retries, reviews⟩ none ⟨.underway, retries, reviews + 1⟩
  | reject {retries reviews : ℕ} :
      JobMove ⟨.inReview, retries, reviews⟩ none ⟨.rejected, retries, reviews + 1⟩
  | complete {retries reviews : ℕ} :
      JobMove ⟨.underway, retries, reviews⟩ (some .completed) ⟨.completed, retries, reviews⟩
  | fail {retries reviews : ℕ} :
      JobMove ⟨.underway, retries, reviews⟩ (some .failed) ⟨.failed, retries, reviews⟩

/-- The life of a job. -/
def jobLife : Lts JobStage (Option EventType) where
  init stage := stage = ⟨.absent, 0, 0⟩
  step := JobMove

/-- The event a phase was entered with, when nothing else tells. -/
def JobPhase.lastEvent : JobPhase → Option EventType
  | .completed => some .completed
  | .failed => some .failed
  | .inReview | .rejected => some .awaitingReview
  | .absent | .underway => none

/-- What the journal of a job at a stage contains. -/
structure Told (events : List EventType) (stage : JobStage) : Prop where
  first : events.head? = if stage.phase = .absent then none else some .created
  created : events.count .created = if stage.phase = .absent then 0 else 1
  retries : events.count .retryScheduled = stage.retries
  bounded : stage.retries ≤ maxJobRetries
  reviews : events.count .awaitingReview
    = stage.reviews + if stage.phase = .inReview then 1 else 0
  completed : events.count .completed = if stage.phase = .completed then 1 else 0
  failed : events.count .failed = if stage.phase = .failed then 1 else 0
  last : ∀ event, stage.phase.lastEvent = some event → events.getLast? = some event

/-- **What the journals of the machine contain.** -/
theorem told_of_journal {events : List EventType} {stage : JobStage}
    (h : jobLife.Journal events stage) : Told events stage := by
  induction h with
  | init h =>
      subst h
      exact ⟨rfl, rfl, rfl, Nat.zero_le _, rfl, rfl, rfl, nofun⟩
  | silent _ hmove ih =>
      cases hmove with
      | approve =>
          refine ⟨ih.first, ih.created, ih.retries, ih.bounded, ?_, ih.completed, ih.failed, nofun⟩
          simpa using ih.reviews
      | reject =>
          refine ⟨ih.first, ih.created, ih.retries, ih.bounded, ?_, ih.completed, ih.failed, ?_⟩
          · simpa using ih.reviews
          · exact fun event h => ih.last event h
  | entry hjournal hmove ih =>
      cases hmove with
      | submit =>
          -- a job that is absent has told nothing
          obtain rfl : _ = [] := List.head?_eq_none_iff.1 ih.first
          exact ⟨rfl, rfl, rfl, Nat.zero_le _, rfl, rfl, rfl, nofun⟩
      | retry hless =>
          refine ⟨?_, ?_, ?_, hless, ?_, ?_, ?_, nofun⟩
          · simp [List.head?_append, ih.first]
          · simpa [List.count_append] using ih.created
          · simpa [List.count_append] using ih.retries
          · simpa [List.count_append] using ih.reviews
          · simpa [List.count_append] using ih.completed
          · simpa [List.count_append] using ih.failed
      | pause =>
          refine ⟨?_, ?_, ?_, ih.bounded, ?_, ?_, ?_, ?_⟩
          · simp [List.head?_append, ih.first]
          · simpa [List.count_append] using ih.created
          · simpa [List.count_append] using ih.retries
          · simpa [List.count_append] using ih.reviews
          · simpa [List.count_append] using ih.completed
          · simpa [List.count_append] using ih.failed
          · rintro event ⟨⟩
            exact List.getLast?_concat
      | complete =>
          refine ⟨?_, ?_, ?_, ih.bounded, ?_, ?_, ?_, ?_⟩
          · simp [List.head?_append, ih.first]
          · simpa [List.count_append] using ih.created
          · simpa [List.count_append] using ih.retries
          · simpa [List.count_append] using ih.reviews
          · simpa [List.count_append] using ih.completed
          · simpa [List.count_append] using ih.failed
          · rintro event ⟨⟩
            exact List.getLast?_concat
      | fail =>
          refine ⟨?_, ?_, ?_, ih.bounded, ?_, ?_, ?_, ?_⟩
          · simp [List.head?_append, ih.first]
          · simpa [List.count_append] using ih.created
          · simpa [List.count_append] using ih.retries
          · simpa [List.count_append] using ih.reviews
          · simpa [List.count_append] using ih.completed
          · simpa [List.count_append] using ih.failed
          · rintro event ⟨⟩
            exact List.getLast?_concat

/-- A terminal event is the last one. -/
theorem Told.terminal {events : List EventType} {stage : JobStage} (h : Told events stage)
    {type : EventType} (hmem : type ∈ events) (hterminal : type.Terminal) :
    events.getLast? = some type := by
  have hcount : 0 < events.count type := List.count_pos_iff.2 hmem
  refine h.last type ?_
  rcases hterminal with rfl | rfl
  · rw [h.completed] at hcount
    split at hcount
    · rename_i hphase
      rw [hphase]
      rfl
    · cases hcount
  · rw [h.failed] at hcount
    split at hcount
    · rename_i hphase
      rw [hphase]
      rfl
    · cases hcount

/-- Nothing follows a terminal event. -/
theorem Told.nothing_after {events before after : List EventType} {stage : JobStage}
    (h : Told events stage) {type : EventType} (hsplit : events = before ++ type :: after)
    (hterminal : type.Terminal) : after = [] := by
  have hone : events.count type ≤ 1 := by
    rcases hterminal with rfl | rfl
    · rw [h.completed]
      split <;> simp
    · rw [h.failed]
      split <;> simp
  by_contra hne
  -- otherwise the event would be told again, as the last
  have hlast := h.terminal (by simp [hsplit]) hterminal
  have hagain : type ∈ after := by
    refine List.mem_of_getLast? ?_
    rw [hsplit, ← List.singleton_append, ← List.append_assoc, List.getLast?_append_of_ne_nil _ hne]
      at hlast
    exact hlast
  have hcount : 0 < after.count type := List.count_pos_iff.2 hagain
  rw [hsplit, List.count_append, List.count_cons_self] at hone
  omega

/-! ### What a worker announces -/

/-- The status a job has when an event of the type is written. -/
def EventType.status : EventType → ResearchJobStatus
  | .created | .retryScheduled => .pending
  | .awaitingReview => .awaitingReview
  | .completed => .completed
  | .failed => .failed

/-- A transaction writes no event, or one of the job it writes. -/
inductive Announces (jobId : String) (w w' : World) : Prop
  | nothing (h : w'.outbox = w.outbox)
  | event (row' : ResearchJobRow) (event : OutboxRow) (hrow : w'.jobs.lookup jobId = some row')
      (haggregate : event.event.aggregateId = jobId)
      (hstatus : row'.status = event.event.type.status)
      (hrows : w'.outbox.rows = w.outbox.rows ++ [event])

theorem Announces.of_rows {jobId : String} {w w' : World} {event : OutboxRow}
    (h : Announces jobId w w') (hrows : w'.outbox.rows = w.outbox.rows ++ [event]) :
    event.event.aggregateId = jobId ∧ ∃ row', w'.jobs.lookup jobId = some row' ∧
      row'.status = event.event.type.status := by
  cases h with
  | nothing h =>
      rw [h] at hrows
      simp at hrows
  | event row' event' hrow haggregate hstatus hrows' =>
      rw [hrows', List.append_cancel_left_eq, List.singleton_inj] at hrows
      subst hrows
      exact ⟨haggregate, row', hrow, hstatus⟩

section Announcements

variable {settings : Settings} {jobId token : String} {e : Env} {w w' : World}

/-- The pause is announced with the row that waits. -/
theorem recordAwaitReview_announces {ctx : GraphContext} {evaluationRunId : String}
    (h : recordAwaitReview ctx evaluationRunId e w = .ok ((), w')) :
    Announces ctx.jobId w w' := by
  simp only [recordAwaitReview, Tx.bind_eq_ok, Tx.reading_eq_ok, Tx.read_eq_ok] at h
  obtain ⟨_, _, ⟨-, rfl⟩, _, _, ⟨rfl, rfl⟩, _, _, ⟨-, rfl⟩, _, _, ⟨-, rfl⟩, ⟨id, created⟩, w₁,
    hrecord, h⟩ := h
  have hdecided : w₁.outbox = w.outbox :=
    congrArg Prod.fst (leaves_recordPolicyDecision _ _ _ _ _ hrecord)
  split at h
  · simp only [Tx.bind_eq_ok, onJob_eq_ok, require_eq_ok, enqueueEvent_eq_ok,
      buildResearchJobAwaitingReview, buildEvent_eq_ok] at h
    obtain ⟨ok, _, hjob, _, _, ⟨rfl, rfl⟩, built, outbox, ⟨-, haggregate, -, hpayload⟩, henqueue,
      rfl⟩ := h
    obtain ⟨event, hevent, -, hrows, -⟩ := Outbox.enqueue_eq_ok henqueue
    rcases hjob with ⟨row', hrow', -, rfl⟩ | ⟨-, hfalse, -⟩
    · obtain ⟨row, hrow, howns, row₁, htransition, hchecks, rfl⟩ :=
        transitionAwaitingReview_eq_some.1 hrow'
      obtain ⟨hstatus, -⟩ := transition_status .awaitingReview
        (fun _ _ hop => by
          obtain ⟨-, -, rfl⟩ := ResearchJob.awaitReview_eq_ok.1 hop
          rfl) htransition
      refine .event _ event (AList.lookup_insert _) (hevent ▸ haggregate) ?_ (hdecided ▸ hrows)
      rw [hevent, DomainEvent.type, hpayload]
      exact hstatus
    · cases hfalse
  · obtain ⟨-, rfl⟩ := Tx.pure_eq_ok.1 h
    exact .nothing hdecided

/-- The end of a job is announced as what it is. -/
theorem finalizeCompletionTx_announces {result : String} {owned : Bool}
    (h : finalizeCompletionTx jobId token result e w = .ok (owned, w')) : Announces jobId w w' := by
  rcases finalizeCompletionTx_eq_ok h with
    ⟨row', built, outbox, -, hrow', haggregate, htype, henqueue, rfl⟩ | ⟨-, rfl⟩
  · obtain ⟨row, hrow, howns, row₁, htransition, hchecks, rfl⟩ := finalizeCompletion_eq_some.1 hrow'
    obtain ⟨event, hevent, -, hrows, -⟩ := Outbox.enqueue_eq_ok henqueue
    obtain ⟨hstatus, -⟩ := transition_status .completed
      (fun _ _ hop => by
        obtain ⟨-, _, _, -, -, rfl⟩ := ResearchJob.complete_eq_ok.1 hop
        rfl) htransition
    refine .event _ event (AList.lookup_insert _) (hevent ▸ haggregate) ?_ hrows
    rw [hevent, htype]
    exact hstatus
  · exact .nothing rfl

theorem finalizeFailureTx_announces {reason reasonClass : String} {owned : Bool}
    (h : finalizeFailureTx jobId token reason reasonClass e w = .ok (owned, w')) :
    Announces jobId w w' := by
  rcases finalizeFailureTx_eq_ok h with
    ⟨row', built, outbox, -, hrow', haggregate, htype, henqueue, rfl⟩ | ⟨-, rfl⟩
  · obtain ⟨row, hrow, howns, row₁, htransition, hchecks, rfl⟩ := finalizeFailure_eq_some.1 hrow'
    obtain ⟨event, hevent, -, hrows, -⟩ := Outbox.enqueue_eq_ok henqueue
    obtain ⟨hstatus, -⟩ := transition_status .failed
      (fun _ _ hop => by
        obtain ⟨-, _, _, -, -, rfl⟩ := ResearchJob.fail_eq_ok.1 hop
        rfl) htransition
    refine .event _ event (AList.lookup_insert _) (hevent ▸ haggregate) ?_ hrows
    rw [hevent, htype]
    exact hstatus
  · exact .nothing rfl

/-- A retry is announced with the row it leaves; when its decision is found, nothing is. -/
theorem recordRetry_announces {abandon : Option String} {decision : PolicyDecision}
    {counts : AttemptCounts} {scheduled : Instant × ℕ}
    (h : recordRetry settings jobId token abandon decision counts e w = .ok (scheduled, w')) :
    Announces jobId w w' := by
  simp only [recordRetry, Tx.bind_eq_ok, Tx.reading_eq_ok] at h
  obtain ⟨now, _, ⟨-, rfl⟩, _, _, ⟨-, rfl⟩, _, _, ⟨rfl, rfl⟩, _, _, ⟨-, rfl⟩, _, _, ⟨-, rfl⟩,
    ⟨id, created⟩, w₁, hrecord, h⟩ := h
  have hdecided : w₁.outbox = w.outbox :=
    congrArg Prod.fst (leaves_recordPolicyDecision _ _ _ _ _ hrecord)
  split at h
  · simp only [Tx.bind_eq_ok, scheduleRetryTx, Tx.compute_eq_ok, mapError_eq_ok,
      enqueueEvent_eq_ok, buildResearchJobRetryScheduled, buildEvent_eq_ok, Tx.pure_eq_ok] at h
    obtain ⟨_, w₂, habandoned, _, _, ⟨written, _, ⟨hschedule, rfl⟩, hwrite⟩, _, _,
      ⟨built, outbox, ⟨-, haggregate, -, hpayload⟩, henqueue, rfl⟩, -, rfl⟩ := h
    have hsame : w₂.outbox = w₁.outbox :=
      congrArg Prod.fst (leaves_recordAbandoned _ _ _ _ _ _ _ _ _ _ _ habandoned)
    obtain ⟨event, hevent, -, hrows, -⟩ := Outbox.enqueue_eq_ok henqueue
    cases written with
    | none => exact absurd hwrite Tx.throw_ne_ok
    | some rows =>
        obtain ⟨row', executions⟩ := rows
        obtain rfl := Tx.modify_eq_ok.1 hwrite
        obtain ⟨row, hrow, howns, hretry, -⟩ := scheduleRetry_eq_some.1 hschedule
        obtain ⟨hstatus, -⟩ := retryRow_columns hretry
        refine .event row' event (AList.lookup_insert _) (hevent ▸ haggregate) ?_ ?_
        · rw [hevent, DomainEvent.type, hpayload]
          exact hstatus
        · rw [← hdecided, ← hsame]
          exact hrows
  · refine .nothing (Eq.trans ?_ hdecided)
    refine (Tx.Leaves.bind (.read _) fun attempts => ?_) _ _ _ _ h
    split
    · exact .pure _
    · exact .pure _

/-- **What a worker commits is announced by one event of its job, or by none.** -/
theorem WorkerCommit.announces (h : WorkerCommit settings jobId token e w w') :
    Announces jobId w w' := by
  cases h with
  | createAndBind executionId h => exact .nothing (leaves_createAndBind _ _ _ _ _ _ h)
  | bound h =>
      cases h with
      | recordRetry executionId x counts scheduled haction h =>
          exact recordRetry_announces h
      | finalizeCompletion result owned h => exact finalizeCompletionTx_announces h
      | finalizeFailure reason reasonClass owned h => exact finalizeFailureTx_announces h
      | call h =>
          cases h with
          | graph h => exact .nothing h.leaves.1
          | completeExecution executionId h =>
              exact .nothing (Tx.Leaves.bind (.reading _) (fun _ => .bind (leaves_onExecutions _)
                fun _ => leaves_require _ _ _) _ _ _ _ h)
          | failExecution executionId h =>
              exact .nothing (Tx.Leaves.bind (.reading _) (fun _ => .bind (leaves_onExecutions _)
                fun _ => leaves_require _ _ _) _ _ _ _ h)
          | recordAwaitReview ctx evaluationRunId hjob htoken h =>
              exact hjob ▸ recordAwaitReview_announces h

end Announcements

/-! ### The stage of a job -/

/-- The phase a row is in; of a FAILED row, the decisions tell whether an operator rejected it. -/
def ResearchJobRow.phase (row : ResearchJobRow) (rejected : Bool) : JobPhase :=
  match row.status with
  | .pending | .running => .underway
  | .awaitingReview => .inReview
  | .completed => .completed
  | .failed => if rejected then .rejected else .failed

section Phase

variable (row : ResearchJobRow) (rejected : Bool)

theorem ResearchJobRow.phase_ne_absent : row.phase rejected ≠ .absent := by
  rw [ResearchJobRow.phase]
  cases row.status <;> cases rejected <;> decide

theorem ResearchJobRow.phase_eq_completed :
    row.phase rejected = .completed ↔ row.status = .completed := by
  rw [ResearchJobRow.phase]
  cases row.status <;> cases rejected <;> decide

theorem ResearchJobRow.phase_eq_failed :
    row.phase rejected = .failed ↔ row.status = .failed ∧ rejected = false := by
  rw [ResearchJobRow.phase]
  cases row.status <;> cases rejected <;> decide

theorem ResearchJobRow.phase_eq_inReview :
    row.phase rejected = .inReview ↔ row.status = .awaitingReview := by
  rw [ResearchJobRow.phase]
  cases row.status <;> cases rejected <;> decide

end Phase

namespace World

/-- An operator has rejected the job. -/
def rejected (w : World) (jobId : String) : Bool :=
  (Atlas.decisionsOf w jobId).any (·.decision = .reject)

/-- The stage of a job. -/
def stageOf (w : World) (jobId : String) : JobStage :=
  match w.jobs.lookup jobId with
  | none => ⟨.absent, 0, 0⟩
  | some row =>
      ⟨row.phase (w.rejected jobId), row.jobRetryCount, (Atlas.decisionsOf w jobId).length⟩

/-- The types of the events of a job, in the order they were enqueued. -/
def journalOf (w : World) (jobId : String) : List EventType :=
  (w.outbox.eventsOf jobId).map (·.event.type)

end World

/-- A job that an operator has rejected is FAILED. -/
def Rejections (w : World) : Prop :=
  ∀ decision ∈ w.reviewDecisions, decision.decision = .reject →
    ∃ row, w.jobs.lookup decision.researchJobId = some row ∧ row.status = .failed

section Stages

variable {w w' : World} {jobId target : String} {row row' : ResearchJobRow} {event : OutboxRow}

theorem stageOf_of_row (h : w.jobs.lookup jobId = some row) : w.stageOf jobId
    = ⟨row.phase (w.rejected jobId), row.jobRetryCount, (decisionsOf w jobId).length⟩ := by
  rw [World.stageOf, h]

theorem stageOf_of_eq (hjobs : w'.jobs.lookup jobId = w.jobs.lookup jobId)
    (hdecisions : decisionsOf w' jobId = decisionsOf w jobId) :
    w'.stageOf jobId = w.stageOf jobId := by
  simp only [World.stageOf, World.rejected, hjobs, hdecisions]

theorem journalOf_of_events
    (h : w'.outbox.rows.map (·.event) = w.outbox.rows.map (·.event)) :
    w'.journalOf jobId = w.journalOf jobId := by
  have hjournal (w : World) : w.journalOf jobId =
      ((w.outbox.rows.map (·.event)).filter (·.aggregateId = jobId)).map DomainEvent.type := by
    rw [World.journalOf, Outbox.eventsOf, List.filter_map, List.map_map]
    rfl
  rw [hjournal, hjournal, h]

/-- An event is told in the journal of its job only. -/
theorem journalOf_of_rows (h : w'.outbox.rows = w.outbox.rows ++ [event]) :
    w'.journalOf jobId = w.journalOf jobId ++
      if event.event.aggregateId = jobId then [event.event.type] else [] := by
  rw [World.journalOf, World.journalOf, Outbox.eventsOf, Outbox.eventsOf, h, List.filter_append,
    List.filter_singleton, List.map_append]
  by_cases heq : event.event.aggregateId = jobId <;> simp [heq]

/-- A FAILED job that is not rejected is nothing else. -/
theorem Rejections.not_rejected (h : Rejections w) (hrow : w.jobs.lookup jobId = some row)
    (hstatus : row.status ≠ .failed) : w.rejected jobId = false := by
  rw [World.rejected, List.any_eq_false]
  intro decision hdecision hreject
  obtain ⟨hmem, hjob⟩ := List.mem_filter.1 hdecision
  obtain ⟨failed, hfailed, hfailedStatus⟩ := h decision hmem (of_decide_eq_true hreject)
  rw [of_decide_eq_true hjob, hrow] at hfailed
  cases hfailed
  exact hstatus hfailedStatus

/-! ### Steps, as the machine sees them -/

/-- Nothing of any job changes. -/
theorem observes_same (hjobs : w'.jobs = w.jobs)
    (hdecisions : w'.reviewDecisions = w.reviewDecisions)
    (hevents : w'.outbox.rows.map (·.event) = w.outbox.rows.map (·.event)) :
    jobLife.Observes (w.stageOf jobId) (w.journalOf jobId) (w'.stageOf jobId)
      (w'.journalOf jobId) :=
  .same (stageOf_of_eq (by rw [hjobs]) (decisionsOf_of_eq hdecisions)) (journalOf_of_events hevents)

/-- The row of a job is written, and its stage stays. -/
theorem observes_quiet (hrow : w.jobs.lookup target = some row)
    (hjobs : w'.jobs = w.jobs.insert target row')
    (hdecisions : w'.reviewDecisions = w.reviewDecisions) (houtbox : w'.outbox = w.outbox)
    (hphase : ∀ rejected, row'.phase rejected = row.phase rejected)
    (hretries : row'.jobRetryCount = row.jobRetryCount) :
    jobLife.Observes (w.stageOf jobId) (w.journalOf jobId) (w'.stageOf jobId)
      (w'.journalOf jobId) := by
  refine .same ?_ (journalOf_of_events (by rw [houtbox]))
  have hsame : decisionsOf w' jobId = decisionsOf w jobId := decisionsOf_of_eq hdecisions
  by_cases heq : jobId = target
  · subst heq
    have hrow' : w'.jobs.lookup jobId = some row' := by rw [hjobs, AList.lookup_insert]
    rw [stageOf_of_row hrow, stageOf_of_row hrow', World.rejected, World.rejected, hsame, hphase,
      hretries]
  · refine stageOf_of_eq ?_ hsame
    rw [hjobs, AList.lookup_insert_ne heq]

/-- The row of a job is written together with its event. -/
theorem observes_event (hjobs : w'.jobs = w.jobs.insert target row')
    (hdecisions : w'.reviewDecisions = w.reviewDecisions)
    (hrows : w'.outbox.rows = w.outbox.rows ++ [event])
    (haggregate : event.event.aggregateId = target)
    (hmove : JobMove (w.stageOf target) (some event.event.type)
      ⟨row'.phase (w.rejected target), row'.jobRetryCount, (decisionsOf w target).length⟩) :
    jobLife.Observes (w.stageOf jobId) (w.journalOf jobId) (w'.stageOf jobId)
      (w'.journalOf jobId) := by
  have hsame : decisionsOf w' jobId = decisionsOf w jobId := decisionsOf_of_eq hdecisions
  by_cases heq : jobId = target
  · subst heq
    have hrow' : w'.jobs.lookup jobId = some row' := by rw [hjobs, AList.lookup_insert]
    refine .entry event.event.type ?_ ?_
    · rw [stageOf_of_row hrow', World.rejected, hsame]
      exact hmove
    · rw [journalOf_of_rows hrows, if_pos haggregate]
  · refine .same (stageOf_of_eq ?_ hsame) ?_
    · rw [hjobs, AList.lookup_insert_ne heq]
    · rw [journalOf_of_rows hrows, if_neg, List.append_nil]
      rw [haggregate]
      exact Ne.symm heq

/-- The row of a job is written together with a decision on it. -/
theorem observes_decision {decision : ReviewDecisionRow}
    (hjobs : w'.jobs = w.jobs.insert target row')
    (hdecisions : w'.reviewDecisions = w.reviewDecisions ++ [decision])
    (hjob : decision.researchJobId = target) (houtbox : w'.outbox = w.outbox)
    (hmove : JobMove (w.stageOf target) none
      ⟨row'.phase (w.rejected target || decision.decision = .reject), row'.jobRetryCount,
        (decisionsOf w target).length + 1⟩) :
    jobLife.Observes (w.stageOf jobId) (w.journalOf jobId) (w'.stageOf jobId)
      (w'.journalOf jobId) := by
  have hjournal : w'.journalOf jobId = w.journalOf jobId := journalOf_of_events (by rw [houtbox])
  by_cases heq : jobId = target
  · subst heq
    have hrow' : w'.jobs.lookup jobId = some row' := by rw [hjobs, AList.lookup_insert]
    have hadded : decisionsOf w' jobId = decisionsOf w jobId ++ [decision] := by
      rw [decisionsOf, hdecisions, List.filter_append, List.filter_singleton]
      simp [hjob, decisionsOf]
    refine .silent ?_ hjournal
    rw [stageOf_of_row hrow', World.rejected, hadded, List.any_append, List.length_append]
    change JobMove _ none _
    simpa [World.rejected] using hmove
  · have hother : decision.researchJobId ≠ jobId := fun hsame => heq (hsame.symm.trans hjob)
    refine .same (stageOf_of_eq ?_ ?_) hjournal
    · rw [hjobs, AList.lookup_insert_ne heq]
    · rw [decisionsOf, hdecisions, List.filter_append, List.filter_singleton]
      simp [hother, decisionsOf]

/-- A row that runs, or is to run again, is under way. -/
theorem phase_of_running (rejected : Bool) (h : row.status = .pending ∨ row.status = .running) :
    row.phase rejected = .underway := by
  rcases h with h | h <;> rw [ResearchJobRow.phase, h]

/-- A write of a row that goes on running. -/
theorem RowWrite.observes {token : String} (h : RowWrite target token w row row')
    (hjobs : w'.jobs = w.jobs.insert target row')
    (hdecisions : w'.reviewDecisions = w.reviewDecisions) (houtbox : w'.outbox = w.outbox)
    (hstatus : row'.status = row.status) (hretries : row'.jobRetryCount = row.jobRetryCount) :
    jobLife.Observes (w.stageOf jobId) (w.journalOf jobId) (w'.stageOf jobId)
      (w'.journalOf jobId) := by
  refine observes_quiet h.owned.1 hjobs hdecisions houtbox (fun rejected => ?_) hretries
  rw [ResearchJobRow.phase, ResearchJobRow.phase, hstatus]

/-- Where a job that runs under a claim is. -/
theorem stageOf_of_owned {token : String} (h : Owned target token w row) :
    w.stageOf target = ⟨.underway, row.jobRetryCount, (decisionsOf w target).length⟩ := by
  rw [stageOf_of_row h.1, phase_of_running _ (.inr h.2.1)]

theorem getAttemptCounts_retries (h : getAttemptCounts (some row') = getAttemptCounts (some row)) :
    row'.jobRetryCount = row.jobRetryCount :=
  congrArg (fun counts => counts.2.1) h

/-- **What a worker does is no move of a job, or one.** -/
theorem WorkerEffect.observes {jobId target token : String} (hrejections : Rejections w)
    (h : WorkerEffect target token w w') (hannounces : Announces target w w') :
    jobLife.Observes (w.stageOf jobId) (w.journalOf jobId) (w'.stageOf jobId)
      (w'.journalOf jobId) := by
  cases h with
  | aside h => exact observes_same h.jobs h.reviewDecisions (by rw [h.outbox])
  | decided _ _ _ h | reran _ _ _ h | closed _ _ _ _ _ _ _ _ _ _ _ h =>
      subst h
      exact observes_same rfl rfl rfl
  | repaired row row' decision hwrite hrow hjob hrepair h =>
      subst h hrow
      exact hwrite.observes rfl rfl rfl rfl rfl
  | evaluated target row row' run hrecounted hnew hplace h =>
      subst h
      obtain ⟨count, rfl⟩ := hrecounted.columns
      refine observes_quiet hrecounted.lookup rfl rfl rfl (fun rejected => ?_) rfl
      rfl
  | created row row' executionId execution time hwrite hrow huuid hnew hjob hrunning h =>
      subst h hrow
      exact hwrite.observes rfl rfl rfl rfl rfl
  | paused row row' decision event outbox hwrite hstatus hactive hcounts hdecision htype hrows h =>
      subst h
      obtain ⟨haggregate, -⟩ := hannounces.of_rows hrows
      refine observes_event rfl rfl hrows haggregate ?_
      rw [stageOf_of_owned hwrite.owned, htype, getAttemptCounts_retries hcounts,
        ResearchJobRow.phase, hstatus]
      exact .pause
  | retried row row' decision event outbox executions attempts abandon count next time hwrite
      hstatus hmode hactive hretries hrepairs hevaluations hjob hretry hexecution haggregate
      hpayload hrows habandon h =>
      subst h
      have hbound := (ResearchJobRow.fits_iff.1 hwrite.checks).job_retry_count
      refine observes_event rfl rfl hrows haggregate ?_
      rw [stageOf_of_owned hwrite.owned, DomainEvent.type, hpayload,
        phase_of_running _ (.inl hstatus), hretries]
      refine .retry ?_
      rw [hretries] at hbound
      exact hbound
  | ended row row' event outbox hwrite hstatus hactive hcounts htype hrows h =>
      subst h
      obtain ⟨haggregate, written, hwritten, hannounced⟩ := hannounces.of_rows hrows
      obtain rfl := Option.some.inj ((AList.lookup_insert _).symm.trans hwritten)
      have hrunning := hrejections.not_rejected hwrite.owned.1 (by rw [hwrite.owned.2.1]; decide)
      refine observes_event rfl rfl hrows haggregate ?_
      rw [stageOf_of_owned hwrite.owned, getAttemptCounts_retries hcounts, hrunning,
        ResearchJobRow.phase, hannounced]
      rcases htype with htype | htype
      · rw [htype]
        exact .complete
      · rw [htype]
        exact .fail

/-- A claim is no move: the job is under way before and after it. -/
theorem ClaimedFrom.observes {jobId token profile : String} {lease : Instant}
    (h : ClaimedFrom row row' token lease profile) (hrow : w.jobs.lookup target = some row)
    (hjobs : w' = { w with jobs := w.jobs.insert target row' }) :
    jobLife.Observes (w.stageOf jobId) (w.journalOf jobId) (w'.stageOf jobId)
      (w'.journalOf jobId) := by
  subst hjobs
  refine observes_quiet hrow rfl rfl rfl (fun rejected => ?_) (getAttemptCounts_retries h.counts)
  rw [phase_of_running rejected h.claimable, phase_of_running rejected (.inr h.status)]

/-- A submission is the first move of its job. -/
theorem Submitted.observes {jobId key fingerprint : String} (hbooks : DecisionBooks w)
    (h : Submitted key fingerprint row event w w') :
    jobLife.Observes (w.stageOf jobId) (w.journalOf jobId) (w'.stageOf jobId)
      (w'.journalOf jobId) := by
  obtain ⟨outbox, hrows, rfl⟩ := h.world
  refine observes_event rfl rfl hrows h.aggregate ?_
  have hnone : decisionsOf w row.id = [] := by
    rw [decisionsOf, List.filter_eq_nil_iff]
    intro decision hmem hjob
    obtain ⟨job, hlookup⟩ := hbooks.job decision hmem
    rw [of_decide_eq_true hjob, h.new] at hlookup
    cases hlookup
  have hretries : row.jobRetryCount = 0 := congrArg (fun counts => counts.2.1) h.fresh.counts
  rw [World.stageOf, h.new, h.type, phase_of_running _ (.inl h.fresh.status), hretries, hnone]
  exact .submit

/-- The row an approval leaves is to run again; nothing is counted. -/
theorem approveReviewToPending_columns {executions : Executions} {executionId : String}
    {next time : Instant}
    (h : approveReviewToPending executions (some row) executionId next time = .ok (some row')) :
    row'.status = .pending ∧ row'.jobRetryCount = row.jobRetryCount := by
  obtain ⟨_, hsome, -, row₁, htransition, hflush⟩ := approveReviewToPending_eq_some.1 h
  cases hsome
  obtain ⟨-, -, rfl⟩ := flushBinding_eq_ok.1 hflush
  obtain ⟨hpending, _, -, rfl⟩ := transition_status .pending (fun _ _ hop => by
    obtain ⟨-, -, rfl⟩ := ResearchJob.approveToPending_eq_ok.1 hop
    rfl) htransition
  exact ⟨hpending, rfl⟩

theorem failFromReview_columns {reason : String} {time : Instant}
    (h : failFromReview (some row) reason time = .ok (some row')) :
    row'.status = .failed ∧ row'.jobRetryCount = row.jobRetryCount := by
  obtain ⟨_, hsome, -, row₁, htransition, -, rfl⟩ := failFromReview_eq_some.1 h
  cases hsome
  obtain ⟨hfailed, _, -, rfl⟩ := transition_status .failed (fun _ _ hop => by
    obtain ⟨-, -, -, rfl⟩ := ResearchJob.failFromReview_eq_ok.1 hop
    rfl) htransition
  exact ⟨hfailed, rfl⟩

/-- A review is no move of a job, or one of the two that write no event. -/
theorem Reviewed.observes {jobId : String} {request : ReviewRequest} {fingerprint : String}
    {answer : String × Bool} (h : Reviewed request fingerprint answer w w') :
    jobLife.Observes (w.stageOf jobId) (w.journalOf jobId) (w'.stageOf jobId)
      (w'.journalOf jobId) := by
  cases h with
  | replayed decision hfound hsame hanswer h =>
      subst h
      exact observes_same rfl rfl rfl
  | approved row row' executionId now decision hverdict hrecords hrow hstatus hactive happrove h =>
      subst h
      obtain ⟨hpending, hretries⟩ := approveReviewToPending_columns happrove
      refine observes_decision rfl rfl hrecords.job rfl ?_
      rw [stageOf_of_row hrow, phase_of_running _ (.inl hpending), ResearchJobRow.phase, hstatus,
        hretries]
      exact .approve
  | rejected row row' executionId now executions decision hverdict hrecords hrow hstatus hactive
      hfail hreject h =>
      subst h
      obtain ⟨hfailed, hretries⟩ := failFromReview_columns hreject
      have hphase : row'.phase (w.rejected request.jobId || decision.decision = .reject)
          = .rejected := by
        simp [ResearchJobRow.phase, hfailed, hrecords.verdict, hverdict]
      refine observes_decision rfl rfl hrecords.job rfl ?_
      rw [stageOf_of_row hrow, hphase, ResearchJobRow.phase, hstatus, hretries]
      exact .reject

/-! ### Rejected jobs -/

variable {issued issued' : List String}

/-- A change writes no job, or one that is FAILED still if it was. -/
theorem jobs_of_worldChange (h : WorldChange issued issued' w w') :
    w'.jobs = w.jobs ∨ ∃ target row', w'.jobs = w.jobs.insert target row' ∧
      ∀ row, w.jobs.lookup target = some row → row.status = .failed → row'.status = .failed := by
  have hwrite {target : String} {row row' : ResearchJobRow} {w : World}
      (hrow : w.jobs.lookup target = some row) (hstatus : row.status ≠ .failed)
      (other : ResearchJobRow) (hother : w.jobs.lookup target = some other)
      (hfailed : other.status = .failed) : row'.status = .failed := by
    obtain rfl := Option.some.inj (hrow.symm.trans hother)
    exact absurd hfailed hstatus
  have hrunning {target token : String} {row row' : ResearchJobRow} {w : World}
      (h : RowWrite target token w row row') : row.status ≠ .failed := by
    rw [h.owned.2.1]
    decide
  cases h with
  | worked target token heffect =>
      cases heffect with
      | aside h => exact .inl h.jobs
      | decided _ _ _ h | reran _ _ _ h | closed _ _ _ _ _ _ _ _ _ _ _ h => exact .inl (by rw [h])
      | evaluated jobId row row' run hrecounted hnew hplace h =>
          refine .inr ⟨jobId, row', by rw [h], ?_⟩
          obtain ⟨count, rfl⟩ := hrecounted.columns
          intro other hother hfailed
          obtain rfl := Option.some.inj (hrecounted.lookup.symm.trans hother)
          exact hfailed
      | repaired _ row' _ hown _ _ _ h | created _ row' _ _ _ hown _ _ _ _ _ h
      | paused _ row' _ _ _ hown _ _ _ _ _ _ h
      | retried _ row' _ _ _ _ _ _ _ _ _ hown _ _ _ _ _ _ _ _ _ _ _ _ _ h
      | ended _ row' _ _ hown _ _ _ _ _ h =>
          exact .inr ⟨_, row', by rw [h], hwrite hown.owned.1 (hrunning hown)⟩
  | submitted key fingerprint row event hsubmitted =>
      obtain ⟨outbox, -, hworld⟩ := hsubmitted.world
      refine .inr ⟨row.id, row, by rw [hworld], ?_⟩
      intro other hother
      rw [hsubmitted.new] at hother
      cases hother
  | claimed target token profile lease row row' claimed hnew htoken hrow hfrom hclaims h =>
      refine .inr ⟨target, row', by rw [h], hwrite hrow ?_⟩
      rcases hfrom.claimable with hstatus | hstatus <;>
        · rw [hstatus]
          decide
  | relayed outbox hevents h => exact .inl (by rw [h])
  | reviewed request fingerprint answer hreviewed =>
      have hwaits {row : ResearchJobRow} (hstatus : row.status = .awaitingReview) :
          row.status ≠ .failed := by
        rw [hstatus]
        decide
      cases hreviewed with
      | replayed _ _ _ _ h => exact .inl (by rw [h])
      | approved row row' _ _ _ _ _ hrow hstatus _ _ h =>
          exact .inr ⟨request.jobId, row', by rw [h], hwrite hrow (hwaits hstatus)⟩
      | rejected row row' _ _ _ _ _ _ hrow hstatus _ _ _ h =>
          exact .inr ⟨request.jobId, row', by rw [h], hwrite hrow (hwaits hstatus)⟩

/-- **A FAILED job stays FAILED.** -/
theorem failed_of_change (h : WorldChange issued issued' w w')
    (hrow : w.jobs.lookup jobId = some row) (hstatus : row.status = .failed) :
    ∃ row', w'.jobs.lookup jobId = some row' ∧ row'.status = .failed := by
  rcases jobs_of_worldChange h with heq | ⟨target, row', heq, hwritten⟩
  · exact ⟨row, by rw [heq, hrow], hstatus⟩
  · rw [heq, Table.lookup_insert_eq]
    split
    · rename_i hsame
      subst hsame
      exact ⟨row', rfl, hwritten row hrow hstatus⟩
    · exact ⟨row, hrow, hstatus⟩

theorem Rejections.change (hrejections : Rejections w) (h : WorldChange issued issued' w w') :
    Rejections w' := by
  intro decision hmem hreject
  have hold (hmem : decision ∈ w.reviewDecisions) :
      ∃ row, w'.jobs.lookup decision.researchJobId = some row ∧ row.status = .failed := by
    obtain ⟨row, hrow, hstatus⟩ := hrejections decision hmem hreject
    exact failed_of_change h hrow hstatus
  have hown {w : World} : decision ∈ decisionsOf w decision.researchJobId ↔
      decision ∈ w.reviewDecisions := by
    simp [decisionsOf]
  cases reviewChange_of_change decision.researchJobId h with
  | same hdecisions hwaits =>
      refine hold (hown.1 ?_)
      rw [← hdecisions]
      exact hown.2 hmem
  | decided added row' hdecisions hnew hwaits hrow hdecided =>
      have hadded := hown.2 hmem
      rw [hdecisions, List.mem_append, List.mem_singleton] at hadded
      rcases hadded with hbefore | rfl
      · exact hold (hown.1 hbefore)
      · exact ⟨row', hrow, hdecided.reject hreject⟩

end Stages

theorem rejections_of_reachable {s : SystemState} (h : system.Reachable s) :
    Rejections s.world := by
  have hpreserved : system.Preserved fun s => system.Reachable s ∧ Rejections s.world := by
    rintro s action s' ⟨hreach, hs⟩ hstep
    exact ⟨hreach.step hstep, hs.change (change_of_reachable hreach hstep)⟩
  refine (h.invariant ?_ hpreserved).2
  rintro s rfl
  exact ⟨.of_init rfl, nofun⟩

/-! ### The history of a job -/

section History

variable {s s' : SystemState} {action : SystemAction} {jobId : String}

theorem TaskCommit.observes {name : String} {e : Env} {w w' : World} (he : e.DrawsNew w)
    (htable : RunTable w.evaluationRuns) (hrejections : Rejections w) (hbooks : DecisionBooks w)
    (h : TaskCommit name e w w') :
    jobLife.Observes (w.stageOf jobId) (w.journalOf jobId) (w'.stageOf jobId)
      (w'.journalOf jobId) := by
  cases h with
  | worker settings target h => exact (h.effect he htable).observes hrejections h.announces
  | request h =>
      cases h with
      | same h =>
          subst h
          exact observes_same rfl rfl rfl
      | submitted question idempotencyKey requestFingerprint job h =>
          obtain ⟨row, event, -, hsubmitted⟩ := insertJob_eq_ok h
          exact hsubmitted.observes hbooks
      | reviewed request fingerprint target answer h => exact (recordReview_eq_ok h).observes

/-- **Every step is no move of a job, or one.** -/
theorem observes_of_step (hreach : system.Reachable s) (h : system.step s action s') :
    jobLife.Observes (s.world.stageOf jobId) (s.world.journalOf jobId) (s'.world.stageOf jobId)
      (s'.world.journalOf jobId) := by
  obtain ⟨hworld, htasks⟩ := systemSound_of_reachable hreach
  have hrejections := rejections_of_reachable hreach
  have hbooks := decisionBooks_of_reachable hreach
  -- a task that proceeds performs one commit
  have hproceed {name : String} {e : Env} {step : World → Task → World × Task}
      (he : e.DrawsNew s.world)
      (hstep : ∀ task : Task, task.Honest name →
        TaskCommit name e s.world (step s.world task).1) :
      jobLife.Observes (s.world.stageOf jobId) (s.world.journalOf jobId)
        ((s.proceed name step).world.stageOf jobId)
        ((s.proceed name step).world.journalOf jobId) := by
    cases hname : s.tasks.lookup name with
    | none =>
        rw [SystemState.proceed, hname]
        exact observes_same rfl rfl rfl
    | some task =>
        rw [proceed_world hname]
        exact (hstep task (htasks name task hname)).observes he hworld.runs hrejections hbooks
  obtain ⟨hallows, rfl⟩ := h
  cases action with
  | submit | review | crash => exact observes_same rfl rfl rfl
  | claim settings locked now lease token selected =>
      rcases apply_claim s settings locked now lease token selected with
        heq | ⟨target, w, claimed, -, hnext, heq⟩
      · rw [heq]
        exact observes_same rfl rfl rfl
      · rw [heq]
        obtain ⟨row, row', hrow, hfrom, -, -, hw⟩ := claimNext_claims hnext
        exact hfrom.observes hrow hw
  | act name e => exact hproceed hallows fun task h => h.act.1
  | abandon name e => exact hproceed hallows fun task h => h.abandon.1
  | timeOut name =>
      cases hname : s.tasks.lookup name with
      | none =>
          simp only [SystemState.apply, SystemState.proceed, hname]
          exact observes_same rfl rfl rfl
      | some task =>
          simp only [SystemState.apply, SystemState.proceed, hname]
          exact observes_same rfl rfl rfl
  | relay outbox => exact observes_same rfl rfl hallows

/-- The events of a job are a journal of the machine, that leads to its stage. -/
theorem journal_of_reachable (h : system.Reachable s) (jobId : String) :
    jobLife.Journal (s.world.journalOf jobId) (s.world.stageOf jobId) := by
  refine Lts.Journal.of_reachable (·.world.stageOf jobId) (·.world.journalOf jobId) ?_
    (fun _ _ _ => observes_of_step) h
  rintro s rfl
  exact ⟨rfl, rfl⟩

/-- **The events of a job are a history of it.**  In every reachable state they are a journal of the
machine, and lead to the stage its row and its decisions tell; and whatever happens afterwards is
moves of the machine, with their events appended. -/
theorem job_history (h : system.Reachable s) (jobId : String) :
    jobLife.Journal (s.world.journalOf jobId) (s.world.stageOf jobId) ∧
      ∀ actions s', system.Run s actions s' →
        ∃ moves, jobLife.Run (s.world.stageOf jobId) moves (s'.world.stageOf jobId) ∧
          s'.world.journalOf jobId = s.world.journalOf jobId ++ moves.reduceOption := by
  refine ⟨journal_of_reachable h jobId, fun actions s' hrun => ?_⟩
  exact Lts.trace_of_run (·.world.stageOf jobId) (·.world.journalOf jobId)
    (fun _ _ _ => observes_of_step) h hrun

/-- The history of the job that awaits its review. -/
theorem job_history_awaiting :
    jobLife.Journal (awaitingSystem.world.journalOf overlapRequest.jobId)
      (awaitingSystem.world.stageOf overlapRequest.jobId) :=
  (job_history awaitingSystem_reachable overlapRequest.jobId).1

/-- **When a job has a terminal event.**  Its first event is its creation; it has one terminal event,
of the type of its status and the last of its events, if it has ended and no operator has rejected
it, and none otherwise; and it has one awaiting-review event for each decided review, and one more
while it waits. -/
theorem terminal_events (h : system.Reachable s) {row : ResearchJobRow}
    (hrow : s.world.jobs.lookup jobId = some row) :
    (s.world.journalOf jobId).head? = some .created ∧
      (s.world.journalOf jobId).count .created = 1 ∧
      (s.world.journalOf jobId).count .completed = (if row.status = .completed then 1 else 0) ∧
      (s.world.journalOf jobId).count .failed
        = (if row.status = .failed ∧ s.world.rejected jobId = false then 1 else 0) ∧
      (∀ type ∈ s.world.journalOf jobId, type.Terminal →
        (s.world.journalOf jobId).getLast? = some type) ∧
      (s.world.journalOf jobId).count .awaitingReview
        = (decisionsOf s.world jobId).length + if row.status = .awaitingReview then 1 else 0 := by
  have htold := told_of_journal (journal_of_reachable h jobId)
  rw [stageOf_of_row hrow] at htold
  refine ⟨?_, ?_, ?_, ?_, fun type hmem hterminal => htold.terminal hmem hterminal, ?_⟩
  · simpa [row.phase_ne_absent] using htold.first
  · simpa [row.phase_ne_absent] using htold.created
  · simpa [row.phase_eq_completed] using htold.completed
  · simpa [row.phase_eq_failed] using htold.failed
  · simpa [row.phase_eq_inReview] using htold.reviews

end History

/-- The job that waits is rejected. -/
def rejectRequest : ReviewRequest := { overlapRequest with decision := .reject }

def rejectActions : List SystemAction :=
  .review "review-1" lengthDigest rejectRequest ::
    List.replicate 3 (.act "review-1" (overlapEnv 2))

set_option maxRecDepth 4000 in
theorem rejectActions_replay :
    ((awaitingSystem.replay rejectActions).any fun s =>
      (s.world.jobs.lookup overlapRequest.jobId).any (·.status = .failed) &&
        s.world.rejected overlapRequest.jobId) = true := by
  decide

/-- A job that an operator has rejected is FAILED, and no event says so. -/
theorem terminal_events_rejected : ∃ s row, system.Reachable s ∧
    s.world.jobs.lookup overlapRequest.jobId = some row ∧ row.status = .failed ∧
      (s.world.journalOf overlapRequest.jobId).count .failed = 0 := by
  obtain ⟨s, hreplay, hs⟩ := (Option.any_eq_true _ _).1 rejectActions_replay
  obtain ⟨hfailed, hrejected⟩ := Bool.and_eq_true_iff.1 hs
  obtain ⟨row, hrow, hstatus⟩ := (Option.any_eq_true _ _).1 hfailed
  have hreach := awaitingSystem_reachable.run (run_of_replay hreplay)
  refine ⟨s, row, hreach, hrow, of_decide_eq_true hstatus, ?_⟩
  rw [(terminal_events hreach hrow).2.2.2.1, hrejected]
  simp

end Atlas
