/-
**Claims among everybody else.**

The holder of a claim relies on the others to leave its job alone, and keeps to its claim itself.
In the system both hold of every step: an act under a claim is one of the changes its holder may
make, and every other step, of whatever worker, request, crash or relay, leaves the job as its
holder knows it.  So what one call of the processor promises holds of the whole system.  A job is
completed by an act under its claim only, and that act asks for a completed execution: there is no
completed job without one.

Main definitions:

* `Atlas.SystemAction.actor`, `Atlas.Task.claim` — whose act a step is, and under which claim;
* `Atlas.Task.Conducts` — what is left of a task keeps to its claim;
* `Atlas.World.CompletedThrough` — completed jobs have completed executions.

Main results:

* `Atlas.undisturbed_of_step` — **nobody disturbs the claim of another**;
* `Atlas.conducts_of_reachable` — **every task keeps to its claim**;
* `Atlas.claim_conduct` — every step keeps rely and guarantee;
* `Atlas.completed_execution` — **a completed job has a completed execution**.
-/

import Atlas.ExecutionBudget
import Atlas.ProcessorConduct

set_option relaxedAutoImplicit false
set_option autoImplicit false

namespace Atlas

variable {jobId token name target : String} {e : Env} {w w' : World} {issued : List String}

/-! ### What the others leave -/

section Others

variable {row row' : ResearchJobRow}

theorem Exclusive.of_jobs (hjobs : w'.jobs = w.jobs) (h : Exclusive jobId token w) :
    Exclusive jobId token w' where
  others := by
    rw [hjobs]
    exact h.others
  key := by
    rw [hjobs]
    exact h.key

/-- A change of the executions of another job. -/
theorem Undisturbed.of_executions (hjobs : w'.jobs = w.jobs)
    (hexecutions : ExecutionsChange target w.executions w'.executions)
    (hnot : ∀ row, Owned jobId token w row → jobId ≠ target) : Undisturbed jobId token w w' where
  owned row hrow := by
    rw [Owned, hjobs] at hrow
    refine ⟨⟨row, row.evaluationAttemptCount, hrow, rfl⟩, ?_⟩
    intro id execution hjob
    refine hexecutions.others id execution ?_
    rw [hjob]
    exact hnot row hrow
  exclusive hw := hw.of_jobs hjobs

theorem Undisturbed.of_same (hjobs : w'.jobs = w.jobs)
    (hexecutions : w'.executions = w.executions) : Undisturbed jobId token w w' where
  owned row hrow := by
    rw [Owned, hjobs] at hrow
    exact ⟨⟨row, row.evaluationAttemptCount, hrow, rfl⟩, fun _ _ _ => by rw [hexecutions]⟩
  exclusive hw := hw.of_jobs hjobs

/-- A row is written without the token, unless it had the token before and is let go. -/
theorem Undisturbed.of_write (hjobs : w'.jobs = w.jobs.insert target row') (hid : row'.id = target)
    (hexecutions : ExecutionsChange target w.executions w'.executions)
    (htoken : row'.claimToken = some token → row'.status ≠ .running ∧
      ∃ row, w.jobs.lookup target = some row ∧ row.claimToken = some token) :
    Undisturbed jobId token w w' where
  owned row hrow := by
    obtain ⟨hrow, hstatus, hheld⟩ := hrow
    rw [hjobs, Table.lookup_insert_eq] at hrow
    split at hrow
    · cases hrow
      exact absurd hstatus (htoken hheld).1
    · rename_i hne
      refine ⟨⟨row, row.evaluationAttemptCount, ⟨hrow, hstatus, hheld⟩, rfl⟩, ?_⟩
      intro id execution hjob
      refine hexecutions.others id execution ?_
      rw [hjob]
      exact hne
  exclusive hw := by
    constructor
    · intro other row hother hrow hheld
      rw [hjobs, Table.lookup_insert_eq] at hrow
      split at hrow
      · rename_i heq
        cases hrow
        obtain ⟨-, before, hbefore, hheld'⟩ := htoken hheld
        exact hw.others target before (heq ▸ hother) hbefore hheld'
      · exact hw.others other row hother hrow hheld
    · intro row hrow
      rw [hjobs, Table.lookup_insert_eq] at hrow
      split at hrow
      · rename_i heq
        cases hrow
        exact hid.trans heq.symm
      · exact hw.key row hrow

/-- The evaluation attempts of a job are written, as an earlier read counted them. -/
theorem Undisturbed.of_recount {count : ℕ} (hrow : w.jobs.lookup target = some row)
    (hjobs : w'.jobs = w.jobs.insert target { row with evaluationAttemptCount := count })
    (hexecutions : w'.executions = w.executions) : Undisturbed jobId token w w' where
  owned row₁ hrow₁ := by
    refine ⟨?_, fun _ _ _ => by rw [hexecutions]⟩
    obtain ⟨hrow₁, hstatus, hheld⟩ := hrow₁
    rw [hjobs, Table.lookup_insert_eq] at hrow₁
    split at hrow₁
    · rename_i heq
      cases hrow₁
      exact ⟨row, count, ⟨heq ▸ hrow, hstatus, hheld⟩, rfl⟩
    · exact ⟨row₁, row₁.evaluationAttemptCount, ⟨hrow₁, hstatus, hheld⟩, rfl⟩
  exclusive hw := by
    constructor
    · intro other row₁ hother hrow₁
      rw [hjobs, Table.lookup_insert_eq] at hrow₁
      split at hrow₁
      · rename_i heq
        cases hrow₁
        exact hw.others target row (heq ▸ hother) hrow
      · exact hw.others other row₁ hother hrow₁
    · intro row₁ hrow₁
      rw [hjobs, Table.lookup_insert_eq] at hrow₁
      split at hrow₁
      · rename_i heq
        cases hrow₁
        exact hw.key row (heq ▸ hrow)
      · exact hw.key row₁ hrow₁

/-- A write under another claim. -/
theorem RowWrite.undisturbed (h : RowWrite target name w row row') (hne : name ≠ token)
    (hw : w.Sound issued) (hjobs : w'.jobs = w.jobs.insert target row')
    (hexecutions : ExecutionsChange target w.executions w'.executions) :
    Undisturbed jobId token w w' := by
  refine .of_write hjobs (h.kept.id.trans (hw.key target row h.owned.1)) hexecutions ?_
  intro hheld
  rcases h.token with htoken | htoken
  · exact absurd (Option.some.inj (htoken.symm.trans hheld)) hne
  · rw [htoken] at hheld
    cases hheld

/-- **A worker disturbs no claim but its own.** -/
theorem WorkerEffect.undisturbed (h : WorkerEffect target name w w') (hne : name ≠ token)
    (hw : w.Sound issued) : Undisturbed jobId token w w' := by
  cases h with
  | aside h => exact .of_same h.jobs h.executions
  | decided decision hrepair hretry h =>
      subst h
      exact .of_same rfl rfl
  | repaired row row' decision hwrite hrow hjob hrepair h =>
      subst h
      exact hwrite.undisturbed hne hw rfl (.refl _)
  | reran run run' hlookup h hid hkey hjob =>
      subst h
      exact .of_same rfl rfl
  | evaluated counted row row' run hrecounted hnew hplace h =>
      subst h
      obtain ⟨count, rfl⟩ := hrecounted.columns
      exact .of_recount hrecounted.lookup rfl rfl
  | closed row executionId execution status time howned hactive hexecution hrunning hjob htarget
      h =>
      subst h
      refine .of_executions rfl (.of_close status time hexecution hrunning hjob) ?_
      rintro held hheld rfl
      obtain rfl := howned.unique hheld.1
      exact hne (Option.some.inj (howned.2.2.symm.trans hheld.2.2))
  | created row row' executionId execution time hwrite hrow huuid hnew hjob hrunning h =>
      subst h
      have habandoned : ExecutionsChange target w.executions _ := .abandoned time
      refine hwrite.undisturbed hne hw rfl (habandoned.trans (.insert hjob ?_))
      intro before hbefore
      rw [Table.lookup_mapRows, hnew] at hbefore
      cases hbefore
  | paused row row' decision event outbox hwrite hstatus hactive hcounts hdecision htype hrows h =>
      subst h
      exact hwrite.undisturbed hne hw rfl (.refl _)
  | retried row row' decision event outbox executions attempts abandon count next time hwrite
      hstatus hmode hactive hretries hrepairs hevaluations hjob hretry hexecution haggregate
      hpayload hrows habandon h =>
      subst h
      refine hwrite.undisturbed hne hw rfl ?_
      cases abandon with
      | none =>
          subst habandon
          exact .refl _
      | some executionId =>
          obtain ⟨-, execution, hlookup, hrunning, hexecutionJob, rfl⟩ := habandon
          refine .of_close _ _ hlookup hrunning (hexecutionJob.trans ?_)
          exact hw.key target row hwrite.owned.1
  | ended row row' event outbox hwrite hstatus hactive hcounts htype hrows h =>
      subst h
      exact hwrite.undisturbed hne hw rfl (.refl _)

/-- Failing the execution a job is bound to. -/
theorem failExecution_change {executionId : String} {time : Instant} {executions : Executions}
    {updated : Bool} (hw : w.Sound issued) (hrow : w.jobs.lookup target = some row)
    (hactive : row.activeWorkflowExecutionId = some executionId)
    (h : failExecution w.executions executionId time = .ok (updated, executions)) :
    ExecutionsChange target w.executions executions := by
  obtain ⟨execution, hexecution, hjob⟩ := hw.bound target row executionId hrow hactive
  rcases closeRunning_eq_ok.1 h with ⟨closed, hclosed, hrunning, -, -, -, rfl⟩ | ⟨-, -, rfl⟩
  · obtain rfl := Option.some.inj (hexecution.symm.trans hclosed)
    exact .of_close _ _ hexecution hrunning hjob
  · exact .refl _

/-- The row an approval leaves. -/
theorem approveReviewToPending_leaves {executions : Executions} {executionId : String}
    {next time : Instant}
    (h : approveReviewToPending executions (some row) executionId next time = .ok (some row')) :
    row'.status = .pending ∧ row'.claimToken = row.claimToken ∧ row'.id = row.id := by
  obtain ⟨_, hsome, -, row₁, htransition, hflush⟩ := approveReviewToPending_eq_some.1 h
  cases hsome
  obtain ⟨-, -, rfl⟩ := flushBinding_eq_ok.1 hflush
  obtain ⟨hpending, job, hid, rfl⟩ := transition_status .pending (fun _ _ hop => by
    obtain ⟨-, -, rfl⟩ := ResearchJob.approveToPending_eq_ok.1 hop
    rfl) htransition
  exact ⟨hpending, rfl, hid⟩

/-- The row a rejection leaves. -/
theorem failFromReview_leaves {reason : String} {time : Instant}
    (h : failFromReview (some row) reason time = .ok (some row')) :
    row'.status = .failed ∧ row'.claimToken = none ∧ row'.id = row.id := by
  obtain ⟨_, hsome, -, row₁, htransition, -, rfl⟩ := failFromReview_eq_some.1 h
  cases hsome
  obtain ⟨hfailed, job, hid, rfl⟩ := transition_status .failed (fun _ _ hop => by
    obtain ⟨-, -, -, rfl⟩ := ResearchJob.failFromReview_eq_ok.1 hop
    rfl) htransition
  exact ⟨hfailed, rfl, hid⟩

/-- What a request does to the queue: nothing, or it writes a row that is not claimed and not
completed. -/
theorem RequestCommit.writes (h : RequestCommit e w w') (hw : w.Sound issued) :
    w' = w ∨ ∃ target row', w'.jobs = w.jobs.insert target row' ∧ row'.id = target ∧
      (row'.status = .pending ∨ row'.status = .failed) ∧
      (∀ token, row'.claimToken = some token →
        ∃ row, w.jobs.lookup target = some row ∧ row.claimToken = some token) ∧
      ExecutionsChange target w.executions w'.executions := by
  cases h with
  | same h => exact .inl h
  | submitted question idempotencyKey requestFingerprint job h =>
      obtain ⟨row, event, -, hsubmitted⟩ := insertJob_eq_ok h
      obtain ⟨outbox, -, rfl⟩ := hsubmitted.world
      refine .inr ⟨row.id, row, rfl, rfl, .inl hsubmitted.fresh.status, ?_, .refl _⟩
      intro token htoken
      rw [hsubmitted.fresh.token] at htoken
      cases htoken
  | reviewed request fingerprint target answer h =>
      cases recordReview_eq_ok h with
      | replayed decision hfound hsame hanswer h => exact .inl h
      | approved row row' executionId now decision hverdict hrecords hrow hstatus hactive happrove
          h =>
          subst h
          obtain ⟨hpending, htoken, hid⟩ := approveReviewToPending_leaves happrove
          refine .inr ⟨request.jobId, row', rfl, hid.trans (hw.key _ row hrow), .inl hpending, ?_,
            .refl _⟩
          exact fun token hheld => ⟨row, hrow, htoken.symm.trans hheld⟩
      | rejected row row' executionId now executions decision hverdict hrecords hrow hstatus
          hactive hfail hreject h =>
          subst h
          obtain ⟨hfailed, htoken, hid⟩ := failFromReview_leaves hreject
          refine .inr ⟨request.jobId, row', rfl, hid.trans (hw.key _ row hrow), .inr hfailed, ?_,
            failExecution_change hw hrow hactive hfail⟩
          intro token hheld
          rw [htoken] at hheld
          cases hheld

theorem RequestCommit.undisturbed (h : RequestCommit e w w') (hw : w.Sound issued) :
    Undisturbed jobId token w w' := by
  rcases h.writes hw with rfl | ⟨target, row', hjobs, hid, hstatus, htoken, hexecutions⟩
  · exact .refl w'
  · refine .of_write hjobs hid hexecutions fun hheld => ⟨?_, htoken token hheld⟩
    rcases hstatus with hstatus | hstatus <;>
      · rw [hstatus]
        decide

theorem TaskCommit.undisturbed (h : TaskCommit name e w w') (hne : name ≠ token)
    (he : e.DrawsNew w) (hw : w.Sound issued) : Undisturbed jobId token w w' := by
  cases h with
  | worker settings jobId h => exact (h.effect he hw.runs).undisturbed hne hw
  | request h => exact h.undisturbed hw

end Others

/-! ### Who acts -/

/-- The task whose act a step is. -/
def SystemAction.actor : SystemAction → Option String
  | .act name _ | .abandon name _ => some name
  | .submit .. | .review .. | .claim .. | .timeOut _ | .crash _ | .relay _ => none

/-- The claim a task works under. -/
def Task.claim : Task → Option ClaimedResearchJob
  | processing _ claimed _ | timedOut _ claimed _ _ | settling _ claimed _ => some claimed
  | submitting .. | reviewing .. => none

theorem Task.Honest.claimToken {task : Task} {claimed : ClaimedResearchJob} (h : task.Honest name)
    (hclaim : task.claim = some claimed) : claimed.claimToken = name := by
  cases task with
  | processing settings claimed' call =>
      cases hclaim
      exact h.1
  | timedOut settings claimed' call rest =>
      cases hclaim
      exact h.1
  | settling settings claimed' rest =>
      cases hclaim
      exact h.1
  | submitting | reviewing => cases hclaim

section Steps

variable {s s' : SystemState} {action : SystemAction}

/-- The row a claim leaves carries the token of the claim. -/
theorem claimNext_undisturbed {settings : Settings} {now lease : Instant} {drawn : String}
    {claimed : ClaimedResearchJob} (hw : w.Sound issued) (hne : drawn ≠ token)
    (h : claimNext settings w now lease drawn target = some (w', claimed)) :
    Undisturbed jobId token w w' := by
  obtain ⟨row, row', hrow, hfrom, -, -, rfl⟩ := claimNext_claims h
  refine .of_write rfl (hfrom.id.trans (hw.key target row hrow)) (.refl _) ?_
  intro hheld
  exact absurd (Option.some.inj (hfrom.token.symm.trans hheld)) hne

theorem undisturbed_proceed {step : World → Task → World × Task}
    (h : ∀ task, s.tasks.lookup name = some task →
      Undisturbed jobId token s.world (step s.world task).1) :
    Undisturbed jobId token s.world (s.proceed name step).world := by
  cases hname : s.tasks.lookup name with
  | none =>
      simp only [SystemState.proceed, hname]
      exact .refl s.world
  | some task =>
      rw [proceed_world hname]
      exact h task hname

/-- **Nobody disturbs the claim of another**: a step that is no act of the task under the claim
leaves its job alone. -/
theorem undisturbed_of_step (hs : s.Sound) (hissued : token ∈ s.issued)
    (hactor : action.actor ≠ some token) (hstep : system.step s action s') :
    Undisturbed jobId token s.world s'.world := by
  obtain ⟨hallows, rfl⟩ := hstep
  cases action with
  | submit | review | crash | relay => exact .of_same rfl rfl
  | claim settings locked now lease drawn selected =>
      rcases apply_claim s settings locked now lease drawn selected with
        heq | ⟨target, w, claimed, -, hnext, heq⟩
      · rw [heq]
        exact .refl s.world
      · rw [heq]
        refine claimNext_undisturbed hs.world ?_ hnext
        rintro rfl
        exact hallows.1 hissued
  | act name e =>
      refine undisturbed_proceed fun task hname => ?_
      have hne : name ≠ token := fun heq => hactor (congrArg some heq)
      exact (hs.tasks name task hname).act.1.undisturbed hne hallows hs.world
  | abandon name e =>
      refine undisturbed_proceed fun task hname => ?_
      have hne : name ≠ token := fun heq => hactor (congrArg some heq)
      exact (hs.tasks name task hname).abandon.1.undisturbed hne hallows hs.world
  | timeOut name => exact undisturbed_proceed fun task _ => .refl s.world

end Steps

/-! ### Tasks that keep to their claims -/

section Tasks

variable {claimed : ClaimedResearchJob}

/-- An act under the claim after which the rest of the call finds its job undisturbed. -/
def Closes (jobId token : String) (w w' : World) : Prop :=
  Conduct jobId token w w' ∧ Undisturbed jobId token w w'

/-- What is left of a call keeps to its claim. -/
def CallConducts (claimed : ClaimedResearchJob) (call : Activity ProcessingOutcome) (w : World) :
    Prop :=
  call.Complies (Undisturbed claimed.job.id claimed.claimToken)
    (Conduct claimed.job.id claimed.claimToken)
    (OutcomeHolds claimed.job.id claimed.claimToken claimed.continuationMode)
    (fun _ => Exclusive claimed.job.id claimed.claimToken) w

/-- What is left of a task keeps to its claim.  A worker that has given its call up fails the job
whatever the call has done since, and the call goes on whatever the worker has done. -/
def Task.Conducts (w : World) : Task → Prop
  | processing _ claimed call => CallConducts claimed call w
  | timedOut _ claimed call rest =>
      CallConducts claimed call w ∧ rest.Acts fun _ => Closes claimed.job.id claimed.claimToken
  | settling _ claimed rest =>
      rest.Complies (Undisturbed claimed.job.id claimed.claimToken)
        (Conduct claimed.job.id claimed.claimToken) (fun _ _ => True) (fun _ _ => True) w
  | submitting .. | reviewing .. => True

theorem OutcomeHolds.later {mode : ContinuationMode} {outcome : ProcessingOutcome}
    (hw : OutcomeHolds jobId token mode outcome w) (h : Undisturbed jobId token w w') :
    OutcomeHolds jobId token mode outcome w' := by
  cases outcome with
  | completed result executionId => exact Claimed.steady.rely w w' h hw
  | pausedForReview _ | retryScheduled _ _ _ | terminalFailed _ _ => exact trivial

theorem CallConducts.later {call : Activity ProcessingOutcome}
    (hw : CallConducts claimed call w) (h : Undisturbed claimed.job.id claimed.claimToken w w') :
    CallConducts claimed call w' := by
  refine Program.Complies.later ?_ ?_ ?_ h hw
  · exact fun _ _ _ h h' => h.trans h'
  · exact fun _ _ _ h hw => hw.later h
  · exact fun _ _ _ h hw => h.exclusive hw

/-- A task keeps to its claim after what the others have done. -/
theorem Task.Conducts.later {task : Task} (hw : task.Conducts w)
    (h : ∀ claimed, task.claim = some claimed →
      Undisturbed claimed.job.id claimed.claimToken w w') : task.Conducts w' := by
  cases task with
  | processing settings claimed call => exact CallConducts.later hw (h claimed rfl)
  | timedOut settings claimed call rest => exact ⟨hw.1.later (h claimed rfl), hw.2⟩
  | settling settings claimed rest =>
      refine Program.Complies.later ?_ (fun _ _ _ _ h => h) (fun _ _ _ _ h => h) (h claimed rfl) hw
      exact fun _ _ _ h h' => h.trans h'
  | submitting | reviewing => exact trivial

/-- A worker that fails its job lets the rest of the call know: the job is not under the claim. -/
theorem finalizeFailureTx_closes {reason reasonClass : String} {owned : Bool}
    (h : finalizeFailureTx jobId token reason reasonClass e w = .ok (owned, w')) :
    Closes jobId token w w' := by
  have hconduct := finalizeFailureTx_conduct h
  refine ⟨hconduct, ?_⟩
  rcases finalizeFailureTx_eq_ok h with ⟨row', event, outbox, -, hrow', -, -, -, rfl⟩ | ⟨-, rfl⟩
  · obtain ⟨row, -, hreleased, -⟩ := finalizeFailure_released hrow'
    refine ⟨?_, hconduct.exclusive⟩
    rintro held ⟨hheld, hstatus, -⟩
    obtain rfl := Option.some.inj ((AList.lookup_insert _).symm.trans hheld)
    rw [hreleased.status] at hstatus
    cases hstatus
  · exact .refl _

theorem failTimedOut_closes (claimed : ClaimedResearchJob) :
    (failTimedOut claimed).Acts fun _ => Closes claimed.job.id claimed.claimToken := by
  refine .bind (.atomically (fun _ w => ⟨.refl w, .refl w⟩) ?_) fun _ => .ret _
  intro e w owned w' h
  exact finalizeFailureTx_closes h

/-- **An act of a task keeps to its claim**, and so does what is left. -/
theorem Task.Conducts.act {task : Task} (h : task.Conducts w) :
    (∀ claimed, task.claim = some claimed →
      Conduct claimed.job.id claimed.claimToken w (task.act e w).1) ∧
    (task.act e w).2.Conducts (task.act e w).1 := by
  cases task with
  | processing settings claimed call =>
      have hcall : CallConducts claimed call w := h
      rw [CallConducts] at hcall
      cases call with
      | ret outcome =>
          have hholds : OutcomeHolds claimed.job.id claimed.claimToken claimed.continuationMode
              outcome w := Program.complies_ret.1 hcall
          refine ⟨?_, settle_conduct claimed (.ok outcome) w hholds⟩
          rintro _ ⟨⟩
          exact .refl w
      | raise x =>
          refine ⟨?_, settle_conduct claimed (.error x) w trivial⟩
          rintro _ ⟨⟩
          exact .refl w
      | act update next =>
          obtain ⟨hconduct, hnext⟩ := Program.complies_act.1 hcall e w (.refl w)
          refine ⟨?_, hnext⟩
          rintro _ ⟨⟩
          exact hconduct
  | timedOut settings claimed call rest =>
      obtain ⟨hcall, hrest⟩ := h
      obtain ⟨hconduct, hnext⟩ := Program.Complies.perform (.refl w) (.refl w) hcall e
      refine ⟨?_, hnext, hrest⟩
      rintro _ ⟨⟩
      exact hconduct
  | settling settings claimed rest =>
      obtain ⟨hconduct, hnext⟩ := Program.Complies.perform (.refl w) (.refl w) h e
      refine ⟨?_, hnext⟩
      rintro _ ⟨⟩
      exact hconduct
  | submitting | reviewing =>
      refine ⟨?_, trivial⟩
      rintro _ ⟨⟩

theorem Task.Conducts.abandon {task : Task} (h : task.Conducts w) :
    (∀ claimed, task.claim = some claimed →
      Conduct claimed.job.id claimed.claimToken w (task.abandon e w).1) ∧
    (task.abandon e w).2.Conducts (task.abandon e w).1 := by
  cases task with
  | timedOut settings claimed call rest =>
      obtain ⟨hcall, hrest⟩ := h
      obtain ⟨⟨hconduct, hundisturbed⟩, hnext⟩ := hrest.perform ⟨.refl w, .refl w⟩
      refine ⟨?_, hcall.later hundisturbed, hnext⟩
      rintro _ ⟨⟩
      exact hconduct
  | processing | settling | submitting | reviewing => exact ⟨fun _ _ => .refl w, h⟩

theorem Task.Conducts.timeOut {task : Task} (h : task.Conducts w) : task.timeOut.Conducts w := by
  cases task with
  | processing settings claimed call => exact ⟨h, failTimedOut_closes claimed⟩
  | timedOut | settling | submitting | reviewing => exact h

/-- What a worker knows of the job it was handed. -/
theorem claimNext_claimed {settings : Settings} {now lease : Instant} {s : SystemState}
    (hw : s.world.Sound s.issued) (hnew : token ∉ s.issued)
    (h : claimNext settings s.world now lease token target = some (w', claimed)) :
    Claimed claimed.job.id claimed.claimToken claimed.activeWorkflowExecutionId
      claimed.continuationMode Present w' := by
  rw [claimed_id hw h]
  obtain ⟨row, row', hrow, hfrom, hhanded, -, rfl⟩ := claimNext_claims h
  rw [hhanded.token]
  constructor
  · constructor
    · intro other before hother hbefore hheld
      rw [AList.lookup_insert_ne hother] at hbefore
      exact hnew (hw.tokens other before token hbefore hheld)
    · intro row₁ hrow₁
      obtain rfl := Option.some.inj ((AList.lookup_insert _).symm.trans hrow₁)
      exact hfrom.id.trans (hw.key target row hrow)
  · rintro row₁ ⟨hrow₁, -, -⟩
    obtain rfl := Option.some.inj ((AList.lookup_insert _).symm.trans hrow₁)
    refine ⟨hhanded.active.symm, hhanded.mode.symm, ?_⟩
    intro id hid
    obtain ⟨execution, hexecution, hjob⟩ :=
      hw.bound target row id hrow (hfrom.active.symm.trans (hhanded.active.symm.trans hid))
    exact ⟨execution, hexecution, hjob, trivial⟩

end Tasks

/-! ### Reachable states -/

section Reachable

variable {s s' : SystemState} {action : SystemAction}

/-- The database is sound, and the tasks have issued names and keep to their claims. -/
structure SystemState.Conducts (s : SystemState) : Prop where
  sound : s.Sound
  tasks : s.Tasks fun name task => name ∈ s.issued ∧ task.Conducts s.world

/-- The task that proceeds has the property, and the others have it where they stand. -/
theorem SystemState.Tasks.of_proceed {Q : String → Task → Prop}
    {step : World → Task → World × Task}
    (hown : ∀ task, s.tasks.lookup name = some task → Q name (step s.world task).2)
    (hothers : ∀ other task, s.tasks.lookup other = some task → other ≠ name → Q other task) :
    (s.proceed name step).Tasks Q := by
  intro other task' hlookup
  cases hname : s.tasks.lookup name with
  | none =>
      simp only [SystemState.proceed, hname] at hlookup
      refine hothers other task' hlookup ?_
      rintro rfl
      rw [hname] at hlookup
      cases hlookup
  | some task =>
      simp only [SystemState.proceed, hname, Table.lookup_insert_eq] at hlookup
      split at hlookup
      · rename_i heq
        cases hlookup
        exact heq ▸ hown task hname
      · rename_i hne
        exact hothers other task' hlookup hne

/-- **Every task goes on keeping to its claim**: the one that acts by its own promise, and the
others because they are not disturbed. -/
theorem conducts_preserved : system.Preserved SystemState.Conducts := by
  intro s action s' hs hstep
  refine ⟨systemSound_preserved s action s' hs.sound hstep, ?_⟩
  have hissued : s.issued ⊆ s'.issued := by
    rw [hstep.2]
    exact s.issued_subset action
  have hothers (name : String) (task : Task) (hname : s.tasks.lookup name = some task)
      (hactor : action.actor ≠ some name) : name ∈ s'.issued ∧ task.Conducts s'.world := by
    obtain ⟨hmem, hconducts⟩ := hs.tasks name task hname
    refine ⟨hissued hmem, hconducts.later ?_⟩
    intro claimed hclaim
    rw [(hs.sound.tasks name task hname).claimToken hclaim]
    exact undisturbed_of_step hs.sound hmem hactor hstep
  obtain ⟨hallows, rfl⟩ := hstep
  cases action with
  | submit name sha256 question key =>
      refine SystemState.Tasks.start ?_ ⟨List.mem_cons_self, trivial⟩
      exact fun other task hother => hothers other task hother (by simp [SystemAction.actor])
  | review name sha256 request =>
      refine SystemState.Tasks.start ?_ ⟨List.mem_cons_self, trivial⟩
      exact fun other task hother => hothers other task hother (by simp [SystemAction.actor])
  | claim settings locked now lease token selected =>
      have hall : s.Tasks fun name task =>
          name ∈ (s.apply (.claim settings locked now lease token selected)).issued ∧
            task.Conducts (s.apply (.claim settings locked now lease token selected)).world :=
        fun other task hother => hothers other task hother (by simp [SystemAction.actor])
      rcases apply_claim s settings locked now lease token selected with
        heq | ⟨target, w, claimed, -, hnext, heq⟩
      · rw [heq] at hall ⊢
        exact hall
      · rw [heq] at hall ⊢
        refine SystemState.Tasks.start (s := { s with world := w }) hall ⟨List.mem_cons_self, ?_⟩
        exact process_conduct settings claimed w (claimNext_claimed hs.sound.world hallows.1 hnext)
  | act name e =>
      refine SystemState.Tasks.of_proceed ?_ ?_
      · intro task hname
        obtain ⟨hmem, hconducts⟩ := hs.tasks name task hname
        refine ⟨hissued hmem, ?_⟩
        simp only [SystemState.apply, proceed_world hname]
        exact hconducts.act.2
      · intro other task hother hne
        exact hothers other task hother (by simpa [SystemAction.actor] using Ne.symm hne)
  | abandon name e =>
      refine SystemState.Tasks.of_proceed ?_ ?_
      · intro task hname
        obtain ⟨hmem, hconducts⟩ := hs.tasks name task hname
        refine ⟨hissued hmem, ?_⟩
        simp only [SystemState.apply, proceed_world hname]
        exact hconducts.abandon.2
      · intro other task hother hne
        exact hothers other task hother (by simpa [SystemAction.actor] using Ne.symm hne)
  | timeOut name =>
      refine SystemState.Tasks.of_proceed ?_ ?_
      · intro task hname
        obtain ⟨hmem, hconducts⟩ := hothers name task hname (by simp [SystemAction.actor])
        exact ⟨hmem, hconducts.timeOut⟩
      · intro other task hother _
        exact hothers other task hother (by simp [SystemAction.actor])
  | crash name =>
      refine SystemState.Tasks.crash ?_
      exact fun other task hother => hothers other task hother (by simp [SystemAction.actor])
  | relay outbox =>
      exact fun other task hother => hothers other task hother (by simp [SystemAction.actor])

/-- **Every task of a reachable state keeps to its claim.** -/
theorem conducts_of_reachable (h : system.Reachable s) : s.Conducts := by
  refine h.invariant ?_ conducts_preserved
  rintro s rfl
  refine ⟨systemSound_of_reachable (.of_init rfl), ?_⟩
  intro name task hname
  rw [AList.lookup_empty] at hname
  cases hname

end Reachable

/-! ### Completed jobs -/

section Completed

/-- Every completed job has a completed execution. -/
def World.CompletedThrough (w : World) : Prop :=
  ∀ jobId row, w.jobs.lookup jobId = some row → row.status = .completed →
    ∃ executionId execution, w.executions.lookup executionId = some execution ∧
      execution.researchJobId = jobId ∧ execution.status = .completed

/-- A change of the executions of one job lets the completed ones be. -/
theorem ExecutionsChange.completed {executions executions' : Executions} {executionId : String}
    {execution : WorkflowExecutionRow} (h : ExecutionsChange target executions executions')
    (hlookup : executions.lookup executionId = some execution)
    (hcompleted : execution.status = .completed) :
    executions'.lookup executionId = some execution := by
  obtain ⟨execution', hlookup', -, hended⟩ := h.lasting executionId execution hlookup
  rw [hlookup', hended]
  rw [hcompleted]
  decide

/-- What completes no job, and changes the executions of one job, leaves the completed jobs with
theirs. -/
theorem World.CompletedThrough.of_jobs (h : w.CompletedThrough)
    (hexecutions : ExecutionsChange target w.executions w'.executions)
    (hjobs : ∀ jobId row', w'.jobs.lookup jobId = some row' → row'.status = .completed →
      (∃ row, w.jobs.lookup jobId = some row ∧ row.status = .completed) ∨
        ∃ executionId execution, w.executions.lookup executionId = some execution ∧
          execution.researchJobId = jobId ∧ execution.status = .completed) :
    w'.CompletedThrough := by
  intro jobId row' hrow' hstatus'
  have hbefore : ∃ executionId execution, w.executions.lookup executionId = some execution ∧
      execution.researchJobId = jobId ∧ execution.status = .completed := by
    rcases hjobs jobId row' hrow' hstatus' with ⟨row, hrow, hstatus⟩ | hthrough
    · exact h jobId row hrow hstatus
    · exact hthrough
  obtain ⟨executionId, execution, hlookup, hjob, hcompleted⟩ := hbefore
  exact ⟨executionId, execution, hexecutions.completed hlookup hcompleted, hjob, hcompleted⟩

/-- A row is written that is not completed. -/
theorem World.CompletedThrough.write {row' : ResearchJobRow} (h : w.CompletedThrough)
    (hjobs : w'.jobs = w.jobs.insert target row') (hopen : row'.status ≠ .completed)
    (hexecutions : ExecutionsChange target w.executions w'.executions) : w'.CompletedThrough := by
  refine h.of_jobs hexecutions ?_
  intro jobId row hrow hstatus
  rw [hjobs, Table.lookup_insert_eq] at hrow
  split at hrow
  · cases hrow
    exact absurd hstatus hopen
  · exact .inl ⟨row, hrow, hstatus⟩

/-- An act under the claim completes its job only through a completed execution. -/
theorem Conduct.completedThrough (h : Conduct jobId token w w') (hsound : w.Sound issued)
    (hw : w.CompletedThrough) : w'.CompletedThrough := by
  refine hw.of_jobs h.elsewhere.executions ?_
  intro other row' hrow' hstatus'
  by_cases hother : other = jobId
  · subst hother
    -- what the row was when the act left it running, or ended it in another way
    have hopen {row₁ : ResearchJobRow} {status : ResearchJobStatus}
        (hjob : w'.jobs.lookup other = some row₁) (hstatus : row₁.status = status)
        (hne : status ≠ .completed) : False := by
      obtain rfl := Option.some.inj (hjob.symm.trans hrow')
      exact hne (hstatus.symm.trans hstatus')
    cases h.own with
    | same hjob hexecutions => exact .inl ⟨row', hjob ▸ hrow', hstatus'⟩
    | recounted row count hrow hjob hexecutions =>
        obtain rfl := Option.some.inj (hjob.symm.trans hrow')
        exact .inl ⟨row, hrow, hstatus'⟩
    | counted row repairs howned hjob hexecutions =>
        exact (hopen hjob howned.2.1 (by decide)).elim
    | bound row executionId howned hmode hnew hexecution hjob =>
        exact (hopen hjob howned.2.1 (by decide)).elim
    | closed row executionId execution status time howned hactive hexecution hrunning htarget hjobs
        hexecutions => exact .inl ⟨row', hjobs ▸ hrow', hstatus'⟩
    | retried row row₁ howned hjob hreleased hmode hactive =>
        exact (hopen hjob hreleased.status (by decide)).elim
    | paused row row₁ howned hmode hjob hreleased hactive hexecutions =>
        exact (hopen hjob hreleased.status (by decide)).elim
    | completed row row₁ executionId execution howned hactive hexecution hdone hjob hreleased
        hinactive hexecutions =>
        obtain ⟨bound, hbound, hjobOf⟩ := hsound.bound other row executionId howned.1 hactive
        obtain rfl := Option.some.inj (hexecution.symm.trans hbound)
        exact .inr ⟨executionId, execution, hexecution, hjobOf, hdone⟩
    | failed row row₁ howned hjob hreleased hinactive hexecutions =>
        exact (hopen hjob hreleased.status (by decide)).elim
  · rw [h.elsewhere.jobs other hother] at hrow'
    exact .inl ⟨row', hrow', hstatus'⟩

/-- A request completes no job. -/
theorem RequestCommit.completedThrough (h : RequestCommit e w w') (hsound : w.Sound issued)
    (hw : w.CompletedThrough) : w'.CompletedThrough := by
  rcases h.writes hsound with rfl | ⟨target, row', hjobs, -, hstatus, -, hexecutions⟩
  · exact hw
  · refine hw.write hjobs ?_ hexecutions
    rcases hstatus with hstatus | hstatus <;>
      · rw [hstatus]
        decide

/-- A task without a claim is a request. -/
theorem Task.Honest.request {task : Task} (h : task.Honest name) (hclaim : task.claim = none) :
    RequestCommit e w (task.act e w).1 ∧ RequestCommit e w (task.abandon e w).1 := by
  cases task with
  | submitting sha256 question idempotencyKey call | reviewing sha256 request call =>
      exact ⟨(Program.Acts.perform (RequestCommit.refl e w) h).1, .refl e w⟩
  | processing | timedOut | settling => cases hclaim

/-- An act of a task completes a job only under its claim. -/
theorem completedThrough_of_act (e : Env) {task : Task} (hsound : w.Sound issued)
    (hw : w.CompletedThrough) (hworks : ∀ claimed, task.claim = some claimed →
      Conduct claimed.job.id claimed.claimToken w w')
    (hasks : task.claim = none → RequestCommit e w w') : w'.CompletedThrough := by
  cases hclaim : task.claim with
  | none => exact (hasks hclaim).completedThrough hsound hw
  | some claimed => exact (hworks claimed hclaim).completedThrough hsound hw

variable {s s' : SystemState} {action : SystemAction}

/-- **Every step keeps it**: jobs are completed by acts under their claims only. -/
theorem completedThrough_of_step (hs : s.Conducts) (hw : s.world.CompletedThrough)
    (hstep : system.step s action s') : s'.world.CompletedThrough := by
  have hproceed (name : String) {step : World → Task → World × Task}
      (hact : ∀ task, s.tasks.lookup name = some task →
        (step s.world task).1.CompletedThrough) :
      (s.proceed name step).world.CompletedThrough := by
    cases hname : s.tasks.lookup name with
    | none =>
        simp only [SystemState.proceed, hname]
        exact hw
    | some task =>
        rw [proceed_world hname]
        exact hact task hname
  obtain ⟨hallows, rfl⟩ := hstep
  cases action with
  | submit | review | crash | relay => exact hw
  | claim settings locked now lease token selected =>
      rcases apply_claim s settings locked now lease token selected with
        heq | ⟨target, w, claimed, -, hnext, heq⟩
      · rw [heq]
        exact hw
      · rw [heq]
        obtain ⟨row, row', hrow, hfrom, -, -, rfl⟩ := claimNext_claims hnext
        refine hw.write rfl ?_ (.refl _)
        rw [hfrom.status]
        decide
  | act name e =>
      refine hproceed name fun task hname => ?_
      refine completedThrough_of_act e hs.sound.world hw (hs.tasks name task hname).2.act.1 ?_
      exact fun hclaim => ((hs.sound.tasks name task hname).request hclaim).1
  | abandon name e =>
      refine hproceed name fun task hname => ?_
      refine completedThrough_of_act e hs.sound.world hw (hs.tasks name task hname).2.abandon.1 ?_
      exact fun hclaim => ((hs.sound.tasks name task hname).request hclaim).2
  | timeOut name => exact hproceed name fun _ _ => hw

/-- **A completed job has a completed execution**, in every reachable state. -/
theorem completed_execution {row : ResearchJobRow} (h : system.Reachable s)
    (hrow : s.world.jobs.lookup jobId = some row) (hcompleted : row.status = .completed) :
    ∃ executionId execution, s.world.executions.lookup executionId = some execution ∧
      execution.researchJobId = jobId ∧ execution.status = .completed := by
  have hpreserved : system.Preserved fun s => s.Conducts ∧ s.world.CompletedThrough := by
    rintro s action s' ⟨hs, hw⟩ hstep
    exact ⟨conducts_preserved s action s' hs hstep, completedThrough_of_step hs hw hstep⟩
  refine (h.invariant ?_ hpreserved).2 jobId row hrow hcompleted
  rintro s rfl
  refine ⟨conducts_of_reachable (.of_init rfl), ?_⟩
  intro jobId row hrow
  rw [AList.lookup_empty] at hrow
  cases hrow

/-- A job that was reviewed and is completed, with its execution. -/
theorem completed_execution_reviewed :
    ∃ s row executionId execution, system.Reachable s ∧
      s.world.jobs.lookup overlapRequest.jobId = some row ∧ row.status = .completed ∧
      s.world.executions.lookup executionId = some execution ∧
      execution.researchJobId = overlapRequest.jobId ∧ execution.status = .completed := by
  obtain ⟨s, hreplay, hjob⟩ := (Option.any_eq_true _ _).1 repeatedActions_replay
  rw [Bool.and_eq_true] at hjob
  obtain ⟨row, hrow, hstatus⟩ := (Option.any_eq_true _ _).1 hjob.1
  have hreach := awaitingSystem_reachable.run (run_of_replay hreplay)
  have hcompleted : row.status = .completed := of_decide_eq_true hstatus
  obtain ⟨executionId, execution, hlookup, hexecution, hdone⟩ :=
    completed_execution hreach hrow hcompleted
  exact ⟨s, row, executionId, execution, hreach, hrow, hcompleted, hlookup, hexecution, hdone⟩

end Completed

end Atlas
