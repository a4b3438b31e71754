/-
**Claim fencing.**

The transition system of the queue: its state is the table `research_jobs`, its steps are the
operations of the repository, issued in any order by any number of workers and reviewers.  Each
call carries the instant its caller reads off its own clock, the token it presents, and whatever
else it is given; each `claim_next` brings a token no claim has used.  A call that returns `False`
or raises leaves the table as it is.

What fencing means is that a claim, once committed, shuts out every older token: the token of a
row is only ever replaced by a fresh one or removed, so an old token never comes back, and a call
that presents it finds another token or none on the row.

Main definitions:

* `Atlas.QueueCall`, `Atlas.QueueState.apply`, `Atlas.queue` — the calls and the system;
* `Atlas.RowChange` — what a step can do to the row of one job.

Main results:

* `Atlas.rowChange_of_step` — **every step is one of the five changes**;
* `Atlas.run_supersedes` — a superseded token stays superseded;
* `Atlas.claim_fencing` — old tokens change nothing, fenced writes own the claim, and ended jobs
  stay as they are.
-/

import Atlas.JobRepository
import Atlas.TransitionSystem

set_option relaxedAutoImplicit false
set_option autoImplicit false

namespace Atlas

open Checked

/-! ### The calls -/

/-- The fenced operations, with the arguments besides job, token and instant.  Those that consult
`workflow_executions` bring the table as they find it. -/
inductive FencedCall where
  | finalizeCompletion (result : String)
  | finalizeFailure (reason : String)
  | setActiveWorkflowExecution (executions : Executions) (executionId : String)
  | scheduleRetry (executions : Executions) (nextAttemptAt : Instant)
      (abandonExecutionId : Option String)
  | transitionAwaitingReview
  | incrementRepairCount
  | incrementEvaluationAttemptCount

/-- What a fenced call makes of the locked row. -/
def FencedCall.run (call : FencedCall) (model : Option ResearchJobRow) (token : String)
    (time : Instant) : Except PersistenceError (Option ResearchJobRow) :=
  match call with
  | finalizeCompletion result => Atlas.finalizeCompletion model token result time
  | finalizeFailure reason => Atlas.finalizeFailure model token reason time
  | setActiveWorkflowExecution executions executionId =>
      Atlas.setActiveWorkflowExecution executions model token executionId time
  | scheduleRetry executions nextAttemptAt abandonExecutionId =>
      Option.map Prod.fst <$>
        Atlas.scheduleRetry executions model token nextAttemptAt time abandonExecutionId
  | transitionAwaitingReview => Atlas.transitionAwaitingReview model token time
  | incrementRepairCount => Atlas.incrementRepairCount model token time
  | incrementEvaluationAttemptCount => Atlas.incrementEvaluationAttemptCount model token time

/-- The calls of workers, reviewers and submitters.  A `claimNext` says which rows other
transactions have locked and which row it selects. -/
inductive QueueCall where
  | add (job : ResearchJob) (idempotencyKey requestFingerprint : String)
      (traceparent : Option String)
  | claimNext (locked : List String) (now leaseExpiresAt : Instant) (claimToken : String)
      (evaluationProfile : Option String) (selected : Option String)
  | fenced (jobId claimToken : String) (time : Instant) (call : FencedCall)
  | approveReview (executions : Executions) (jobId executionId : String)
      (nextAttemptAt time : Instant)
  | failFromReview (jobId reason : String) (time : Instant)

/-- The call is a submission. -/
def QueueCall.IsAdd : QueueCall → Prop
  | .add .. => True
  | _ => False

/-- The call is a review transition. -/
def QueueCall.IsReview : QueueCall → Prop
  | .approveReview .. | .failFromReview .. => True
  | _ => False

/-- The table, and the tokens the claims have used so far. -/
structure QueueState where
  jobs : Jobs
  issued : List String

namespace QueueState

/-- The state after a call. -/
def apply (s : QueueState) : QueueCall → QueueState
  | .add job key fingerprint traceparent =>
      match addJob s.jobs job key fingerprint traceparent with
      | .ok jobs => { s with jobs := jobs }
      | .error _ => s
  | .claimNext _ _ _ token _ none => { s with issued := token :: s.issued }
  | .claimNext _ now lease token profile (some jobId) =>
      { jobs := s.jobs.write jobId
          ((claimSelected s.jobs jobId now lease token profile).map Prod.fst)
        issued := token :: s.issued }
  | .fenced jobId token time call =>
      { s with jobs := s.jobs.write jobId (written (call.run (s.jobs.lookup jobId) token time)) }
  | .approveReview executions jobId executionId next time =>
      { s with
        jobs := s.jobs.write jobId (written
          (approveReviewToPending executions (s.jobs.lookup jobId) executionId next time)) }
  | .failFromReview jobId reason time =>
      { s with
        jobs := s.jobs.write jobId
          (written (Atlas.failFromReview (s.jobs.lookup jobId) reason time)) }

/-- A claim brings a token no claim has used, and locks a row its query selects. -/
def Allows (s : QueueState) : QueueCall → Prop
  | .claimNext locked now _ token profile selected =>
      token ∉ s.issued ∧ Selects s.jobs locked now (workerProfile profile) selected
  | _ => True

instance (s : QueueState) (call : QueueCall) : Decidable (s.Allows call) :=
  match call with
  | .claimNext _ _ _ _ _ _ => inferInstanceAs (Decidable (_ ∧ _))
  | .add .. | .fenced .. | .approveReview .. | .failFromReview .. => .isTrue trivial

end QueueState

/-- The transition system of the queue. -/
def queue : Lts QueueState QueueCall where
  init s := s.jobs = ∅ ∧ s.issued = []
  step s call s' := s.Allows call ∧ s' = s.apply call

/-! ### What a step does to a row -/

/-- What a call can make of the row of one job: leave it, insert it without a claim, claim it with
the call's token, write it under the running claim of the call's token, or write it while it
awaits review.  No write but a claim puts a token on the row. -/
inductive RowChange (call : QueueCall) :
    Option ResearchJobRow → Option ResearchJobRow → Prop where
  | same (row : Option ResearchJobRow) : RowChange call row row
  | added (row : ResearchJobRow) (hcall : call.IsAdd) (htoken : row.claimToken = none) :
      RowChange call none (some row)
  | claimed (row row' : ResearchJobRow) (locked : List String) (now lease : Instant)
      (token : String) (profile selected : Option String)
      (hcall : call = .claimNext locked now lease token profile selected)
      (hstatus : row.status = .pending ∨ row.status = .running)
      (htoken : row'.claimToken = some token) :
      RowChange call (some row) (some row')
  | fenced (row row' : ResearchJobRow) (jobId token : String) (time : Instant)
      (op : FencedCall) (hcall : call = .fenced jobId token time op)
      (howns : ownsRunningClaim row token time = true)
      (htoken : row'.claimToken = row.claimToken ∨ row'.claimToken = none) :
      RowChange call (some row) (some row')
  | reviewed (row row' : ResearchJobRow) (hcall : call.IsReview)
      (hstatus : row.status = .awaitingReview)
      (htoken : row'.claimToken = row.claimToken ∨ row'.claimToken = none) :
      RowChange call (some row) (some row')

/-- **A fenced call that writes owns the running claim**, and puts no token on the row. -/
theorem fenced_run_eq_some {call : FencedCall} {model : Option ResearchJobRow}
    {row' : ResearchJobRow} {token : String} {time : Instant}
    (h : call.run model token time = .ok (some row')) :
    ∃ row, model = some row ∧ ownsRunningClaim row token time = true ∧
      (row'.claimToken = row.claimToken ∨ row'.claimToken = none) := by
  cases call with
  | finalizeCompletion result =>
      obtain ⟨row, hrow, howns, row₁, -, -, rfl⟩ := finalizeCompletion_eq_some.1 h
      exact ⟨row, hrow, howns, .inr rfl⟩
  | finalizeFailure reason =>
      obtain ⟨row, hrow, howns, row₁, -, -, rfl⟩ := finalizeFailure_eq_some.1 h
      exact ⟨row, hrow, howns, .inr rfl⟩
  | setActiveWorkflowExecution executions executionId =>
      obtain ⟨row, hrow, howns, -, -, rfl⟩ := setActiveWorkflowExecution_eq_some.1 h
      exact ⟨row, hrow, howns, .inl rfl⟩
  | scheduleRetry executions next abandon =>
      simp only [FencedCall.run, map_eq_ok, Option.map_eq_some_iff] at h
      obtain ⟨_, hschedule, ⟨_, executions'⟩, rfl, rfl⟩ := h
      obtain ⟨row, hrow, howns, hretry, -⟩ := scheduleRetry_eq_some.1 hschedule
      obtain ⟨row₁, -, -, rfl⟩ := retryRow_eq_ok.1 hretry
      exact ⟨row, hrow, howns, .inr rfl⟩
  | transitionAwaitingReview =>
      obtain ⟨row, hrow, howns, row₁, -, -, rfl⟩ := transitionAwaitingReview_eq_some.1 h
      exact ⟨row, hrow, howns, .inr rfl⟩
  | incrementRepairCount =>
      obtain ⟨row, hrow, howns, -, -, rfl⟩ := incrementRepairCount_eq_some.1 h
      exact ⟨row, hrow, howns, .inl rfl⟩
  | incrementEvaluationAttemptCount =>
      obtain ⟨row, hrow, howns, -, -, rfl⟩ := incrementEvaluationAttemptCount_eq_some.1 h
      exact ⟨row, hrow, howns, .inl rfl⟩

theorem approveReviewToPending_change {executions : Executions} {model : Option ResearchJobRow}
    {row' : ResearchJobRow} {executionId : String} {next time : Instant}
    (h : approveReviewToPending executions model executionId next time = .ok (some row')) :
    ∃ row, model = some row ∧ row.status = .awaitingReview ∧
      row'.claimToken = row.claimToken := by
  obtain ⟨row, hrow, hstatus, row₁, htransition, hflush⟩ := approveReviewToPending_eq_some.1 h
  obtain ⟨_, -, rfl⟩ := transition_columns htransition
  obtain ⟨-, -, rfl⟩ := flushBinding_eq_ok.1 hflush
  exact ⟨row, hrow, hstatus, rfl⟩

theorem addJob_eq_ok {jobs jobs' : Jobs} {job : ResearchJob} {key fingerprint : String}
    {traceparent : Option String} (h : addJob jobs job key fingerprint traceparent = .ok jobs') :
    ∃ row : ResearchJobRow, jobs.lookup row.id = none ∧ row.claimToken = none ∧
      jobs' = jobs.insert row.id row := by
  simp only [addJob, bind_eq_ok, flush_eq_ok, ensure_eq_ok, pure_eq_ok] at h
  obtain ⟨row, ⟨-, rfl⟩, _, hnew, _, -, rfl⟩ := h
  exact ⟨_, hnew, rfl, rfl⟩

/-- The row of a job after the row of a job was written, when a written row is one of the
changes. -/
theorem rowChange_write {call : QueueCall} {jobs : Jobs} (jobId : String)
    {r : Option ResearchJobRow}
    (h : ∀ row', r = some row' → RowChange call (jobs.lookup jobId) (some row'))
    (other : String) :
    RowChange call (jobs.lookup other) ((jobs.write jobId r).lookup other) := by
  cases r with
  | none => exact .same _
  | some row' =>
      rw [Table.write_some, Table.lookup_insert_eq]
      split
      · rename_i heq
        subst heq
        exact h row' rfl
      · exact .same _

/-- **Every step changes the row of a job in one of the five ways.** -/
theorem rowChange_of_step {s s' : QueueState} {call : QueueCall} (h : queue.step s call s')
    (jobId : String) : RowChange call (s.jobs.lookup jobId) (s'.jobs.lookup jobId) := by
  obtain ⟨hallows, rfl⟩ := h
  cases call with
  | add job key fingerprint traceparent =>
      simp only [QueueState.apply]
      cases hadd : addJob s.jobs job key fingerprint traceparent with
      | error e => exact .same _
      | ok jobs =>
          obtain ⟨row, hnew, htoken, rfl⟩ := addJob_eq_ok hadd
          rw [← Table.write_some]
          refine rowChange_write row.id ?_ jobId
          rintro _ ⟨⟩
          rw [hnew]
          exact .added row trivial htoken
  | claimNext locked now lease token profile selected =>
      cases selected with
      | none => exact .same _
      | some chosen =>
          refine rowChange_write chosen ?_ jobId
          intro row' hrow'
          obtain ⟨⟨_, claimed⟩, hclaimed, rfl⟩ := Option.map_eq_some_iff.1 hrow'
          obtain ⟨row, hrow, hwritten⟩ := Option.bind_eq_some_iff.1 hclaimed
          obtain ⟨hfrom, -⟩ := claimRow_eq_some (written_eq_some.1 hwritten)
          rw [hrow]
          exact .claimed row _ locked now lease token profile (some chosen) rfl hfrom.claimable
            hfrom.token
  | fenced target token time op =>
      refine rowChange_write target ?_ jobId
      intro row' hrow'
      obtain ⟨row, hrow, howns, htoken⟩ := fenced_run_eq_some (written_eq_some.1 hrow')
      rw [hrow]
      exact .fenced row row' target token time op rfl howns htoken
  | approveReview executions target executionId next time =>
      refine rowChange_write target ?_ jobId
      intro row' hrow'
      obtain ⟨row, hrow, hstatus, htoken⟩ :=
        approveReviewToPending_change (written_eq_some.1 hrow')
      rw [hrow]
      exact .reviewed row row' trivial hstatus (.inl htoken)
  | failFromReview target reason time =>
      refine rowChange_write target ?_ jobId
      intro row' hrow'
      obtain ⟨row, hrow, hstatus, _, -, -, rfl⟩ :=
        failFromReview_eq_some.1 (written_eq_some.1 hrow')
      rw [hrow]
      exact .reviewed row _ trivial hstatus (.inr rfl)

/-! ### Superseded tokens -/

/-- The token `old` has been used by a claim, and the row of the job does not carry it. -/
def Superseded (jobId old : String) (s : QueueState) : Prop :=
  old ∈ s.issued ∧ ∀ row, s.jobs.lookup jobId = some row → row.claimToken ≠ some old

theorem issued_subset_apply (s : QueueState) (call : QueueCall) :
    s.issued ⊆ (s.apply call).issued := by
  cases call with
  | add job key fingerprint traceparent =>
      simp only [QueueState.apply]
      split <;> exact fun _ h => h
  | claimNext locked now lease token profile selected =>
      cases selected <;> exact List.subset_cons_self token s.issued
  | fenced | approveReview | failFromReview => exact fun _ h => h

/-- A fresh token is not a superseded one, and only a claim puts a token on a row. -/
theorem superseded_preserved (jobId old : String) : queue.Preserved (Superseded jobId old) := by
  intro s call s' hs hstep
  have hissued : old ∈ s'.issued := by
    rw [hstep.2]
    exact issued_subset_apply s call hs.1
  refine ⟨hissued, ?_⟩
  intro row' hrow' hold
  have hchange := rowChange_of_step hstep jobId
  rw [hrow'] at hchange
  generalize hrow : s.jobs.lookup jobId = model at hchange
  cases hchange with
  | same => exact hs.2 row' hrow hold
  | added _ hcall htoken => exact absurd (htoken.symm.trans hold) (by simp)
  | claimed row _ locked now lease token profile selected hcall hstatus htoken =>
      -- the claim's own token is fresh, so it is not the old one
      have hfresh : token ∉ s.issued := by
        have hallows := hstep.1
        rw [hcall] at hallows
        exact hallows.1
      have heq : token = old := Option.some.inj (htoken.symm.trans hold)
      exact hfresh (heq ▸ hs.1)
  | fenced row _ target token time op hcall howns htoken =>
      rcases htoken with htoken | htoken
      · exact hs.2 row hrow (htoken.symm.trans hold)
      · exact absurd (htoken.symm.trans hold) (by simp)
  | reviewed row _ hcall hstatus htoken =>
      rcases htoken with htoken | htoken
      · exact hs.2 row hrow (htoken.symm.trans hold)
      · exact absurd (htoken.symm.trans hold) (by simp)

/-- **A superseded token stays superseded**, whatever happens next. -/
theorem run_supersedes {jobId old : String} {s s' : QueueState} {calls : List QueueCall}
    (hrun : queue.Run s calls s') (h : Superseded jobId old s) : Superseded jobId old s' :=
  hrun.preserves (superseded_preserved jobId old) h

/-- The call is a claim of the job with this token, and it commits. -/
def CommitsClaim (s : QueueState) (call : QueueCall) (jobId token : String) : Prop :=
  ∃ locked now lease profile claim, call = .claimNext locked now lease token profile (some jobId) ∧
    claimSelected s.jobs jobId now lease token profile = some claim

/-- A committed claim supersedes every token used before it. -/
theorem superseded_of_claim {s s' : QueueState} {call : QueueCall} {jobId token old : String}
    (hstep : queue.step s call s') (hclaim : CommitsClaim s call jobId token)
    (hold : old ∈ s.issued) : Superseded jobId old s' := by
  obtain ⟨locked, now, lease, profile, ⟨row', claimed⟩, rfl, hclaimed⟩ := hclaim
  obtain ⟨⟨hfresh, -⟩, rfl⟩ := hstep
  refine ⟨List.mem_cons_of_mem token hold, ?_⟩
  intro row hrow heq
  simp only [QueueState.apply, hclaimed, Option.map_some, Table.write_some, AList.lookup_insert,
    Option.some.injEq] at hrow
  subst hrow
  obtain ⟨before, -, hwritten⟩ := Option.bind_eq_some_iff.1 hclaimed
  have htoken := (claimRow_eq_some (written_eq_some.1 hwritten)).1.token
  have : token = old := Option.some.inj (htoken.symm.trans heq)
  exact hfresh (this ▸ hold)

/-- A fenced call with a superseded token changes nothing of the job. -/
theorem fenced_superseded {s s' : QueueState} {jobId old target : String} {time : Instant}
    {op : FencedCall} (h : Superseded jobId old s)
    (hstep : queue.step s (.fenced target old time op) s') :
    s'.jobs.lookup jobId = s.jobs.lookup jobId := by
  have hchange := rowChange_of_step hstep jobId
  generalize hrow : s.jobs.lookup jobId = before at hchange
  generalize s'.jobs.lookup jobId = after at hchange
  cases hchange with
  | same => rfl
  | claimed row row' locked now lease token profile selected hcall => cases hcall
  | fenced row row' target token time op hcall howns =>
      cases hcall
      exact absurd (ownsRunningClaim_eq_true.1 howns).2.1 (h.2 row hrow)
  | added row hcall => exact hcall.elim
  | reviewed row row' hcall => exact hcall.elim

/-! ### Ended jobs -/

/-- No step changes the row of a job that has ended: none of the five changes applies to it. -/
theorem terminal_preserved (jobId : String) (row : ResearchJobRow) (hend : row.status.Terminal) :
    queue.Preserved fun s => s.jobs.lookup jobId = some row := by
  intro s call s' hrow hstep
  have hchange := rowChange_of_step hstep jobId
  rw [hrow] at hchange
  generalize s'.jobs.lookup jobId = after at hchange ⊢
  cases hchange with
  | same => rfl
  | claimed _ row' locked now lease token profile selected hcall hstatus =>
      rcases hend with hend | hend <;> simp [hend] at hstatus
  | fenced _ row' target token time op hcall howns =>
      have hrunning := (ownsRunningClaim_eq_true.1 howns).1
      rcases hend with hend | hend <;> simp [hend] at hrunning
  | reviewed _ row' hcall hstatus =>
      rcases hend with hend | hend <;> simp [hend] at hstatus

/-! ### Claim fencing -/

/-- **Claim fencing over whole runs.**  In every state, reachable or not: after a claim of a job
with token `T₂` committed, a later call that carries a token used before it changes nothing of the
job; a fenced call writes only on a RUNNING row with the caller's token and a lease strictly after
the caller's instant; and the row of an ended job is the same in every later state. -/
theorem claim_fencing (s : QueueState) :
    (∀ call s₁ calls s₂ s₃ jobId target T₁ T₂ time op,
        queue.step s call s₁ → CommitsClaim s call jobId T₂ → T₁ ∈ s.issued →
        queue.Run s₁ calls s₂ → queue.step s₂ (.fenced target T₁ time op) s₃ →
        s₃.jobs.lookup jobId = s₂.jobs.lookup jobId) ∧
    (∀ jobId token time (op : FencedCall) row',
        op.run (s.jobs.lookup jobId) token time = .ok (some row') →
        ∃ row lease, s.jobs.lookup jobId = some row ∧ row.status = .running ∧
          row.claimToken = some token ∧ row.leaseExpiresAt = some lease ∧ time < lease) ∧
    (∀ jobId row, s.jobs.lookup jobId = some row → row.status.Terminal →
        ∀ calls s', queue.Run s calls s' → s'.jobs.lookup jobId = some row) := by
  refine ⟨?_, ?_, ?_⟩
  · intro call s₁ calls s₂ s₃ jobId target T₁ T₂ time op hclaim hcommits hold hrun hstep
    have hsuperseded := superseded_of_claim hclaim hcommits hold
    exact fenced_superseded (run_supersedes hrun hsuperseded) hstep
  · intro jobId token time op row' h
    obtain ⟨row, hrow, howns, -⟩ := fenced_run_eq_some h
    obtain ⟨hstatus, htoken, lease, hlease, hlt⟩ := ownsRunningClaim_eq_true.1 howns
    exact ⟨row, lease, hrow, hstatus, htoken, hlease, hlt⟩
  · intro jobId row hrow hend calls s' hrun
    exact hrun.preserves (terminal_preserved jobId row hend) hrow

/-- A worker whose lease expired reports its result after another worker has reclaimed the job:
the job stays with the second worker. -/
theorem claim_fencing_late_result :
    let first := String.ofList (List.replicate 64 'a')
    let second := String.ofList (List.replicate 64 'b')
    let submit : QueueCall := .add
      { id := "job-1", question := "why?", status := .pending, createdAt := 0, updatedAt := 0
        startedAt := none, finishedAt := none, result := none, failureReason := none }
      "key-1" (String.ofList (List.replicate 64 'f')) none
    let s := ((⟨∅, []⟩ : QueueState).apply submit).apply
      (.claimNext [] 10 20 first none (some "job-1"))
    let s₁ := s.apply (.claimNext [] 30 40 second none (some "job-1"))
    (s₁.apply (.fenced "job-1" first 15 (.finalizeCompletion "late"))).jobs.lookup "job-1"
        = s₁.jobs.lookup "job-1" ∧
      (s₁.jobs.lookup "job-1").map (·.claimToken) = some (some second) := by
  intro first second submit s s₁
  refine ⟨?_, by decide⟩
  refine (claim_fencing s).1 (.claimNext [] 30 40 second none (some "job-1")) s₁ [] s₁ _ "job-1"
    "job-1" first second 15 (.finalizeCompletion "late") ⟨by decide, rfl⟩ ?_ (by decide) .nil
    ⟨trivial, rfl⟩
  exact ⟨[], 30, 40, none, _, rfl, Option.eq_some_of_isSome (by decide)⟩

end Atlas
