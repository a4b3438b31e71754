/-
**The claim fence behind an unlocked read.**

Two transactions read the row of their job before they lock it: the one that pauses a job for
review reads its counters, and the one that begins an evaluation reads its claim.  The guarded
write that follows locks the row, but its session has the row already, so the fence is evaluated on
the attributes of the first read.  A reclaim that commits between the two is not seen: the write
succeeds under a claim that has been superseded.

The transactions under one token overlap as well: when processing times out, the worker fails the
job while the executor's thread may have such a session open.  So a claim can be taken from the row
in two ways between the read and the lock, by a reclaim and by its own holder.  While neither
happens the claim of the instance is the committed one, and the fence is what it says.

Main definitions:

* `Atlas.ReadSession`, `Atlas.SessionCall`, `Atlas.claimSessions` — the system of sessions and
  queue operations;
* `Atlas.ClaimKept` — no commit takes away the claim that the instance of an open session shows.

Main results:

* `Atlas.fence_on_committed_row` — **when the claim is kept in between, a write that succeeds has
  the token of the committed row**;
* `Atlas.fence_on_stale_row` — a run in which it has not.
-/

import Atlas.GuardedWrites
import Atlas.RowConstraints

set_option relaxedAutoImplicit false
set_option autoImplicit false

namespace Atlas

open Checked

/-! ### The system -/

/-- A session that has read the row of its job without a lock. -/
structure ReadSession where
  jobId : String
  token : String
  time : Instant
  write : GuardedWrite
  loaded : Option ResearchJobRow
  deriving DecidableEq

/-- The queue, and the sessions between their unlocked read and their lock. -/
structure SessionState where
  queue : QueueState
  sessions : List ReadSession

/-- The operations in a transaction of their own, and the steps of the sessions. -/
inductive SessionCall where
  | call (call : QueueCall)
  /-- The unlocked read.  `get_attempt_counts` answers with the counters alone, so its session may
  have let go of the instance. -/
  | read (session : ReadSession)
  /-- The lock, the guarded write and the commit. -/
  | write (session : ReadSession)
  /-- The transaction is rolled back, or the worker crashed. -/
  | drop (session : ReadSession)

/-- What the guarded write of a session answers, in the committed table. -/
def ReadSession.result (session : ReadSession) (jobs : Jobs) :
    Except PersistenceError (Option ResearchJobRow) :=
  match jobs.lookup session.jobId with
  | none => .ok none
  | some committed =>
      session.write.session session.loaded committed session.token session.time

/-- The table after the guarded write of a session. -/
def ReadSession.commit (session : ReadSession) (s : QueueState) : QueueState :=
  { s with jobs := s.jobs.write session.jobId (written (session.result s.jobs)) }

/-- Sessions and operations in any order, under the same token as well as under others. -/
def claimSessions : Lts SessionState SessionCall where
  init s := queue.init s.queue ∧ s.sessions = []
  step s label s' :=
    match label with
    | .call call => queue.step s.queue call s'.queue ∧ s'.sessions = s.sessions
    | .read session =>
        (session.loaded = s.queue.jobs.lookup session.jobId ∨
          session.write = .transitionAwaitingReview ∧ session.loaded = none) ∧
        s' = { s with sessions := session :: s.sessions }
    | .write session => session ∈ s.sessions ∧
        s' = { queue := session.commit s.queue, sessions := s.sessions.erase session }
    | .drop session => session ∈ s.sessions ∧
        s' = { s with sessions := s.sessions.erase session }

/-! ### Keeping the claim -/

/-- The fence passes on the instance the session has. -/
def ReadSession.Passes (session : ReadSession) : Prop :=
  ∃ row, session.loaded = some row ∧ ownsRunningClaim row session.token session.time = true

/-- The operations that leave the job without its claim. -/
def FencedCall.endsClaim : FencedCall → Bool
  | finalizeCompletion _ | finalizeFailure _ | scheduleRetry _ _ _ | transitionAwaitingReview => true
  | setActiveWorkflowExecution _ _ | incrementRepairCount | incrementEvaluationAttemptCount => false

/-- The call ends the claim of the job under this token, and it commits. -/
def CommitsEnd (s : QueueState) (call : QueueCall) (jobId token : String) : Prop :=
  ∃ time op row', call = .fenced jobId token time op ∧ op.endsClaim = true ∧
    op.run (s.jobs.lookup jobId) token time = .ok (some row')

/-- No commit takes the claim of an open session away from the row, where the instance of the
session shows it. -/
structure ClaimKept (s : SessionState) (label : SessionCall) : Prop where
  /-- No claim of the job lands. -/
  claimed : ∀ call jobId token, label = .call call → CommitsClaim s.queue call jobId token →
    ∀ σ ∈ s.sessions, σ.Passes → σ.jobId ≠ jobId
  /-- No operation under the token of the session ends the claim. -/
  ended : ∀ call jobId token, label = .call call → CommitsEnd s.queue call jobId token →
    ∀ σ ∈ s.sessions, σ.Passes → ¬ (σ.jobId = jobId ∧ σ.token = token)
  /-- Neither does another session under the token. -/
  paused : ∀ session, label = .write session → session.write = .transitionAwaitingReview →
    ∀ σ ∈ s.sessions.erase session, σ.Passes →
      ¬ (σ.jobId = session.jobId ∧ σ.token = session.token)

/-- The rows carry the same claim: the columns the fence looks at. -/
structure ResearchJobRow.SameClaim (row row' : ResearchJobRow) : Prop where
  status : row'.status = row.status
  token : row'.claimToken = row.claimToken
  lease : row'.leaseExpiresAt = row.leaseExpiresAt

theorem ResearchJobRow.SameClaim.refl (row : ResearchJobRow) : row.SameClaim row := ⟨rfl, rfl, rfl⟩

theorem ResearchJobRow.SameClaim.trans {row row' row'' : ResearchJobRow} (h : row.SameClaim row')
    (h' : row'.SameClaim row'') : row.SameClaim row'' :=
  ⟨h'.status.trans h.status, h'.token.trans h.token, h'.lease.trans h.lease⟩

/-- Rows with one claim are owned alike. -/
theorem ResearchJobRow.SameClaim.owns {row row' : ResearchJobRow} (h : row.SameClaim row')
    (token : String) (time : Instant) :
    ownsRunningClaim row' token time = ownsRunningClaim row token time := by
  simp only [ownsRunningClaim, h.status, h.token, h.lease]

/-- An operation that does not end the claim keeps its columns. -/
theorem sameClaim_of_run {op : FencedCall} {row row' : ResearchJobRow} {token : String}
    {time : Instant} (hop : op.endsClaim = false)
    (h : op.run (some row) token time = .ok (some row')) : row.SameClaim row' := by
  cases op with
  | setActiveWorkflowExecution executions executionId =>
      obtain ⟨_, hrow, -, -, -, rfl⟩ := setActiveWorkflowExecution_eq_some.1 h
      cases hrow
      exact ⟨rfl, rfl, rfl⟩
  | incrementRepairCount =>
      obtain ⟨_, hrow, -, -, -, rfl⟩ := incrementRepairCount_eq_some.1 h
      cases hrow
      exact ⟨rfl, rfl, rfl⟩
  | incrementEvaluationAttemptCount =>
      obtain ⟨_, hrow, -, -, -, rfl⟩ := incrementEvaluationAttemptCount_eq_some.1 h
      cases hrow
      exact ⟨rfl, rfl, rfl⟩
  | finalizeCompletion | finalizeFailure | scheduleRetry | transitionAwaitingReview => cases hop

/-- Counting an attempt through the identity map keeps the claim of the committed row, whatever
instance the session has. -/
theorem sameClaim_of_increment {loaded : Option ResearchJobRow} {committed row' : ResearchJobRow}
    {token : String} {time : Instant}
    (h : GuardedWrite.incrementEvaluationAttemptCount.session loaded committed token time
      = .ok (some row')) : committed.SameClaim row' := by
  obtain ⟨changed, hchange, hflush⟩ := IdentityMap.flush_of_write h
  obtain ⟨-, rfl⟩ := flush_eq_ok.1 hflush
  simp only [GuardedWrite.change] at hchange
  by_cases hcap : (IdentityMap.view loaded committed).evaluationAttemptCount ≥ 4
  · rw [if_pos hcap] at hchange
    cases hchange
  · rw [if_neg hcap, Except.ok.injEq, Option.some.injEq] at hchange
    subst hchange
    exact ⟨IdentityMap.column_self _ _, IdentityMap.column_self _ _, IdentityMap.column_self _ _⟩

/-- A claim that does not commit on a job leaves its row alone. -/
theorem lookup_of_not_commitsClaim {s : QueueState} {locked : List String} {now lease : Instant}
    {token jobId : String} {profile selected : Option String}
    (h : ¬ CommitsClaim s (.claimNext locked now lease token profile selected) jobId token) :
    (s.apply (.claimNext locked now lease token profile selected)).jobs.lookup jobId
      = s.jobs.lookup jobId := by
  cases selected with
  | none => rfl
  | some chosen =>
      simp only [QueueState.apply]
      cases hclaim : claimSelected s.jobs chosen now lease token profile with
      | none => rfl
      | some claim =>
          have hne : jobId ≠ chosen := by
            rintro rfl
            exact h ⟨locked, now, lease, profile, claim, rfl, hclaim⟩
          simp only [Option.map_some, Table.write_some]
          exact AList.lookup_insert_ne hne

/-- **An operation that neither claims the job nor ends its claim keeps the claim.** -/
theorem sameClaim_of_call {s s' : QueueState} {call : QueueCall} {jobId token : String}
    {row : ResearchJobRow} (hstep : queue.step s call s')
    (hclaim : ∀ token, ¬ CommitsClaim s call jobId token) (hend : ¬ CommitsEnd s call jobId token)
    (hrow : s.jobs.lookup jobId = some row) (hrunning : row.status = .running)
    (htoken : row.claimToken = some token) :
    ∃ row', s'.jobs.lookup jobId = some row' ∧ row.SameClaim row' := by
  have hchange := rowChange_of_step hstep jobId
  rw [hrow] at hchange
  generalize hafter : s'.jobs.lookup jobId = after at hchange
  cases hchange with
  | same => exact ⟨row, rfl, .refl row⟩
  | claimed _ row' locked now lease token profile selected hcall =>
      refine ⟨row, ?_, .refl row⟩
      rw [← hafter, hstep.2, hcall, lookup_of_not_commitsClaim, hrow]
      rw [← hcall]
      exact hclaim token
  | reviewed _ row' hcall hstatus =>
      rw [hrunning] at hstatus
      cases hstatus
  | fenced _ row' target presented time op hcall howns =>
      refine ⟨row', rfl, ?_⟩
      have hother := (ownsRunningClaim_eq_true.1 howns).2.1
      rw [htoken] at hother
      cases hother
      rw [hstep.2, hcall, QueueState.apply] at hafter
      cases hwritten : written (op.run (s.jobs.lookup target) token time) with
      | none =>
          rw [hwritten, Table.write_none, hrow] at hafter
          cases hafter
          exact .refl row
      | some changed =>
          rw [hwritten, Table.write_some, Table.lookup_insert_eq] at hafter
          split at hafter
          · rename_i heq
            subst heq
            cases hafter
            have hrun := written_eq_some.1 hwritten
            refine sameClaim_of_run ?_ (hrow ▸ hrun)
            rw [Bool.eq_false_iff]
            intro hends
            exact hend ⟨time, op, row', hcall, hends, hrun⟩
          · rw [hrow] at hafter
            cases hafter
            exact .refl row

/-! ### When the claim is kept in between -/

/-- Where the fence passes on the instance of a session, the committed row has the claim of the
instance. -/
def SessionState.Fresh (s : SessionState) : Prop :=
  ∀ σ ∈ s.sessions, ∀ row, σ.loaded = some row → ownsRunningClaim row σ.token σ.time = true →
    ∃ committed, s.queue.jobs.lookup σ.jobId = some committed ∧ row.SameClaim committed

/-- **The fence of a session whose read is fresh is that of the committed row.** -/
theorem SessionState.Fresh.fence {s : SessionState} (h : s.Fresh) {σ : ReadSession}
    (hσ : σ ∈ s.sessions) {row' : ResearchJobRow}
    (hwrite : σ.result s.queue.jobs = .ok (some row')) :
    ∃ row, s.queue.jobs.lookup σ.jobId = some row ∧
      ownsRunningClaim row σ.token σ.time = true := by
  unfold ReadSession.result at hwrite
  cases hrow : s.queue.jobs.lookup σ.jobId with
  | none =>
      rw [hrow] at hwrite
      cases hwrite
  | some committed =>
      rw [hrow] at hwrite
      have howns := IdentityMap.guard_of_write hwrite
      refine ⟨committed, rfl, ?_⟩
      cases hloaded : σ.loaded with
      | none =>
          rw [hloaded, IdentityMap.view_none] at howns
          exact howns
      | some row =>
          rw [hloaded, IdentityMap.view_some] at howns
          obtain ⟨current, hcurrent, hsame⟩ := h σ hσ row hloaded howns
          rw [hrow] at hcurrent
          cases hcurrent
          rw [hsame.owns]
          exact howns

/-- The guarded write of one session keeps the claim another one has read: it is of another job or
token, or it counts an attempt. -/
theorem sameClaim_of_write {s : SessionState} (h : s.Fresh) {session σ : ReadSession}
    (hsession : session ∈ s.sessions)
    (hpaused : session.write = .transitionAwaitingReview →
      ¬ (σ.jobId = session.jobId ∧ σ.token = session.token))
    {row : ResearchJobRow} (hrow : s.queue.jobs.lookup σ.jobId = some row)
    (htoken : row.claimToken = some σ.token) :
    ∃ row', (session.commit s.queue).jobs.lookup σ.jobId = some row' ∧ row.SameClaim row' := by
  simp only [ReadSession.commit]
  cases hwritten : written (session.result s.queue.jobs) with
  | none => exact ⟨row, hrow, .refl row⟩
  | some row' =>
      obtain ⟨committed, hcommitted, howns⟩ := h.fence hsession (written_eq_some.1 hwritten)
      rw [Table.write_some, Table.lookup_insert_eq]
      split
      · rename_i hjob
        rw [hjob, hcommitted] at hrow
        cases hrow
        refine ⟨row', rfl, ?_⟩
        have hother := (ownsRunningClaim_eq_true.1 howns).2.1
        rw [htoken] at hother
        have hresult := written_eq_some.1 hwritten
        unfold ReadSession.result at hresult
        rw [hcommitted] at hresult
        cases hguarded : session.write with
        | transitionAwaitingReview => exact absurd ⟨hjob, Option.some.inj hother⟩ (hpaused hguarded)
        | incrementEvaluationAttemptCount =>
            rw [hguarded] at hresult
            exact sameClaim_of_increment hresult
      · exact ⟨row, hrow, .refl row⟩

/-- While no commit takes the claim of an open session away, every read stays fresh. -/
theorem fresh_preserved :
    (claimSessions.restrict fun s label _ => ClaimKept s label).Preserved SessionState.Fresh := by
  rintro s label s' hs ⟨hstep, hkept⟩
  cases label with
  | call call =>
      obtain ⟨hqueue, hsessions⟩ := hstep
      intro σ hσ row hloaded howns
      rw [hsessions] at hσ
      obtain ⟨committed, hcommitted, hsame⟩ := hs σ hσ row hloaded howns
      obtain ⟨hrunning, htoken, -⟩ := ownsRunningClaim_eq_true.1 howns
      have hpasses : σ.Passes := ⟨row, hloaded, howns⟩
      obtain ⟨after, hafter, hsame'⟩ := sameClaim_of_call hqueue
        (fun token hcommits => hkept.claimed call σ.jobId token rfl hcommits σ hσ hpasses rfl)
        (fun hcommits => hkept.ended call σ.jobId σ.token rfl hcommits σ hσ hpasses ⟨rfl, rfl⟩)
        hcommitted (hsame.status.trans hrunning) (hsame.token.trans htoken)
      exact ⟨after, hafter, hsame.trans hsame'⟩
  | read session =>
      obtain ⟨hread, rfl⟩ := hstep
      intro σ hσ row hloaded howns
      rcases List.mem_cons.1 hσ with rfl | hσ
      · rcases hread with hread | ⟨-, hnone⟩
        · exact ⟨row, hread.symm.trans hloaded, .refl row⟩
        · rw [hnone] at hloaded
          cases hloaded
      · exact hs σ hσ row hloaded howns
  | write session =>
      obtain ⟨hmem, rfl⟩ := hstep
      intro σ hσ row hloaded howns
      obtain ⟨committed, hcommitted, hsame⟩ := hs σ (List.mem_of_mem_erase hσ) row hloaded howns
      obtain ⟨-, htoken, -⟩ := ownsRunningClaim_eq_true.1 howns
      obtain ⟨after, hafter, hsame'⟩ := sameClaim_of_write hs hmem
        (fun hpauses => hkept.paused session rfl hpauses σ hσ ⟨row, hloaded, howns⟩) hcommitted
        (hsame.token.trans htoken)
      exact ⟨after, hafter, hsame.trans hsame'⟩
  | drop session =>
      obtain ⟨hmem, rfl⟩ := hstep
      intro σ hσ row hloaded howns
      exact hs σ (List.mem_of_mem_erase hσ) row hloaded howns

/-- **The fence on the committed row.**  In every run in which no commit takes away the claim that
an open session's unlocked read shows, neither a claim of the job nor an operation that ends the
claim under its own token, a guarded write succeeds only if, when the lock is obtained, the
committed row is RUNNING with the caller's token and an unexpired lease. -/
theorem fence_on_committed_row {s : SessionState}
    (h : (claimSessions.restrict fun s label _ => ClaimKept s label).Reachable s)
    {σ : ReadSession} (hσ : σ ∈ s.sessions) {row' : ResearchJobRow}
    (hwrite : σ.result s.queue.jobs = .ok (some row')) :
    ∃ row, s.queue.jobs.lookup σ.jobId = some row ∧ row.claimToken = some σ.token ∧
      ownsRunningClaim row σ.token σ.time = true := by
  have hfresh : s.Fresh := by
    refine h.invariant ?_ fresh_preserved
    rintro s₀ ⟨-, hnone⟩ σ hσ
    rw [hnone] at hσ
    exact absurd hσ List.not_mem_nil
  obtain ⟨row, hrow, howns⟩ := hfresh.fence hσ hwrite
  exact ⟨row, hrow, (ownsRunningClaim_eq_true.1 howns).2.1, howns⟩

/-! ### Instances -/

/-- Before the first session, every run of the queue is a run of the system. -/
theorem claimSessions_of_queue {q : QueueState} (h : queue.Reachable q) :
    (claimSessions.restrict fun s label _ => ClaimKept s label).Reachable ⟨q, []⟩ := by
  obtain ⟨q₀, calls, hinit, hrun⟩ := h
  induction hrun with
  | nil => exact .of_init ⟨hinit, rfl⟩
  | @snoc q₁ q₂ calls call hrun hstep ih =>
      refine ih.step (l := .call call) ⟨⟨hstep, rfl⟩, ?_⟩
      constructor
      · intro call jobId token hcall hcommits σ hσ
        exact absurd hσ List.not_mem_nil
      · intro call jobId token hcall hcommits σ hσ
        exact absurd hσ List.not_mem_nil
      · intro session hwrite
        cases hwrite

/-- The worker of the first claim has read the row of its job, to begin an evaluation. -/
def readingSession : ReadSession where
  jobId := "job-1"
  token := repeatedToken 'a'
  time := 15
  write := .incrementEvaluationAttemptCount
  loaded := claimedQueue.jobs.lookup "job-1"

theorem readingSession_reachable :
    (claimSessions.restrict fun s label _ => ClaimKept s label).Reachable
      ⟨claimedQueue, [readingSession]⟩ := by
  refine (claimSessions_of_queue claimedQueue_reachable).step (l := .read readingSession)
    ⟨⟨.inl rfl, rfl⟩, ?_⟩
  constructor
  · intro call jobId token hcall
    cases hcall
  · intro call jobId token hcall
    cases hcall
  · intro session hwrite
    cases hwrite

/-- The session is still open when the job is reclaimed. -/
def staleSessions : SessionState where
  queue := claimedQueue.apply (.claimNext [] 30 40 (repeatedToken 'b') none (some "job-1"))
  sessions := [readingSession]

/-- **A stale read passes the fence**: the committed row carries the second claim, and the write
under the first one succeeds. -/
theorem fence_on_stale_row :
    claimSessions.Reachable staleSessions ∧ readingSession ∈ staleSessions.sessions ∧
      (staleSessions.queue.jobs.lookup "job-1").map (·.claimToken)
        = some (some (repeatedToken 'b')) ∧
      readingSession.token ≠ repeatedToken 'b' ∧
      (∃ row', readingSession.result staleSessions.queue.jobs = .ok (some row')) := by
  refine ⟨?_, List.mem_singleton_self _, by decide +kernel, by decide +kernel, ?_⟩
  · obtain ⟨s₀, labels, hinit, hrun⟩ := readingSession_reachable
    exact Lts.Reachable.step ⟨s₀, labels, hinit, hrun.of_restrict⟩
      (l := .call (.claimNext [] 30 40 (repeatedToken 'b') none (some "job-1")))
      ⟨⟨by decide +kernel, rfl⟩, rfl⟩
  · have hwrites : ∃ row', written (readingSession.result staleSessions.queue.jobs) = some row' :=
      Option.isSome_iff_exists.1 (by decide +kernel)
    obtain ⟨row', hrow'⟩ := hwrites
    exact ⟨row', written_eq_some.1 hrow'⟩

/-- While the session is open, its worker counts a repair under the same token. -/
def repairedQueue : QueueState :=
  claimedQueue.apply (.fenced "job-1" (repeatedToken 'a') 15 .incrementRepairCount)

/-- A call under the session's own token that keeps the claim is no harm: the write of the session
finds the claim it has read, on a row that was written in between. -/
theorem fence_on_committed_row_repaired :
    (repairedQueue.jobs.lookup "job-1").map (·.repairCount) = some 1 ∧
      ∃ row, repairedQueue.jobs.lookup "job-1" = some row ∧
        row.claimToken = some (repeatedToken 'a') ∧
        ownsRunningClaim row (repeatedToken 'a') 15 = true := by
  refine ⟨by decide +kernel, ?_⟩
  have hreachable : (claimSessions.restrict fun s label _ => ClaimKept s label).Reachable
      ⟨repairedQueue, [readingSession]⟩ := by
    refine readingSession_reachable.step
      (l := .call (.fenced "job-1" (repeatedToken 'a') 15 .incrementRepairCount))
      ⟨⟨⟨trivial, rfl⟩, rfl⟩, ?_⟩
    constructor
    · rintro call jobId token hcall ⟨_, _, _, _, _, hclaim, -⟩
      cases hcall
      cases hclaim
    · rintro call jobId token hcall ⟨_, op, _, hend, hends, -⟩
      cases hcall
      cases hend
      cases hends
    · intro session hwrite
      cases hwrite
  have hwrites : ∃ row', written (readingSession.result repairedQueue.jobs) = some row' :=
    Option.isSome_iff_exists.1 (by decide +kernel)
  obtain ⟨row', hrow'⟩ := hwrites
  exact fence_on_committed_row hreachable (List.mem_singleton_self _) (written_eq_some.1 hrow')

end Atlas
