/-
**The worker.**

`ResearchJobWorker` of `application/worker.py`.  A worker claims a job, hands it to the processor,
and turns what comes back into the end of the job: a result completes it, a terminal failure, a
timeout or an exception fails it, and a pause or a retry leaves it as the processor put it.  The
status and the event that tells of it are written in one transaction.

Main definitions:

* `Atlas.claimNext` — the claim of a selected job;
* `Atlas.finalizeCompletionTx`, `Atlas.finalizeFailureTx` — the two ends, with their events;
* `Atlas.settle`, `Atlas.processClaimed` — what a worker does with a claim.

Main results:

* `Atlas.finalizeCompletionTx_eq_ok`, `Atlas.finalizeFailureTx_eq_ok` — **the status and the event
  are written together, under the claim**.
-/

import Atlas.Processor

set_option relaxedAutoImplicit false
set_option autoImplicit false

namespace Atlas

/-- The claim of the job `claim_next` selected: the database it leaves, and the claim. -/
def claimNext (settings : Settings) (w : World) (now leaseExpiresAt : Instant)
    (claimToken jobId : String) : Option (World × ClaimedResearchJob) :=
  (claimSelected w.jobs jobId now leaseExpiresAt claimToken
    (some settings.evaluationProfile)).map fun claim =>
      ({ w with jobs := w.jobs.insert jobId claim.1 }, claim.2)

/-- A profile a worker may have is not empty. -/
theorem Settings.workerProfile_eq (settings : Settings) :
    workerProfile (some settings.evaluationProfile) = settings.evaluationProfile := by
  have hallowed := settings.profile_allowed
  rw [workerProfile, if_neg]
  intro hempty
  rw [hempty] at hallowed
  exact absurd hallowed (by decide)

/-- A claim changes the row of the selected job. -/
theorem claimNext_eq_some {settings : Settings} {w w' : World} {now lease : Instant}
    {token jobId : String} {claimed : ClaimedResearchJob}
    (h : claimNext settings w now lease token jobId = some (w', claimed)) :
    ∃ row row', w.jobs.lookup jobId = some row ∧
      ClaimedFrom row row' token lease settings.evaluationProfile ∧
      Handed row' claimed token settings.evaluationProfile ∧
      w' = { w with jobs := w.jobs.insert jobId row' } := by
  obtain ⟨⟨row', _⟩, hselected, h⟩ := Option.map_eq_some_iff.1 h
  cases h
  obtain ⟨row, hrow, hwritten⟩ := Option.bind_eq_some_iff.1 hselected
  obtain ⟨hfrom, hhanded⟩ := claimRow_eq_some (written_eq_some.1 hwritten)
  rw [settings.workerProfile_eq] at hfrom hhanded
  exact ⟨row, row', hrow, hfrom, hhanded, rfl⟩

/-- The reclaim of a RUNNING job: the new claim is of the same job, in the mode and on the execution
of the claim it takes over. -/
theorem reclaim_eq_some {settings : Settings} {w w' : World} {now lease : Instant}
    {token jobId : String} {claimed : ClaimedResearchJob} {row : ResearchJobRow}
    (hstored : StoredJob w.jobs jobId row) (hrunning : row.status = .running)
    (h : claimNext settings w now lease token jobId = some (w', claimed)) :
    claimed.job.id = jobId ∧ claimed.claimToken = token ∧
      claimed.continuationMode = row.claimedContinuationMode ∧
      claimed.activeWorkflowExecutionId = row.activeWorkflowExecutionId ∧
      ∃ row', ClaimedFrom row row' token lease settings.evaluationProfile ∧ row'.id = jobId ∧
        w' = { w with jobs := w.jobs.insert jobId row' } := by
  obtain ⟨before, row', hbefore, hfrom, hhanded, rfl⟩ := claimNext_eq_some h
  obtain rfl : before = row := Option.some.inj (hbefore.symm.trans hstored.lookup)
  have hid : row'.id = jobId := hfrom.id.trans hstored.key
  refine ⟨?_, hhanded.token, ?_, hhanded.active.trans hfrom.active, row', hfrom, hid, rfl⟩
  · rw [toDomain_id _ hhanded.job, hid]
    rw [hfrom.id]
    exact hstored.valid.id_clean
  · rw [hhanded.mode, hfrom.mode, claimedMode, hrunning]

/-! ### The ends of a job -/

/-- Complete the job and enqueue its event, when the claim still owns it. -/
def finalizeCompletionTx (jobId claimToken result : String) : Transaction Bool := do
  let now ← Tx.reading Env.now
  let eventId ← Tx.reading fun e => e.uuid 0
  let owned ← onJob jobId (finalizeCompletion · claimToken result now)
  if owned = true then enqueueEvent (buildResearchJobCompleted eventId jobId now) else pure ()
  return owned

/-- Fail the job and enqueue its event, when the claim still owns it. -/
def finalizeFailureTx (jobId claimToken reason reasonClass : String) : Transaction Bool := do
  let now ← Tx.reading Env.now
  let eventId ← Tx.reading fun e => e.uuid 0
  let owned ← onJob jobId (finalizeFailure · claimToken reason now)
  if owned = true then enqueueEvent (buildResearchJobFailed eventId jobId now reasonClass)
  else pure ()
  return owned

/-- Fail the job of a claim for a reason; whether the claim still owned it is only logged. -/
def failClaimed (claimed : ClaimedResearchJob) (reason reasonClass : String) : Activity Unit := do
  let _ ← Program.atomically
    (finalizeFailureTx claimed.job.id claimed.claimToken reason reasonClass)
  return ()

/-- What the worker does when the processor does not return in time. -/
def failTimedOut (claimed : ClaimedResearchJob) : Activity Unit :=
  failClaimed claimed "Processing timed out." "ProcessingTimeout"

/-- Turn what the processor returned or raised into the end of the job. -/
def settle (claimed : ClaimedResearchJob) : Except Exc ProcessingOutcome → Activity Unit
  | .ok (.completed result _) => do
      let _ ← Program.atomically
        (finalizeCompletionTx claimed.job.id claimed.claimToken result)
      return ()
  | .ok (.terminalFailed reasonCode _) =>
      failClaimed claimed ("Terminal: " ++ reasonCode) reasonCode
  | .ok (.pausedForReview _) | .ok (.retryScheduled _ _ _) => .ret ()
  | .error (.claimOwnership _) =>
      failClaimed claimed "Claim ownership lost during processing." "ClaimOwnershipLost"
  | .error (.evaluation .profileMismatch) => .ret ()
  | .error x => failClaimed claimed ("Processing failed: " ++ x.className) x.className

/-- Process a claim to its end. -/
def processClaimed (settings : Settings) (claimed : ClaimedResearchJob) : Activity Unit := do
  let outcome ← (process settings claimed).attempt
  settle claimed outcome

/-- The end of processing a claim that is left alone. -/
def finalWorld (settings : Settings) (claimed : ClaimedResearchJob) (env : ℕ → Env) (i : ℕ)
    (w : World) : World :=
  ((processClaimed settings claimed).run env i w).2.2

/-! ### What the ends write -/

section Spec

variable {jobId claimToken result reason reasonClass : String} {e : Env} {w w' : World}
  {owned : Bool}

/-- **The job is completed together with its event, under the claim; or nothing happens.** -/
theorem finalizeCompletionTx_eq_ok
    (h : finalizeCompletionTx jobId claimToken result e w = .ok (owned, w')) :
    (∃ row event outbox, owned = true ∧
        finalizeCompletion (w.jobs.lookup jobId) claimToken result e.now = .ok (some row) ∧
        event.aggregateId = jobId ∧ event.type = .completed ∧
        w.outbox.enqueue event e.traceparent = .ok outbox ∧
        w' = { w with jobs := w.jobs.insert jobId row, outbox := outbox }) ∨
      owned = false ∧ w' = w := by
  simp only [finalizeCompletionTx, Tx.bind_eq_ok, Tx.reading_eq_ok, onJob_eq_ok] at h
  obtain ⟨_, _, ⟨rfl, rfl⟩, _, _, ⟨rfl, rfl⟩, owned', w₁, hjob, h⟩ := h
  rcases hjob with ⟨row, hrow, rfl, rfl⟩ | ⟨-, rfl, rfl⟩
  · simp only [if_true, Tx.bind_eq_ok, enqueueEvent_eq_ok, buildResearchJobCompleted,
      buildEvent_eq_ok, Tx.pure_eq_ok] at h
    obtain ⟨_, _, ⟨event, outbox, ⟨-, haggregate, -, hpayload⟩, henqueue, rfl⟩, rfl, rfl⟩ := h
    refine .inl ⟨row, event, outbox, rfl, hrow, haggregate, ?_, henqueue, rfl⟩
    rw [DomainEvent.type, hpayload]
    rfl
  · simp only [Bool.false_eq_true, if_false, Tx.pure_eq_ok] at h
    obtain ⟨rfl, rfl⟩ := h
    exact .inr ⟨rfl, rfl⟩

/-- **The job is failed together with its event, under the claim; or nothing happens.** -/
theorem finalizeFailureTx_eq_ok
    (h : finalizeFailureTx jobId claimToken reason reasonClass e w = .ok (owned, w')) :
    (∃ row event outbox, owned = true ∧
        finalizeFailure (w.jobs.lookup jobId) claimToken reason e.now = .ok (some row) ∧
        event.aggregateId = jobId ∧ event.type = .failed ∧
        w.outbox.enqueue event e.traceparent = .ok outbox ∧
        w' = { w with jobs := w.jobs.insert jobId row, outbox := outbox }) ∨
      owned = false ∧ w' = w := by
  simp only [finalizeFailureTx, Tx.bind_eq_ok, Tx.reading_eq_ok, onJob_eq_ok] at h
  obtain ⟨_, _, ⟨rfl, rfl⟩, _, _, ⟨rfl, rfl⟩, owned', w₁, hjob, h⟩ := h
  rcases hjob with ⟨row, hrow, rfl, rfl⟩ | ⟨-, rfl, rfl⟩
  · simp only [if_true, Tx.bind_eq_ok, enqueueEvent_eq_ok, Tx.pure_eq_ok] at h
    obtain ⟨_, _, ⟨event, outbox, hbuilt, henqueue, rfl⟩, rfl, rfl⟩ := h
    obtain ⟨-, haggregate, htype⟩ := buildResearchJobFailed_eq_ok hbuilt
    exact .inl ⟨row, event, outbox, rfl, hrow, haggregate, htype, henqueue, rfl⟩
  · simp only [Bool.false_eq_true, if_false, Tx.pure_eq_ok] at h
    obtain ⟨rfl, rfl⟩ := h
    exact .inr ⟨rfl, rfl⟩

end Spec

end Atlas
