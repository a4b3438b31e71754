/-
**Evaluation under ownership.**

`evaluation/service.py` and the runner over it.  An evaluation attempt of an execution is begun by
whoever can prove the job's claim, and is finalized by the holder of the ownership token it was
begun with.  A finished attempt with the same input is replayed.  Beginning a new attempt also
takes one of the job's evaluation attempts, in the same transaction.

The transaction that begins an attempt loads the row of the job without a lock, and proves the claim
on that instance; then it locks the run, or, where there is none, the job.  Others commit in
between, so it is three acts here.

Main definitions:

* `Atlas.fingerprintJobClaimToken` — the check of a claim token;
* `Atlas.EvaluationService.loadJob`, `Atlas.EvaluationService.lockRun`,
  `Atlas.EvaluationService.beginRun` — the acts of `Atlas.EvaluationService.beginOrResume`;
* `Atlas.EvaluationService.finalizeSuccess`, `Atlas.EvaluationService.finalizeFailure` — the
  transactions that end an attempt;
* `Atlas.evaluationRun` — the evaluation of a candidate.

Main results:

* `Atlas.EvaluationService.beginRun_recounts` — **what beginning changes**: evaluation runs, and the
  count of the job's attempts, under the claim of the instance.
-/

import Atlas.GuardedWrites
import Atlas.World

set_option relaxedAutoImplicit false
set_option autoImplicit false

namespace Atlas

/-- SHA-256 of a claim token, which has to be 64 lower-case hexadecimal digits. -/
def fingerprintJobClaimToken (sha256 : String → String) (claimToken : String) :
    Except Exc String := do
  let cleaned := Python.strip claimToken
  Checked.ensure (cleaned.length = 64 ∧ cleaned.toList.all isLowerHex) (.evaluation .validation)
  return sha256 cleaned

/-- What `secrets.token_hex(32)` returns: 64 lower-case hexadecimal digits. -/
def IsTokenHex (token : String) : Prop :=
  token.length = 64 ∧ token.toList.all isLowerHex = true

instance (token : String) : Decidable (IsTokenHex token) := inferInstanceAs (Decidable (_ ∧ _))

theorem isSpace_of_isLowerHex {c : Char} (h : isLowerHex c = true) : Python.isSpace c = false := by
  have hrange : 48 ≤ c.toNat ∧ c.toNat ≤ 102 := by
    rw [isLowerHex, Bool.or_eq_true] at h
    rcases h with h | h
    · simp only [Char.isDigit, Bool.and_eq_true, decide_eq_true_eq, ge_iff_le,
        UInt32.le_iff_toNat_le] at h
      exact ⟨h.1, le_trans h.2 (by decide)⟩
    · simp only [Bool.and_eq_true, decide_eq_true_eq, Char.le_def, UInt32.le_iff_toNat_le] at h
      exact ⟨le_trans (by decide) h.1, h.2⟩
  obtain ⟨hlow, hhigh⟩ := hrange
  simp [Python.isSpace]
  omega

/-- A token as the queue draws it has the right form. -/
theorem fingerprintJobClaimToken_of_isTokenHex {sha256 : String → String} {claimToken : String}
    (h : IsTokenHex claimToken) :
    fingerprintJobClaimToken sha256 claimToken = .ok (sha256 claimToken) := by
  have hstrip : Python.strip claimToken = claimToken :=
    Python.strip_eq_self fun c hc => isSpace_of_isLowerHex (List.all_eq_true.1 h.2 c hc)
  simp [fingerprintJobClaimToken, hstrip, Checked.ensure, h.1, h.2]

namespace EvaluationService

/-! ### The transactions -/

/-- What `begin_or_resume` is called with. -/
structure Request where
  executionId : String
  profile : String
  attempt : ℕ
  fingerprint : String
  jobId : String
  claimToken : String
  deadline : Instant
  deriving DecidableEq

/-- The instance of the job's row in the session of a `begin_or_resume`, and the instant of the
call.  The session holds on to the instance: what a later statement loads of the row is not seen. -/
structure LoadedJob where
  row : ResearchJobRow
  now : Instant
  deriving DecidableEq

/-- The statements of `begin_or_resume` up to the lock of the run: they lock nothing. -/
def loadJob (request : Request) : Transaction LoadedJob := do
  let now ← Tx.reading Env.now
  let w ← Tx.read id
  require ((w.executions.lookup request.executionId).any (·.researchJobId = request.jobId))
    (.evaluation .validation)
  match w.jobs.lookup request.jobId with
  | some row => do
      require (row.evaluationProfile = some request.profile) (.evaluation .profileMismatch)
      return ⟨row, now⟩
  | none => Tx.throw (.evaluation .profileMismatch)

/-- Prove possession of the job's current valid claim; return its fingerprint.  `session.get`
answers with the instance the session has. -/
def assertHoldsCurrentJobClaim (sha256 : String → String) (loaded : LoadedJob)
    (claimToken : String) : Except Exc String := do
  let presented ← fingerprintJobClaimToken sha256 claimToken
  Checked.ensure (ownsRunningClaim loaded.row claimToken loaded.now) (.evaluation .validation)
  return presented

/-- Write an evaluation run. -/
def writeRun (row : EvaluationRunRow) : Transaction Unit := do
  let row ← Tx.lift row.flush
  Tx.modify fun w => { w with evaluationRuns := w.evaluationRuns.insert row.id row }

/-- The branch of `begin_or_resume` for an attempt that exists and has not succeeded. -/
def resumeRun (sha256 : String → String) (request : Request) (loaded : LoadedJob)
    (run : EvaluationRunRow) : Transaction (String × String × Option EvaluationRunResult) := do
  let claimFingerprint ← Tx.lift (assertHoldsCurrentJobClaim sha256 loaded request.claimToken)
  require (run.status = .inProgress → run.deadlineAt < loaded.now) (.evaluation .inProgress)
  require (run.inputFingerprint = request.fingerprint) (.evaluation .conflict)
  let ownershipToken ← Tx.reading Env.tokenHex
  writeRun (run.reclaim ownershipToken request.fingerprint claimFingerprint request.deadline
    loaded.now)
  return (run.id, ownershipToken, none)

/-- The statements from the lock of the run on, where there is one: its id, the ownership token,
and the result when the attempt has succeeded already. -/
def lockRun (sha256 : String → String) (request : Request) (loaded : LoadedJob) :
    Transaction (Option (String × String × Option EvaluationRunResult)) := do
  let runs ← Tx.read World.evaluationRuns
  match runByExecutionKey runs request.executionId request.profile request.attempt with
  | some run =>
      if run.status = .succeeded then do
        require (run.inputFingerprint = request.fingerprint) (.evaluation .conflict)
        return some (run.id, "", some run.toResult)
      else do
        let answer ← resumeRun sha256 request loaded run
        return some answer
  | none => return none

/-- `increment_evaluation_attempt_count` on the instance of the session: the row is locked, and its
attributes are those that were loaded. -/
def incrementLoaded (loaded : LoadedJob) (claimToken : String) (model : Option ResearchJobRow) :
    Except PersistenceError (Option ResearchJobRow) :=
  match model with
  | none => .ok none
  | some committed =>
      GuardedWrite.incrementEvaluationAttemptCount.session (some loaded.row) committed claimToken
        loaded.now

/-- Take one of the job's evaluation attempts. -/
def reserveAttempt (request : Request) (loaded : LoadedJob) : Transaction Unit := do
  let reserved ← onJob request.jobId (incrementLoaded loaded request.claimToken)
  let (_, _, evaluationAttempts) := getAttemptCounts (some loaded.row)
  require (reserved = false → evaluationAttempts < maxEvaluationAttempts) (.evaluation .attemptCap)
  require (reserved = true) (.claimOwnership "increment_evaluation_attempt_count")

/-- The branch of `begin_or_resume` for a new attempt. -/
def beginRun (sha256 : String → String) (request : Request) (loaded : LoadedJob) :
    Transaction (String × String × Option EvaluationRunResult) := do
  let claimFingerprint ← Tx.lift (assertHoldsCurrentJobClaim sha256 loaded request.claimToken)
  let runId ← Tx.reading fun e => e.uuid 0
  let ownershipToken ← Tx.reading Env.tokenHex
  reserveAttempt request loaded
  let runs ← Tx.compute fun w => (createRun w.evaluationRuns
    { id := runId, researchJobId := request.jobId, workflowExecutionId := request.executionId
      evaluationProfile := request.profile, evaluationAttempt := request.attempt
      status := .inProgress, ownershipToken := ownershipToken
      inputFingerprint := request.fingerprint, jobClaimFingerprint := claimFingerprint
      passed := none, dimensions := [], deadlineAt := request.deadline, startedAt := loaded.now
      finishedAt := none }).mapError fun _ => .evaluation .inProgress
  Tx.modify fun w => { w with evaluationRuns := runs }
  return (runId, ownershipToken, none)

/-- Lock or create the evaluation attempt row.  It is one transaction, and others commit before it
has locked the run, and before it has locked the job. -/
def beginOrResume (sha256 : String → String) (request : Request) :
    Activity (String × String × Option EvaluationRunResult) := do
  let loaded ← Program.atomically (loadJob request)
  match ← Program.atomically (lockRun sha256 request loaded) with
  | some answer => return answer
  | none => Program.atomically (beginRun sha256 request loaded)

/-- The run in progress under the ownership token. -/
def ownedRun (runId ownershipToken : String) : Transaction EvaluationRunRow := do
  let run ← Tx.read fun w => w.evaluationRuns.lookup runId
  match run with
  | some run => do
      require (run.ownedBy ownershipToken) (.evaluation .ownershipLost)
      return run
  | none => Tx.throw (.evaluation .ownershipLost)

/-- Replace dimensions and fence SUCCEEDED under ownership check. -/
def finalizeSuccess (runId ownershipToken : String) (passed : Bool)
    (dimensions : List DimensionResult) : Transaction EvaluationRunResult := do
  let now ← Tx.reading Env.now
  let run ← ownedRun runId ownershipToken
  require (dimensions.map (·.name)).Nodup
    (integrityError "uq_evaluation_dimension_results_run_name")
  let run := { run with
    status := .succeeded, passed := some passed, dimensions := dimensions
    finishedAt := some now }
  writeRun run
  return run.toResult

/-- Fence FAILED for a process-level evaluation failure. -/
def finalizeFailure (runId ownershipToken : String) : Transaction Unit := do
  let now ← Tx.reading Env.now
  let run ← ownedRun runId ownershipToken
  writeRun { run with
    status := .failed, passed := none, dimensions := [], finishedAt := some now }

/-! ### What the transactions change -/

/-- The database has changed in its evaluation runs only. -/
def OnlyRuns (w w' : World) : Prop :=
  ∃ runs, w' = { w with evaluationRuns := runs }

section Spec

variable {sha256 : String → String} {request : Request} {loaded : LoadedJob} {claimToken : String}
  {e : Env} {w w' : World} {answer : String × String × Option EvaluationRunResult}

theorem writeRun_onlyRuns {row : EvaluationRunRow} {u : Unit}
    (h : writeRun row e w = .ok (u, w')) : OnlyRuns w w' := by
  simp only [writeRun, Tx.bind_eq_ok, Tx.lift_eq_ok, Tx.modify_eq_ok] at h
  obtain ⟨row', _, ⟨-, rfl⟩, rfl⟩ := h
  exact ⟨_, rfl⟩

/-- Proving the claim looks at the instance. -/
theorem assertHoldsCurrentJobClaim_eq_ok {presented : String}
    (h : assertHoldsCurrentJobClaim sha256 loaded claimToken = .ok presented) :
    ownsRunningClaim loaded.row claimToken loaded.now = true := by
  simp only [assertHoldsCurrentJobClaim, Checked.bind_eq_ok, Checked.ensure_eq_ok] at h
  obtain ⟨_, -, _, howns, -⟩ := h
  exact howns

/-- The instance is the committed row when it is loaded, in the profile of the request. -/
theorem loadJob_eq_ok (h : loadJob request e w = .ok (loaded, w')) :
    w.jobs.lookup request.jobId = some loaded.row ∧ loaded.now = e.now ∧ w' = w := by
  simp only [loadJob, Tx.bind_eq_ok, Tx.reading_eq_ok, Tx.read_eq_ok, require_eq_ok] at h
  obtain ⟨_, _, ⟨rfl, rfl⟩, _, _, ⟨rfl, rfl⟩, _, _, ⟨-, rfl⟩, h⟩ := h
  cases hrow : (id w).jobs.lookup request.jobId with
  | none =>
      simp only [hrow] at h
      exact absurd h Tx.throw_ne_ok
  | some row =>
      simp only [hrow, Tx.bind_eq_ok, require_eq_ok, Tx.pure_eq_ok] at h
      obtain ⟨_, _, ⟨-, rfl⟩, rfl, rfl⟩ := h
      exact ⟨hrow, rfl, rfl⟩

theorem resumeRun_onlyRuns {run : EvaluationRunRow}
    (h : resumeRun sha256 request loaded run e w = .ok (answer, w')) : OnlyRuns w w' := by
  simp only [resumeRun, Tx.bind_eq_ok, Tx.lift_eq_ok, Tx.reading_eq_ok, require_eq_ok,
    Tx.pure_eq_ok] at h
  obtain ⟨_, _, ⟨-, rfl⟩, _, _, ⟨-, rfl⟩, _, _, ⟨-, rfl⟩, _, _, ⟨-, rfl⟩, _, _, hwrite, -, rfl⟩ := h
  exact writeRun_onlyRuns hwrite

/-- What is done under the lock of the run changes the evaluation runs only. -/
theorem lockRun_onlyRuns {found : Option (String × String × Option EvaluationRunResult)}
    (h : lockRun sha256 request loaded e w = .ok (found, w')) : OnlyRuns w w' := by
  simp only [lockRun, Tx.bind_eq_ok, Tx.read_eq_ok] at h
  obtain ⟨_, _, ⟨rfl, rfl⟩, h⟩ := h
  cases hrun : runByExecutionKey w.evaluationRuns request.executionId request.profile
    request.attempt with
  | none =>
      simp only [hrun, Tx.pure_eq_ok] at h
      obtain ⟨-, rfl⟩ := h
      exact ⟨_, rfl⟩
  | some run =>
      simp only [hrun] at h
      by_cases hdone : run.status = .succeeded
      · simp only [if_pos hdone, Tx.bind_eq_ok, require_eq_ok, Tx.pure_eq_ok] at h
        obtain ⟨_, _, ⟨-, rfl⟩, -, rfl⟩ := h
        exact ⟨_, rfl⟩
      · simp only [if_neg hdone, Tx.bind_eq_ok, Tx.pure_eq_ok] at h
        obtain ⟨answer, _, hresume, -, rfl⟩ := h
        exact resumeRun_onlyRuns hresume

/-- The row of a job with another count of evaluation attempts. -/
structure Recounted (w : World) (jobId : String) (row row' : ResearchJobRow) : Prop where
  lookup : w.jobs.lookup jobId = some row
  checks : CheckConstraint.AllHold researchJobChecks row'
  columns : ∃ count, row' = { row with evaluationAttemptCount := count }

/-- Reserving an attempt counts it, from the instance on, in the committed row, and does nothing
else. -/
theorem reserveAttempt_eq_ok {u : Unit} (h : reserveAttempt request loaded e w = .ok (u, w')) :
    ∃ row row', Recounted w request.jobId row row' ∧
      w' = { w with jobs := w.jobs.insert request.jobId row' } := by
  simp only [reserveAttempt, Tx.bind_eq_ok, onJob_eq_ok, require_eq_ok] at h
  obtain ⟨reserved, w₁, hjob, _, _, ⟨-, rfl⟩, rfl, rfl⟩ := h
  rcases hjob with ⟨row', hrow', -, rfl⟩ | ⟨-, hfalse, -⟩
  · cases hrow : w.jobs.lookup request.jobId with
    | none =>
        rw [hrow] at hrow'
        cases hrow'
    | some row =>
        rw [hrow] at hrow'
        obtain ⟨-, -, hchecks, hcolumns⟩ := GuardedWrite.increment_eq_ok hrow'
        exact ⟨row, row', ⟨hrow, hchecks, _, hcolumns⟩, rfl⟩
  · cases hfalse

/-- Beginning an attempt changes the evaluation runs, and the count of the job. -/
theorem beginRun_recounts (h : beginRun sha256 request loaded e w = .ok (answer, w')) :
    ownsRunningClaim loaded.row request.claimToken loaded.now = true ∧
      ∃ row row' runs, Recounted w request.jobId row row' ∧
        w' = { w with jobs := w.jobs.insert request.jobId row', evaluationRuns := runs } := by
  simp only [beginRun, Tx.bind_eq_ok, Tx.lift_eq_ok, Tx.reading_eq_ok, Tx.compute_eq_ok,
    Tx.modify_eq_ok, Tx.pure_eq_ok] at h
  obtain ⟨_, _, ⟨hproof, rfl⟩, _, _, ⟨-, rfl⟩, _, _, ⟨-, rfl⟩, _, _, hreserve, runs, _, ⟨-, rfl⟩,
    _, _, rfl, -, rfl⟩ := h
  obtain ⟨row, row', hrecounted, rfl⟩ := reserveAttempt_eq_ok hreserve
  exact ⟨assertHoldsCurrentJobClaim_eq_ok hproof, row, row', runs, hrecounted, rfl⟩

theorem ownedRun_eq_ok {runId ownershipToken : String} {run : EvaluationRunRow}
    (h : ownedRun runId ownershipToken e w = .ok (run, w')) :
    w.evaluationRuns.lookup runId = some run ∧ run.ownedBy ownershipToken = true ∧ w' = w := by
  simp only [ownedRun, Tx.bind_eq_ok, Tx.read_eq_ok] at h
  obtain ⟨_, _, ⟨rfl, rfl⟩, h⟩ := h
  cases hrun : w.evaluationRuns.lookup runId with
  | none =>
      simp only [hrun] at h
      exact absurd h Tx.throw_ne_ok
  | some stored =>
      simp only [hrun, Tx.bind_eq_ok, require_eq_ok, Tx.pure_eq_ok] at h
      obtain ⟨_, _, ⟨howned, rfl⟩, rfl, rfl⟩ := h
      exact ⟨rfl, howned, rfl⟩

theorem finalizeSuccess_onlyRuns {runId ownershipToken : String} {passed : Bool}
    {dimensions : List DimensionResult} {result : EvaluationRunResult}
    (h : finalizeSuccess runId ownershipToken passed dimensions e w = .ok (result, w')) :
    OnlyRuns w w' := by
  simp only [finalizeSuccess, Tx.bind_eq_ok, Tx.reading_eq_ok, require_eq_ok, Tx.pure_eq_ok] at h
  obtain ⟨_, _, ⟨-, rfl⟩, run, _, hown, _, _, ⟨-, rfl⟩, _, _, hwrite, -, rfl⟩ := h
  obtain ⟨-, -, rfl⟩ := ownedRun_eq_ok hown
  exact writeRun_onlyRuns hwrite

theorem finalizeFailure_onlyRuns {runId ownershipToken : String} {u : Unit}
    (h : finalizeFailure runId ownershipToken e w = .ok (u, w')) : OnlyRuns w w' := by
  simp only [finalizeFailure, Tx.bind_eq_ok, Tx.reading_eq_ok] at h
  obtain ⟨_, _, ⟨-, rfl⟩, run, _, hown, hwrite⟩ := h
  obtain ⟨-, -, rfl⟩ := ownedRun_eq_ok hown
  exact writeRun_onlyRuns hwrite

end Spec

end EvaluationService

/-! ### The runner -/

/-- What is done with an exception raised while the runner owns an attempt: the attempt is failed,
unless its ownership is lost, and the exception goes on; a foreign one as a terminal error. -/
def finalizeOwnedFailure {α : Type} (runId ownershipToken : String) (x : Exc) : Activity α :=
  match x with
  | .evaluation .ownershipLost | .model .attemptOwnershipLost => .raise x
  | .model _ | .evaluation _ => do
      Program.atomically (EvaluationService.finalizeFailure runId ownershipToken)
      .raise x
  | _ => do
      Program.atomically (EvaluationService.finalizeFailure runId ownershipToken)
      .raise (.evaluation .terminal)

/-- Run the graders and persist a fenced evaluation attempt. -/
def evaluationRun (sha256 : String → String) (executionId profile : String) (attempt : ℕ)
    (jobId claimToken : String) (deadline : Instant) : Activity EvaluationRunResult := do
  let fingerprint ← ask Outside.snapshotFingerprint
  let (runId, ownershipToken, replay) ← EvaluationService.beginOrResume sha256
    ⟨executionId, profile, attempt, fingerprint, jobId, claimToken, deadline⟩
  match replay with
  | some result => return result
  | none =>
      tryCatch
        (do
          let (passed, dimensions) ← ask Outside.grading
          Program.atomically
            (EvaluationService.finalizeSuccess runId ownershipToken passed dimensions))
        (finalizeOwnedFailure runId ownershipToken)

end Atlas
