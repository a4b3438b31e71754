/-
**Evaluation-run fencing.**

The system of evaluation attempts: any number of workers begin, resume and finalize evaluation
runs, in any order, with results that arrive long after their attempt was taken over, while
everything else in the database changes as it likes.  A `begin_or_resume` is a session of up to
three acts: it loads the row of the job, locks the run, and where there is none locks the job and
creates it.  Each of the acts that write draws an ownership token of its own.

A run is written in three ways only.  It is created, or taken over once its deadline has passed or
it has failed, by a session whose instance of the job shows the caller's claim; and it is finalized
by the holder of the token it carries while it is in progress.  A run that has succeeded is written
by none of them.  The claim of the instance is the committed one as long as no commit takes a claim
away that an open session has read.

Main definitions:

* `Atlas.EvaluationCall`, `Atlas.evaluations` — the calls and the system;
* `Atlas.RunChange` — what a call can make of a run;
* `Atlas.ClaimsKept` — no commit takes away the claim an open session has read.

Main results:

* `Atlas.runChange_of_step` — **every step changes a run in one of the four ways**;
* `Atlas.evaluationRun_replays` — a succeeded attempt is returned without grading;
* `Atlas.evaluation_run_fencing` — the claims above, over whole runs of the system;
* `Atlas.evaluation_run_stale_claim` — a run begun under a claim that has been superseded.
-/

import Atlas.RowConstraints

set_option relaxedAutoImplicit false
set_option autoImplicit false

namespace Atlas

open Checked

/-! ### The system -/

/-- A `begin_or_resume` between its acts: its request, the instance of the job it has loaded, and
whether it has looked for the run and found none. -/
structure BeginSession where
  request : EvaluationService.Request
  loaded : EvaluationService.LoadedJob
  searched : Bool

/-- The acts of the service with their environment, and everything else that happens to the
database. -/
inductive EvaluationCall where
  | load (place : ℕ) (request : EvaluationService.Request) (e : Env)
  | lockRun (place : ℕ) (e : Env)
  | beginRun (place : ℕ) (e : Env)
  /-- The session is rolled back, or its worker crashes. -/
  | drop (place : ℕ)
  | finalizeSuccess (runId ownershipToken : String) (passed : Bool)
      (dimensions : List DimensionResult) (e : Env)
  | finalizeFailure (runId ownershipToken : String) (e : Env)
  | other (w : World)

/-- The database, the ownership tokens drawn so far, and the sessions under way by their places. -/
structure EvaluationState where
  world : World
  issued : List String
  sessions : ℕ → Option BeginSession

namespace EvaluationState

/-- The state after the first act of a session. -/
def load (s : EvaluationState) (place : ℕ) (request : EvaluationService.Request) (e : Env) :
    EvaluationState :=
  { s with
    sessions := Function.update s.sessions place
      (match EvaluationService.loadJob request e s.world with
      | .ok (loaded, _) => some ⟨request, loaded, false⟩
      | .error _ => none) }

/-- The state after a session has looked for its run: it goes on when there is none. -/
def lockRun (sha256 : String → String) (s : EvaluationState) (place : ℕ) (session : BeginSession)
    (e : Env) : EvaluationState where
  world := (EvaluationService.lockRun sha256 session.request session.loaded).commit e s.world
  issued := e.tokenHex :: s.issued
  sessions := Function.update s.sessions place
    (match EvaluationService.lockRun sha256 session.request session.loaded e s.world with
    | .ok (none, _) => some { session with searched := true }
    | _ => none)

/-- The state after a session has created its run. -/
def beginRun (sha256 : String → String) (s : EvaluationState) (place : ℕ) (session : BeginSession)
    (e : Env) : EvaluationState where
  world := (EvaluationService.beginRun sha256 session.request session.loaded).commit e s.world
  issued := e.tokenHex :: s.issued
  sessions := Function.update s.sessions place none

end EvaluationState

/-- The transition system of evaluation attempts.  The service alone writes evaluation runs. -/
def evaluations (sha256 : String → String) : Lts EvaluationState EvaluationCall where
  init s := s.world.evaluationRuns = ∅ ∧ s.issued = [] ∧ ∀ place, s.sessions place = none
  step s call s' :=
    match call with
    | .load place request e => s.sessions place = none ∧ s' = s.load place request e
    | .lockRun place e => e.tokenHex ∉ s.issued ∧
        ∃ session, s.sessions place = some session ∧ session.searched = false ∧
          s' = s.lockRun sha256 place session e
    | .beginRun place e => e.tokenHex ∉ s.issued ∧
        ∃ session, s.sessions place = some session ∧ session.searched = true ∧
          s' = s.beginRun sha256 place session e
    | .drop place => s' = { s with sessions := Function.update s.sessions place none }
    | .finalizeSuccess runId token passed dimensions e =>
        s' = { s with
          world := (EvaluationService.finalizeSuccess runId token passed dimensions).commit e
            s.world }
    | .finalizeFailure runId token e =>
        s' = { s with
          world := (EvaluationService.finalizeFailure runId token).commit e s.world }
    | .other w => w.evaluationRuns = s.world.evaluationRuns ∧ s' = { s with world := w }

/-! ### What the transactions write -/

/-- The caller holds the job's running claim, under a lease that has not ended. -/
def World.holdsClaim (w : World) (jobId claimToken : String) (now : Instant) : Prop :=
  ∃ row, w.jobs.lookup jobId = some row ∧ ownsRunningClaim row claimToken now = true

/-- The instance of the session shows the caller's claim, at the instant of the call. -/
def BeginSession.Passes (session : BeginSession) : Prop :=
  ownsRunningClaim session.loaded.row session.request.claimToken session.loaded.now = true

/-- The committed row of the job carries the caller's claim, at the instant of the call. -/
def BeginSession.Holds (session : BeginSession) (w : World) : Prop :=
  w.holdsClaim session.request.jobId session.request.claimToken session.loaded.now

/-- The place of a run: its execution, profile and attempt. -/
def EvaluationRunRow.key (row : EvaluationRunRow) : String × String × ℕ :=
  (row.workflowExecutionId, row.evaluationProfile, row.evaluationAttempt)

namespace EvaluationService

variable {sha256 : String → String} {request : Request} {loaded : LoadedJob} {e : Env}
  {w w' : World} {answer : String × String × Option EvaluationRunResult}

theorem writeRun_eq_ok {row : EvaluationRunRow} {u : Unit} :
    writeRun row e w = .ok (u, w') ↔ CheckConstraint.AllHold evaluationRunChecks row ∧
      w' = { w with evaluationRuns := w.evaluationRuns.insert row.id row } := by
  simp only [writeRun, Tx.bind_eq_ok, Tx.lift_eq_ok, Tx.modify_eq_ok, EvaluationRunRow.flush_eq_ok]
  constructor
  · rintro ⟨_, _, ⟨⟨hchecks, rfl⟩, rfl⟩, rfl⟩
    exact ⟨hchecks, rfl⟩
  · rintro ⟨hchecks, rfl⟩
    exact ⟨row, w, ⟨⟨hchecks, rfl⟩, rfl⟩, rfl⟩

/-- A run is taken over under the claim of the instance, with the fingerprint it has, and while it is
in progress only after its deadline. -/
theorem resumeRun_eq_ok {run : EvaluationRunRow}
    (h : resumeRun sha256 request loaded run e w = .ok (answer, w')) :
    ownsRunningClaim loaded.row request.claimToken loaded.now = true ∧
      (run.status = .inProgress → run.deadlineAt < loaded.now) ∧
      run.inputFingerprint = request.fingerprint ∧ answer = (run.id, e.tokenHex, none) ∧
      ∃ claimFingerprint, w' = { w with
        evaluationRuns := w.evaluationRuns.insert run.id
          (run.reclaim e.tokenHex request.fingerprint claimFingerprint request.deadline
            loaded.now) } := by
  simp only [resumeRun, Tx.bind_eq_ok, Tx.lift_eq_ok, Tx.reading_eq_ok, require_eq_ok,
    Tx.pure_eq_ok] at h
  obtain ⟨claimFingerprint, _, ⟨hproof, rfl⟩, _, _, ⟨hdeadline, rfl⟩, _, _, ⟨hfingerprint, rfl⟩, _,
    _, ⟨rfl, rfl⟩, _, _, hwrite, rfl, rfl⟩ := h
  obtain ⟨-, rfl⟩ := writeRun_eq_ok.1 hwrite
  exact ⟨assertHoldsCurrentJobClaim_eq_ok hproof, hdeadline, hfingerprint, rfl, claimFingerprint,
    rfl⟩

/-- A run is created under the claim of the instance, where there is none. -/
theorem beginRun_eq_ok (h : beginRun sha256 request loaded e w = .ok (answer, w')) :
    ownsRunningClaim loaded.row request.claimToken loaded.now = true ∧
      answer = (e.uuid 0, e.tokenHex, none) ∧
      ∃ row : EvaluationRunRow, row.id = e.uuid 0 ∧
        row.key = (request.executionId, request.profile, request.attempt) ∧
        row.status = .inProgress ∧ row.ownershipToken = e.tokenHex ∧
        row.inputFingerprint = request.fingerprint ∧ w.evaluationRuns.lookup row.id = none ∧
        runByExecutionKey w.evaluationRuns request.executionId request.profile request.attempt
          = none ∧
        w'.evaluationRuns = w.evaluationRuns.insert row.id row := by
  simp only [beginRun, Tx.bind_eq_ok, Tx.lift_eq_ok, Tx.reading_eq_ok, Tx.compute_eq_ok,
    Tx.modify_eq_ok, Tx.pure_eq_ok, mapError_eq_ok] at h
  obtain ⟨claimFingerprint, _, ⟨hproof, rfl⟩, _, _, ⟨rfl, rfl⟩, _, _, ⟨rfl, rfl⟩, _, _, hreserve,
    runs, _, ⟨hcreate, rfl⟩, _, _, rfl, rfl, rfl⟩ := h
  obtain ⟨_, jobRow, -, rfl⟩ := reserveAttempt_eq_ok hreserve
  simp only [createRun, bind_eq_ok, EvaluationRunRow.flush_eq_ok, ensure_eq_ok, pure_eq_ok]
    at hcreate
  obtain ⟨row, ⟨-, rfl⟩, _, hid, _, hkey, rfl⟩ := hcreate
  exact ⟨assertHoldsCurrentJobClaim_eq_ok hproof, rfl, _, rfl, rfl, rfl, rfl, rfl, hid, hkey, rfl⟩

/-- **What is done under the lock of a run**: a succeeded run is replayed, another one is taken over,
and where there is none nothing is done. -/
theorem lockRun_cases {found : Option (String × String × Option EvaluationRunResult)}
    (h : lockRun sha256 request loaded e w = .ok (found, w')) :
    (∃ run, runByExecutionKey w.evaluationRuns request.executionId request.profile request.attempt
          = some run ∧ run.status = .succeeded ∧ run.inputFingerprint = request.fingerprint ∧
        found = some (run.id, "", some run.toResult) ∧ w' = w) ∨
      (∃ run answer, runByExecutionKey w.evaluationRuns request.executionId request.profile
          request.attempt = some run ∧ run.status ≠ .succeeded ∧ found = some answer ∧
        resumeRun sha256 request loaded run e w = .ok (answer, w')) ∨
      (runByExecutionKey w.evaluationRuns request.executionId request.profile request.attempt
          = none ∧ found = none ∧ w' = w) := by
  simp only [lockRun, Tx.bind_eq_ok, Tx.read_eq_ok] at h
  obtain ⟨_, _, ⟨rfl, rfl⟩, h⟩ := h
  cases hrun : runByExecutionKey w.evaluationRuns request.executionId request.profile
    request.attempt with
  | none =>
      simp only [hrun, Tx.pure_eq_ok] at h
      obtain ⟨rfl, rfl⟩ := h
      exact .inr (.inr ⟨rfl, rfl, rfl⟩)
  | some run =>
      simp only [hrun] at h
      by_cases hdone : run.status = .succeeded
      · simp only [if_pos hdone, Tx.bind_eq_ok, require_eq_ok, Tx.pure_eq_ok] at h
        obtain ⟨_, _, ⟨hfingerprint, rfl⟩, rfl, rfl⟩ := h
        exact .inl ⟨run, rfl, hdone, hfingerprint, rfl, rfl⟩
      · simp only [if_neg hdone, Tx.bind_eq_ok, Tx.pure_eq_ok] at h
        obtain ⟨answer, _, hresume, rfl, rfl⟩ := h
        exact .inr (.inl ⟨run, answer, rfl, hdone, rfl, hresume⟩)

/-- A run is finalized by the holder of its token while it is in progress. -/
theorem finalizeSuccess_eq_ok {runId ownershipToken : String} {passed : Bool}
    {dimensions : List DimensionResult} {result : EvaluationRunResult}
    (h : finalizeSuccess runId ownershipToken passed dimensions e w = .ok (result, w')) :
    ∃ run, w.evaluationRuns.lookup runId = some run ∧ run.ownedBy ownershipToken = true ∧
      w' = { w with evaluationRuns := w.evaluationRuns.insert run.id { run with
        status := .succeeded, passed := some passed, dimensions := dimensions
        finishedAt := some e.now } } := by
  simp only [finalizeSuccess, Tx.bind_eq_ok, Tx.reading_eq_ok, require_eq_ok, Tx.pure_eq_ok] at h
  obtain ⟨_, _, ⟨rfl, rfl⟩, run, _, hown, _, _, ⟨-, rfl⟩, _, _, hwrite, -, rfl⟩ := h
  obtain ⟨hlookup, howned, rfl⟩ := ownedRun_eq_ok hown
  obtain ⟨-, rfl⟩ := writeRun_eq_ok.1 hwrite
  exact ⟨run, hlookup, howned, rfl⟩

theorem finalizeFailure_eq_ok {runId ownershipToken : String} {u : Unit}
    (h : finalizeFailure runId ownershipToken e w = .ok (u, w')) :
    ∃ run, w.evaluationRuns.lookup runId = some run ∧ run.ownedBy ownershipToken = true ∧
      w' = { w with evaluationRuns := w.evaluationRuns.insert run.id { run with
        status := .failed, passed := none, dimensions := [], finishedAt := some e.now } } := by
  simp only [finalizeFailure, Tx.bind_eq_ok, Tx.reading_eq_ok] at h
  obtain ⟨_, _, ⟨rfl, rfl⟩, run, _, hown, hwrite⟩ := h
  obtain ⟨hlookup, howned, rfl⟩ := ownedRun_eq_ok hown
  obtain ⟨-, rfl⟩ := writeRun_eq_ok.1 hwrite
  exact ⟨run, hlookup, howned, rfl⟩

end EvaluationService

/-! ### Runs by their place -/

/-- Runs are stored under their ids, and no two have the same place. -/
structure RunTable (runs : EvaluationRuns) : Prop where
  key : ∀ runId row, runs.lookup runId = some row → row.id = runId
  place : ∀ runId runId' row row', runs.lookup runId = some row → runs.lookup runId' = some row' →
    row.key = row'.key → runId = runId'

section Places

variable {runs : EvaluationRuns} {executionId profile : String} {attempt : ℕ}
  {run : EvaluationRunRow}

/-- The run found at a place is stored under its id. -/
theorem runByExecutionKey_eq_some (htable : RunTable runs)
    (h : runByExecutionKey runs executionId profile attempt = some run) :
    runs.lookup run.id = some run ∧ run.key = (executionId, profile, attempt) := by
  obtain ⟨⟨runId, row⟩, hfind, rfl⟩ := Option.map_eq_some_iff.1 h
  have hmem : row ∈ runs.lookup runId := AList.mem_lookup_iff.2 (List.mem_of_find?_eq_some hfind)
  have hplace := List.find?_some hfind
  simp only [Bool.and_eq_true, decide_eq_true_eq] at hplace
  obtain ⟨⟨hexecution, hprofile⟩, hattempt⟩ := hplace
  refine ⟨?_, ?_⟩
  · rw [htable.key runId row hmem]
    exact hmem
  · rw [EvaluationRunRow.key, hexecution, hprofile, hattempt]

theorem key_ne_of_runByExecutionKey_eq_none
    (h : runByExecutionKey runs executionId profile attempt = none) {runId : String}
    (hrun : runs.lookup runId = some run) : run.key ≠ (executionId, profile, attempt) := by
  intro hkey
  have hmem : (⟨runId, run⟩ : Sigma fun _ : String => EvaluationRunRow) ∈ runs.entries :=
    AList.mem_lookup_iff.1 hrun
  have hnot := List.find?_eq_none.1 (Option.map_eq_none_iff.1 h) _ hmem
  simp only [EvaluationRunRow.key, Prod.mk.injEq] at hkey
  simp [hkey.1, hkey.2.1, hkey.2.2] at hnot

end Places

/-! ### What a call makes of a run -/

/-- The call finalizes the run with the token. -/
def EvaluationCall.Finalizes (call : EvaluationCall) (runId ownershipToken : String) : Prop :=
  (∃ passed dimensions e, call = .finalizeSuccess runId ownershipToken passed dimensions e) ∨
    ∃ e, call = .finalizeFailure runId ownershipToken e

/-- The id the call would give a new run. -/
def EvaluationCall.proposedId : EvaluationCall → Option String
  | beginRun _ e => some (e.uuid 0)
  | _ => none

/-- What a call can make of one run, in the state `s`. -/
inductive RunChange (s : EvaluationState) (call : EvaluationCall) (runId : String) :
    Option EvaluationRunRow → Option EvaluationRunRow → Prop where
  | same (row : Option EvaluationRunRow) : RunChange s call runId row row
  | created (place : ℕ) (session : BeginSession) (e : Env) (row : EvaluationRunRow)
      (hcall : call = .beginRun place e) (hsession : s.sessions place = some session)
      (hpasses : session.Passes) (hid : row.id = runId) (hproposed : call.proposedId = some runId)
      (hnew : ∀ other row', s.world.evaluationRuns.lookup other = some row' → row'.key ≠ row.key)
      (hstatus : row.status = .inProgress) (htoken : row.ownershipToken = e.tokenHex) :
      RunChange s call runId none (some row)
  | takenOver (place : ℕ) (session : BeginSession) (e : Env) (row : EvaluationRunRow)
      (claimFingerprint : String) (hcall : call = .lockRun place e)
      (hsession : s.sessions place = some session) (hpasses : session.Passes)
      (hstatus : row.status ≠ .succeeded)
      (hdeadline : row.status = .inProgress → row.deadlineAt < session.loaded.now) :
      RunChange s call runId (some row)
        (some (row.reclaim e.tokenHex session.request.fingerprint claimFingerprint
          session.request.deadline session.loaded.now))
  | finalized (token : String) (row row' : EvaluationRunRow) (hcall : call.Finalizes runId token)
      (howned : row.ownedBy token = true) (hid : row'.id = row.id) (hkey : row'.key = row.key)
      (htoken : row'.ownershipToken = row.ownershipToken)
      (hstatus : row'.status = .succeeded ∨ row'.status = .failed) :
      RunChange s call runId (some row) (some row')

section Steps

variable {sha256 : String → String} {s s' : EvaluationState} {call : EvaluationCall}

/-- A run after one run was written, when the written run is one of the changes. -/
theorem runChange_insert {target : String} {row : EvaluationRunRow}
    (h : RunChange s call target (s.world.evaluationRuns.lookup target) (some row))
    (runId : String) :
    RunChange s call runId (s.world.evaluationRuns.lookup runId)
      ((s.world.evaluationRuns.insert target row).lookup runId) := by
  rw [Table.lookup_insert_eq]
  split
  · rename_i heq
    subst heq
    exact h
  · exact .same _

/-- **Every step changes a run in one of the four ways.** -/
theorem runChange_of_step (htable : RunTable s.world.evaluationRuns)
    (hstep : (evaluations sha256).step s call s') (runId : String) :
    RunChange s call runId (s.world.evaluationRuns.lookup runId)
      (s'.world.evaluationRuns.lookup runId) := by
  cases call with
  | load place request e =>
      obtain ⟨-, rfl⟩ := hstep
      exact .same _
  | lockRun place e =>
      obtain ⟨-, session, hsession, -, rfl⟩ := hstep
      rw [EvaluationState.lockRun]
      cases h : EvaluationService.lockRun sha256 session.request session.loaded e s.world with
      | error x =>
          rw [Tx.commit_of_error h]
          exact .same _
      | ok result =>
          obtain ⟨found, w'⟩ := result
          rw [Tx.commit_of_ok h]
          obtain ⟨_, -, -, -, -, rfl⟩ | ⟨run, answer, hrun, hstatus, -, hresume⟩ | ⟨-, -, rfl⟩ :=
            EvaluationService.lockRun_cases h
          · exact .same _
          · obtain ⟨hpasses, hdeadline, -, -, claimFingerprint, rfl⟩ :=
              EvaluationService.resumeRun_eq_ok hresume
            obtain ⟨hlookup, -⟩ := runByExecutionKey_eq_some htable hrun
            refine runChange_insert ?_ runId
            rw [hlookup]
            exact .takenOver place session e run claimFingerprint rfl hsession hpasses hstatus
              hdeadline
          · exact .same _
  | beginRun place e =>
      obtain ⟨-, session, hsession, -, rfl⟩ := hstep
      rw [EvaluationState.beginRun]
      cases h : EvaluationService.beginRun sha256 session.request session.loaded e s.world with
      | error x =>
          rw [Tx.commit_of_error h]
          exact .same _
      | ok result =>
          obtain ⟨answer, w'⟩ := result
          rw [Tx.commit_of_ok h]
          obtain ⟨hpasses, -, row, hproposed, hkey, hinProgress, htoken, -, hid, hnone, hruns⟩ :=
            EvaluationService.beginRun_eq_ok h
          dsimp only
          rw [hruns]
          refine runChange_insert ?_ runId
          rw [hid]
          refine .created place session e row rfl hsession hpasses rfl
            (congrArg some hproposed.symm) ?_ hinProgress htoken
          intro other row' hother
          rw [hkey]
          exact key_ne_of_runByExecutionKey_eq_none hnone hother
  | drop place =>
      obtain rfl := hstep
      exact .same _
  | finalizeSuccess target token passed dimensions e =>
      obtain rfl := hstep
      cases h : EvaluationService.finalizeSuccess target token passed dimensions e s.world with
      | error x =>
          rw [Tx.commit_of_error h]
          exact .same _
      | ok result =>
          obtain ⟨answer, w'⟩ := result
          rw [Tx.commit_of_ok h]
          obtain ⟨run, hlookup, howned, rfl⟩ := EvaluationService.finalizeSuccess_eq_ok h
          obtain rfl := htable.key target run hlookup
          refine runChange_insert ?_ runId
          rw [hlookup]
          exact .finalized token run _ (.inl ⟨passed, dimensions, e, rfl⟩) howned rfl rfl rfl
            (.inl rfl)
  | finalizeFailure target token e =>
      obtain rfl := hstep
      cases h : EvaluationService.finalizeFailure target token e s.world with
      | error x =>
          rw [Tx.commit_of_error h]
          exact .same _
      | ok result =>
          obtain ⟨answer, w'⟩ := result
          rw [Tx.commit_of_ok h]
          obtain ⟨run, hlookup, howned, rfl⟩ := EvaluationService.finalizeFailure_eq_ok h
          obtain rfl := htable.key target run hlookup
          refine runChange_insert ?_ runId
          rw [hlookup]
          exact .finalized token run _ (.inr ⟨e, rfl⟩) howned rfl rfl rfl (.inr rfl)
  | other w =>
      obtain ⟨hruns, rfl⟩ := hstep
      rw [hruns]
      exact .same _

end Steps

/-! ### Invariants -/

section Invariants

variable {sha256 : String → String} {s s' : EvaluationState} {call : EvaluationCall}

/-- Runs are stored by id and place, under tokens that were drawn. -/
structure EvaluationState.Sound (s : EvaluationState) : Prop where
  table : RunTable s.world.evaluationRuns
  issued : ∀ runId row, s.world.evaluationRuns.lookup runId = some row → row.ownershipToken ∈ s.issued

theorem evaluationIssued_subset (hstep : (evaluations sha256).step s call s') :
    s.issued ⊆ s'.issued := by
  cases call with
  | load place request e =>
      obtain ⟨-, rfl⟩ := hstep
      exact fun _ h => h
  | lockRun place e =>
      obtain ⟨-, session, -, -, rfl⟩ := hstep
      exact List.subset_cons_self _ _
  | beginRun place e =>
      obtain ⟨-, session, -, -, rfl⟩ := hstep
      exact List.subset_cons_self _ _
  | drop place | finalizeSuccess runId token passed dimensions e | finalizeFailure runId token e =>
      obtain rfl := hstep
      exact fun _ h => h
  | other w =>
      obtain ⟨-, rfl⟩ := hstep
      exact fun _ h => h

/-- An act that may begin or take over a run draws a token of its own. -/
theorem lockRun_issued {place : ℕ} {e : Env}
    (hstep : (evaluations sha256).step s (.lockRun place e) s') :
    e.tokenHex ∉ s.issued ∧ e.tokenHex ∈ s'.issued := by
  obtain ⟨hfresh, session, -, -, rfl⟩ := hstep
  exact ⟨hfresh, List.mem_cons_self⟩

theorem beginRun_issued {place : ℕ} {e : Env}
    (hstep : (evaluations sha256).step s (.beginRun place e) s') :
    e.tokenHex ∉ s.issued ∧ e.tokenHex ∈ s'.issued := by
  obtain ⟨hfresh, session, -, -, rfl⟩ := hstep
  exact ⟨hfresh, List.mem_cons_self⟩

/-- What a step leaves at a run, from what was there: a run that was there keeps its id and
place. -/
theorem kept_of_change {runId : String} {before after : Option EvaluationRunRow}
    (h : RunChange s call runId before after) {row' : EvaluationRunRow} (hafter : after = some row') :
    (∃ row, before = some row ∧ row'.id = row.id ∧ row'.key = row.key) ∨
      (call.proposedId = some runId ∧ row'.id = runId ∧
        ∀ other row, s.world.evaluationRuns.lookup other = some row → row.key ≠ row'.key) := by
  cases h with
  | same => exact .inl ⟨row', hafter, rfl, rfl⟩
  | created place session e row hcall hsession hpasses hid hproposed hnew =>
      cases hafter
      exact .inr ⟨hproposed, hid, hnew⟩
  | takenOver place session e row =>
      cases hafter
      exact .inl ⟨row, rfl, rfl, rfl⟩
  | finalized token row _ hcall howned hid hkey =>
      cases hafter
      exact .inl ⟨row, rfl, hid, hkey⟩

theorem runTable_preserved (htable : RunTable s.world.evaluationRuns)
    (hstep : (evaluations sha256).step s call s') : RunTable s'.world.evaluationRuns := by
  have hkept (runId : String) (row' : EvaluationRunRow)
      (hrow' : s'.world.evaluationRuns.lookup runId = some row') :=
    kept_of_change (runChange_of_step htable hstep runId) hrow'
  constructor
  · intro runId row' hrow'
    rcases hkept runId row' hrow' with ⟨row, hrow, hid, -⟩ | ⟨-, hid, -⟩
    · exact hid.trans (htable.key runId row hrow)
    · exact hid
  · intro runId runId' row row' hrow hrow' hplace
    by_contra hne
    rcases hkept runId row hrow with ⟨old, hold, -, hkey⟩ | ⟨hproposed, -, hnew⟩
    · rcases hkept runId' row' hrow' with ⟨old', hold', -, hkey'⟩ | ⟨-, -, hnew'⟩
      · exact hne (htable.place runId runId' old old' hold hold'
          (hkey.symm.trans (hplace.trans hkey')))
      · exact hnew' runId old hold (hkey.symm.trans hplace)
    · rcases hkept runId' row' hrow' with ⟨old', hold', -, hkey'⟩ | ⟨hproposed', -, -⟩
      · exact hnew runId' old' hold' (hkey'.symm.trans hplace.symm)
      · -- one call creates one run
        exact hne (Option.some.inj (hproposed.symm.trans hproposed'))

theorem sound_preserved : (evaluations sha256).Preserved EvaluationState.Sound := by
  intro s call s' hs hstep
  refine ⟨runTable_preserved hs.table hstep, ?_⟩
  intro runId row' hrow'
  have hsubset := evaluationIssued_subset hstep
  have hchange := runChange_of_step hs.table hstep runId
  rw [hrow'] at hchange
  generalize hrow : s.world.evaluationRuns.lookup runId = before at hchange
  cases hchange with
  | same => exact hsubset (hs.issued runId row' hrow)
  | created place session e _ hcall _ _ _ _ _ _ htoken =>
      subst hcall
      rw [htoken]
      exact (beginRun_issued hstep).2
  | takenOver place session e row _ hcall =>
      subst hcall
      exact (lockRun_issued hstep).2
  | finalized token row _ hcall howned hid hkey htoken =>
      rw [htoken]
      exact hsubset (hs.issued runId row hrow)

theorem sound_of_reachable (h : (evaluations sha256).Reachable s) : s.Sound := by
  refine h.invariant ?_ sound_preserved
  rintro s ⟨hempty, -⟩
  have hnone (runId : String) : s.world.evaluationRuns.lookup runId = none := by
    rw [hempty]
    rfl
  refine ⟨⟨?_, ?_⟩, ?_⟩
  · intro runId row hrow
    rw [hnone] at hrow
    cases hrow
  · intro runId runId' row row' hrow
    rw [hnone] at hrow
    cases hrow
  · intro runId row hrow
    rw [hnone] at hrow
    cases hrow

/-! ### Succeeded runs and superseded tokens -/

/-- No step changes a succeeded run. -/
theorem succeeded_preserved {runId : String} {row : EvaluationRunRow}
    (hdone : row.status = .succeeded) :
    (evaluations sha256).Preserved fun s =>
      s.Sound ∧ s.world.evaluationRuns.lookup runId = some row := by
  rintro s call s' ⟨hs, hrow⟩ hstep
  refine ⟨sound_preserved s call s' hs hstep, ?_⟩
  have hchange := runChange_of_step hs.table hstep runId
  rw [hrow] at hchange
  generalize s'.world.evaluationRuns.lookup runId = after at hchange ⊢
  cases hchange with
  | same => rfl
  | takenOver _ _ _ _ _ _ _ _ hstatus => exact absurd hdone hstatus
  | finalized token _ row' hcall howned =>
      simp [EvaluationRunRow.ownedBy, hdone] at howned

/-- The token was drawn, and the run does not carry it. -/
def EvaluationState.Supersedes (s : EvaluationState) (runId old : String) : Prop :=
  old ∈ s.issued ∧ ∀ row, s.world.evaluationRuns.lookup runId = some row → row.ownershipToken ≠ old

/-- A superseded token stays superseded: every takeover draws a fresh one. -/
theorem supersedes_preserved (runId old : String) :
    (evaluations sha256).Preserved fun s => s.Sound ∧ s.Supersedes runId old := by
  rintro s call s' ⟨hs, hold, hother⟩ hstep
  refine ⟨sound_preserved s call s' hs hstep, evaluationIssued_subset hstep hold, ?_⟩
  intro row' hrow' heq
  have hchange := runChange_of_step hs.table hstep runId
  rw [hrow'] at hchange
  generalize hrow : s.world.evaluationRuns.lookup runId = before at hchange
  cases hchange with
  | same => exact hother row' hrow heq
  | created place session e _ hcall _ _ _ _ _ _ htoken =>
      subst hcall
      refine (beginRun_issued hstep).1 ?_
      rw [← htoken, heq]
      exact hold
  | takenOver place session e row _ hcall =>
      subst hcall
      have hdrawn : e.tokenHex = old := heq
      refine (lockRun_issued hstep).1 ?_
      rw [hdrawn]
      exact hold
  | finalized token row _ hcall howned hid hkey htoken => exact hother row hrow (htoken.symm.trans heq)

/-- A finalizing call without the run's token, or on a run that is not in progress, changes
nothing. -/
theorem finalizes_not_owned {runId token : String} (hcall : call.Finalizes runId token)
    (hstep : (evaluations sha256).step s call s')
    (hother : ∀ row, s.world.evaluationRuns.lookup runId = some row → row.ownedBy token = false) :
    s' = s := by
  obtain ⟨passed, dimensions, e, rfl⟩ | ⟨e, rfl⟩ := hcall
  · obtain rfl := hstep
    cases h : EvaluationService.finalizeSuccess runId token passed dimensions e s.world with
    | error x => rw [Tx.commit_of_error h]
    | ok result =>
        obtain ⟨run, hlookup, howned, -⟩ := EvaluationService.finalizeSuccess_eq_ok h
        rw [hother run hlookup] at howned
        cases howned
  · obtain rfl := hstep
    cases h : EvaluationService.finalizeFailure runId token e s.world with
    | error x => rw [Tx.commit_of_error h]
    | ok result =>
        obtain ⟨run, hlookup, howned, -⟩ := EvaluationService.finalizeFailure_eq_ok h
        rw [hother run hlookup] at howned
        cases howned

end Invariants

/-! ### Replays and conflicts -/

section Replays

variable {sha256 : String → String} {request : EvaluationService.Request}
  {loaded : EvaluationService.LoadedJob} {e : Env} {w : World} {run : EvaluationRunRow}

/-- The attempt is one of an execution of the job, in the profile of the job. -/
def World.isAttemptOf (w : World) (executionId profile jobId : String) : Prop :=
  (w.executions.lookup executionId).any (·.researchJobId = jobId) = true ∧
    (w.jobs.lookup jobId).any (·.evaluationProfile = some profile) = true

/-- A session of such an attempt loads the row of the job. -/
theorem loadJob_of_isAttemptOf
    (hattempt : w.isAttemptOf request.executionId request.profile request.jobId) :
    ∃ loaded, EvaluationService.loadJob request e w = .ok (loaded, w) := by
  obtain ⟨hexecution, hprofile⟩ := hattempt
  obtain ⟨row, hrow, hsame⟩ := (Option.any_eq_true _ _).1 hprofile
  refine ⟨⟨row, e.now⟩, ?_⟩
  simp only [EvaluationService.loadJob, Tx.bind_eq_ok, Tx.reading_eq_ok, Tx.read_eq_ok,
    require_eq_ok]
  refine ⟨e.now, w, ⟨rfl, rfl⟩, w, w, ⟨rfl, rfl⟩, (), w, ⟨hexecution, rfl⟩, ?_⟩
  simp only [hrow, Tx.bind_eq_ok, require_eq_ok]
  exact ⟨(), w, ⟨of_decide_eq_true hsame, rfl⟩, rfl⟩

/-- A succeeded attempt with the same input is returned as it is. -/
theorem lockRun_replay
    (hrun : runByExecutionKey w.evaluationRuns request.executionId request.profile request.attempt
      = some run)
    (hdone : run.status = .succeeded) (hfingerprint : run.inputFingerprint = request.fingerprint) :
    EvaluationService.lockRun sha256 request loaded e w
      = .ok (some (run.id, "", some run.toResult), w) := by
  simp only [EvaluationService.lockRun, Tx.bind_eq_ok, Tx.read_eq_ok]
  refine ⟨w.evaluationRuns, w, ⟨rfl, rfl⟩, ?_⟩
  simp only [hrun, if_pos hdone, Tx.bind_eq_ok, require_eq_ok]
  exact ⟨(), w, ⟨hfingerprint, rfl⟩, rfl⟩

/-- **A succeeded attempt is returned without grading**: the run of the evaluation ends with the act
that finds it. -/
theorem evaluationRun_replays {executionId profile jobId claimToken : String} {attempt : ℕ}
    {deadline : Instant} {env : ℕ → Env} {i : ℕ}
    (hattempt : w.isAttemptOf executionId profile jobId)
    (hrun : runByExecutionKey w.evaluationRuns executionId profile attempt = some run)
    (hdone : run.status = .succeeded)
    (hsnapshot : (env i).outside.snapshotFingerprint = .ok run.inputFingerprint) :
    (evaluationRun sha256 executionId profile attempt jobId claimToken deadline).run env i w
      = (.ok run.toResult, i + 3, w) := by
  have hload : ∃ loaded, EvaluationService.loadJob
      ⟨executionId, profile, attempt, run.inputFingerprint, jobId, claimToken, deadline⟩
      (env (i + 1)) w = .ok (loaded, w) := loadJob_of_isAttemptOf hattempt
  obtain ⟨loaded, hload⟩ := hload
  have hreplay : EvaluationService.lockRun sha256
      ⟨executionId, profile, attempt, run.inputFingerprint, jobId, claimToken, deadline⟩ loaded
      (env (i + 2)) w = .ok (some (run.id, "", some run.toResult), w) :=
    lockRun_replay hrun hdone rfl
  simp only [evaluationRun, EvaluationService.beginOrResume, ask, Program.run_bind,
    Program.run_reading, hsnapshot, Program.run_lift]
  rw [Program.run_atomically, hload]
  dsimp only
  rw [Program.run_atomically, hreplay]
  rfl

/-- An attempt with another input raises under the lock of the run. -/
theorem lockRun_conflict
    (hrun : runByExecutionKey w.evaluationRuns request.executionId request.profile request.attempt
      = some run)
    (hfingerprint : run.inputFingerprint ≠ request.fingerprint) :
    ∃ x, EvaluationService.lockRun sha256 request loaded e w = .error x := by
  cases h : EvaluationService.lockRun sha256 request loaded e w with
  | error x => exact ⟨x, rfl⟩
  | ok result =>
      obtain ⟨found, hfound, -, hsame, -⟩ | ⟨found, answer, hfound, -, -, hresume⟩ | ⟨hnone, -⟩ :=
        EvaluationService.lockRun_cases h
      · rw [hrun] at hfound
        cases hfound
        exact absurd hsame hfingerprint
      · rw [hrun] at hfound
        cases hfound
        exact absurd (EvaluationService.resumeRun_eq_ok hresume).2.2.1 hfingerprint
      · rw [hrun] at hnone
        cases hnone

/-- Where there is a run by then, creating it raises. -/
theorem beginRun_conflict
    (hrun : runByExecutionKey w.evaluationRuns request.executionId request.profile request.attempt
      = some run) :
    ∃ x, EvaluationService.beginRun sha256 request loaded e w = .error x := by
  cases h : EvaluationService.beginRun sha256 request loaded e w with
  | error x => exact ⟨x, rfl⟩
  | ok result =>
      obtain ⟨-, -, _, -, -, -, -, -, -, hnone, -⟩ := EvaluationService.beginRun_eq_ok h
      rw [hrun] at hnone
      cases hnone

end Replays

/-! ### Claims that are kept -/

/-- No commit takes away the claim that the instance of an open session shows. -/
def ClaimsKept (s : EvaluationState) (call : EvaluationCall) : Prop :=
  ∀ w, call = .other w → ∀ place session, s.sessions place = some session → session.Passes →
    session.Holds s.world → session.Holds w

/-- Where the instance of a session shows the claim, the committed row does. -/
def EvaluationState.Fresh (s : EvaluationState) : Prop :=
  ∀ place session, s.sessions place = some session → session.Passes → session.Holds s.world

section Kept

variable {sha256 : String → String} {s s' : EvaluationState} {w w' : World}
  {session : BeginSession}

theorem BeginSession.Holds.of_jobs (h : session.Holds w) (hjobs : w'.jobs = w.jobs) :
    session.Holds w' := by
  obtain ⟨row, hrow, howns⟩ := h
  exact ⟨row, hjobs ▸ hrow, howns⟩

/-- Another count leaves the claim. -/
theorem BeginSession.Holds.of_recounted {jobId : String} {row row' : ResearchJobRow}
    (h : session.Holds w) (hrecounted : EvaluationService.Recounted w jobId row row')
    (hjobs : w'.jobs = w.jobs.insert jobId row') : session.Holds w' := by
  obtain ⟨held, hheld, howns⟩ := h
  by_cases hjob : session.request.jobId = jobId
  · rw [hjob, hrecounted.lookup] at hheld
    cases hheld
    obtain ⟨count, rfl⟩ := hrecounted.columns
    refine ⟨{ row with evaluationAttemptCount := count }, ?_, howns⟩
    rw [hjobs, hjob, AList.lookup_insert]
  · refine ⟨held, ?_, howns⟩
    rw [hjobs, AList.lookup_insert_ne hjob, hheld]

/-- The sessions after an act of one of them, which may have ended it. -/
theorem fresh_update {place : ℕ} {next : Option BeginSession}
    (hs : ∀ other session, s.sessions other = some session → session.Passes → session.Holds w)
    (hnext : ∀ session, next = some session → session.Passes → session.Holds w)
    {other : ℕ} (hsession : Function.update s.sessions place next other = some session)
    (hpasses : session.Passes) : session.Holds w := by
  rw [Function.update_apply] at hsession
  split at hsession
  · exact hnext session hsession hpasses
  · exact hs other session hsession hpasses

/-- **While no commit takes away a claim that was read, every read stays fresh.** -/
theorem reads_fresh_preserved :
    ((evaluations sha256).restrict fun s call _ => ClaimsKept s call).Preserved
      EvaluationState.Fresh := by
  rintro s call s' hs ⟨hstep, hkept⟩
  cases call with
  | load place request e =>
      obtain ⟨-, rfl⟩ := hstep
      refine fun _ _ => fresh_update hs ?_
      intro session hsession hpasses
      cases h : EvaluationService.loadJob request e s.world with
      | error x =>
          rw [h] at hsession
          cases hsession
      | ok result =>
          obtain ⟨loaded, w'⟩ := result
          rw [h] at hsession
          cases hsession
          exact ⟨loaded.row, (EvaluationService.loadJob_eq_ok h).1, hpasses⟩
  | lockRun place e =>
      obtain ⟨-, session, hsession, -, rfl⟩ := hstep
      have hjobs : (s.lockRun sha256 place session e).world.jobs = s.world.jobs := by
        rw [EvaluationState.lockRun]
        cases h : EvaluationService.lockRun sha256 session.request session.loaded e s.world with
        | error x => rw [Tx.commit_of_error h]
        | ok result =>
            obtain ⟨runs, hruns⟩ := EvaluationService.lockRun_onlyRuns h
            rw [Tx.commit_of_ok h, hruns]
      refine fun _ _ => fresh_update
        (fun other held hheld hpasses => (hs other held hheld hpasses).of_jobs hjobs) ?_
      intro held hheld hpasses
      have hsame : held = { session with searched := true } := by
        split at hheld
        · exact (Option.some.inj hheld).symm
        · cases hheld
      subst hsame
      exact (hs place session hsession hpasses).of_jobs hjobs
  | beginRun place e =>
      obtain ⟨-, session, hsession, -, rfl⟩ := hstep
      refine fun _ _ => fresh_update ?_ (fun _ hnone => by cases hnone)
      intro other held hheld hpasses
      have hholds := hs other held hheld hpasses
      rw [EvaluationState.beginRun]
      cases h : EvaluationService.beginRun sha256 session.request session.loaded e s.world with
      | error x =>
          rw [Tx.commit_of_error h]
          exact hholds
      | ok result =>
          obtain ⟨-, row, row', runs, hrecounted, hworld⟩ := EvaluationService.beginRun_recounts h
          rw [Tx.commit_of_ok h]
          exact hholds.of_recounted hrecounted (by rw [hworld])
  | drop place =>
      obtain rfl := hstep
      exact fun _ _ => fresh_update hs (fun _ hnone => by cases hnone)
  | finalizeSuccess runId token passed dimensions e =>
      obtain rfl := hstep
      intro other held hheld hpasses
      refine (hs other held hheld hpasses).of_jobs ?_
      cases h : EvaluationService.finalizeSuccess runId token passed dimensions e s.world with
      | error x => rw [Tx.commit_of_error h]
      | ok result =>
          obtain ⟨runs, hruns⟩ := EvaluationService.finalizeSuccess_onlyRuns h
          rw [Tx.commit_of_ok h, hruns]
  | finalizeFailure runId token e =>
      obtain rfl := hstep
      intro other held hheld hpasses
      refine (hs other held hheld hpasses).of_jobs ?_
      cases h : EvaluationService.finalizeFailure runId token e s.world with
      | error x => rw [Tx.commit_of_error h]
      | ok result =>
          obtain ⟨runs, hruns⟩ := EvaluationService.finalizeFailure_onlyRuns h
          rw [Tx.commit_of_ok h, hruns]
  | other w =>
      obtain ⟨-, rfl⟩ := hstep
      intro place held hheld hpasses
      exact hkept w rfl place held hheld hpasses (hs place held hheld hpasses)

theorem reads_fresh_of_reachable
    (h : ((evaluations sha256).restrict fun s call _ => ClaimsKept s call).Reachable s) :
    s.Fresh := by
  refine h.invariant ?_ reads_fresh_preserved
  rintro s₀ ⟨-, -, hnone⟩ place session hsession
  rw [hnone] at hsession
  cases hsession

end Kept

/-! ### Fencing -/

/-- The call is an act of the session at the place that may begin a run or take it over. -/
def EvaluationCall.BeginsAt (call : EvaluationCall) (place : ℕ) : Prop :=
  (∃ e, call = .lockRun place e) ∨ ∃ e, call = .beginRun place e

/-- What fencing means in a state of the system. -/
structure EvaluationFenced (sha256 : String → String) (s : EvaluationState) : Prop where
  /-- A succeeded run and its dimensions never change. -/
  succeeded_final : ∀ runId row, s.world.evaluationRuns.lookup runId = some row →
    row.status = .succeeded → ∀ calls s', (evaluations sha256).Run s calls s' →
      s'.world.evaluationRuns.lookup runId = some row
  /-- It is replayed without grading. -/
  succeeded_replayed : ∀ executionId profile attempt jobId claimToken deadline run env i,
    s.world.isAttemptOf executionId profile jobId →
    runByExecutionKey s.world.evaluationRuns executionId profile attempt = some run →
    run.status = .succeeded → (env i).outside.snapshotFingerprint = .ok run.inputFingerprint →
    (evaluationRun sha256 executionId profile attempt jobId claimToken deadline).run env i s.world
      = (.ok run.toResult, i + 3, s.world)
  /-- A run that leaves IN_PROGRESS is finalized by the caller with its token. -/
  finalized_by_owner : ∀ call s', (evaluations sha256).step s call s' → ∀ runId row row',
    s.world.evaluationRuns.lookup runId = some row →
    s'.world.evaluationRuns.lookup runId = some row' → row'.status ≠ .inProgress →
    row' = row ∨ row.status = .inProgress ∧ call.Finalizes runId row.ownershipToken
  /-- A finalizing call that does not own the run changes nothing. -/
  late_finalize : ∀ call s' runId token, (evaluations sha256).step s call s' →
    call.Finalizes runId token →
    (∀ row, s.world.evaluationRuns.lookup runId = some row →
      ¬ (row.status = .inProgress ∧ row.ownershipToken = token)) → s' = s
  /-- The token of an owner whose run was taken over changes nothing ever after. -/
  superseded : ∀ call s₁ runId row row₁, (evaluations sha256).step s call s₁ →
    s.world.evaluationRuns.lookup runId = some row →
    s₁.world.evaluationRuns.lookup runId = some row₁ → row₁.ownershipToken ≠ row.ownershipToken →
    ∀ calls s₂, (evaluations sha256).Run s₁ calls s₂ →
    ∀ call' s₃, call'.Finalizes runId row.ownershipToken →
      (evaluations sha256).step s₂ call' s₃ → s₃ = s₂
  /-- The instance of a session is the committed row when it is loaded. -/
  loaded_committed : ∀ place request e s' session,
    (evaluations sha256).step s (.load place request e) s' → s'.sessions place = some session →
    session.request = request ∧ s.world.jobs.lookup request.jobId = some session.loaded.row ∧
      session.loaded.now = e.now
  /-- A run is created or taken over by a session whose instance shows the caller's claim, and one
  in progress only after its deadline. -/
  begun_under_read : ∀ call s', (evaluations sha256).step s call s' → ∀ runId row',
    s'.world.evaluationRuns.lookup runId = some row' → row'.status = .inProgress →
    s.world.evaluationRuns.lookup runId ≠ some row' →
    ∃ place session, s.sessions place = some session ∧ call.BeginsAt place ∧ session.Passes ∧
      ∀ row, s.world.evaluationRuns.lookup runId = some row → row.status = .inProgress →
        row.deadlineAt < session.loaded.now
  /-- There is at most one run at a place. -/
  one_run : ∀ runId runId' row row', s.world.evaluationRuns.lookup runId = some row →
    s.world.evaluationRuns.lookup runId' = some row' → row.key = row'.key → runId = runId'
  /-- At most one token can still finalize a run. -/
  one_token : ∀ runId row token token', s.world.evaluationRuns.lookup runId = some row →
    row.ownedBy token = true → row.ownedBy token' = true → token = token'
  /-- With another fingerprint than that of the run, both acts that write raise and change no
  row. -/
  conflict : ∀ place session run, s.sessions place = some session →
    runByExecutionKey s.world.evaluationRuns session.request.executionId session.request.profile
      session.request.attempt = some run →
    run.inputFingerprint ≠ session.request.fingerprint →
    (∀ e, (∃ x, EvaluationService.lockRun sha256 session.request session.loaded e s.world
        = .error x) ∧
      ∃ x, EvaluationService.beginRun sha256 session.request session.loaded e s.world = .error x) ∧
    ∀ call s', (evaluations sha256).step s call s' → call.BeginsAt place → s'.world = s.world

/-- A run is created or taken over only under the claim that the committed row of the job carries,
and one in progress only after its deadline. -/
def BegunUnderClaim (sha256 : String → String) (s : EvaluationState) : Prop :=
  ∀ call s', (evaluations sha256).step s call s' → ∀ runId row',
    s'.world.evaluationRuns.lookup runId = some row' → row'.status = .inProgress →
    s.world.evaluationRuns.lookup runId ≠ some row' →
    ∃ place session, s.sessions place = some session ∧ call.BeginsAt place ∧
      session.Holds s.world ∧
      ∀ row, s.world.evaluationRuns.lookup runId = some row → row.status = .inProgress →
        row.deadlineAt < session.loaded.now

section Fencing

variable {sha256 : String → String} {s s' : EvaluationState} {call : EvaluationCall}

theorem ownedBy_eq_true {row : EvaluationRunRow} {token : String} :
    row.ownedBy token = true ↔ row.status = .inProgress ∧ row.ownershipToken = token := by
  simp [EvaluationRunRow.ownedBy]

/-- A run that left IN_PROGRESS was finalized by its owner. -/
theorem finalized_of_step (hs : s.Sound) (hstep : (evaluations sha256).step s call s')
    {runId : String} {row row' : EvaluationRunRow}
    (hrow : s.world.evaluationRuns.lookup runId = some row)
    (hrow' : s'.world.evaluationRuns.lookup runId = some row') (hdone : row'.status ≠ .inProgress) :
    row' = row ∨ row.status = .inProgress ∧ call.Finalizes runId row.ownershipToken := by
  have hchange := runChange_of_step hs.table hstep runId
  rw [hrow, hrow'] at hchange
  cases hchange with
  | same => exact .inl rfl
  | takenOver => exact absurd rfl hdone
  | finalized token _ _ hcall howned =>
      obtain ⟨hstatus, rfl⟩ := ownedBy_eq_true.1 howned
      exact .inr ⟨hstatus, hcall⟩

/-- A run that changed its token is out of reach of the old one. -/
theorem supersedes_of_step (hs : s.Sound) (hstep : (evaluations sha256).step s call s')
    {runId : String} {row row' : EvaluationRunRow}
    (hrow : s.world.evaluationRuns.lookup runId = some row)
    (hrow' : s'.world.evaluationRuns.lookup runId = some row')
    (hne : row'.ownershipToken ≠ row.ownershipToken) : s'.Supersedes runId row.ownershipToken := by
  refine ⟨evaluationIssued_subset hstep (hs.issued runId row hrow), ?_⟩
  intro row'' hrow''
  rw [hrow'] at hrow''
  cases hrow''
  exact hne

theorem loaded_of_step {place : ℕ} {request : EvaluationService.Request} {e : Env}
    {session : BeginSession} (hstep : (evaluations sha256).step s (.load place request e) s')
    (hsession : s'.sessions place = some session) :
    session.request = request ∧ s.world.jobs.lookup request.jobId = some session.loaded.row ∧
      session.loaded.now = e.now := by
  obtain ⟨-, rfl⟩ := hstep
  rw [EvaluationState.load] at hsession
  dsimp only at hsession
  rw [Function.update_self] at hsession
  cases h : EvaluationService.loadJob request e s.world with
  | error x =>
      rw [h] at hsession
      cases hsession
  | ok result =>
      obtain ⟨loaded, w'⟩ := result
      rw [h] at hsession
      cases hsession
      obtain ⟨hrow, hnow, -⟩ := EvaluationService.loadJob_eq_ok h
      exact ⟨rfl, hrow, hnow⟩

/-- A run in progress that was not there before was begun by a session, under the claim it has
read. -/
theorem begun_of_step (hs : s.Sound) (hstep : (evaluations sha256).step s call s')
    {runId : String} {row' : EvaluationRunRow}
    (hrow' : s'.world.evaluationRuns.lookup runId = some row') (hopen : row'.status = .inProgress)
    (hnew : s.world.evaluationRuns.lookup runId ≠ some row') :
    ∃ place session, s.sessions place = some session ∧ call.BeginsAt place ∧ session.Passes ∧
      ∀ row, s.world.evaluationRuns.lookup runId = some row → row.status = .inProgress →
        row.deadlineAt < session.loaded.now := by
  have hchange := runChange_of_step hs.table hstep runId
  rw [hrow'] at hchange
  generalize s.world.evaluationRuns.lookup runId = before at hchange hnew
  cases hchange with
  | same => exact absurd rfl hnew
  | created place session e _ hcall hsession hpasses =>
      refine ⟨place, session, hsession, .inr ⟨e, hcall⟩, hpasses, ?_⟩
      intro row hrow
      cases hrow
  | takenOver place session e row _ hcall hsession hpasses _ hdeadline =>
      refine ⟨place, session, hsession, .inl ⟨e, hcall⟩, hpasses, ?_⟩
      rintro _ ⟨⟩
      exact hdeadline
  | finalized _ _ _ _ _ _ _ _ hstatus =>
      rw [hopen] at hstatus
      rcases hstatus with hstatus | hstatus <;> cases hstatus

/-- An act that would begin a run with another fingerprint than the stored one changes no row. -/
theorem conflict_of_step {place : ℕ} {session : BeginSession} {run : EvaluationRunRow}
    (hsession : s.sessions place = some session)
    (hrun : runByExecutionKey s.world.evaluationRuns session.request.executionId
      session.request.profile session.request.attempt = some run)
    (hfingerprint : run.inputFingerprint ≠ session.request.fingerprint)
    (hstep : (evaluations sha256).step s call s') (hcall : call.BeginsAt place) :
    s'.world = s.world := by
  rcases hcall with ⟨e, rfl⟩ | ⟨e, rfl⟩
  · obtain ⟨-, other, hother, -, rfl⟩ := hstep
    obtain rfl := Option.some.inj (hsession.symm.trans hother)
    have hraises : ∃ x, EvaluationService.lockRun sha256 session.request session.loaded e s.world
        = .error x := lockRun_conflict hrun hfingerprint
    obtain ⟨x, hx⟩ := hraises
    rw [EvaluationState.lockRun, Tx.commit_of_error hx]
  · obtain ⟨-, other, hother, -, rfl⟩ := hstep
    obtain rfl := Option.some.inj (hsession.symm.trans hother)
    have hraises : ∃ x, EvaluationService.beginRun sha256 session.request session.loaded e s.world
        = .error x := beginRun_conflict hrun
    obtain ⟨x, hx⟩ := hraises
    rw [EvaluationState.beginRun, Tx.commit_of_error hx]

theorem fenced_of_reachable (h : (evaluations sha256).Reachable s) : EvaluationFenced sha256 s := by
  have hs := sound_of_reachable h
  constructor
  · intro runId row hrow hdone calls s' hrun
    exact (hrun.preserves (succeeded_preserved hdone) ⟨hs, hrow⟩).2
  · intro executionId profile attempt jobId claimToken deadline run env i hattempt hrun hdone
      hsnapshot
    exact evaluationRun_replays hattempt hrun hdone hsnapshot
  · intro call s' hstep runId row row' hrow hrow' hdone
    exact finalized_of_step hs hstep hrow hrow' hdone
  · intro call s' runId token hstep hcall hother
    refine finalizes_not_owned hcall hstep ?_
    intro row hrow
    rw [Bool.eq_false_iff]
    exact fun howned => hother row hrow (ownedBy_eq_true.1 howned)
  · intro call s₁ runId row row₁ hstep hrow hrow₁ hne calls s₂ hrun call' s₃ hcall hstep'
    have hsound := sound_preserved s call s₁ hs hstep
    have hsuperseded := (hrun.preserves (supersedes_preserved runId row.ownershipToken)
      ⟨hsound, supersedes_of_step hs hstep hrow hrow₁ hne⟩).2
    refine finalizes_not_owned hcall hstep' ?_
    intro row₂ hrow₂
    rw [Bool.eq_false_iff]
    exact fun howned => hsuperseded.2 row₂ hrow₂ (ownedBy_eq_true.1 howned).2
  · intro place request e s' session hstep hsession
    exact loaded_of_step hstep hsession
  · intro call s' hstep runId row' hrow' hopen hnew
    exact begun_of_step hs hstep hrow' hopen hnew
  · exact hs.table.place
  · intro runId row token token' hrow howned howned'
    exact (ownedBy_eq_true.1 howned).2.symm.trans (ownedBy_eq_true.1 howned').2
  · intro place session run hsession hrun hfingerprint
    refine ⟨fun e => ⟨lockRun_conflict hrun hfingerprint, beginRun_conflict hrun⟩, ?_⟩
    intro call s' hstep hcall
    exact conflict_of_step hsession hrun hfingerprint hstep hcall

/-- **Evaluation-run fencing**, in every reachable state; and in every run in which no commit takes
away a claim that an open session has read, a run is begun only under the claim of the committed
row. -/
theorem evaluation_run_fencing (h : (evaluations sha256).Reachable s) :
    EvaluationFenced sha256 s ∧
      (((evaluations sha256).restrict fun s call _ => ClaimsKept s call).Reachable s →
        BegunUnderClaim sha256 s) := by
  refine ⟨fenced_of_reachable h, ?_⟩
  intro hkept call s' hstep runId row' hrow' hopen hnew
  obtain ⟨place, session, hsession, hcall, hpasses, hdeadline⟩ :=
    begun_of_step (sound_of_reachable h) hstep hrow' hopen hnew
  exact ⟨place, session, hsession, hcall, reads_fresh_of_reachable hkept place session hsession hpasses,
    hdeadline⟩

end Fencing

/-! ### Instances -/

/-- A job claimed until 100. -/
def evaluatedQueue : QueueState :=
  ((⟨∅, []⟩ : QueueState).apply (.add
    { id := "job-1", question := "why?", status := .pending, createdAt := 0, updatedAt := 0
      startedAt := none, finishedAt := none, result := none, failureReason := none }
    "key-1" (repeatedToken 'f') none)).apply
    (.claimNext [] 10 100 (repeatedToken 'a') none (some "job-1"))

/-- The same, with an execution. -/
def evaluatedWorld : World where
  jobs := evaluatedQueue.jobs
  executions := (∅ : Executions).insert "exec-1"
    { id := "exec-1", researchJobId := "job-1", threadId := "exec-1", status := .running
      startedAt := 11, finishedAt := none }

/-- An act at an instant that draws one token. -/
def evaluationEnv (now : Instant) (token : Char) : Env where
  now := now
  uuid n := "run-" ++ toString n
  tokenHex := repeatedToken token
  jitter := 0
  traceparent := none
  outside := .unavailable

/-- What the attempt is begun with, under the first claim. -/
def evaluationRequest (deadline : Instant) : EvaluationService.Request where
  executionId := "exec-1"
  profile := "evaluation.candidate.v1"
  attempt := 1
  fingerprint := repeatedToken 'f'
  jobId := "job-1"
  claimToken := repeatedToken 'a'
  deadline := deadline

/-- The fingerprints of claim tokens. -/
def claimDigest : String → String := fun _ => repeatedToken 'c'

/-- The next act of the session at the first place. -/
def EvaluationState.proceed (s : EvaluationState) (e : Env) : EvaluationState :=
  match s.sessions 0 with
  | none => s
  | some session =>
      if session.searched then s.beginRun claimDigest 0 session e
      else s.lockRun claimDigest 0 session e

/-- A session at the first place has loaded the row of the job. -/
def EvaluationState.opens (s : EvaluationState) (now : Instant) : EvaluationState :=
  s.load 0 (evaluationRequest (now + 5)) (evaluationEnv now 'b')

@[simp] theorem EvaluationState.opens_world (s : EvaluationState) (now : Instant) :
    (s.opens now).world = s.world := rfl

@[simp] theorem EvaluationState.opens_issued (s : EvaluationState) (now : Instant) :
    (s.opens now).issued = s.issued := rfl

/-- The attempt is begun at 15. -/
def begunAttempt : EvaluationState :=
  (((EvaluationState.mk evaluatedWorld [] fun _ => none).opens 15).proceed
    (evaluationEnv 15 'c')).proceed (evaluationEnv 15 'd')

/-- It is taken over at 30. -/
def takenOver : EvaluationState := (begunAttempt.opens 30).proceed (evaluationEnv 30 'e')

section Reachable

variable {s : EvaluationState}

/-- The runs in which no claim is taken away. -/
def keptEvaluations : Lts EvaluationState EvaluationCall :=
  (evaluations claimDigest).restrict fun s call _ => ClaimsKept s call

theorem reachable_opens (h : keptEvaluations.Reachable s) (hfree : s.sessions 0 = none)
    (now : Instant) : keptEvaluations.Reachable (s.opens now) := by
  refine h.step (l := .load 0 (evaluationRequest (now + 5)) (evaluationEnv now 'b'))
    ⟨⟨hfree, rfl⟩, ?_⟩
  intro w hw
  cases hw

/-- The act of the session is a step. -/
theorem step_proceed {session : BeginSession} (hsession : s.sessions 0 = some session) {e : Env}
    (hfresh : e.tokenHex ∉ s.issued) :
    ∃ call, (call = .lockRun 0 e ∨ call = .beginRun 0 e) ∧
      (evaluations claimDigest).step s call (s.proceed e) := by
  unfold EvaluationState.proceed
  rw [hsession]
  dsimp only
  split
  · rename_i hsearched
    exact ⟨_, .inr rfl, hfresh, session, hsession, hsearched, rfl⟩
  · rename_i hsearched
    rw [Bool.not_eq_true] at hsearched
    exact ⟨_, .inl rfl, hfresh, session, hsession, hsearched, rfl⟩

theorem reachable_proceed (h : keptEvaluations.Reachable s) {e : Env}
    (hfresh : e.tokenHex ∉ s.issued) : keptEvaluations.Reachable (s.proceed e) := by
  cases hsession : s.sessions 0 with
  | none =>
      unfold EvaluationState.proceed
      rw [hsession]
      exact h
  | some session =>
      obtain ⟨call, hcall, hstep⟩ := step_proceed hsession hfresh
      refine h.step ⟨hstep, ?_⟩
      intro w hw
      rcases hcall with rfl | rfl <;> cases hw

/-- An act of the session that begins a run does so under the committed claim, where runs are begun
under it. -/
theorem BegunUnderClaim.holds (h : BegunUnderClaim claimDigest s) {session : BeginSession}
    (hsession : s.sessions 0 = some session) {e : Env} (hfresh : e.tokenHex ∉ s.issued)
    {runId : String} {row' : EvaluationRunRow}
    (hrow' : (s.proceed e).world.evaluationRuns.lookup runId = some row')
    (hopen : row'.status = .inProgress)
    (hnew : s.world.evaluationRuns.lookup runId ≠ some row') : session.Holds s.world := by
  obtain ⟨call, hcall, hstep⟩ := step_proceed hsession hfresh
  obtain ⟨place, other, hother, hbegins, hholds, -⟩ :=
    h call _ hstep runId row' hrow' hopen hnew
  have hplace : place = 0 := by
    rcases hbegins with ⟨e', hbegins⟩ | ⟨e', hbegins⟩ <;>
      rcases hcall with hcall | hcall <;>
        · rw [hbegins] at hcall
          cases hcall <;> rfl
  subst hplace
  obtain rfl := Option.some.inj (hsession.symm.trans hother)
  exact hholds

theorem reachable_of_kept (h : keptEvaluations.Reachable s) :
    (evaluations claimDigest).Reachable s := by
  obtain ⟨s₀, calls, hinit, hrun⟩ := h
  exact ⟨s₀, calls, hinit, hrun.of_restrict⟩

/-- A result under another token than the run's changes nothing. -/
theorem EvaluationFenced.lateResult (h : EvaluationFenced claimDigest s) {runId token : String}
    (hother : ∀ row, s.world.evaluationRuns.lookup runId = some row → row.ownershipToken ≠ token)
    (passed : Bool) (dimensions : List DimensionResult) (e : Env) :
    (EvaluationService.finalizeSuccess runId token passed dimensions).commit e s.world
      = s.world := by
  have hsame := h.late_finalize (.finalizeSuccess runId token passed dimensions e) _ runId token rfl
    (.inl ⟨passed, dimensions, e, rfl⟩) fun row hrow howned => hother row hrow howned.2
  exact congrArg EvaluationState.world hsame

end Reachable

theorem takenOver_eq :
    takenOver = (begunAttempt.opens 30).proceed (evaluationEnv 30 'e') := rfl

/-- The attempt, and the session that takes it over. -/
theorem begunAttempt_world : (begunAttempt.sessions 0).isNone = true ∧
    begunAttempt.issued = [repeatedToken 'd', repeatedToken 'c'] ∧
    (begunAttempt.world.evaluationRuns.lookup "run-0").map (·.ownershipToken)
      = some (repeatedToken 'd') ∧
    ((begunAttempt.opens 30).sessions 0).map (fun session => (session.request, session.loaded.now))
      = some (evaluationRequest 35, 30) ∧
    (takenOver.world.evaluationRuns.lookup "run-0").map (fun row => (row.status, row.ownershipToken))
      = some (.inProgress, repeatedToken 'e') := by
  decide +kernel

theorem takenOver_reachable : keptEvaluations.Reachable (begunAttempt.opens 30) ∧
    keptEvaluations.Reachable takenOver := by
  obtain ⟨hfree, hissued, -⟩ := begunAttempt_world
  have hloaded : keptEvaluations.Reachable
      ((EvaluationState.mk evaluatedWorld [] fun _ => none).opens 15) :=
    reachable_opens (.of_init ⟨rfl, rfl, fun _ => rfl⟩) rfl 15
  have hsearched := reachable_proceed (e := evaluationEnv 15 'c') hloaded List.not_mem_nil
  have hbegun : keptEvaluations.Reachable begunAttempt := reachable_proceed hsearched (by decide)
  have hopened : keptEvaluations.Reachable (begunAttempt.opens 30) :=
    reachable_opens hbegun (Option.isNone_iff_eq_none.1 hfree) 30
  refine ⟨hopened, reachable_proceed hopened ?_⟩
  rw [EvaluationState.opens_issued, hissued]
  decide

/-- The attempt is taken over under the claim of the committed row, and the first owner's result,
which arrives late, changes nothing. -/
theorem evaluation_run_fencing_late_finalize :
    (begunAttempt.opens 30).world.holdsClaim "job-1" (repeatedToken 'a') 30 ∧
      ∀ e : Env, (EvaluationService.finalizeSuccess "run-0" (repeatedToken 'd') true []).commit e
        takenOver.world = takenOver.world := by
  obtain ⟨hopened, htaken⟩ := takenOver_reachable
  obtain ⟨-, hissued, hfirst, hsession, hlast⟩ := begunAttempt_world
  obtain ⟨row', hrow', hcolumns⟩ := Option.map_eq_some_iff.1 hlast
  obtain ⟨hopen, htoken⟩ := Prod.mk.inj hcolumns
  constructor
  · rw [takenOver_eq] at hrow'
    obtain ⟨session, hsession, hread⟩ := Option.map_eq_some_iff.1 hsession
    obtain ⟨hrequest, hnow⟩ := Prod.mk.inj hread
    have hholds := ((evaluation_run_fencing (reachable_of_kept hopened)).2 hopened).holds hsession
      (e := evaluationEnv 30 'e') ?_ hrow' hopen ?_
    · rw [BeginSession.Holds, hrequest, hnow] at hholds
      exact hholds
    · rw [EvaluationState.opens_issued, hissued]
      decide
    · intro hsame
      rw [EvaluationState.opens_world] at hsame
      rw [hsame, Option.map_some, htoken] at hfirst
      exact absurd hfirst (by decide)
  · refine (evaluation_run_fencing (reachable_of_kept htaken)).1.lateResult ?_ true []
    intro row hrow hold
    obtain rfl := Option.some.inj (hrow'.symm.trans hrow)
    exact absurd (htoken.symm.trans hold) (by decide)

/-- The job is reclaimed at 120, when the first claim has ended. -/
def reclaimedJobs : Jobs :=
  (evaluatedQueue.apply (.claimNext [] 120 200 (repeatedToken 'b') none (some "job-1"))).jobs

/-- The session of the first claim has loaded the row before. -/
def supersededSession : EvaluationState where
  world := { evaluatedWorld with jobs := reclaimedJobs }
  issued := []
  sessions := ((EvaluationState.mk evaluatedWorld [] fun _ => none).opens 15).sessions

/-- It looks for its run, and finds none. -/
def supersededAttempt : EvaluationState := supersededSession.proceed (evaluationEnv 15 'c')

theorem supersededAttempt_world : (supersededSession.sessions 0).isSome = true ∧
    supersededAttempt.issued = [repeatedToken 'c'] ∧
    (supersededAttempt.world.jobs.lookup "job-1").map (·.claimToken)
      = some (some (repeatedToken 'b')) ∧
    (supersededAttempt.world.evaluationRuns.lookup "run-0").isNone = true ∧
    (supersededAttempt.sessions 0).map (·.request) = some (evaluationRequest 20) ∧
    ((supersededAttempt.proceed (evaluationEnv 15 'd')).world.evaluationRuns.lookup "run-0").map
      (·.status) = some .inProgress := by
  decide +kernel

/-- **A run is begun under a claim that has been superseded**: the committed row carries the second
claim, and the session of the first creates its run. -/
theorem evaluation_run_stale_claim : (evaluations claimDigest).Reachable supersededAttempt ∧
    (supersededAttempt.world.jobs.lookup "job-1").map (·.claimToken)
      = some (some (repeatedToken 'b')) ∧
    ¬ BegunUnderClaim claimDigest supersededAttempt := by
  obtain ⟨hloaded, hissued, htoken, hnone, hrequest, hbegun⟩ := supersededAttempt_world
  refine ⟨?_, htoken, ?_⟩
  · obtain ⟨session, hsession⟩ := Option.isSome_iff_exists.1 hloaded
    have hopened : keptEvaluations.Reachable
        ((EvaluationState.mk evaluatedWorld [] fun _ => none).opens 15) :=
      reachable_opens (.of_init ⟨rfl, rfl, fun _ => rfl⟩) rfl 15
    have hreclaimed : (evaluations claimDigest).Reachable supersededSession :=
      (reachable_of_kept hopened).step
        (l := .other { evaluatedWorld with jobs := reclaimedJobs }) ⟨rfl, rfl⟩
    obtain ⟨call, -, hstep⟩ :=
      step_proceed (e := evaluationEnv 15 'c') hsession List.not_mem_nil
    exact hreclaimed.step hstep
  · intro hclaim
    obtain ⟨session, hsession, hrequest⟩ := Option.map_eq_some_iff.1 hrequest
    obtain ⟨row', hrow', hopen⟩ := Option.map_eq_some_iff.1 hbegun
    have hfresh : (evaluationEnv 15 'd').tokenHex ∉ supersededAttempt.issued := by
      rw [hissued]
      decide
    have hnew : supersededAttempt.world.evaluationRuns.lookup "run-0" ≠ some row' := by
      rw [Option.isNone_iff_eq_none.1 hnone]
      exact (Option.some_ne_none row').symm
    obtain ⟨row, hrow, howns⟩ := hclaim.holds hsession hfresh hrow' hopen hnew
    rw [hrequest] at hrow howns
    have hfirst : row.claimToken = some (repeatedToken 'a') :=
      (ownsRunningClaim_eq_true.1 howns).2.1
    have hjob : (evaluationRequest 20).jobId = "job-1" := rfl
    rw [hjob] at hrow
    rw [hrow, Option.map_some, hfirst] at htoken
    exact absurd htoken (by decide)

end Atlas
