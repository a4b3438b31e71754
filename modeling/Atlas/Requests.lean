/-
**The requests of the API.**

The two requests that write: a submission (`ResearchJobService.submit` of
`application/research_jobs.py`) inserts a job together with its created event, and a review
(`ReviewService.submit_decision` of `application/review.py`) approves or rejects a job that waits
for one.  A review looks at its target in one transaction, at the checkpoint outside of any, and
decides in a second transaction that repeats the checks which may have become stale.

Main definitions:

* `Atlas.submit` — a submission, or the replay of one under its idempotency key;
* `Atlas.ReviewRequest`, `Atlas.reviewTarget`, `Atlas.recordReview` — the two transactions of a
  review;
* `Atlas.submitDecision` — the review.

Main results:

* `Atlas.recordReview_eq_ok` — **what a review commits**: nothing, an approval, or the end of the
  job with its execution.
-/

import Atlas.Worker

set_option relaxedAutoImplicit false
set_option autoImplicit false

namespace Atlas

/-! ### Submissions -/

/-- `IdempotencyConflictError`. -/
def idempotencyConflict : Exc := .other "IdempotencyConflictError" false

/-- Hash the deterministic canonical representation of a create request. -/
def createRequestFingerprint (sha256 : String → String) (question : String) : String :=
  sha256 ("\x7b\"question\":" ++ Python.jsonRawString question ++ "\x7d")

/-- Insert a job and its created event. -/
def insertJob (question idempotencyKey requestFingerprint : String) : Transaction ResearchJob := do
  let now ← Tx.reading Env.now
  let jobId ← Tx.reading fun e => e.uuid 0
  let eventId ← Tx.reading fun e => e.uuid 1
  let traceparent ← Tx.reading Env.traceparent
  let job ← Tx.lift ((ResearchJob.create jobId question (.aware now)).mapError
    (Exc.persistence ∘ .domain))
  let jobs ← Tx.compute fun w =>
    (addJob w.jobs job idempotencyKey requestFingerprint traceparent).mapError Exc.persistence
  Tx.modify fun w => { w with jobs := jobs }
  enqueueEvent (buildResearchJobCreated eventId job.id job.createdAt)
  return job

/-- Load a job and its stored fingerprint by idempotency key. -/
def getByIdempotencyKey (jobs : Jobs) (idempotencyKey : String) :
    Except PersistenceError (Option (ResearchJob × String)) :=
  match (jobs.entries.map (·.2)).find? (·.idempotencyKey = some idempotencyKey) with
  | none => .ok none
  | some model =>
      match model.requestFingerprint with
      | none => .ok none
      | some fingerprint => do
          let job ← toDomain model
          return some (job, fingerprint)

/-- The job an idempotency key belongs to, when the request is the same. -/
def replayOrConflict (idempotencyKey requestFingerprint : String) : Activity ResearchJob := do
  let record ← Program.atomically (Tx.compute fun w =>
    (getByIdempotencyKey w.jobs idempotencyKey).mapError Exc.persistence)
  match record with
  | none => .raise idempotencyConflict
  | some (job, fingerprint) =>
      if fingerprint ≠ requestFingerprint then .raise idempotencyConflict else .ret job

/-- Persist a PENDING research job or replay a matching idempotent request.  What is fingerprinted
is the question of the job, without the blanks around it. -/
def submit (sha256 : String → String) (question idempotencyKey : String) :
    Activity ResearchJob := do
  let cleaned ← Program.lift ((requireNonEmpty question "question").mapError
    (Exc.persistence ∘ .domain))
  let requestFingerprint := createRequestFingerprint sha256 cleaned
  tryCatch (Program.atomically (insertJob question idempotencyKey requestFingerprint)) fun x =>
    if x = .persistence .idempotencyKeyConflict then
      replayOrConflict idempotencyKey requestFingerprint
    else .raise x

/-! ### Reviews -/

/-- An operator's request to approve or reject a job. -/
structure ReviewRequest where
  jobId : String
  decision : ReviewVerdict
  actorId : String
  idempotencyKey : String
  evaluationRunId : Option String
  deriving DecidableEq, Repr

def ReviewVerdict.value : ReviewVerdict → String
  | approve => "approve"
  | reject => "reject"

/-- The fingerprint of a request: its actor, its decision and the run it names. -/
def ReviewRequest.fingerprint (sha256 : String → String) (request : ReviewRequest) : String :=
  sha256 ("\x7b\"actor_id\":" ++ Python.jsonString (Python.strip request.actorId) ++
    ",\"decision\":" ++ Python.jsonString request.decision.value ++
    ",\"evaluation_run_id\":" ++ Python.jsonString (request.evaluationRunId.getD "") ++ "\x7d")

/-- `ReviewConflictError`. -/
def reviewConflict : Exc := .other "ReviewConflictError" false

/-- `ReviewReadinessError`. -/
def reviewReadiness : Exc := .other "ReviewReadinessError" false

/-- `ReviewNotFoundError`. -/
def reviewNotFound : Exc := .other "ReviewNotFoundError" false

/-- What a review decides on: the execution, the evaluation run and its candidate. -/
structure ReviewTarget where
  executionId : String
  evaluationRunId : String
  candidateFingerprint : String
  deriving DecidableEq, Repr

/-- The run is a failed evaluation of the execution. -/
def EvaluationRunResult.failedOn (run : EvaluationRunResult) (executionId : String) : Bool :=
  run.status = .succeeded && !run.passed.getD false && run.workflowExecutionId = executionId

/-- The decision stored under the request's key, when it is of the same request. -/
def replayedReview (request : ReviewRequest) (fingerprint : String) :
    Transaction (Option String) := do
  let existing ← Tx.read fun w =>
    reviewDecisionByIdempotency w.reviewDecisions request.jobId request.idempotencyKey
  match existing with
  | none => return none
  | some existing => do
      require (existing.requestFingerprint = fingerprint) reviewConflict
      return some existing.id

/-- The row of a job that can be reviewed. -/
def reviewableJob (jobId : String) : Transaction ResearchJobRow := do
  let job ← Tx.read fun w => w.jobs.lookup jobId
  match job with
  | some row => return row
  | none => Tx.throw reviewNotFound

/-- The run a review is about: the latest failed one of the execution, or the failed one it
names. -/
def targetRun (runs : List EvaluationRunResult) (executionId : String) (named : Option String) :
    Except Exc EvaluationRunResult :=
  match runs.reverse.find? (·.failedOn executionId) with
  | none => .error reviewReadiness
  | some latest =>
      match named.filter (· ≠ "") with
      | none => .ok latest
      | some target =>
          if target = latest.runId then .ok latest
          else
            match runs.find? (·.runId = target) with
            | some run => if run.failedOn executionId then .ok run else .error reviewReadiness
            | none => .error reviewReadiness

/-- The first transaction: the replay, or the target of the review. -/
def reviewTarget (request : ReviewRequest) (fingerprint : String) :
    Transaction (String ⊕ ReviewTarget) := do
  let row ← reviewableJob request.jobId
  let replayed ← replayedReview request fingerprint
  match replayed with
  | some decisionId => return .inl decisionId
  | none => do
      require (row.status = .awaitingReview) reviewReadiness
      let executionId := row.activeWorkflowExecutionId.getD ""
      require (executionId ≠ "") reviewReadiness
      let execution ← Tx.read fun w => w.executions.lookup executionId
      require (execution.any fun execution =>
        execution.researchJobId = request.jobId && execution.status = .running) reviewReadiness
      let runs ← Tx.read fun w => runsOfJob w.evaluationRuns request.jobId
      let run ← Tx.lift (targetRun runs executionId request.evaluationRunId)
      return .inr {
        executionId := executionId, evaluationRunId := run.runId
        candidateFingerprint := run.inputFingerprint }

/-- Insert the decision. -/
def insertReview (request : ReviewRequest) (fingerprint : String) (target : ReviewTarget)
    (decisionId : String) (now : Instant) : Transaction Unit := do
  let decisions ← Tx.compute fun w => insertReviewDecision w.reviewDecisions
    { id := decisionId, researchJobId := request.jobId
      workflowExecutionId := target.executionId, evaluationRunId := target.evaluationRunId
      decision := request.decision, candidateFingerprint := target.candidateFingerprint
      actorId := Python.strip request.actorId, idempotencyKey := request.idempotencyKey
      requestFingerprint := fingerprint, createdAt := now }
    ((w.executions.lookup target.executionId).any (·.researchJobId = request.jobId) &&
      (w.evaluationRuns.lookup target.evaluationRunId).isSome)
  Tx.modify fun w => { w with reviewDecisions := decisions }

/-- What the decision does to the job: an approval sends it on, a rejection fails it with its
execution. -/
def applyReview (request : ReviewRequest) (target : ReviewTarget) (now : Instant) :
    Transaction Unit :=
  match request.decision with
  | .approve => do
      let executions ← Tx.read World.executions
      let ok ← onJob request.jobId
        (approveReviewToPending executions · target.executionId now now)
      require (ok = true) reviewConflict
  | .reject => do
      let failed ← onExecutions fun w => failExecution w.executions target.executionId now
      require (failed = true) reviewConflict
      let ok ← onJob request.jobId (failFromReview · "Rejected by operator review" now)
      require (ok = true) reviewConflict

/-- The second transaction: the decision and what it does to the job; the decision's id, and
whether it is new. -/
def recordReview (request : ReviewRequest) (fingerprint : String) (target : ReviewTarget) :
    Transaction (String × Bool) := do
  let row ← reviewableJob request.jobId
  let replayed ← replayedReview request fingerprint
  match replayed with
  | some decisionId => return (decisionId, false)
  | none => do
      require (row.status = .awaitingReview) reviewReadiness
      require (row.activeWorkflowExecutionId = some target.executionId) reviewReadiness
      let now ← Tx.reading Env.now
      let decisionId ← Tx.reading fun e => e.uuid 0
      insertReview request fingerprint target decisionId now
      applyReview request target now
      return (decisionId, true)

/-- Process a review decision: its id, and whether it is new. -/
def submitDecision (sha256 : String → String) (request : ReviewRequest) :
    Activity (String × Bool) := do
  Program.lift (Checked.ensure (Python.strip request.actorId ≠ "")
    (.valueError "actor_id must be non-empty"))
  let fingerprint := request.fingerprint sha256
  let target ← Program.atomically (reviewTarget request fingerprint)
  match target with
  | .inl decisionId => return (decisionId, false)
  | .inr target => do
      let snapshot ← getState target.executionId
      if snapshot.bind Checkpoint.next = some .complete then
        Program.atomically (recordReview request fingerprint target)
      else .raise reviewReadiness

/-! ### What the requests commit -/

section Spec

variable {e : Env} {w w' : World}

/-- The row a submission inserts: it waits, without a claim, an execution or an attempt, and nothing
of what a claim writes is written. -/
structure FreshRow (row : ResearchJobRow) : Prop where
  checks : CheckConstraint.AllHold researchJobChecks row
  valid : row.Valid
  status : row.status = .pending
  token : row.claimToken = none
  active : row.activeWorkflowExecutionId = none
  counts : getAttemptCounts (some row) = (0, 0, 0)
  profile : row.evaluationProfile = none
  consumed : row.initialTraceparentConsumedAt = none

/-- What an accepted submission leaves: a fresh row under a new key, and its created event. -/
structure Submitted (key fingerprint : String) (row : ResearchJobRow) (event : OutboxRow)
    (w w' : World) : Prop where
  new : w.jobs.lookup row.id = none
  unused : ∀ jobId row', w.jobs.lookup jobId = some row' → row'.idempotencyKey ≠ some key
  fresh : FreshRow row
  key : row.idempotencyKey = some key
  fingerprint : row.requestFingerprint = some fingerprint
  aggregate : event.event.aggregateId = row.id
  type : event.event.type = .created
  world : ∃ outbox, outbox.rows = w.outbox.rows ++ [event] ∧
    w' = { w with jobs := w.jobs.insert row.id row, outbox := outbox }

/-- **A submission inserts a fresh row together with its created event.** -/
theorem insertJob_eq_ok {question key fingerprint : String} {job : ResearchJob}
    (h : insertJob question key fingerprint e w = .ok (job, w')) :
    ∃ row event, row.toResearchJob = job ∧ Submitted key fingerprint row event w w' := by
  simp only [insertJob, Tx.bind_eq_ok, Tx.reading_eq_ok, Tx.lift_eq_ok, Tx.compute_eq_ok,
    Tx.modify_eq_ok, mapError_eq_ok, enqueueEvent_eq_ok, buildResearchJobCreated, buildEvent_eq_ok,
    Tx.pure_eq_ok] at h
  obtain ⟨_, _, ⟨rfl, rfl⟩, _, _, ⟨rfl, rfl⟩, _, _, ⟨rfl, rfl⟩, _, _, ⟨rfl, rfl⟩, job, _,
    ⟨hcreate, rfl⟩, jobs, _, ⟨hadd, rfl⟩, _, _, rfl, _, _,
    ⟨event, outbox, ⟨-, haggregate, -, hpayload⟩, henqueue, rfl⟩, rfl, rfl⟩ := h
  simp only [addJob, Checked.bind_eq_ok, flush_eq_ok, Checked.ensure_eq_ok,
    Checked.pure_eq_ok] at hadd
  obtain ⟨row, ⟨hchecks, rfl⟩, _, hnew, _, hunused, rfl⟩ := hadd
  obtain ⟨stored, hevent, -, hrows, -⟩ := Outbox.enqueue_eq_ok henqueue
  have hvalid : job.Valid := ResearchJob.Valid.create hcreate
  simp only [ResearchJob.create, Checked.bind_eq_ok, Checked.pure_eq_ok] at hcreate
  obtain ⟨_, -, _, -, _, -, rfl⟩ := hcreate
  refine ⟨_, stored, rfl, hnew, ?_, ⟨hchecks, hvalid, rfl, rfl, rfl, rfl, rfl, rfl⟩, rfl, rfl,
    hevent ▸ haggregate, ?_, outbox, hrows, rfl⟩
  · intro jobId row' hrow'
    exact hunused ⟨jobId, row'⟩ (AList.mem_lookup_iff.1 hrow')
  · rw [hevent, DomainEvent.type, hpayload]
    rfl

/-- **A replay finds the decision under the key, of the same request**; without a decision there is
none. -/
theorem replayedReview_eq_ok {request : ReviewRequest} {fingerprint : String}
    {replayed : Option String}
    (h : replayedReview request fingerprint e w = .ok (replayed, w')) :
    w' = w ∧
      match replayed with
      | none => reviewDecisionByIdempotency w.reviewDecisions request.jobId request.idempotencyKey
          = none
      | some decisionId => ∃ decision,
          reviewDecisionByIdempotency w.reviewDecisions request.jobId request.idempotencyKey
            = some decision ∧ decision.requestFingerprint = fingerprint ∧
          decision.id = decisionId := by
  simp only [replayedReview, Tx.bind_eq_ok, Tx.read_eq_ok] at h
  obtain ⟨existing, _, ⟨hfound, rfl⟩, h⟩ := h
  cases existing with
  | none =>
      obtain ⟨rfl, rfl⟩ := Tx.pure_eq_ok.1 h
      exact ⟨rfl, hfound⟩
  | some existing =>
      simp only [Tx.bind_eq_ok, require_eq_ok, Tx.pure_eq_ok] at h
      obtain ⟨_, _, ⟨hsame, rfl⟩, rfl, rfl⟩ := h
      exact ⟨rfl, existing, hfound, hsame, rfl⟩

theorem reviewableJob_eq_ok {jobId : String} {row : ResearchJobRow}
    (h : reviewableJob jobId e w = .ok (row, w')) : w.jobs.lookup jobId = some row ∧ w' = w := by
  simp only [reviewableJob, Tx.bind_eq_ok, Tx.read_eq_ok] at h
  obtain ⟨job, _, ⟨hjob, rfl⟩, h⟩ := h
  cases job with
  | none => exact absurd h Tx.throw_ne_ok
  | some row' =>
      obtain ⟨rfl, rfl⟩ := Tx.pure_eq_ok.1 h
      exact ⟨hjob, rfl⟩

/-- The first transaction of a review changes nothing. -/
theorem reviewTarget_eq_ok {request : ReviewRequest} {fingerprint : String}
    {target : String ⊕ ReviewTarget}
    (h : reviewTarget request fingerprint e w = .ok (target, w')) : w' = w := by
  simp only [reviewTarget, Tx.bind_eq_ok] at h
  obtain ⟨row, _, hjob, replayed, _, hreplayed, h⟩ := h
  obtain ⟨-, rfl⟩ := reviewableJob_eq_ok hjob
  obtain ⟨rfl, -⟩ := replayedReview_eq_ok hreplayed
  cases replayed with
  | some decisionId =>
      obtain ⟨-, rfl⟩ := Tx.pure_eq_ok.1 h
      rfl
  | none =>
      simp only [Tx.bind_eq_ok, require_eq_ok, Tx.read_eq_ok, Tx.lift_eq_ok, Tx.pure_eq_ok] at h
      obtain ⟨_, _, ⟨-, rfl⟩, _, _, ⟨-, rfl⟩, _, _, ⟨-, rfl⟩, _, _, ⟨-, rfl⟩, _, _, ⟨-, rfl⟩, _, _,
        ⟨-, rfl⟩, -, rfl⟩ := h
      rfl

/-- A new decision on a request: it is stored under the request's key, which no decision of the job
had, and is the answer. -/
structure Records (request : ReviewRequest) (fingerprint : String) (answer : String × Bool)
    (w : World) (decision : ReviewDecisionRow) : Prop where
  answer : answer = (decision.id, true)
  job : decision.researchJobId = request.jobId
  key : decision.idempotencyKey = request.idempotencyKey
  fingerprint : decision.requestFingerprint = fingerprint
  verdict : decision.decision = request.decision
  unused : reviewDecisionByIdempotency w.reviewDecisions request.jobId request.idempotencyKey = none
  id_new : ∀ existing ∈ w.reviewDecisions, existing.id ≠ decision.id

theorem insertReviewDecision_eq_ok {decisions decisions' : List ReviewDecisionRow}
    {row : ReviewDecisionRow} {references : Bool}
    (h : insertReviewDecision decisions row references = .ok decisions') :
    (∀ existing ∈ decisions, existing.id ≠ row.id) ∧
      reviewDecisionByIdempotency decisions row.researchJobId row.idempotencyKey = none ∧
      decisions' = decisions ++ [row] := by
  simp only [insertReviewDecision, Checked.bind_eq_ok, Checked.ensure_eq_ok,
    Checked.pure_eq_ok] at h
  obtain ⟨_, -, _, -, _, -, _, -, _, hid, _, hkey, _, -, rfl⟩ := h
  exact ⟨hid, hkey, rfl⟩

/-- What the second transaction of a review leaves: nothing new, the job sent on to be completed,
or the job failed together with its execution. -/
inductive Reviewed (request : ReviewRequest) (fingerprint : String) (answer : String × Bool)
    (w w' : World) : Prop
  | replayed (decision : ReviewDecisionRow)
      (hfound : reviewDecisionByIdempotency w.reviewDecisions request.jobId request.idempotencyKey
        = some decision)
      (hsame : decision.requestFingerprint = fingerprint) (hanswer : answer = (decision.id, false))
      (h : w' = w)
  | approved (row row' : ResearchJobRow) (executionId : String) (now : Instant)
      (decision : ReviewDecisionRow) (hverdict : request.decision = .approve)
      (hrecords : Records request fingerprint answer w decision)
      (hrow : w.jobs.lookup request.jobId = some row)
      (hstatus : row.status = .awaitingReview)
      (hactive : row.activeWorkflowExecutionId = some executionId)
      (happrove : approveReviewToPending w.executions (some row) executionId now now
        = .ok (some row'))
      (h : w' = { w with
        jobs := w.jobs.insert request.jobId row'
        reviewDecisions := w.reviewDecisions ++ [decision] })
  | rejected (row row' : ResearchJobRow) (executionId : String) (now : Instant)
      (executions : Executions) (decision : ReviewDecisionRow)
      (hverdict : request.decision = .reject)
      (hrecords : Records request fingerprint answer w decision)
      (hrow : w.jobs.lookup request.jobId = some row) (hstatus : row.status = .awaitingReview)
      (hactive : row.activeWorkflowExecutionId = some executionId)
      (hfail : failExecution w.executions executionId now = .ok (true, executions))
      (hreject : failFromReview (some row) "Rejected by operator review" now = .ok (some row'))
      (h : w' = { w with
        jobs := w.jobs.insert request.jobId row', executions := executions
        reviewDecisions := w.reviewDecisions ++ [decision] })

/-- **What a review commits.** -/
theorem recordReview_eq_ok {request : ReviewRequest} {fingerprint : String} {target : ReviewTarget}
    {answer : String × Bool}
    (h : recordReview request fingerprint target e w = .ok (answer, w')) :
    Reviewed request fingerprint answer w w' := by
  simp only [recordReview, Tx.bind_eq_ok] at h
  obtain ⟨row, _, hjob, replayed, _, hreplayed, h⟩ := h
  obtain ⟨hrow, rfl⟩ := reviewableJob_eq_ok hjob
  obtain ⟨rfl, hfound⟩ := replayedReview_eq_ok hreplayed
  cases replayed with
  | some decisionId =>
      obtain ⟨rfl, rfl⟩ := Tx.pure_eq_ok.1 h
      obtain ⟨decision, hfound, hsame, rfl⟩ := hfound
      exact .replayed decision hfound hsame rfl rfl
  | none =>
      simp only [insertReview, Tx.bind_eq_ok, require_eq_ok, Tx.reading_eq_ok, Tx.compute_eq_ok,
        Tx.modify_eq_ok, Tx.pure_eq_ok] at h
      obtain ⟨_, _, ⟨hstatus, rfl⟩, _, _, ⟨hactive, rfl⟩, now, _, ⟨-, rfl⟩, _, _, ⟨-, rfl⟩, _, _,
        ⟨decisions, _, ⟨hinsert, rfl⟩, rfl⟩, _, _, happly, rfl, rfl⟩ := h
      obtain ⟨hid, hkey, rfl⟩ := insertReviewDecision_eq_ok hinsert
      cases hdecision : request.decision with
      | approve =>
          simp only [applyReview, hdecision, Tx.bind_eq_ok, Tx.read_eq_ok, onJob_eq_ok,
            require_eq_ok] at happly
          obtain ⟨_, _, ⟨rfl, rfl⟩, ok, _, hwrite, rfl, rfl⟩ := happly
          rcases hwrite with ⟨row', happrove, -, rfl⟩ | ⟨-, hfalse, -⟩
          · refine .approved row row' target.executionId now _ hdecision
              ⟨rfl, rfl, rfl, rfl, rfl, hfound, hid⟩ hrow hstatus hactive ?_ ?_
            · rw [← hrow]
              exact happrove
            · rw [hdecision]
          · cases hfalse
      | reject =>
          simp only [applyReview, hdecision, Tx.bind_eq_ok, onExecutions_eq_ok, onJob_eq_ok,
            require_eq_ok] at happly
          obtain ⟨failed, _, ⟨executions, hfail, rfl⟩, _, _, ⟨rfl, rfl⟩, ok, _, hwrite, rfl, rfl⟩ :=
            happly
          rcases hwrite with ⟨row', hreject, -, rfl⟩ | ⟨-, hfalse, -⟩
          · refine .rejected row row' target.executionId now executions _ hdecision
              ⟨rfl, rfl, rfl, rfl, rfl, hfound, hid⟩ hrow hstatus hactive hfail ?_ ?_
            · rw [← hrow]
              exact hreject
            · rw [hdecision]
          · cases hfalse

end Spec

end Atlas
