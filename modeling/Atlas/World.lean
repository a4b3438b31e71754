/-
**The database and its transactions.**

The state all parties share is one PostgreSQL database: the tables of jobs, executions, evaluation
runs, decisions, report artifacts and outbox rows, and the graph checkpoints.  A `session_scope`
is a transaction over it: it commits as a whole when its body returns, and is rolled back when the
body raises.  What a transaction reads besides, such as clocks, fresh identifiers and the answers
of specialists, comes from its environment.

Main definitions:

* `Atlas.World`, `Atlas.Env`, `Atlas.Settings` — the state, what acts read besides, and the
  configuration;
* `Atlas.Transaction`, `Atlas.Activity` — transactions and programs over them;
* `Atlas.onJob`, `Atlas.onExecutions` — the repository operations as transactions;
* `Atlas.enqueueEvent`, `Atlas.recordPolicyDecision` — insertions used by several callers.

Main results:

* `Atlas.onJob_eq_ok`, `Atlas.onExecutions_eq_ok` — what these transactions leave.
-/

import Atlas.JobRepository
import Atlas.Program
import Atlas.RecoveryRepository

set_option relaxedAutoImplicit false
set_option autoImplicit false

namespace Atlas

/-! ### The state -/

inductive NodeExecutionStatus where
  | started
  | completed
  | failed
  deriving DecidableEq, Repr

/-- A row of `workflow_node_executions`, one attempt of a node. -/
structure NodeExecutionRow where
  workflowExecutionId : String
  node : Node
  attempt : ℕ
  status : NodeExecutionStatus
  startedAt : Instant
  finishedAt : Option Instant
  error : Option String
  deriving DecidableEq, Repr

/-- A row of `report_artifacts`, with the claims stored with it. -/
structure ReportArtifactRow where
  researchJobId : String
  workflowExecutionId : String
  bodyText : String
  claims : List ClaimStructured
  createdAt : Instant
  deriving DecidableEq, Repr

/-- The database. -/
structure World where
  jobs : Jobs := ∅
  executions : Executions := ∅
  nodeExecutions : List NodeExecutionRow := []
  evaluationRuns : EvaluationRuns := ∅
  policyDecisions : List PolicyDecisionRow := []
  recoveryAttempts : List RecoveryAttemptRow := []
  reviewDecisions : List ReviewDecisionRow := []
  /-- By workflow execution. -/
  reportArtifacts : Table String ReportArtifactRow := ∅
  outbox : Outbox := {}
  /-- By workflow execution, whose id is its thread id. -/
  checkpoints : Table String Checkpoint := ∅

/-- The same rows, table by table. -/
def World.SameTables (w w' : World) : Prop :=
  w.jobs.entries = w'.jobs.entries ∧ w.executions.entries = w'.executions.entries ∧
    w.nodeExecutions = w'.nodeExecutions ∧ w.evaluationRuns.entries = w'.evaluationRuns.entries ∧
    w.policyDecisions = w'.policyDecisions ∧ w.recoveryAttempts = w'.recoveryAttempts ∧
    w.reviewDecisions = w'.reviewDecisions ∧
    w.reportArtifacts.entries = w'.reportArtifacts.entries ∧ w.outbox = w'.outbox ∧
    w.checkpoints.entries = w'.checkpoints.entries

instance (w w' : World) : Decidable (w.SameTables w') := inferInstanceAs (Decidable (_ ∧ _))

theorem World.SameTables.eq {w w' : World} (h : w.SameTables w') : w = w' := by
  obtain ⟨jobs, executions, nodeExecutions, evaluationRuns, policyDecisions, recoveryAttempts,
    reviewDecisions, reportArtifacts, outbox, checkpoints⟩ := w
  obtain ⟨hjobs, hexecutions, rfl, hruns, rfl, rfl, rfl, hartifacts, rfl, hcheckpoints⟩ := h
  obtain rfl := AList.ext hjobs
  obtain rfl := AList.ext hexecutions
  obtain rfl := AList.ext hruns
  obtain rfl := AList.ext hartifacts
  obtain rfl := AList.ext hcheckpoints
  rfl

/-! ### What acts read besides -/

/-- The answers of everything that is called outside the recovery core. -/
structure Outside where
  /-- The planner: the tasks. -/
  plan : Except Exc (List String)
  /-- The research specialist: findings and evidence ids. -/
  research : Except Exc (List String × List String)
  /-- The synthesizer: draft and claims. -/
  draft : Except Exc (String × List ClaimStructured)
  /-- The citation verifier: the claims it lets pass. -/
  verifiedClaims : Except Exc (List ClaimStructured)
  /-- Whether the claims have a durable provenance. -/
  provenance : Except Exc Bool
  /-- The fingerprint of the grading snapshot of the candidate. -/
  snapshotFingerprint : Except Exc String
  /-- The graders: whether the candidate passed, and its dimensions. -/
  grading : Except Exc (Bool × List DimensionResult)
  /-- The citation check before a report is stored. -/
  citations : Except Exc Unit

/-- Specialists none of which can be reached. -/
def Outside.unavailable : Outside where
  plan := .error (.model .temporary)
  research := .error (.model .temporary)
  draft := .error (.model .temporary)
  verifiedClaims := .error (.model .temporary)
  provenance := .error (.model .temporary)
  snapshotFingerprint := .error (.model .temporary)
  grading := .error (.model .temporary)
  citations := .ok ()

/-- What one act reads besides the database. -/
structure Env where
  /-- `datetime.now(UTC)`. -/
  now : Instant
  /-- The identifiers `uuid4` draws in the act. -/
  uuid : ℕ → String
  /-- `secrets.token_hex(32)`. -/
  tokenHex : String
  /-- The sampled jitter of a backoff. -/
  jitter : Instant
  /-- The trace context of the active span. -/
  traceparent : Option String
  outside : Outside

/-- The configuration of a worker. -/
structure Settings where
  /-- The evaluation profile this worker's settings resolve to. -/
  evaluationProfile : String
  profile_allowed : evaluationProfilesAllowed.contains evaluationProfile = true
  retry : RetrySettings
  /-- SHA-256 of the UTF-8 encoding, in hexadecimal digits. -/
  sha256 : String → String

/-- A transaction on the database. -/
abbrev Transaction := Tx Env World Exc

/-- A program of transactions on the database. -/
abbrev Activity := Program Env World Exc

/-! ### Repository operations as transactions -/

/-- Run a repository operation on the locked row of a job; the result is whether it wrote. -/
def onJob (jobId : String)
    (op : Option ResearchJobRow → Except PersistenceError (Option ResearchJobRow)) :
    Transaction Bool := do
  let written ← Tx.compute fun w => (op (w.jobs.lookup jobId)).mapError .persistence
  match written with
  | none => return false
  | some row => do
      Tx.modify fun w => { w with jobs := w.jobs.insert jobId row }
      return true

/-- Run a repository operation on the executions; the result is whether a row was updated. -/
def onExecutions (op : World → Except PersistenceError (Bool × Executions)) : Transaction Bool := do
  let (updated, executions) ← Tx.compute fun w => (op w).mapError .persistence
  Tx.modify fun w => { w with executions := executions }
  return updated

/-- A guard raises its exception unless its condition holds. -/
def require (condition : Prop) [Decidable condition] (x : Exc) : Transaction Unit :=
  Tx.lift (Checked.ensure condition x)

/-- Insert a typed domain event under the active span. -/
def enqueueEvent (event : Except Exc DomainEvent) : Transaction Unit := do
  let event ← Tx.lift event
  let traceparent ← Tx.reading Env.traceparent
  let outbox ← Tx.read World.outbox
  let outbox ← Tx.lift (outbox.enqueue event traceparent)
  Tx.modify fun w => { w with outbox := outbox }

/-- The rows a policy decision refers to exist. -/
def World.hasReferences (w : World) (row : PolicyDecisionRow) : Bool :=
  (w.jobs.lookup row.researchJobId).isSome &&
    row.workflowExecutionId.all (fun id => (w.executions.lookup id).isSome) &&
    row.evaluationRunId.all (fun id => (w.evaluationRuns.lookup id).isSome)

/-- `insert_policy_decision`, and whether the decision is a new one: its id is the proposed one. -/
def recordPolicyDecision (row : PolicyDecisionRow) : Transaction (String × Bool) := do
  let w ← Tx.read id
  let (authoritativeId, decisions) ←
    Tx.lift (insertPolicyDecision w.policyDecisions row (w.hasReferences row))
  Tx.modify fun w => { w with policyDecisions := decisions }
  return (authoritativeId, authoritativeId = row.id)

/-- Ask for an answer that may be an exception. -/
def ask {α : Type} (question : Outside → Except Exc α) : Activity α := do
  let answer ← Program.reading fun e => question e.outside
  Program.lift answer

/-! ### What these transactions leave -/

section Spec

variable {e : Env} {w w' : World} {b : Bool}

/-- **An operation on a job writes its row, or leaves the database as it is.** -/
theorem onJob_eq_ok {jobId : String}
    {op : Option ResearchJobRow → Except PersistenceError (Option ResearchJobRow)} :
    onJob jobId op e w = .ok (b, w') ↔
      (∃ row, op (w.jobs.lookup jobId) = .ok (some row) ∧ b = true ∧
          w' = { w with jobs := w.jobs.insert jobId row }) ∨
        (op (w.jobs.lookup jobId) = .ok none ∧ b = false ∧ w' = w) := by
  simp only [onJob, Tx.bind_eq_ok, Tx.compute_eq_ok, mapError_eq_ok]
  constructor
  · rintro ⟨written, _, ⟨hop, rfl⟩, h⟩
    cases written with
    | none =>
        obtain ⟨rfl, rfl⟩ := Tx.pure_eq_ok.1 h
        exact .inr ⟨hop, rfl, rfl⟩
    | some row =>
        simp only [Tx.bind_eq_ok, Tx.modify_eq_ok, Tx.pure_eq_ok] at h
        obtain ⟨_, _, rfl, rfl, rfl⟩ := h
        exact .inl ⟨row, hop, rfl, rfl⟩
  · rintro (⟨row, hop, rfl, rfl⟩ | ⟨hop, rfl, rfl⟩)
    · exact ⟨some row, w, ⟨hop, rfl⟩, by simp⟩
    · exact ⟨none, w', ⟨hop, rfl⟩, by simp⟩

theorem onExecutions_eq_ok {op : World → Except PersistenceError (Bool × Executions)} :
    onExecutions op e w = .ok (b, w') ↔
      ∃ executions, op w = .ok (b, executions) ∧ w' = { w with executions := executions } := by
  simp only [onExecutions, Tx.bind_eq_ok, Tx.compute_eq_ok, mapError_eq_ok]
  constructor
  · rintro ⟨⟨updated, executions⟩, _, ⟨hop, rfl⟩, h⟩
    simp only [Tx.modify_eq_ok, Tx.pure_eq_ok] at h
    obtain ⟨_, _, rfl, rfl, rfl⟩ := h
    exact ⟨executions, hop, rfl⟩
  · rintro ⟨executions, hop, rfl⟩
    exact ⟨(b, executions), w, ⟨hop, rfl⟩, by simp⟩

@[simp] theorem require_eq_ok {condition : Prop} [Decidable condition] {x : Exc} {u : Unit} :
    require condition x e w = .ok (u, w') ↔ condition ∧ w = w' := by
  simp [require]

/-- Enqueueing changes the outbox only. -/
theorem enqueueEvent_eq_ok {event : Except Exc DomainEvent} {u : Unit} :
    enqueueEvent event e w = .ok (u, w') ↔
      ∃ built outbox, event = .ok built ∧ w.outbox.enqueue built e.traceparent = .ok outbox ∧
        w' = { w with outbox := outbox } := by
  simp only [enqueueEvent, Tx.bind_eq_ok, Tx.lift_eq_ok, Tx.reading_eq_ok, Tx.read_eq_ok,
    Tx.modify_eq_ok]
  constructor
  · rintro ⟨built, _, ⟨hbuilt, rfl⟩, _, _, ⟨rfl, rfl⟩, _, _, ⟨rfl, rfl⟩, outbox, _, ⟨hout, rfl⟩, rfl⟩
    exact ⟨built, outbox, hbuilt, hout, rfl⟩
  · rintro ⟨built, outbox, hbuilt, hout, rfl⟩
    exact ⟨built, w, ⟨hbuilt, rfl⟩, _, _, ⟨rfl, rfl⟩, _, _, ⟨rfl, rfl⟩, outbox, w, ⟨hout, rfl⟩, rfl⟩

/-- Recording a decision changes the table of decisions only. -/
theorem recordPolicyDecision_eq_ok {row : PolicyDecisionRow} {id : String} {created : Bool} :
    recordPolicyDecision row e w = .ok ((id, created), w') ↔
      ∃ decisions, insertPolicyDecision w.policyDecisions row (w.hasReferences row)
            = .ok (id, decisions) ∧
        created = decide (id = row.id) ∧ w' = { w with policyDecisions := decisions } := by
  simp only [recordPolicyDecision, Tx.bind_eq_ok, Tx.lift_eq_ok, Tx.read_eq_ok, Tx.modify_eq_ok,
    Tx.pure_eq_ok, Prod.mk.injEq]
  constructor
  · rintro ⟨_, _, ⟨rfl, rfl⟩, ⟨_, decisions⟩, _, ⟨hinsert, rfl⟩, h⟩
    obtain ⟨_, _, rfl, ⟨rfl, rfl⟩, rfl⟩ := h
    exact ⟨decisions, hinsert, rfl, rfl⟩
  · rintro ⟨decisions, hinsert, rfl, rfl⟩
    exact ⟨_, _, ⟨rfl, rfl⟩, (id, decisions), w, ⟨hinsert, rfl⟩, by simp⟩

end Spec

end Atlas
