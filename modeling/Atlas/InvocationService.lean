/-
**Governed invocations.**

`ModelInvocationService._execute` and `ToolInvocationService._execute_once` run a call in three
transactions of the ledger with the provider between them.  The first returns the output of a
success that is stored, or opens an attempt; another attempt that is still open is closed before,
if it may be reclaimed.  After the provider answered, the second transaction completes the attempt
and its invocation, or fails them; where the attempt is not the active one any more, it raises and
is rolled back.

Main definitions:

* `Atlas.LedgerService` — what the two services do differently;
* `Atlas.LedgerService.beginCall`, `Atlas.LedgerService.succeed`, `Atlas.LedgerService.fail` — the
  transactions;
* `Atlas.LedgerService.execute` — the call;
* `Atlas.modelInvocations`, `Atlas.toolInvocations` — the two services.
-/

import Atlas.InvocationRepository
import Atlas.Program

set_option relaxedAutoImplicit false
set_option autoImplicit false

namespace Atlas

open Checked

/-! ### The transactions -/

/-- What an act on a ledger reads besides the ledger. -/
structure LedgerEnv (C : LedgerColumns) where
  now : Instant
  /-- The `uuid4` drawn for an invocation. -/
  invocationId : String
  /-- The `uuid4` drawn for an attempt. -/
  attemptId : String
  jobs : Jobs
  /-- The answer of the provider. -/
  response : (call : C.Call) → Except Exc (C.Answer call)

abbrev LedgerTx (C : LedgerColumns) := Tx (LedgerEnv C) (Ledger C) Exc

/-- What `get_by_key` sees `FOR UPDATE`: the row as it is, which stays locked, or none, when it
looked before the row was there. -/
inductive Look where
  | current
  | before
  deriving DecidableEq, Repr

def Look.row {C : LedgerColumns} : Look → String → Ledger C → Option (InvocationRow C)
  | current, invocationKey, l => l.getByKey invocationKey
  | before, _, _ => none

/-- What the first transaction of a call comes to. -/
inductive Opened (C : LedgerColumns) (call : C.Call) where
  | replayed (answer : C.Answer call)
  | attempt (invocationId attemptId : String)

/-- What the services of the two ledgers do differently. -/
structure LedgerService (C : LedgerColumns) where
  /-- The key of what is called. -/
  key : C.Call → String
  /-- The time an attempt has. -/
  timeout : Instant
  /-- The columns of the place that reopening rewrites. -/
  replace : C.Call → C.Place → C.Place → C.Place
  attemptResult : C.Result → C.AttemptResult
  /-- The error class of an attempt that was reclaimed. -/
  staleError : String
  inProgress : Exc
  ownershipLost : Exc
  canReclaim : Ledger C → InvocationRow C → Jobs → Instant → Bool
  /-- The check on the attempts there are, before another one. -/
  permits : C.Call → Ledger C → InvocationRow C → Except Exc Unit
  /-- The answer of a stored success. -/
  replay : (call : C.Call) → InvocationRow C → Except Exc (C.Answer call)
  /-- What is stored of an answer. -/
  store : (call : C.Call) → C.Answer call → C.Output × C.Result
  /-- What is returned of an answer. -/
  returned : (call : C.Call) → String → C.Answer call → C.Answer call
  /-- The error class, the retry class and the exception raised, of an exception that is recorded. -/
  recorded : Exc → Option (String × String × Exc)

namespace LedgerService

variable {C : LedgerColumns} (S : LedgerService C)

/-- Perform a conditional write, or raise. -/
def conditionally (write : Ledger C → Option (Ledger C)) (x : Exc) : LedgerTx C Unit := do
  let l ← Tx.compute fun l => (write l).elim (.error x) .ok
  Tx.modify fun _ => l

/-- Fail an attempt and its invocation. -/
def closeAttempt (x : Exc) (invocationId attemptId errorClass retryClass : String) :
    LedgerTx C Unit := do
  let now ← Tx.reading LedgerEnv.now
  conditionally (fun l => l.failAttempt attemptId errorClass retryClass now) x
  conditionally
    (fun l => l.markInvocationFailedForAttempt invocationId attemptId errorClass retryClass now) x

/-- Close the attempt another worker left, or raise that it is in progress. -/
def takeOver (row : InvocationRow C) : LedgerTx C Unit := do
  let e ← Tx.reading id
  let l ← Tx.read id
  Tx.lift (ensure (S.canReclaim l row e.jobs e.now = true) S.inProgress)
  match l.latestAttempt row.id with
  | none => pure ()
  | some latest =>
      if latest.status = .started then
        closeAttempt S.inProgress row.id latest.id S.staleError "temporary"
      else pure ()

/-- An invocation in progress is taken over before it is called again. -/
def reclaim (row : InvocationRow C) : LedgerTx C Unit :=
  if row.status = .inProgress then S.takeOver row else pure ()

/-- Insert the attempt of an invocation that is in progress. -/
def startAttempt (call : C.Call) (invocationId : String) : LedgerTx C (Opened C call) := do
  let e ← Tx.reading id
  conditionally (fun l => l.beginAttempt e.attemptId invocationId (e.now + S.timeout) e.now)
    S.inProgress
  return .attempt invocationId e.attemptId

/-- Open an attempt of an invocation that did not succeed. -/
def reopen (call : C.Call) (place : C.Place) (row : InvocationRow C) :
    LedgerTx C (Opened C call) := do
  let now ← Tx.reading LedgerEnv.now
  S.reclaim row
  Tx.compute fun l => S.permits call l row
  let l ← Tx.compute fun l => l.reopenInvocation S.replace row.id place now
  Tx.modify fun _ => l
  S.startAttempt call row.id

/-- The first transaction of a call. -/
def beginCall (call : C.Call) (place : C.Place) (look : Look) : LedgerTx C (Opened C call) := do
  let e ← Tx.reading id
  let existing ← Tx.read (look.row (S.key call))
  match existing with
  | none => do
      conditionally (fun l => l.createInvocation e.invocationId (S.key call) call place e.now)
        S.inProgress
      S.startAttempt call e.invocationId
  | some row =>
      if row.status = .succeeded then do
        let answer ← Tx.lift (S.replay call row)
        return .replayed answer
      else S.reopen call place row

/-- The transaction after the provider succeeded. -/
def succeed (invocationId attemptId : String) (output : C.Output) (result : C.Result) :
    LedgerTx C Unit := do
  let now ← Tx.reading LedgerEnv.now
  conditionally (fun l => l.completeAttempt attemptId (S.attemptResult result) now) S.ownershipLost
  conditionally (fun l => l.completeInvocationForAttempt invocationId attemptId output result now)
    S.ownershipLost

/-- The transaction after the provider failed. -/
def fail (invocationId attemptId errorClass retryClass : String) : LedgerTx C Unit :=
  closeAttempt S.ownershipLost invocationId attemptId errorClass retryClass

/-- A call: its first transaction, the provider unless a success is stored, and the transaction
that records the outcome. -/
def execute (call : C.Call) (place : C.Place) (look : Look) :
    Program (LedgerEnv C) (Ledger C) Exc (C.Answer call) := do
  let opened ← Program.atomically (S.beginCall call place look)
  match opened with
  | .replayed answer => return answer
  | .attempt invocationId attemptId => do
      let response ← Program.reading fun e => e.response call
      match response with
      | .ok answer => do
          Program.atomically
            (S.succeed invocationId attemptId (S.store call answer).1 (S.store call answer).2)
          return S.returned call invocationId answer
      | .error x =>
          match S.recorded x with
          | none => throw x
          | some (errorClass, retryClass, raised) => do
              Program.atomically (S.fail invocationId attemptId errorClass retryClass)
              throw raised

end LedgerService

/-! ### The service of model calls -/

inductive ModelNode where
  | plan
  | draft
  | evaluate
  deriving DecidableEq, Repr

def ModelNode.value : ModelNode → String
  | plan => "plan"
  | draft => "draft"
  | evaluate => "evaluate"

/-- What a model is called for. -/
structure ModelCall where
  researchJobId : String
  nodeName : ModelNode
  promptVersion : String
  provider : String
  model : String
  inputFingerprint : String
  deriving DecidableEq, Repr

inductive FinishOutcome where
  | completed
  | refused
  | failed
  deriving DecidableEq, Repr

/-- The columns of a model's result. -/
structure ModelResult where
  providerRequestId : Option String := none
  inputTokens : Option ℕ := none
  outputTokens : Option ℕ := none
  totalTokens : Option ℕ := none
  latencyMs : ℕ := 0
  estimatedCostUsd : Option Rat := none
  pricingVersion : Option String := none
  finishOutcome : FinishOutcome := .completed
  deriving DecidableEq, Repr

/-- The metadata of a model call that succeeded. -/
structure ModelCallMeta extends ModelResult where
  provider : String
  model : String
  promptVersion : String
  deriving DecidableEq, Repr

/-- A schema of structured outputs: `model_validate` and `model_dump(mode="json")`.  What was
validated once is stored as a document that validates again, to the same value. -/
structure Schema (J V : Type) where
  modelValidate : J → Option V
  modelDump : V → J
  validate_dump : ∀ v, modelValidate (modelDump v) = some v

/-- The retry classes of `models/errors.py`. -/
def ModelError.retryClass : ModelError → String
  | timeout => "timeout"
  | rateLimited => "rate_limited"
  | temporary | invocationInProgress | attemptOwnershipLost => "temporary"
  | authConfig => "auth_config"
  | invalidRequest => "invalid_request"
  | invalidStructuredOutput => "invalid_structured_output"
  | refusal => "refusal"
  | unknown => "unknown"

/-- The columns of the ledger of model calls, over the documents of JSON and the structured outputs
of each node. -/
def modelColumns (J : Type) (V : ModelNode → Type) : LedgerColumns where
  Call := ModelCall
  Place := String
  Output := J
  Result := ModelResult
  AttemptResult := ModelResult
  Answer call := V call.nodeName × ModelCallMeta

namespace ModelInvocationService

variable {J : Type} {V : ModelNode → Type}

def buildInvocationKey (sha256 : String → String) (call : ModelCall) : String :=
  sha256 (String.intercalate "|" [call.researchJobId, call.nodeName.value, call.promptVersion,
    call.provider, call.model, call.inputFingerprint])

/-- The malformed-output attempt cap of `evaluate_semantic`; the other calls have none. -/
def malformedAttemptCap : ModelNode → Option ℕ
  | .evaluate => some 2
  | .plan | .draft => none

def malformedError : String := "ModelInvalidStructuredOutputError"

/-- `_can_reclaim`. -/
def canReclaim (l : Ledger (modelColumns J V)) (existing : InvocationRow (modelColumns J V))
    (jobs : Jobs) (now : Instant) : Bool :=
  match l.latestAttempt existing.id with
  | none => true
  | some latest =>
      if latest.status = .started ∧ now < latest.deadlineAt then false
      else !jobHasValidClaim jobs (ModelCall.researchJobId existing.call) now

/-- No attempt is begun once the malformed ones have reached the cap. -/
def assertBelowCap (call : ModelCall) (l : Ledger (modelColumns J V))
    (existing : InvocationRow (modelColumns J V)) : Except Exc Unit :=
  match malformedAttemptCap call.nodeName with
  | none => .ok ()
  | some cap =>
      ensure (l.countFailedAttemptsWithErrorClass existing.id malformedError < cap)
        (.model .invalidStructuredOutput)

/-- `_meta_from_record`. -/
def metaFromRecord (row : InvocationRow (modelColumns J V)) (call : ModelCall) : ModelCallMeta :=
  { row.result.getD ({} : ModelResult) with
    provider := call.provider, model := call.model, promptVersion := call.promptVersion }

/-- The output of a stored success, validated again. -/
def replay (schema : (node : ModelNode) → Schema J (V node)) (call : ModelCall)
    (existing : InvocationRow (modelColumns J V)) :
    Except Exc (V call.nodeName × ModelCallMeta) :=
  match existing.output with
  | none => .error (.model .unknown)
  | some output =>
      match (schema call.nodeName).modelValidate output with
      | none => .error (.model .unknown)
      | some validated => .ok (validated, metaFromRecord existing call)

def recorded : Exc → Option (String × String × Exc)
  | .model error => some ((Exc.model error).className, error.retryClass, .model error)
  | _ => none

end ModelInvocationService

open ModelInvocationService in
/-- `ModelInvocationService._execute`. -/
def modelInvocations {J : Type} {V : ModelNode → Type} (sha256 : String → String)
    (schema : (node : ModelNode) → Schema J (V node)) (callTimeout : Instant) :
    LedgerService (modelColumns J V) where
  key := buildInvocationKey sha256
  timeout := callTimeout
  replace _ _ workflowExecutionId := workflowExecutionId
  attemptResult := id
  staleError := "ModelInvocationStaleError"
  inProgress := .model .invocationInProgress
  ownershipLost := .model .attemptOwnershipLost
  canReclaim := canReclaim
  permits := assertBelowCap
  replay := replay schema
  store call answer := ((schema (ModelCall.nodeName call)).modelDump answer.1,
    answer.2.toModelResult)
  returned _ _ answer := answer
  recorded := recorded

/-- `evaluate_semantic`: a malformed output is asked for once more, and no other failure is. -/
def ModelInvocationService.evaluateSemantic {J : Type} {V : ModelNode → Type}
    (S : LedgerService (modelColumns J V)) (call : ModelCall) (workflowExecutionId : String)
    (look look' : Look) :
    Program (LedgerEnv (modelColumns J V)) (Ledger (modelColumns J V)) Exc
      (V call.nodeName × ModelCallMeta) :=
  tryCatch (S.execute call workflowExecutionId look) fun x =>
    if x = .model .invalidStructuredOutput then S.execute call workflowExecutionId look'
    else throw x

/-! ### The service of tool calls -/

/-- From where a tool is called: a workflow node of a job, or an actor over MCP. -/
inductive ToolOrigin where
  | workflow (researchJobId nodeName : String)
  | mcp (actorId : String)
  deriving DecidableEq, Repr

/-- What a tool is called for. -/
structure ToolCall where
  origin : ToolOrigin
  toolId : String
  toolVersion : String
  provider : String
  toolPolicyVersion : String
  inputFingerprint : String
  deriving DecidableEq, Repr

structure ToolPlace where
  workflowExecutionId : Option String
  workflowNodeAttempt : Option ℕ
  deriving DecidableEq, Repr

/-- `output_summary_json`. -/
structure ToolSummary (D : Type) where
  output : D
  findingText : String

/-- The columns of a tool's result. -/
structure ToolResult where
  contentDigest : Option String := none
  byteLength : Option ℕ := none
  latencyMs : ℕ := 0
  deriving DecidableEq, Repr

/-- The metadata of a tool call that succeeded. -/
structure ToolResultMeta extends ToolResult where
  toolId : String
  provider : String
  toolVersion : String
  toolPolicyVersion : String
  deriving DecidableEq, Repr

structure ToolInvocationResult (D : Type) where
  output : D
  metadata : ToolResultMeta
  findingText : String
  invocationId : Option String

/-- The retry classes of `tools/errors.py`. -/
def ToolError.retryClass : ToolError → String
  | timeout => "timeout"
  | rateLimited => "rate_limited"
  | temporary | invocationInProgress | attemptOwnershipLost => "temporary"
  | authConfig => "auth_config"
  | invalidRequest => "invalid_request"
  | permissionDenied => "permission_denied"
  | ssrfBlocked => "ssrf_blocked"
  | contentRejected => "content_rejected"
  | budgetExhausted => "budget_exhausted"
  | unknown => "unknown"

/-- The columns of the ledger of tool calls, over the dictionaries a tool puts out. -/
def toolColumns (D : Type) : LedgerColumns where
  Call := ToolCall
  Place := ToolPlace
  Output := ToolSummary D
  Result := ToolResult
  AttemptResult := ℕ
  Answer _ := ToolInvocationResult D

namespace ToolInvocationService

variable {D : Type}

/-- `build_workflow_invocation_key` and `build_mcp_invocation_key`. -/
def buildKey (sha256 : String → String) (call : ToolCall) : String :=
  match call.origin with
  | .workflow researchJobId nodeName =>
      sha256 (String.intercalate "|" ["WORKFLOW", researchJobId, nodeName, call.toolId,
        call.toolVersion, call.provider, call.inputFingerprint, call.toolPolicyVersion])
  | .mcp actorId =>
      sha256 (String.intercalate "|" ["MCP", actorId, call.toolId, call.toolVersion, call.provider,
        call.inputFingerprint, call.toolPolicyVersion])

/-- `_can_reclaim`.  Calls over MCP have no job, and are reclaimed after the deadline. -/
def canReclaim (l : Ledger (toolColumns D)) (existing : InvocationRow (toolColumns D))
    (jobs : Jobs) (now : Instant) : Bool :=
  match l.latestAttempt existing.id with
  | none => true
  | some latest =>
      if latest.status = .started ∧ now < latest.deadlineAt then false
      else match ToolCall.origin existing.call with
        | .mcp _ => latest.deadlineAt ≤ now
        | .workflow researchJobId _ => !jobHasValidClaim jobs researchJobId now

/-- `reopen_invocation` rewrites the place of a workflow's call only. -/
def replace (call : ToolCall) (place place' : ToolPlace) : ToolPlace :=
  match call.origin with
  | .workflow _ _ => place'
  | .mcp _ => place

/-- The result of a stored success. -/
def replay (_ : ToolCall) (existing : InvocationRow (toolColumns D)) :
    Except Exc (ToolInvocationResult D) :=
  match existing.output with
  | none => .error (.tool .unknown)
  | some summary => .ok {
      output := ToolSummary.output summary
      findingText := ToolSummary.findingText summary
      metadata := { existing.result.getD ({} : ToolResult) with
        toolId := ToolCall.toolId existing.call, provider := ToolCall.provider existing.call
        toolVersion := ToolCall.toolVersion existing.call
        toolPolicyVersion := ToolCall.toolPolicyVersion existing.call }
      invocationId := some existing.id }

/-- An exception that is not a `ToolError` is recorded and raised as an unknown one. -/
def recorded : Exc → Option (String × String × Exc)
  | .tool error => some ((Exc.tool error).className, error.retryClass, .tool error)
  | _ => some ((Exc.tool .unknown).className, ToolError.unknown.retryClass, .tool .unknown)

end ToolInvocationService

open ToolInvocationService in
/-- `ToolInvocationService._execute_once`. -/
def toolInvocations {D : Type} (sha256 : String → String) (attemptTimeout : Instant) :
    LedgerService (toolColumns D) where
  key := buildKey sha256
  timeout := attemptTimeout
  replace := replace
  attemptResult := ToolResult.latencyMs
  staleError := "ToolInvocationStaleError"
  inProgress := .tool .invocationInProgress
  ownershipLost := .tool .attemptOwnershipLost
  canReclaim := canReclaim
  permits _ _ _ := .ok ()
  replay := replay
  store _ answer := (⟨ToolInvocationResult.output answer, ToolInvocationResult.findingText answer⟩,
    (ToolInvocationResult.metadata answer).toToolResult)
  returned _ invocationId answer := { answer with invocationId := some invocationId }
  recorded := recorded

end Atlas
