/-
**The tool budget of a research node.**

A research node calls its tools through a service that spends a budget: so many logical calls, so
many attempts of each, and a time for all of them.  A call is admitted while calls and time are
left; when a success of it is stored, that is returned and nothing is spent.  Otherwise the call is
recorded and attempted, again only after a failure that may pass and only while the time that is
left covers one more attempt.

The budget is an object of the worker's own, the ledger of the calls is shared.  What the budget
was spent on is kept beside it as a history, newest first, since the last reset: the claims about
the budget are about what may stand in that history.

Main definitions:

* `Atlas.ToolBudgets`, `Atlas.NodeBudget` — the limits, and what is spent;
* `Atlas.ToolInvocationService.invoke` — a call;
* `Atlas.NodeWork`, `Atlas.nodeSpec` — what a node does with its budget, and the systems of a node
  and the others who work on the ledger;
* `Atlas.NodeBudget.Kept` — what may stand in the history.

Main results:

* `Atlas.ToolInvocationService.executeOnce_mirrors` — an attempt is a call of the ledger's service;
* `Atlas.LedgerBackedResearchExecutor.research_nodeWork` — the research node is one of the nodes;
* `Atlas.ToolInvocationService.beside_invoke` — calls without a budget are among the others;
* `Atlas.tool_budget` — **the budget is kept** in every run.
-/

import Atlas.InvocationFencing
import Atlas.PythonText
import Atlas.TaskPool
import Mathlib.Algebra.Order.Floor.Defs
import Mathlib.Data.Rat.Floor

set_option relaxedAutoImplicit false
set_option autoImplicit false

namespace Atlas

open Checked

/-! ### Tools and their permissions -/

inductive ToolId where
  | webSearch
  | fetchUrl
  deriving DecidableEq, Repr

def ToolId.value : ToolId → String
  | webSearch => "web_search"
  | fetchUrl => "fetch_url"

inductive ToolProviderId where
  | fake
  | tavily
  | httpx
  deriving DecidableEq, Repr

def ToolProviderId.value : ToolProviderId → String
  | fake => "fake"
  | tavily => "tavily"
  | httpx => "httpx"

/-- `ToolOrigin`, without what identifies the caller. -/
inductive ToolOriginKind where
  | workflow
  | mcp
  deriving DecidableEq, Repr

structure ToolCallContext where
  origin : ToolOriginKind
  toolVersion : String := "tools.v1"
  toolPolicyVersion : String := "2026-08-09.tools.v1"
  actorId : Option String := none
  researchJobId : Option String := none
  workflowExecutionId : Option String := none
  nodeName : Option String := none
  workflowNodeAttempt : Option ℕ := none

structure NodePermissionPolicy where
  workflowNodeTools : List (String × List ToolId)
  mcpTools : List ToolId

def NodePermissionPolicy.assertAllowed (policy : NodePermissionPolicy) (origin : ToolOriginKind)
    (toolId : ToolId) (nodeName : Option String) : Except Exc Unit :=
  match origin with
  | .mcp => ensure (toolId ∈ policy.mcpTools) (.tool .permissionDenied)
  | .workflow =>
      match nodeName with
      | none => .error (.tool .permissionDenied)
      | some node =>
          ensure (toolId ∈ (policy.workflowNodeTools.lookup node).getD [])
            (.tool .permissionDenied)

def defaultPermissionPolicy : NodePermissionPolicy where
  workflowNodeTools := [("research", [.webSearch, .fetchUrl]), ("validate", []), ("plan", []),
    ("draft", []), ("complete", [])]
  mcpTools := [.webSearch, .fetchUrl]

/-! ### Budgets -/

/-- The limits of `ToolBudgets`. -/
structure ToolBudgets where
  maxLogicalCalls : ℕ
  maxAttemptsPerCall : ℕ
  attemptTimeoutSeconds : ℚ
  nodeDeadlineSeconds : ℚ
  slackSeconds : ℚ := 1 / 2

/-- What the budget was spent on. -/
inductive BudgetEvent where
  /-- A call was admitted, by the clock's reading. -/
  | admitted (monotonic : ℚ)
  /-- It was answered by a stored success. -/
  | replayed
  /-- It was recorded as a logical call. -/
  | recorded
  /-- A further attempt was allowed, by the clock's reading. -/
  | checked (monotonic : ℚ)
  /-- The tool was called. -/
  | attempted
  /-- An attempt ended with an error. -/
  | failed (error : ToolError)
  deriving DecidableEq, Repr

/-- What of the budget is spent, and the history since the last reset, newest first. -/
structure NodeBudget where
  logicalCallsUsed : ℕ := 0
  nodeStartedAt : ℚ
  history : List BudgetEvent := []

namespace ToolBudgets

def remainingSeconds (b : ToolBudgets) (nodeStartedAt monotonic : ℚ) : ℚ :=
  b.nodeDeadlineSeconds - (monotonic - nodeStartedAt)

/-- The time that is left covers one more attempt and the slack. -/
def Covers (b : ToolBudgets) (nodeStartedAt monotonic : ℚ) : Prop :=
  b.attemptTimeoutSeconds + b.slackSeconds ≤ b.remainingSeconds nodeStartedAt monotonic

instance (b : ToolBudgets) (nodeStartedAt monotonic : ℚ) :
    Decidable (b.Covers nodeStartedAt monotonic) :=
  inferInstanceAs (Decidable (_ ≤ _))

end ToolBudgets

def NodeBudget.log (n : NodeBudget) (event : BudgetEvent) : NodeBudget :=
  { n with history := event :: n.history }

def transientRetryClasses : List String := ["timeout", "rate_limited", "temporary"]

/-- The error is of a class that may pass. -/
def ToolError.Transient (error : ToolError) : Prop := error.retryClass ∈ transientRetryClasses

instance (error : ToolError) : Decidable error.Transient :=
  inferInstanceAs (Decidable (_ ∈ _))

/-! ### The service -/

/-- The ledger of the tool calls, and the budget of the node. -/
structure ToolWorld (D : Type) where
  ledger : Ledger (toolColumns D)
  budget : NodeBudget

structure ToolEnv (D : Type) extends LedgerEnv (toolColumns D) where
  /-- `time.monotonic()`, in seconds. -/
  monotonic : ℚ

abbrev ToolProgram (D α : Type) := Program (ToolEnv D) (ToolWorld D) Exc α

abbrev ToolTx (D α : Type) := Tx (ToolEnv D) (ToolWorld D) Exc α

variable {D Raw α : Type}

def ToolWorld.putLedger (ledger : Ledger (toolColumns D)) (w : ToolWorld D) : ToolWorld D :=
  { w with ledger := ledger }

/-- A program of the ledger. -/
def onLedger (p : Program (LedgerEnv (toolColumns D)) (Ledger (toolColumns D)) Exc α) :
    ToolProgram D α :=
  p.focus ToolWorld.ledger ToolWorld.putLedger ToolEnv.toLedgerEnv

/-- `timedelta(seconds=…)`, in microseconds: a tie goes to the even one. -/
def timedelta (seconds : ℚ) : Instant :=
  let below := ⌊seconds * 1000000⌋
  let rest := seconds * 1000000 - below
  if rest < 1 / 2 then below
  else if 1 / 2 < rest then below + 1
  else if below % 2 = 0 then below else below + 1

structure ToolInvocationService (Raw : Type) where
  /-- The tools of the registry; what they answer is the environment's. -/
  registry : List ToolId
  policy : NodePermissionPolicy
  providerByTool : List (ToolId × ToolProviderId)
  budgets : Option ToolBudgets := none
  maxAttemptsPerCall : ℕ := 2
  attemptTimeoutSeconds : ℚ := 8
  sha256 : String → String
  /-- `fingerprint_payload`: raises when the input is no JSON. -/
  fingerprintPayload : ToolId → Raw → Except Exc String

structure ToolRequest (Raw : Type) where
  toolId : ToolId
  rawInput : Raw
  context : ToolCallContext

def ToolRequest.place (request : ToolRequest Raw) : ToolPlace :=
  ⟨request.context.workflowExecutionId, request.context.workflowNodeAttempt⟩

namespace ToolInvocationService

variable (S : ToolInvocationService Raw)

/-- The ledger's service. -/
def ledgerService : LedgerService (toolColumns D) :=
  toolInvocations S.sha256 (timedelta S.attemptTimeoutSeconds)

/-- What `_build_key` asks of the context, and what the key is built of. -/
def keyed (context : ToolCallContext) (toolId : ToolId) (provider : ToolProviderId)
    (inputFingerprint : String) : Except Exc ToolCall := do
  let origin ← match context.origin with
    | .mcp => do
        ensure (context.actorId.getD "" ≠ "") (.tool .authConfig)
        pure (ToolOrigin.mcp (context.actorId.getD ""))
    | .workflow => do
        ensure (context.researchJobId.getD "" ≠ "" ∧ context.nodeName.getD "" ≠ "")
          (.tool .invalidRequest)
        ensure (context.workflowExecutionId.getD "" ≠ "") (.tool .invalidRequest)
        pure (ToolOrigin.workflow (context.researchJobId.getD "") (context.nodeName.getD ""))
  return { origin := origin, toolId := toolId.value, toolVersion := context.toolVersion
           provider := provider.value, toolPolicyVersion := context.toolPolicyVersion
           inputFingerprint := inputFingerprint }

/-- Everything between the check of the budget and the lookup of a stored success. -/
def prepare (request : ToolRequest Raw) : Except Exc ToolCall := do
  ensure (request.toolId ∈ S.registry) (.tool .permissionDenied)
  match S.providerByTool.lookup request.toolId with
  | none => .error (.other "KeyError" false)
  | some provider => do
      let inputFingerprint ← S.fingerprintPayload request.toolId request.rawInput
      keyed request.context request.toolId provider inputFingerprint

/-- Keep an event in the history of the budget, if there is one. -/
def note (event : BudgetEvent) (w : ToolWorld D) : ToolWorld D :=
  match S.budgets with
  | none => w
  | some _ => { w with budget := w.budget.log event }

/-- `assert_can_start_attempt`, noted as `event`. -/
def assertCanStartAttempt (b : ToolBudgets) (event : ℚ → BudgetEvent) : ToolTx D Unit := do
  let e ← Tx.reading id
  let w ← Tx.read id
  Tx.lift (ensure (b.Covers w.budget.nodeStartedAt e.monotonic) (.tool .budgetExhausted))
  Tx.modify fun w => { w with budget := w.budget.log (event e.monotonic) }

def assertCanStartLogicalCall (b : ToolBudgets) : ToolTx D Unit := do
  let w ← Tx.read id
  Tx.lift (ensure (w.budget.logicalCallsUsed < b.maxLogicalCalls) (.tool .budgetExhausted))
  assertCanStartAttempt b .admitted

def recordLogicalCall : ToolTx D Unit :=
  Tx.modify fun w =>
    { w with budget :=
        { w.budget.log .recorded with logicalCallsUsed := w.budget.logicalCallsUsed + 1 } }

/-- Do something with the budget, if there is one. -/
def withBudgets (t : ToolBudgets → ToolTx D Unit) : ToolProgram D Unit :=
  match S.budgets with
  | none => pure ()
  | some b => Program.atomically (t b)

/-- `_try_replay`. -/
def tryReplay (call : ToolCall) (look : Look) :
    ToolProgram D (Option (ToolInvocationResult D)) :=
  onLedger <| Program.atomically do
    let existing ← Tx.read (look.row ((S.ledgerService (D := D)).key call))
    match existing with
    | none => return none
    | some row =>
        if row.status ≠ .succeeded then return none
        else do
          let result ← Tx.lift (replay call row)
          return some result

/-- `tool.invoke`. -/
def callTool (call : ToolCall) : ToolProgram D (Except Exc (ToolInvocationResult D)) :=
  .act (fun _ w => S.note .attempted w) fun e _ => .ret (e.response call)

/-- `_execute_once`. -/
def executeOnce (call : ToolCall) (place : ToolPlace) (look : Look) :
    ToolProgram D (ToolInvocationResult D) := do
  let opened ← onLedger (Program.atomically (S.ledgerService.beginCall call place look))
  match opened with
  | .replayed answer => return answer
  | .attempt invocationId attemptId => do
      let response ← S.callTool call
      match response with
      | .ok answer => do
          onLedger (Program.atomically (S.ledgerService.succeed invocationId attemptId
            (S.ledgerService.store call answer).1 (S.ledgerService.store call answer).2))
          return S.ledgerService.returned call invocationId answer
      | .error x =>
          match (S.ledgerService (D := D)).recorded x with
          | none => throw x
          | some (errorClass, retryClass, raised) => do
              onLedger (Program.atomically
                (S.ledgerService.fail invocationId attemptId errorClass retryClass))
              throw raised

/-- `assert last_error is not None; raise last_error`. -/
def raiseLast (lastError : Option ToolError) : ToolProgram D (ToolInvocationResult D) :=
  match lastError with
  | none => throw (.other "AssertionError" false)
  | some error => throw (.tool error)

/-- How the loop goes on after an attempt. -/
def afterAttempt (attemptIndex : ℕ) (again : ToolError → ToolProgram D (ToolInvocationResult D)) :
    Except Exc (ToolInvocationResult D) → ToolProgram D (ToolInvocationResult D)
  | .ok result => return result
  | .error (.tool error) => do
      Program.atomically (Tx.modify (S.note (.failed error)))
      if S.maxAttemptsPerCall ≤ attemptIndex + 1 ∨ ¬ error.Transient then throw (.tool error)
      else again error
  | .error x => throw x

/-- The attempts of a call, by the indices that are left. -/
def attemptLoop (call : ToolCall) (place : ToolPlace) (looks : ℕ → Look) :
    List ℕ → Option ToolError → ToolProgram D (ToolInvocationResult D)
  | [], lastError => raiseLast lastError
  | attemptIndex :: rest, lastError => do
      if 0 < attemptIndex then S.withBudgets fun b => assertCanStartAttempt b .checked
      if 0 < attemptIndex ∧ ¬ ∃ error ∈ lastError, error.Transient then raiseLast lastError
      else do
        let outcome ← (S.executeOnce call place (looks attemptIndex)).attempt
        S.afterAttempt attemptIndex
          (fun error => attemptLoop call place looks rest (some error)) outcome

/-- What follows when no success is stored. -/
def fresh (call : ToolCall) (place : ToolPlace) (looks : ℕ → Look) :
    ToolProgram D (ToolInvocationResult D) := do
  S.withBudgets fun _ => recordLogicalCall
  S.attemptLoop call place looks (List.range S.maxAttemptsPerCall) none

/-- `invoke`.  `looks` says what each `get_by_key` sees: the lookup of a stored success first, then
the attempts. -/
def invoke (request : ToolRequest Raw) (looks : ℕ → Look) :
    ToolProgram D (ToolInvocationResult D) := do
  Program.lift (S.policy.assertAllowed request.context.origin request.toolId
    request.context.nodeName)
  S.withBudgets assertCanStartLogicalCall
  let call ← Program.lift (S.prepare request)
  let replayed ← S.tryReplay call (looks 0)
  match replayed with
  | some result => do
      Program.atomically (Tx.modify (S.note .replayed))
      return result
  | none => S.fresh call request.place fun attempt => looks (attempt + 1)

end ToolInvocationService

/-! ### The node -/

/-- What a research node does first. -/
def resetBudgets : ToolProgram D Unit :=
  Program.atomically do
    let e ← Tx.reading ToolEnv.monotonic
    Tx.modify fun w => { w with budget := { nodeStartedAt := e } }

/-- A program that spends the budget by calls and resets only.  Whether a call returned or raised,
the program goes on as it likes; its other acts are beside the budget. -/
inductive NodeWork (S : ToolInvocationService Raw) : {α : Type} → ToolProgram D α → Prop where
  | ret {α : Type} (a : α) : NodeWork S (.ret a)
  | raise {α : Type} (x : Exc) : NodeWork S (.raise x : ToolProgram D α)
  | beside {α : Type} (update : ToolEnv D → ToolWorld D → ToolWorld D)
      (next : ToolEnv D → ToolWorld D → ToolProgram D α)
      (hbudget : ∀ e w, (update e w).budget = w.budget) (hnext : ∀ e w, NodeWork S (next e w)) :
      NodeWork S (.act update next)
  | invoke {α : Type} (request : ToolRequest Raw) (looks : ℕ → Look)
      (next : Except Exc (ToolInvocationResult D) → ToolProgram D α)
      (hnext : ∀ outcome, NodeWork S (next outcome)) :
      NodeWork S ((S.invoke request looks).attempt >>= next)
  | reset {α : Type} (next : Unit → ToolProgram D α) (hnext : ∀ u, NodeWork S (next u)) :
      NodeWork S (resetBudgets >>= next)

/-- The executor of a research node, over what it asks and how it reads a search result. -/
structure LedgerBackedResearchExecutor (D Raw : Type) where
  service : ToolInvocationService Raw
  fetchEnabled : Bool
  /-- `{"query": task, "max_results": 3}` and `{"url": top_url}`. -/
  searchInput : String → Raw
  fetchInput : String → Raw
  /-- The url of the first hit, when there is one. -/
  topUrl : D → Option String
  persistSearchHits : ToolCallContext → ToolInvocationResult D → ToolProgram D (List String)

namespace LedgerBackedResearchExecutor

variable (executor : LedgerBackedResearchExecutor D Raw)

/-- The finding of a task: of the page of the first hit, if pages are fetched and there is one. -/
def finding (context : ToolCallContext) (looks : ToolId → ℕ → Look)
    (searchResult : ToolInvocationResult D) : ToolProgram D String :=
  match (if executor.fetchEnabled then executor.topUrl searchResult.output else none) with
  | none => return searchResult.findingText
  | some topUrl => do
      let fetchResult ← executor.service.invoke
        ⟨.fetchUrl, executor.fetchInput topUrl, context⟩ (looks .fetchUrl)
      return fetchResult.findingText

def researchTasks (context : ToolCallContext) (looks : ℕ → ToolId → ℕ → Look) :
    List String → ToolProgram D (List String × List String)
  | [] => return ([], [])
  | task :: rest => do
      let searchResult ← executor.service.invoke
        ⟨.webSearch, executor.searchInput task, context⟩ (looks rest.length .webSearch)
      let ids ← executor.persistSearchHits context searchResult
      let finding ← executor.finding context (looks rest.length) searchResult
      let found ← researchTasks context looks rest
      return (finding :: found.1, ids ++ found.2)

/-- Drop the later ones of equal ids. -/
def deduped (seen : List String) : List String → List String
  | [] => []
  | itemId :: rest =>
      if itemId ∈ seen then deduped seen rest else itemId :: deduped (itemId :: seen) rest

/-- `research`. -/
def research (plan : List String) (context : ToolCallContext)
    (looks : ℕ → ToolId → ℕ → Look) : ToolProgram D (List String × List String) :=
  if plan.length ≠ 3 then throw (.valueError "plan must contain exactly three tasks")
  else do
    let _ ← if executor.service.budgets.isSome then resetBudgets else pure ()
    let found ← executor.researchTasks context looks plan
    return (found.1, deduped [] found.2)

end LedgerBackedResearchExecutor

inductive ToolTask where
  | node
  | other
  deriving DecidableEq, Repr

/-- One node at a time, and any number of others who work on the ledger: other workers, the calls
over MCP, and the jobs. -/
def nodeSpec (S : ToolInvocationService Raw) :
    PoolSpec (ToolEnv D) (ToolWorld D) Exc Unit ToolTask where
  init w := ∃ nodeStartedAt, w.budget = { nodeStartedAt := nodeStartedAt }
  starts s task program :=
    match task with
    | .node => (∀ place program', s.tasks place ≠ some (.node, program')) ∧ NodeWork S program
    | .other => program.Acts fun _ w w' => w'.budget = w.budget
  allows _ _ := True

/-! ### Composition -/

/-- The settings the tools of a node are built from. -/
structure ToolSettings where
  toolProvider : String := "fake"
  toolFetchEnabled : Bool := false
  tavilyApiKey : Option String := none
  toolAttemptTimeoutSeconds : ℚ := 8
  researchNodeToolDeadlineSeconds : ℚ := 45
  toolMaxLogicalCallsPerResearchNode : ℕ := 6
  toolMaxAttemptsPerCall : ℕ := 2

def buildToolBudgets (settings : ToolSettings) : ToolBudgets where
  maxLogicalCalls := settings.toolMaxLogicalCallsPerResearchNode
  maxAttemptsPerCall := settings.toolMaxAttemptsPerCall
  attemptTimeoutSeconds := settings.toolAttemptTimeoutSeconds
  nodeDeadlineSeconds := settings.researchNodeToolDeadlineSeconds

/-- The tools of the registry and their providers: `build_live_registry` fails closed. -/
def registryOf (settings : ToolSettings) :
    Except Exc (List ToolId × List (ToolId × ToolProviderId)) := do
  if settings.toolProvider = "fake" then
    return ([.webSearch, .fetchUrl], [(.webSearch, .fake), (.fetchUrl, .fake)])
  else if settings.toolProvider = "tavily" then do
    ensure (settings.toolFetchEnabled = false) (.tool .authConfig)
    ensure (Python.strip (settings.tavilyApiKey.getD "") ≠ "") (.tool .authConfig)
    return ([.webSearch], [(.webSearch, .tavily)])
  else
    .error (.tool .authConfig)

/-- The service `build_research_executor` composes over the ledger. -/
def buildToolService (settings : ToolSettings) (sha256 : String → String)
    (fingerprintPayload : ToolId → Raw → Except Exc String) :
    Except Exc (ToolInvocationService Raw) := do
  let (registry, providers) ← registryOf settings
  return {
    registry := registry
    policy := defaultPermissionPolicy
    providerByTool := providers
    budgets := some (buildToolBudgets settings)
    maxAttemptsPerCall := settings.toolMaxAttemptsPerCall
    attemptTimeoutSeconds := settings.toolAttemptTimeoutSeconds
    sha256 := sha256
    fingerprintPayload := fingerprintPayload }

/-! ### What may stand in the history -/

def BudgetEvent.isAdmitted : BudgetEvent → Bool
  | .admitted _ => true
  | _ => false

/-- The events of the call that was admitted last. -/
def sinceAdmitted (history : List BudgetEvent) : List BudgetEvent :=
  history.takeWhile fun event => !event.isAdmitted

/-- The call was tried already: the tool was called, or an attempt ended before that. -/
def Tried (history : List BudgetEvent) : Prop :=
  ∃ event ∈ sinceAdmitted history, event = .attempted ∨ ∃ error, event = .failed error

/-- The last attempt ended with an error that may pass, and the time that is left was found to
cover another one. -/
def AnotherAllowed (b : ToolBudgets) (nodeStartedAt : ℚ) (history : List BudgetEvent) : Prop :=
  ∃ monotonic error rest, history = .checked monotonic :: .failed error :: rest ∧
    error.Transient ∧ b.Covers nodeStartedAt monotonic

/-- The last event is that a call was admitted. -/
def JustAdmitted (history : List BudgetEvent) : Prop :=
  ∃ monotonic rest, history = .admitted monotonic :: rest

/-- When an event may follow a history. -/
def Licensed (b : ToolBudgets) (nodeStartedAt : ℚ) : BudgetEvent → List BudgetEvent → Prop
  | .admitted monotonic, older =>
      older.count .recorded < b.maxLogicalCalls ∧ b.Covers nodeStartedAt monotonic
  | .replayed, older => JustAdmitted older
  | .recorded, older => JustAdmitted older
  | .checked monotonic, _ => b.Covers nodeStartedAt monotonic
  | .attempted, older =>
      .recorded ∈ sinceAdmitted older ∧
        (sinceAdmitted older).count .attempted < b.maxAttemptsPerCall ∧
          (Tried older → AnotherAllowed b nodeStartedAt older)
  | .failed _, older => .recorded ∈ sinceAdmitted older

namespace NodeBudget

/-- Every event of the history was licensed by those before it, and the calls that are counted are
those recorded. -/
structure Kept (b : ToolBudgets) (n : NodeBudget) : Prop where
  used : n.logicalCallsUsed = n.history.count .recorded
  licensed : ∀ event older, event :: older <:+ n.history → Licensed b n.nodeStartedAt event older

variable {b : ToolBudgets} {n : NodeBudget} {event : BudgetEvent} {older : List BudgetEvent}

theorem kept_reset (b : ToolBudgets) (nodeStartedAt : ℚ) :
    Kept b { nodeStartedAt := nodeStartedAt } := by
  refine ⟨rfl, ?_⟩
  intro event older h
  have hlength := h.length_le
  simp at hlength

@[simp] theorem history_log : (n.log event).history = event :: n.history := rfl

@[simp] theorem nodeStartedAt_log : (n.log event).nodeStartedAt = n.nodeStartedAt := rfl

/-- What is licensed may be put before the history. -/
theorem licensed_cons (h : Kept b n) (hlicensed : Licensed b n.nodeStartedAt event n.history) :
    ∀ event' older, event' :: older <:+ event :: n.history →
      Licensed b n.nodeStartedAt event' older := by
  intro event' older hsuffix
  rcases List.suffix_cons_iff.1 hsuffix with heq | hold
  · cases heq
    exact hlicensed
  · exact h.licensed event' older hold

theorem Kept.log (h : Kept b n) (hlicensed : Licensed b n.nodeStartedAt event n.history)
    (hevent : event ≠ .recorded) : Kept b (n.log event) := by
  refine ⟨?_, licensed_cons h hlicensed⟩
  rw [history_log, List.count_cons_of_ne hevent]
  exact h.used

/-- Recording a call counts it. -/
theorem Kept.record (h : Kept b n) (hadmitted : JustAdmitted n.history) :
    Kept b { n.log .recorded with logicalCallsUsed := n.logicalCallsUsed + 1 } := by
  refine ⟨?_, licensed_cons h hadmitted⟩
  change n.logicalCallsUsed + 1 = (BudgetEvent.recorded :: n.history).count .recorded
  rw [List.count_cons_self, h.used]

/-- **No more calls are recorded than the limit**, at any time since the reset. -/
theorem Kept.count_recorded_le (h : Kept b n) {history : List BudgetEvent}
    (hsuffix : history <:+ n.history) : history.count .recorded ≤ b.maxLogicalCalls := by
  induction history with
  | nil => exact Nat.zero_le _
  | cons event older ih =>
      have hlicensed := h.licensed event older hsuffix
      have holder := ih ((List.suffix_cons event older).trans hsuffix)
      by_cases hrecorded : event = .recorded
      · -- the call was admitted right before, while calls were left
        subst hrecorded
        obtain ⟨monotonic, rest, rfl⟩ := hlicensed
        have hadmitted := h.licensed (.admitted monotonic) rest
          ((List.suffix_cons _ _).trans hsuffix)
        have hne : BudgetEvent.admitted monotonic ≠ .recorded := by
          intro heq
          cases heq
        rw [List.count_cons_self, List.count_cons_of_ne hne]
        exact hadmitted.1
      · rw [List.count_cons_of_ne hrecorded]
        exact holder

theorem sinceAdmitted_admitted (monotonic : ℚ) (history : List BudgetEvent) :
    sinceAdmitted (.admitted monotonic :: history) = [] := rfl

theorem sinceAdmitted_cons (h : event.isAdmitted = false) (history : List BudgetEvent) :
    sinceAdmitted (event :: history) = event :: sinceAdmitted history := by
  rw [sinceAdmitted, List.takeWhile_cons, h]
  rfl

/-- **No call is attempted more often than the limit**, at any time since the reset. -/
theorem Kept.count_attempted_le (h : Kept b n) {history : List BudgetEvent}
    (hsuffix : history <:+ n.history) :
    (sinceAdmitted history).count .attempted ≤ b.maxAttemptsPerCall := by
  induction history with
  | nil => exact Nat.zero_le _
  | cons event older ih =>
      have hlicensed := h.licensed event older hsuffix
      have holder := ih ((List.suffix_cons event older).trans hsuffix)
      cases hevent : event.isAdmitted with
      | true =>
          rw [sinceAdmitted, List.takeWhile_cons, hevent]
          exact Nat.zero_le _
      | false =>
          rw [sinceAdmitted_cons hevent]
          by_cases hattempted : event = .attempted
          · subst hattempted
            rw [List.count_cons_self]
            exact hlicensed.2.1
          · rw [List.count_cons_of_ne hattempted]
            exact holder

/-- A call that was answered by a stored success was neither recorded nor attempted. -/
theorem Kept.replayed (h : Kept b n) {history : List BudgetEvent} (hsuffix : history <:+ n.history)
    (hreplayed : .replayed ∈ sinceAdmitted history) :
    .recorded ∉ sinceAdmitted history ∧ .attempted ∉ sinceAdmitted history := by
  induction history with
  | nil => exact absurd hreplayed List.not_mem_nil
  | cons event older ih =>
      have hlicensed := h.licensed event older hsuffix
      have holder := ih ((List.suffix_cons event older).trans hsuffix)
      cases hevent : event.isAdmitted with
      | true =>
          rw [sinceAdmitted, List.takeWhile_cons, hevent]
          exact ⟨List.not_mem_nil, List.not_mem_nil⟩
      | false =>
          rw [sinceAdmitted_cons hevent] at hreplayed ⊢
          rcases List.mem_cons.1 hreplayed with rfl | hbefore
          · obtain ⟨monotonic, rest, rfl⟩ := hlicensed
            rw [sinceAdmitted_admitted]
            decide
          · obtain ⟨hrecorded, hattempted⟩ := holder hbefore
            refine ⟨?_, ?_⟩
            · rw [List.mem_cons, not_or]
              refine ⟨?_, hrecorded⟩
              rintro rfl
              obtain ⟨monotonic, rest, rfl⟩ := hlicensed
              exact absurd hbefore List.not_mem_nil
            · rw [List.mem_cons, not_or]
              refine ⟨?_, hattempted⟩
              rintro rfl
              exact hrecorded hlicensed.1

end NodeBudget

/-! ### Every call keeps the budget -/

open NodeBudget

section SpendsWithin

variable {β : Type} {b : ToolBudgets} {A A' : NodeBudget → Prop} {Q Q' : α → NodeBudget → Prop}
  {R : β → NodeBudget → Prop} {X X' : Exc → NodeBudget → Prop}

/-- Among others who leave the budget alone the program keeps it. -/
def SpendsWithin (b : ToolBudgets) (A : NodeBudget → Prop) (p : ToolProgram D α)
    (Q : α → NodeBudget → Prop) (X : Exc → NodeBudget → Prop) : Prop :=
  Program.Triple (fun w w' => w'.budget = w.budget) (fun _ w' => Kept b w'.budget)
    (fun w => A w.budget) p (fun a w => Q a w.budget) fun x w => X x w.budget

namespace SpendsWithin

theorem consequence {p : ToolProgram D α} (h : SpendsWithin b A p Q X) (hA : ∀ n, A' n → A n)
    (hQ : ∀ a n, Q a n → Q' a n) (hX : ∀ x n, X x n → X' x n) : SpendsWithin b A' p Q' X' :=
  Program.Triple.consequence h (fun w => hA w.budget) (fun a w => hQ a w.budget)
    fun x w => hX x w.budget

theorem bind {p : ToolProgram D α} {k : α → ToolProgram D β} (hp : SpendsWithin b A p Q X)
    (hk : ∀ a, SpendsWithin b (Q a) (k a) R X) : SpendsWithin b A (p >>= k) R X :=
  Program.Triple.bind hp hk

theorem absurd {p : ToolProgram D α} (h : ∀ n, ¬ A n) : SpendsWithin b A p Q X :=
  fun w hw => (h w.budget hw).elim

theorem ret {a : α} (h : ∀ n, A n → Q a n) : SpendsWithin b A (.ret a : ToolProgram D α) Q X :=
  Program.Triple.ret fun w => h w.budget

theorem raise {x : Exc} (h : ∀ n, A n → X x n) : SpendsWithin b A (.raise x : ToolProgram D α) Q X :=
  Program.Triple.raise fun w => h w.budget

theorem lift {r : Except Exc α} (hQ : ∀ a n, A n → Q a n) (hX : ∀ x n, A n → X x n) :
    SpendsWithin b A (Program.lift r : ToolProgram D α) Q X :=
  Program.Triple.lift (fun a w _ => hQ a w.budget) fun x w _ => hX x w.budget

/-- What a program of the ledger does is beside the budget. -/
theorem onLedger {p : Program (LedgerEnv (toolColumns D)) (Ledger (toolColumns D)) Exc α}
    (hA : ∀ n, A n → Kept b n) : SpendsWithin b A (onLedger p) (fun _ => A) fun _ => A := by
  apply Program.Acts.triple (Program.acts_focus p)
  · intro w w' hle hw
    rw [hle]
    exact hw
  · rintro e w _ hw ⟨ledger, rfl⟩
    exact ⟨hA _ hw, hw⟩

theorem atomically {t : ToolTx D α} (hA : ∀ n, A n → Kept b n)
    (hok : ∀ e w a w', A w.budget → t e w = .ok (a, w') → Kept b w'.budget ∧ Q a w'.budget)
    (herror : ∀ x n, A n → X x n) : SpendsWithin b A (Program.atomically t) Q X := by
  refine Program.Triple.atomically ?_ hok ?_
  · intro w w' hle hw
    rw [hle]
    exact hw
  · exact fun e w x hw _ => ⟨hA _ hw, herror x _ hw⟩

/-- What is noted is licensed. -/
theorem note {S : ToolInvocationService Raw} (hb : S.budgets = some b) {event : BudgetEvent}
    {B : NodeBudget → Prop} (hA : ∀ n, A n → Kept b n)
    (hlog : ∀ n, A n → Kept b (n.log event) ∧ B (n.log event)) (hX : ∀ x n, A n → X x n) :
    SpendsWithin b A (Program.atomically (Tx.modify (S.note event)) : ToolProgram D Unit)
      (fun _ => B) X := by
  refine atomically hA ?_ hX
  intro e w u w' hw h
  rw [Tx.modify_eq_ok] at h
  subst h
  rw [ToolInvocationService.note, hb]
  exact hlog _ hw

end SpendsWithin

end SpendsWithin

section Invoke

variable {S : ToolInvocationService Raw} {b : ToolBudgets} {n : NodeBudget} {i : ℕ}

/-- The call that was admitted last is recorded, and at most `i` attempts of it were made. -/
structure Spending (b : ToolBudgets) (i : ℕ) (n : NodeBudget) : Prop where
  kept : Kept b n
  recorded : .recorded ∈ sinceAdmitted n.history
  attempts : (sinceAdmitted n.history).count .attempted ≤ i

/-- One more attempt may be made. -/
structure Clear (b : ToolBudgets) (i : ℕ) (n : NodeBudget) : Prop extends Spending b i n where
  allowed : Tried n.history → AnotherAllowed b n.nodeStartedAt n.history

/-- The last event is the failure of an attempt. -/
structure FailedWith (b : ToolBudgets) (i : ℕ) (error : ToolError) (n : NodeBudget) : Prop
    extends Spending b i n where
  last : ∃ rest, n.history = .failed error :: rest

theorem Spending.log (h : Spending b i n) {event : BudgetEvent}
    (hlicensed : Licensed b n.nodeStartedAt event n.history) (hadmitted : event.isAdmitted = false)
    (hrecorded : event ≠ .recorded) (hattempted : event ≠ .attempted) :
    Spending b i (n.log event) := by
  refine ⟨h.kept.log hlicensed hrecorded, ?_, ?_⟩
  · rw [history_log, sinceAdmitted_cons hadmitted]
    exact List.mem_cons_of_mem _ h.recorded
  · rw [history_log, sinceAdmitted_cons hadmitted, List.count_cons_of_ne hattempted]
    exact h.attempts

/-- The tool is called once more. -/
theorem Clear.attempted (h : Clear b i n) (hi : i < b.maxAttemptsPerCall) :
    Spending b (i + 1) (n.log .attempted) := by
  have hlicensed : Licensed b n.nodeStartedAt .attempted n.history :=
    ⟨h.recorded, lt_of_le_of_lt h.attempts hi, h.allowed⟩
  have hne : BudgetEvent.attempted ≠ .recorded := by
    intro heq
    cases heq
  have hsince : sinceAdmitted (n.log .attempted).history = .attempted :: sinceAdmitted n.history :=
    sinceAdmitted_cons rfl n.history
  refine ⟨h.kept.log hlicensed hne, ?_, ?_⟩
  · rw [hsince]
    exact List.mem_cons_of_mem _ h.recorded
  · rw [hsince, List.count_cons_self]
    exact Nat.succ_le_succ h.attempts

theorem Spending.failed (h : Spending b i n) (error : ToolError) :
    FailedWith b i error (n.log (.failed error)) := by
  refine ⟨h.log h.recorded rfl ?_ ?_, n.history, rfl⟩
  · intro heq
    cases heq
  · intro heq
    cases heq

theorem FailedWith.checked {error : ToolError} (h : FailedWith b i error n)
    (htransient : error.Transient) {monotonic : ℚ} (hcovers : b.Covers n.nodeStartedAt monotonic) :
    Clear b i (n.log (.checked monotonic)) := by
  obtain ⟨rest, hlast⟩ := h.last
  refine ⟨h.log hcovers rfl ?_ ?_, ?_⟩
  · intro heq
    cases heq
  · intro heq
    cases heq
  · intro _
    refine ⟨monotonic, error, rest, ?_, htransient, hcovers⟩
    rw [history_log, hlast]

/-- A call that was just recorded was not tried. -/
theorem clear_recorded (h : Kept b n) (hadmitted : JustAdmitted n.history) :
    Clear b 0 { n.log .recorded with logicalCallsUsed := n.logicalCallsUsed + 1 } := by
  have hkept := h.record hadmitted
  obtain ⟨monotonic, rest, hhistory⟩ := hadmitted
  have hsince : sinceAdmitted (n.log .recorded).history = [.recorded] := by
    rw [history_log, hhistory, sinceAdmitted_cons rfl, sinceAdmitted_admitted]
  refine ⟨⟨hkept, ?_, ?_⟩, ?_⟩
  · change .recorded ∈ sinceAdmitted (n.log .recorded).history
    rw [hsince]
    exact List.mem_singleton_self _
  · change (sinceAdmitted (n.log .recorded).history).count .attempted ≤ 0
    rw [hsince]
    decide
  · rintro ⟨event, hevent, htried⟩
    change event ∈ sinceAdmitted (n.log .recorded).history at hevent
    rw [hsince, List.mem_singleton] at hevent
    subst hevent
    rcases htried with htried | ⟨error, htried⟩ <;> cases htried

namespace ToolInvocationService

theorem assertCanStartAttempt_eq_ok {event : ℚ → BudgetEvent} {e : ToolEnv D}
    {w w' : ToolWorld D} {u : Unit} (h : assertCanStartAttempt b event e w = .ok (u, w')) :
    b.Covers w.budget.nodeStartedAt e.monotonic ∧
      w'.budget = w.budget.log (event e.monotonic) := by
  simp only [assertCanStartAttempt, Tx.bind_eq_ok, Tx.reading_eq_ok, Tx.read_eq_ok,
    Tx.lift_eq_ok, ensure_eq_ok, Tx.modify_eq_ok] at h
  obtain ⟨_, _, ⟨rfl, rfl⟩, _, _, ⟨rfl, rfl⟩, _, _, ⟨hcovers, rfl⟩, rfl⟩ := h
  exact ⟨hcovers, rfl⟩

theorem assertCanStartLogicalCall_eq_ok {e : ToolEnv D} {w w' : ToolWorld D} {u : Unit}
    (h : assertCanStartLogicalCall b e w = .ok (u, w')) :
    w.budget.logicalCallsUsed < b.maxLogicalCalls ∧
      b.Covers w.budget.nodeStartedAt e.monotonic ∧
        w'.budget = w.budget.log (.admitted e.monotonic) := by
  simp only [assertCanStartLogicalCall, Tx.bind_eq_ok, Tx.read_eq_ok, Tx.lift_eq_ok,
    ensure_eq_ok] at h
  obtain ⟨_, _, ⟨rfl, rfl⟩, _, _, ⟨hcalls, rfl⟩, hattempt⟩ := h
  exact ⟨hcalls, assertCanStartAttempt_eq_ok hattempt⟩

/-- A call is admitted only while calls and time are left. -/
theorem keeps_admission (hb : S.budgets = some b) :
    SpendsWithin b (Kept b) (S.withBudgets assertCanStartLogicalCall : ToolProgram D Unit)
      (fun _ n => Kept b n ∧ JustAdmitted n.history) fun _ => Kept b := by
  rw [withBudgets, hb]
  refine SpendsWithin.atomically (fun _ h => h) ?_ fun _ _ h => h
  intro e w u w' hw h
  obtain ⟨hcalls, hcovers, hlog⟩ := assertCanStartLogicalCall_eq_ok h
  rw [hw.used] at hcalls
  have hne : BudgetEvent.admitted e.monotonic ≠ .recorded := by
    intro heq
    cases heq
  have hlicensed : Licensed b w.budget.nodeStartedAt (.admitted e.monotonic) w.budget.history :=
    ⟨hcalls, hcovers⟩
  have hkept := hw.log hlicensed hne
  rw [hlog]
  exact ⟨hkept, hkept, e.monotonic, w.budget.history, rfl⟩

/-- Another attempt is checked for only after an error that may pass. -/
theorem keeps_check (hb : S.budgets = some b) {error : ToolError} (htransient : error.Transient) :
    SpendsWithin b (FailedWith b i error)
      (S.withBudgets fun b => assertCanStartAttempt b .checked : ToolProgram D Unit)
      (fun _ => Clear b i) fun _ => Kept b := by
  rw [withBudgets, hb]
  refine SpendsWithin.atomically (fun _ h => h.kept) ?_ fun _ _ h => h.kept
  intro e w u w' hw h
  obtain ⟨hcovers, hlog⟩ := assertCanStartAttempt_eq_ok h
  rw [hlog]
  have hclear := hw.checked htransient hcovers
  exact ⟨hclear.kept, hclear⟩

theorem keeps_record (hb : S.budgets = some b) :
    SpendsWithin b (fun n => Kept b n ∧ JustAdmitted n.history)
      (S.withBudgets fun _ => recordLogicalCall : ToolProgram D Unit)
      (fun _ => Clear b 0) fun _ => Kept b := by
  rw [withBudgets, hb]
  refine SpendsWithin.atomically (fun _ h => h.1) ?_ fun _ _ h => h.1
  intro e w u w' hw h
  rw [recordLogicalCall, Tx.modify_eq_ok] at h
  subst h
  have hclear := clear_recorded hw.1 hw.2
  exact ⟨hclear.kept, hclear⟩

/-- The ledger's transactions around the tool leave the budget alone; the tool is called at most
once. -/
theorem keeps_executeOnce (hb : S.budgets = some b) (hi : i < b.maxAttemptsPerCall)
    (call : ToolCall) (place : ToolPlace) (look : Look) :
    SpendsWithin b (Clear b i) (S.executeOnce call place look : ToolProgram D _)
      (fun _ => Spending b (i + 1)) fun _ => Spending b (i + 1) := by
  have hclear : ∀ n, Clear b i n → Spending b (i + 1) n := fun n h =>
    ⟨h.kept, h.recorded, Nat.le_succ_of_le h.attempts⟩
  have hledger : ∀ (p : Program (LedgerEnv (toolColumns D)) (Ledger (toolColumns D)) Exc Unit),
      SpendsWithin b (Spending b (i + 1)) (onLedger p) (fun _ => Spending b (i + 1))
        fun _ => Spending b (i + 1) := fun p => SpendsWithin.onLedger fun _ h => h.kept
  refine SpendsWithin.bind ((SpendsWithin.onLedger fun _ h => h.kept).consequence (fun _ h => h)
    (fun _ _ h => h) fun _ => hclear) ?_
  intro opened
  cases opened with
  | replayed answer => exact SpendsWithin.ret hclear
  | attempt invocationId attemptId =>
      refine SpendsWithin.bind (Q := fun _ => Spending b (i + 1)) ?_ ?_
      · -- the call of the tool is the one act that is noted
        intro w hw
        rw [callTool, Program.complies_act]
        intro e w' hle
        have hattempted : Spending b (i + 1) (w'.budget.log .attempted) := by
          rw [hle]
          exact hw.attempted hi
        rw [note, hb]
        exact ⟨hattempted.kept, Program.complies_ret.2 hattempted⟩
      · intro response
        cases response with
        | ok answer => exact SpendsWithin.bind (hledger _) fun _ => SpendsWithin.ret fun _ h => h
        | error x =>
            cases hrecorded : (S.ledgerService (D := D)).recorded x with
            | none =>
                simp only [hrecorded]
                exact SpendsWithin.raise fun _ h => h
            | some recorded =>
                simp only [hrecorded]
                exact SpendsWithin.bind (hledger _) fun _ => SpendsWithin.raise fun _ h => h

theorem keeps_raiseLast {A : NodeBudget → Prop} (hA : ∀ n, A n → Kept b n)
    (lastError : Option ToolError) :
    SpendsWithin b A (raiseLast lastError : ToolProgram D _) (fun _ => Kept b) fun _ => Kept b := by
  cases lastError with
  | none => exact SpendsWithin.raise hA
  | some error => exact SpendsWithin.raise hA

/-- Before the attempt `i`: nothing was tried, or the last attempt ended with an error that may
pass. -/
def Ready (b : ToolBudgets) (i : ℕ) (lastError : Option ToolError) (n : NodeBudget) : Prop :=
  (i = 0 ∧ Clear b 0 n) ∨
    (0 < i ∧ ∃ error, lastError = some error ∧ error.Transient ∧ FailedWith b i error n)

/-- After an attempt the call ends, or another one may be made. -/
theorem keeps_afterAttempt (hb : S.budgets = some b)
    {again : ToolError → ToolProgram D (ToolInvocationResult D)}
    (hagain : ∀ error, error.Transient →
      SpendsWithin b (FailedWith b (i + 1) error) (again error) (fun _ => Kept b) fun _ => Kept b)
    (outcome : Except Exc (ToolInvocationResult D)) :
    SpendsWithin b (Spending b (i + 1)) (S.afterAttempt i again outcome) (fun _ => Kept b)
      fun _ => Kept b := by
  cases outcome with
  | ok result => exact SpendsWithin.ret fun _ h => h.kept
  | error x =>
      cases x with
      | tool error =>
          refine SpendsWithin.bind (SpendsWithin.note hb (fun _ h => h.kept)
            (fun _ h => ⟨(h.failed error).kept, h.failed error⟩) fun _ _ h => h.kept) ?_
          intro _
          split
          · exact SpendsWithin.raise fun _ h => h.kept
          · rename_i hgoes
            exact hagain error (by_contra fun htransient => hgoes (.inr htransient))
      | _ => exact SpendsWithin.raise fun _ h => h.kept

theorem keeps_attempt (hb : S.budgets = some b) (hi : i < b.maxAttemptsPerCall) (call : ToolCall)
    (place : ToolPlace) (look : Look) {again : ToolError → ToolProgram D (ToolInvocationResult D)}
    (hagain : ∀ error, error.Transient →
      SpendsWithin b (FailedWith b (i + 1) error) (again error) (fun _ => Kept b) fun _ => Kept b) :
    SpendsWithin b (Clear b i)
      ((S.executeOnce call place look).attempt >>= fun outcome => S.afterAttempt i again outcome)
      (fun _ => Kept b) fun _ => Kept b := by
  refine SpendsWithin.bind (Q := fun _ => Spending b (i + 1)) ?_ (keeps_afterAttempt hb hagain)
  exact Program.Triple.attempt (keeps_executeOnce hb hi call place look) (fun _ _ h => h)
    fun _ _ h => h

theorem keeps_attemptLoop (hb : S.budgets = some b) (call : ToolCall) (place : ToolPlace)
    (looks : ℕ → Look) (left : ℕ) :
    ∀ (i : ℕ) (lastError : Option ToolError), i + left = b.maxAttemptsPerCall →
      SpendsWithin b (Ready b i lastError)
        (S.attemptLoop call place looks (List.range' i left) lastError : ToolProgram D _)
        (fun _ => Kept b) fun _ => Kept b := by
  induction left with
  | zero =>
      intro i lastError _
      refine keeps_raiseLast ?_ lastError
      rintro n (⟨-, hclear⟩ | ⟨-, error, -, -, hfailed⟩)
      · exact hclear.kept
      · exact hfailed.kept
  | succ left ih =>
      intro i lastError hleft
      have hi : i < b.maxAttemptsPerCall := by omega
      have hagain : ∀ error : ToolError, error.Transient →
          SpendsWithin b (FailedWith b (i + 1) error)
            (S.attemptLoop call place looks (List.range' (i + 1) left) (some error) :
              ToolProgram D _) (fun _ => Kept b) fun _ => Kept b := by
        intro error htransient
        refine (ih (i + 1) (some error) (by omega)).consequence ?_ (fun _ _ h => h) fun _ _ h => h
        exact fun n h => .inr ⟨Nat.succ_pos i, error, rfl, htransient, h⟩
      rw [List.range'_succ, attemptLoop]
      by_cases hpos : 0 < i
      · by_cases hlast : ∃ error ∈ lastError, error.Transient
        · obtain ⟨error, hsome, htransient⟩ := hlast
          obtain rfl : lastError = some error := hsome
          have hthere : ∃ error' ∈ some error, error'.Transient := ⟨error, rfl, htransient⟩
          simp only [if_pos hpos, hthere, not_true_eq_false, and_false, if_false]
          refine SpendsWithin.bind ((keeps_check hb htransient).consequence ?_ (fun _ _ h => h)
            fun _ _ h => h) fun _ => keeps_attempt hb hi call place (looks i) hagain
          rintro n (⟨rfl, -⟩ | ⟨-, error', hsame, -, hfailed⟩)
          · exact absurd hpos (Nat.lt_irrefl 0)
          · cases hsame
            exact hfailed
        · -- the loop raised such an error right away
          refine SpendsWithin.absurd ?_
          rintro n (⟨rfl, -⟩ | ⟨-, error, hsome, htransient, -⟩)
          · exact Nat.lt_irrefl 0 hpos
          · exact hlast ⟨error, hsome, htransient⟩
      · obtain rfl : i = 0 := by omega
        simp only [Nat.lt_irrefl, if_false, false_and]
        refine (keeps_attempt hb hi call place (looks 0) hagain).consequence ?_ (fun _ _ h => h)
          fun _ _ h => h
        rintro n (⟨-, hclear⟩ | ⟨hpos, -⟩)
        · exact hclear
        · exact absurd hpos (Nat.lt_irrefl 0)

/-- **A call keeps the budget**, whatever it returns or raises. -/
theorem keeps_invoke (hb : S.budgets = some b)
    (hmax : S.maxAttemptsPerCall = b.maxAttemptsPerCall) (request : ToolRequest Raw)
    (looks : ℕ → Look) :
    SpendsWithin b (Kept b) (S.invoke request looks : ToolProgram D _) (fun _ => Kept b)
      fun _ => Kept b := by
  refine SpendsWithin.bind (Q := fun _ => Kept b) (SpendsWithin.lift (fun _ _ h => h) fun _ _ h => h) ?_
  intro _
  refine SpendsWithin.bind (keeps_admission hb) ?_
  intro _
  refine SpendsWithin.bind (Q := fun _ n => Kept b n ∧ JustAdmitted n.history)
    (SpendsWithin.lift (fun _ _ h => h) fun _ _ h => h.1) ?_
  intro call
  refine SpendsWithin.bind ((SpendsWithin.onLedger fun _ h => h.1).consequence (fun _ h => h)
    (fun _ _ h => h) fun _ _ h => h.1) ?_
  intro replayed
  cases replayed with
  | some result =>
      refine SpendsWithin.bind (SpendsWithin.note (B := Kept b) hb (fun _ h => h.1) ?_ fun _ _ h => h.1) ?_
      · intro n h
        have hlicensed : Licensed b n.nodeStartedAt .replayed n.history := h.2
        have hne : BudgetEvent.replayed ≠ .recorded := by
          intro heq
          cases heq
        exact ⟨h.1.log hlicensed hne, h.1.log hlicensed hne⟩
      · exact fun _ => SpendsWithin.ret fun _ h => h
  | none =>
      refine SpendsWithin.bind (keeps_record hb) ?_
      intro _
      rw [List.range_eq_range']
      refine (keeps_attemptLoop hb call request.place _ S.maxAttemptsPerCall 0 none ?_).consequence
        ?_ (fun _ _ h => h) fun _ _ h => h
      · rw [hmax, Nat.zero_add]
      · exact fun n h => .inl ⟨rfl, h⟩

end ToolInvocationService

/-! ### Nodes -/

theorem keeps_resetBudgets (b : ToolBudgets) :
    SpendsWithin b (Kept b) (resetBudgets : ToolProgram D Unit) (fun _ => Kept b) fun _ => Kept b := by
  refine SpendsWithin.atomically (fun _ h => h) ?_ fun _ _ h => h
  intro e w u w' _ h
  simp only [Tx.bind_eq_ok, Tx.reading_eq_ok, Tx.modify_eq_ok] at h
  obtain ⟨_, _, ⟨rfl, rfl⟩, rfl⟩ := h
  exact ⟨kept_reset b e.monotonic, kept_reset b e.monotonic⟩

/-- Everything a node does keeps the budget. -/
theorem NodeWork.keeps (hb : S.budgets = some b)
    (hmax : S.maxAttemptsPerCall = b.maxAttemptsPerCall) {p : ToolProgram D α}
    (h : NodeWork S p) : SpendsWithin b (Kept b) p (fun _ => Kept b) fun _ => Kept b := by
  induction h with
  | ret a => exact SpendsWithin.ret fun _ h => h
  | raise x => exact SpendsWithin.raise fun _ h => h
  | beside update next hbudget _ ih =>
      intro w hw
      rw [Program.complies_act]
      intro e w' hle
      have hkept : Kept b (update e w').budget := by
        rw [hbudget, hle]
        exact hw
      exact ⟨hkept, ih e w' (update e w') hkept⟩
  | invoke request looks next _ ih =>
      refine SpendsWithin.bind (Q := fun _ => Kept b) ?_ ih
      exact Program.Triple.attempt (ToolInvocationService.keeps_invoke hb hmax request looks)
        (fun _ _ h => h) fun _ _ h => h
  | reset next _ ih => exact SpendsWithin.bind (keeps_resetBudgets b) ih

/-- What the others may do to a task: a node is alone with its budget. -/
def ToolTask.Later : ToolTask → ToolWorld D → ToolWorld D → Prop
  | node, w, w' => w'.budget = w.budget
  | other, _, _ => True

def ToolTask.Guarantee (b : ToolBudgets) : ToolTask → ToolWorld D → ToolWorld D → Prop
  | node, _, w' => Kept b w'.budget
  | other, w, w' => w'.budget = w.budget

/-- What a task leaves. -/
def ToolTask.Leaves (b : ToolBudgets) : ToolTask → ToolWorld D → Prop
  | node, w => Kept b w.budget
  | other, _ => True

/-- Nodes keep the budget, and the others leave it alone. -/
theorem node_conduct (hb : S.budgets = some b)
    (hmax : S.maxAttemptsPerCall = b.maxAttemptsPerCall) :
    PoolSpec.Conduct (nodeSpec S : PoolSpec (ToolEnv D) (ToolWorld D) Exc Unit ToolTask)
      (fun w => Kept b w.budget) ToolTask.Later (ToolTask.Guarantee b)
      (fun task _ => ToolTask.Leaves b task) (fun task _ => ToolTask.Leaves b task)
      fun task task' => ¬ (task = .node ∧ task' = .node) where
  init := by
    rintro w ⟨nodeStartedAt, hbudget⟩
    rw [hbudget]
    exact kept_reset b nodeStartedAt
  starts := by
    intro s task program hstart hkept
    cases task with
    | node => exact hstart.2.keeps hb hmax s.world hkept
    | other =>
        exact Program.Acts.triple (K := fun _ => True) hstart (fun _ _ _ h => h)
          (fun _ _ _ _ hR => ⟨hR, trivial⟩) s.world trivial
  compatible := by
    intro s task program hstart place task' program' htask
    cases task with
    | node =>
        have hother : task' ≠ .node := by
          rintro rfl
          exact hstart.1 place program' htask
        exact ⟨fun h => hother h.2, fun h => hother h.1⟩
    | other => simp
  refl := by
    intro task w hkept
    cases task with
    | node => exact ⟨rfl, hkept⟩
    | other => exact ⟨trivial, rfl⟩
  trans := by
    intro task w w' w'' h h'
    cases task with
    | node => exact Eq.trans h' h
    | other => exact trivial
  invariant := by
    intro task w w' hkept h
    cases task with
    | node => exact h
    | other =>
        have hsame : w'.budget = w.budget := h
        rw [hsame]
        exact hkept
  others := by
    intro task task' w w' hcompatible _ h
    cases task' with
    | node =>
        cases task with
        | node => exact (hcompatible ⟨rfl, rfl⟩).elim
        | other => exact h
    | other => exact trivial
  returned := by
    intro task a w w' hle h
    cases task with
    | node =>
        have hsame : w'.budget = w.budget := hle
        change Kept b w'.budget
        rw [hsame]
        exact h
    | other => exact trivial
  raised := by
    intro task x w w' hle h
    cases task with
    | node =>
        have hsame : w'.budget = w.budget := hle
        change Kept b w'.budget
        rw [hsame]
        exact h
    | other => exact trivial

end Invoke

/-! ### The research node is a node -/

theorem NodeWork.of_acts {S : ToolInvocationService Raw} {p : ToolProgram D α}
    (h : p.Acts fun _ w w' => w'.budget = w.budget) : NodeWork S p := by
  induction p with
  | ret a => exact .ret a
  | raise x => exact .raise x
  | act update next ih =>
      rw [Program.acts_act] at h
      exact .beside update next (fun e w => (h e w).1) fun e w => ih e w (h e w).2

/-- A part of a node is followed by another one. -/
theorem NodeWork.bind {β : Type} {S : ToolInvocationService Raw} {p : ToolProgram D α}
    {k : α → ToolProgram D β} (h : NodeWork S p) (hk : ∀ a, NodeWork S (k a)) :
    NodeWork S (p >>= k) := by
  induction h with
  | ret a => exact hk a
  | raise x => exact .raise x
  | beside update next hbudget _ ih => exact .beside update _ hbudget fun e w => ih e w
  | invoke request looks next _ ih =>
      rw [Program.bind_assoc]
      exact .invoke request looks _ fun outcome => ih outcome
  | reset next _ ih =>
      rw [Program.bind_assoc]
      exact .reset _ fun u => ih u

/-- A call is followed by what its result is for; what it raises is raised. -/
theorem NodeWork.call {S : ToolInvocationService Raw} (request : ToolRequest Raw) (looks : ℕ → Look)
    {k : ToolInvocationResult D → ToolProgram D α} (hk : ∀ result, NodeWork S (k result)) :
    NodeWork S (S.invoke request looks >>= k) := by
  rw [Program.bind_eq_attempt_bind]
  refine .invoke request looks _ ?_
  intro outcome
  cases outcome with
  | ok result => exact hk result
  | error x => exact .raise x

namespace LedgerBackedResearchExecutor

variable {executor : LedgerBackedResearchExecutor D Raw}

theorem finding_nodeWork (context : ToolCallContext) (looks : ToolId → ℕ → Look)
    (searchResult : ToolInvocationResult D) :
    NodeWork executor.service (executor.finding context looks searchResult) := by
  unfold finding
  split
  · exact .ret _
  · exact .call _ _ fun _ => .ret _

theorem researchTasks_nodeWork
    (hpersist : ∀ context result,
      (executor.persistSearchHits context result).Acts fun _ w w' => w'.budget = w.budget)
    (context : ToolCallContext) (looks : ℕ → ToolId → ℕ → Look) (tasks : List String) :
    NodeWork executor.service (executor.researchTasks context looks tasks) := by
  induction tasks with
  | nil => exact .ret _
  | cons task rest ih =>
      refine .call _ _ fun searchResult => ?_
      refine .bind (.of_acts (hpersist context searchResult)) fun ids => ?_
      refine .bind (finding_nodeWork context _ searchResult) fun finding => ?_
      exact .bind ih fun _ => .ret _

/-- **The research node is a node**: it spends its budget by a reset and by calls. -/
theorem research_nodeWork
    (hpersist : ∀ context result,
      (executor.persistSearchHits context result).Acts fun _ w w' => w'.budget = w.budget)
    (plan : List String) (context : ToolCallContext) (looks : ℕ → ToolId → ℕ → Look) :
    NodeWork executor.service (executor.research plan context looks) := by
  have htasks := researchTasks_nodeWork hpersist context looks plan
  unfold research
  split
  · exact .raise _
  · by_cases hsome : executor.service.budgets.isSome = true
    · simp only [hsome, if_true]
      exact .reset _ fun _ => .bind htasks fun _ => .ret _
    · simp only [hsome]
      exact .bind htasks fun _ => .ret _

end LedgerBackedResearchExecutor

/-! ### Calls without a budget are others -/

namespace ToolInvocationService

variable {S : ToolInvocationService Raw}

/-- The program leaves the budget alone. -/
abbrev Beside (p : ToolProgram D α) : Prop := p.Acts fun _ w w' => w'.budget = w.budget

theorem beside_onLedger (p : Program (LedgerEnv (toolColumns D)) (Ledger (toolColumns D)) Exc α) :
    Beside (onLedger p) := by
  refine (Program.acts_focus p).mono ?_
  rintro e w _ ⟨ledger, rfl⟩
  rfl

theorem beside_note (hb : S.budgets = none) (event : BudgetEvent) :
    Beside (Program.atomically (Tx.modify (S.note event)) : ToolProgram D Unit) := by
  refine Program.Acts.atomically (fun _ _ => rfl) ?_
  intro e w u w' h
  rw [Tx.modify_eq_ok] at h
  subst h
  rw [note, hb]

theorem beside_executeOnce (hb : S.budgets = none) (call : ToolCall) (place : ToolPlace)
    (look : Look) : Beside (S.executeOnce call place look : ToolProgram D _) := by
  refine .bind (beside_onLedger _) ?_
  intro opened
  cases opened with
  | replayed answer => exact .ret answer
  | attempt invocationId attemptId =>
      refine .bind ?_ ?_
      · rw [callTool]
        refine Program.acts_act.2 fun e w => ?_
        rw [note, hb]
        exact ⟨rfl, .ret _⟩
      · intro response
        cases response with
        | ok answer => exact .bind (beside_onLedger _) fun _ => .ret _
        | error x =>
            cases hrecorded : (S.ledgerService (D := D)).recorded x with
            | none =>
                simp only [hrecorded]
                exact .raise x
            | some recorded =>
                simp only [hrecorded]
                exact .bind (beside_onLedger _) fun _ => .raise _

theorem beside_attemptLoop (hb : S.budgets = none) (call : ToolCall) (place : ToolPlace)
    (looks : ℕ → Look) (indices : List ℕ) (lastError : Option ToolError) :
    Beside (S.attemptLoop call place looks indices lastError : ToolProgram D _) := by
  have hlast : ∀ lastError, Beside (raiseLast lastError : ToolProgram D _) := by
    intro lastError
    cases lastError with
    | none => exact .raise _
    | some error => exact .raise _
  induction indices generalizing lastError with
  | nil => exact hlast lastError
  | cons attemptIndex rest ih =>
      have hbody : Beside ((S.executeOnce call place (looks attemptIndex)).attempt >>=
          S.afterAttempt attemptIndex
            (fun error => S.attemptLoop call place looks rest (some error)) : ToolProgram D _) := by
        refine .bind (beside_executeOnce hb call place _).attempt ?_
        intro outcome
        cases outcome with
        | ok result => exact .ret result
        | error x =>
            cases x with
            | tool error =>
                refine .bind (beside_note hb _) fun _ => ?_
                split
                · exact .raise _
                · exact ih (some error)
            | _ => exact .raise _
      rw [attemptLoop, withBudgets, hb]
      simp only [Program.pure_bind, ite_self]
      split
      · exact hlast lastError
      · exact hbody

/-- **Without a budget a call is beside the budget of every node**: so are the calls over MCP. -/
theorem beside_invoke (hb : S.budgets = none) (request : ToolRequest Raw) (looks : ℕ → Look) :
    Beside (S.invoke request looks : ToolProgram D _) := by
  have hwith : ∀ t : ToolBudgets → ToolTx D Unit, Beside (S.withBudgets t) := by
    intro t
    rw [withBudgets, hb]
    exact .ret ()
  refine .bind (.lift _) fun _ => .bind (hwith _) fun _ => .bind (.lift _) fun call => ?_
  refine .bind (beside_onLedger _) ?_
  intro replayed
  cases replayed with
  | some result => exact .bind (beside_note hb _) fun _ => .ret result
  | none => exact .bind (hwith _) fun _ => beside_attemptLoop hb call _ _ _ none

end ToolInvocationService

/-! ### An attempt and the ledger's service -/

/-- Left alone, `p` does to the ledger what `q` does, and returns or raises the same. -/
def Mirrors (p : ToolProgram D α)
    (q : Program (LedgerEnv (toolColumns D)) (Ledger (toolColumns D)) Exc α) : Prop :=
  ∀ (env : ℕ → ToolEnv D) (i : ℕ) (w : ToolWorld D), ∃ budget,
    p.run env i w =
      ((q.run (fun j => (env j).toLedgerEnv) i w.ledger).1,
        (q.run (fun j => (env j).toLedgerEnv) i w.ledger).2.1,
        ⟨(q.run (fun j => (env j).toLedgerEnv) i w.ledger).2.2, budget⟩)

namespace Mirrors

variable {β : Type}

theorem ret (a : α) : Mirrors (D := D) (.ret a) (.ret a) := fun _ _ w => ⟨w.budget, rfl⟩

theorem raise (x : Exc) : Mirrors (D := D) (α := α) (.raise x) (.raise x) :=
  fun _ _ w => ⟨w.budget, rfl⟩

theorem onLedger (p : Program (LedgerEnv (toolColumns D)) (Ledger (toolColumns D)) Exc α) :
    Mirrors (onLedger p) p := by
  intro env i w
  refine ⟨w.budget, ?_⟩
  apply Program.run_focus
  · exact fun _ _ => rfl
  · exact fun _ _ _ => rfl
  · exact fun _ => rfl

theorem bind {p : ToolProgram D α} {k : α → ToolProgram D β}
    {q : Program (LedgerEnv (toolColumns D)) (Ledger (toolColumns D)) Exc α}
    {k' : α → Program (LedgerEnv (toolColumns D)) (Ledger (toolColumns D)) Exc β}
    (h : Mirrors p q) (hk : ∀ a, Mirrors (k a) (k' a)) : Mirrors (p >>= k) (q >>= k') := by
  intro env i w
  obtain ⟨budget, hp⟩ := h env i w
  rw [Program.run_bind, Program.run_bind, hp]
  rcases q.run (fun j => (env j).toLedgerEnv) i w.ledger with ⟨outcome, j, l⟩
  cases outcome with
  | error x => exact ⟨budget, rfl⟩
  | ok a => exact hk a env j ⟨l, budget⟩

end Mirrors

/-- **An attempt is a call of the ledger's service**; it notes besides that the tool is called. -/
theorem ToolInvocationService.executeOnce_mirrors (S : ToolInvocationService Raw) (call : ToolCall)
    (place : ToolPlace) (look : Look) :
    Mirrors (S.executeOnce call place look : ToolProgram D _)
      (S.ledgerService.execute call place look) := by
  refine Mirrors.bind (Mirrors.onLedger _) ?_
  intro opened
  cases opened with
  | replayed answer => exact Mirrors.ret answer
  | attempt invocationId attemptId =>
      refine Mirrors.bind ?_ ?_
      · intro env i w
        refine ⟨(S.note .attempted w).budget, ?_⟩
        have hledger : (S.note .attempted w).ledger = w.ledger := by
          unfold note
          split <;> rfl
        change (_, _, S.note .attempted w) = _
        rw [← hledger]
        rfl
      · intro response
        cases response with
        | ok answer => exact Mirrors.bind (Mirrors.onLedger _) fun _ => Mirrors.ret _
        | error x =>
            cases hrecorded : (S.ledgerService (D := D)).recorded x with
            | none =>
                simp only [hrecorded]
                exact Mirrors.raise x
            | some recorded =>
                simp only [hrecorded]
                exact Mirrors.bind (Mirrors.onLedger _) fun _ => Mirrors.raise _

/-! ### The budget is kept -/

section Composition

variable {settings : ToolSettings} {sha256 : String → String}
  {fingerprintPayload : ToolId → Raw → Except Exc String} {S : ToolInvocationService Raw}

theorem buildToolService_eq_ok (h : buildToolService settings sha256 fingerprintPayload = .ok S) :
    S.budgets = some (buildToolBudgets settings) ∧
      S.maxAttemptsPerCall = (buildToolBudgets settings).maxAttemptsPerCall := by
  rw [buildToolService, bind_eq_ok] at h
  obtain ⟨built, -, h⟩ := h
  cases h
  exact ⟨rfl, rfl⟩

end Composition

/-- **The tool budget of a research node.**  Whatever a node calls between two resets, whatever the
tools and the ledger answer and the clock reads, and whatever others do to the ledger: as many calls
are counted as were recorded, and no more than the limit; no call is attempted more often than its
limit; a call that is answered by a stored success is neither recorded nor attempted; and a call is
admitted only while calls and time are left, attempted only when it was recorded, and attempted
again only after an error that may pass and while the time that is left covers another attempt. -/
theorem tool_budget (settings : ToolSettings) (sha256 : String → String)
    (fingerprintPayload : ToolId → Raw → Except Exc String) {S : ToolInvocationService Raw}
    (hS : buildToolService settings sha256 fingerprintPayload = .ok S)
    {s : Pool (ToolEnv D) (ToolWorld D) Exc Unit ToolTask} (hs : (nodeSpec S).lts.Reachable s) :
    let b := buildToolBudgets settings
    let n := s.world.budget
    n.logicalCallsUsed = n.history.count .recorded ∧
    n.history.count .recorded ≤ b.maxLogicalCalls ∧
    (∀ history, history <:+ n.history →
      (sinceAdmitted history).count .attempted ≤ b.maxAttemptsPerCall ∧
      (.replayed ∈ sinceAdmitted history →
        .recorded ∉ sinceAdmitted history ∧ .attempted ∉ sinceAdmitted history)) ∧
    ∀ event older, event :: older <:+ n.history → Licensed b n.nodeStartedAt event older := by
  obtain ⟨hb, hmax⟩ := buildToolService_eq_ok hS
  have hkept : NodeBudget.Kept (buildToolBudgets settings) s.world.budget :=
    (PoolSpec.complies_of_reachable (node_conduct hb hmax) hs).world
  refine ⟨hkept.used, hkept.count_recorded_le (List.suffix_refl _), ?_, hkept.licensed⟩
  intro history hsuffix
  exact ⟨hkept.count_attempted_le hsuffix, hkept.replayed hsuffix⟩

/-! A call that times out twice. -/

section Timeouts

def timeoutSettings : ToolSettings := {}

def timeoutService : ToolInvocationService Unit where
  registry := [.webSearch, .fetchUrl]
  policy := defaultPermissionPolicy
  providerByTool := [(.webSearch, .fake), (.fetchUrl, .fake)]
  budgets := some (buildToolBudgets timeoutSettings)
  maxAttemptsPerCall := 2
  attemptTimeoutSeconds := 8
  sha256 := id
  fingerprintPayload _ _ := .ok "fingerprint"

def timeoutRequest : ToolRequest Unit where
  toolId := .webSearch
  rawInput := ()
  context :=
    { origin := .workflow, researchJobId := some "job", workflowExecutionId := some "execution"
      nodeName := some "research" }

/-- The tool times out, at a reading of the clock. -/
def timeoutEnv (attemptId : String) (monotonic : ℚ) : ToolEnv Unit where
  now := 0
  invocationId := "invocation"
  attemptId := attemptId
  jobs := ∅
  response _ := .error (.tool .timeout)
  monotonic := monotonic

def timeoutStart : Pool (ToolEnv Unit) (ToolWorld Unit) Exc Unit ToolTask where
  world := { ledger := {}, budget := { nodeStartedAt := 0 } }

def timeoutNode : ToolProgram Unit Unit :=
  (timeoutService.invoke timeoutRequest fun _ => .current).attempt >>= fun _ => .ret ()

def timeoutPool : Pool (ToolEnv Unit) (ToolWorld Unit) Exc Unit ToolTask :=
  (List.replicate 7 (timeoutEnv "first" 1) ++ List.replicate 3 (timeoutEnv "second" 9)).foldl
    (fun s e => s.apply (.act 0 e)) (timeoutStart.apply (.start 0 .node timeoutNode))

/-- The call is admitted, recorded and attempted; it times out, and is attempted again. -/
theorem tool_budget_timeouts :
    timeoutPool.world.budget.history =
      [.attempted, .checked 9, .failed .timeout, .attempted, .recorded, .admitted 1] ∧
    timeoutPool.world.budget.logicalCallsUsed = 1 ∧
    timeoutPool.world.budget.history.count .recorded ≤ 6 := by
  have hstart : (nodeSpec timeoutService).lts.Reachable
      (timeoutStart.apply (.start 0 .node timeoutNode)) := by
    have hinit : (nodeSpec (D := Unit) timeoutService).lts.Reachable timeoutStart :=
      Lts.Reachable.of_init ⟨⟨0, rfl⟩, rfl⟩
    have hwork : NodeWork timeoutService timeoutNode := .invoke _ _ _ fun _ => .ret ()
    have hallows : (nodeSpec timeoutService).Allows timeoutStart (.start 0 .node timeoutNode) := by
      refine ⟨rfl, ?_, hwork⟩
      intro place program' htask
      cases htask
    exact hinit.step ⟨hallows, rfl⟩
  have hreach : (nodeSpec timeoutService).lts.Reachable timeoutPool :=
    PoolSpec.reachable_run (fun _ _ => trivial) hstart 0 _
  have hbuilt : buildToolService timeoutSettings id (fun _ (_ : Unit) => .ok "fingerprint") =
      .ok timeoutService := rfl
  obtain ⟨-, hcalls, -, -⟩ := tool_budget timeoutSettings id _ hbuilt hreach
  exact ⟨by decide +kernel, by decide +kernel, hcalls⟩

end Timeouts

end Atlas
