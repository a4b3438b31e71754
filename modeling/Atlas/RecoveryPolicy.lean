/-
**The recovery policy.**

Two pure functions of `recovery/policy.py` decide how processing goes on: after an evaluation that
did not pass (`decide_for_evaluation`), and after an exception (`decide_for_exception`).  Both see
the attempt counters of the job.  An exception is first put into a category: Atlas's own exceptions
by their class, the others by their class name.

Main definitions:

* `Atlas.Exc` — the exceptions of processing, `Atlas.Exc.className` their class names;
* `Atlas.FailureCategory`, `Atlas.PolicyAction`, `Atlas.PolicyDecision`, `Atlas.AttemptCounts`;
* `Atlas.categorizeException`, `Atlas.decideForException` — the policy of exceptions;
* `Atlas.categorizeEvaluationFailure`, `Atlas.decideForEvaluation` — the policy of evaluations;
* `Atlas.fingerprintPolicyDecision` — the fingerprint under which a decision is stored.

Main results:

* `Atlas.decideForException_action` — **an exception is retried or terminal**, and a retry stays
  below the cap;
* `Atlas.decideForEvaluation_repair` — a repair is decided only below the repair cap.
-/

import Atlas.JobRow
import Mathlib.Tactic.SplitIfs

set_option relaxedAutoImplicit false
set_option autoImplicit false

namespace Atlas

/-! ### Exceptions -/

/-- The exceptions of `evaluation/errors.py`. -/
inductive EvaluationError where
  | base
  | validation
  | notFound
  | conflict
  | inProgress
  | ownershipLost
  | terminal
  | attemptCap
  | stale
  | semanticGraderConfiguration
  | profileMismatch
  deriving DecidableEq, Repr

/-- The exceptions of `models/errors.py`. -/
inductive ModelError where
  | timeout
  | rateLimited
  | temporary
  | authConfig
  | invalidRequest
  | invalidStructuredOutput
  | refusal
  | unknown
  | invocationInProgress
  | attemptOwnershipLost
  deriving DecidableEq, Repr

/-- The exceptions of `tools/errors.py`. -/
inductive ToolError where
  | timeout
  | rateLimited
  | temporary
  | authConfig
  | invalidRequest
  | permissionDenied
  | ssrfBlocked
  | contentRejected
  | budgetExhausted
  | unknown
  | invocationInProgress
  | attemptOwnershipLost
  deriving DecidableEq, Repr

/-- The exceptions of `embeddings/errors.py`. -/
inductive EmbeddingError where
  | authConfig
  | timeout
  | rateLimited
  | invalidRequest
  | provider
  | conflict
  deriving DecidableEq, Repr

/-- An exception raised while a job is processed.  `other` is one of a class Atlas does not own,
or owns and does not tell apart here. -/
inductive Exc where
  | claimOwnership (operation : String)
  | policyDecisionConflict (message : String)
  | evidenceOwnership
  | evaluation (error : EvaluationError)
  | model (error : ModelError)
  | tool (error : ToolError)
  | embedding (error : EmbeddingError)
  | persistence (error : PersistenceError)
  | valueError (message : String)
  | runtimeError (message : String)
  | other (className : String) (isRuntimeError : Bool)
  deriving DecidableEq, Repr

namespace Exc

/-- `isinstance(exc, RuntimeError)`. -/
def isRuntimeError : Exc → Bool
  | runtimeError _ => true
  | other _ isRuntimeError => isRuntimeError
  | _ => false

/-- `isinstance(exc, EvaluationTerminalError)`; the attempt cap is a subclass of it. -/
def isEvaluationTerminal : Exc → Bool
  | evaluation .terminal | evaluation .attemptCap => true
  | _ => false

/-- `type(exc).__name__`. -/
def className : Exc → String
  | claimOwnership _ => "ClaimOwnershipError"
  | policyDecisionConflict _ => "PolicyDecisionConflictError"
  | evidenceOwnership => "EvidenceOwnershipError"
  | evaluation error => evaluationClassName error
  | model error => "Model" ++ modelClassName error ++ "Error"
  | tool error => "Tool" ++ toolClassName error ++ "Error"
  | embedding error => "Embedding" ++ embeddingClassName error ++ "Error"
  | persistence (.domain (.invalidResearchJob _)) => "InvalidResearchJobError"
  | persistence (.domain (.invalidTransition _ _)) => "InvalidTransitionError"
  | persistence (.integrity _) => "IntegrityError"
  | persistence (.researchJobAlreadyExists _) => "ResearchJobAlreadyExistsError"
  | persistence .idempotencyKeyConflict => "IdempotencyKeyConflictError"
  | valueError _ => "ValueError"
  | runtimeError _ => "RuntimeError"
  | other className _ => className
where
  evaluationClassName : EvaluationError → String
    | .base => "EvaluationError"
    | .validation => "EvaluationValidationError"
    | .notFound => "EvaluationNotFoundError"
    | .conflict => "EvaluationConflictError"
    | .inProgress => "EvaluationInProgressError"
    | .ownershipLost => "EvaluationOwnershipLostError"
    | .terminal => "EvaluationTerminalError"
    | .attemptCap => "EvaluationAttemptCapError"
    | .stale => "EvaluationStaleError"
    | .semanticGraderConfiguration => "SemanticGraderConfigurationError"
    | .profileMismatch => "EvaluationProfileMismatchError"
  modelClassName : ModelError → String
    | .timeout => "Timeout"
    | .rateLimited => "RateLimited"
    | .temporary => "Temporary"
    | .authConfig => "AuthConfig"
    | .invalidRequest => "InvalidRequest"
    | .invalidStructuredOutput => "InvalidStructuredOutput"
    | .refusal => "Refusal"
    | .unknown => "Unknown"
    | .invocationInProgress => "InvocationInProgress"
    | .attemptOwnershipLost => "AttemptOwnershipLost"
  toolClassName : ToolError → String
    | .timeout => "Timeout"
    | .rateLimited => "RateLimited"
    | .temporary => "Temporary"
    | .authConfig => "AuthConfig"
    | .invalidRequest => "InvalidRequest"
    | .permissionDenied => "PermissionDenied"
    | .ssrfBlocked => "SsrfBlocked"
    | .contentRejected => "ContentRejected"
    | .budgetExhausted => "BudgetExhausted"
    | .unknown => "Unknown"
    | .invocationInProgress => "InvocationInProgress"
    | .attemptOwnershipLost => "AttemptOwnershipLost"
  embeddingClassName : EmbeddingError → String
    | .authConfig => "AuthConfig"
    | .timeout => "Timeout"
    | .rateLimited => "RateLimited"
    | .invalidRequest => "InvalidRequest"
    | .provider => "Provider"
    | .conflict => "Conflict"

end Exc

/-! ### Categories and decisions -/

/-- Sanitized Atlas-owned failure categories. -/
inductive FailureCategory where
  | qualityCitationIntegrity
  | qualityStructure
  | qualityCoverage
  | qualityGroundedness
  | qualityCompleteness
  | qualityToolPolicy
  | transientTimeout
  | transientRateLimit
  | transientProvider
  | permanentValidation
  | permanentAuthConfig
  | permanentBudgetExhausted
  | repairableDraft
  | needsHumanReview
  | terminalUnknown
  deriving DecidableEq, Repr

/-- The stored text of a category, which is also its name. -/
def FailureCategory.value : FailureCategory → String
  | qualityCitationIntegrity => "QUALITY_CITATION_INTEGRITY"
  | qualityStructure => "QUALITY_STRUCTURE"
  | qualityCoverage => "QUALITY_COVERAGE"
  | qualityGroundedness => "QUALITY_GROUNDEDNESS"
  | qualityCompleteness => "QUALITY_COMPLETENESS"
  | qualityToolPolicy => "QUALITY_TOOL_POLICY"
  | transientTimeout => "TRANSIENT_TIMEOUT"
  | transientRateLimit => "TRANSIENT_RATE_LIMIT"
  | transientProvider => "TRANSIENT_PROVIDER"
  | permanentValidation => "PERMANENT_VALIDATION"
  | permanentAuthConfig => "PERMANENT_AUTH_CONFIG"
  | permanentBudgetExhausted => "PERMANENT_BUDGET_EXHAUSTED"
  | repairableDraft => "REPAIRABLE_DRAFT"
  | needsHumanReview => "NEEDS_HUMAN_REVIEW"
  | terminalUnknown => "TERMINAL_UNKNOWN"

inductive PolicyAction where
  | complete
  | repair
  | awaitReview
  | retry
  | terminal
  deriving DecidableEq, Repr

/-- The stored text of an action. -/
def PolicyAction.value : PolicyAction → String
  | complete => "complete"
  | repair => "repair"
  | awaitReview => "await_review"
  | retry => "retry"
  | terminal => "terminal"

/-- Deterministic recovery decision for one evaluation or exception. -/
structure PolicyDecision where
  action : PolicyAction
  failureCategory : FailureCategory
  reasonCode : String
  deriving DecidableEq, Repr

/-- Authoritative counters used by the policy engine. -/
structure AttemptCounts where
  repairCount : ℕ
  jobRetryCount : ℕ
  evaluationAttemptCount : ℕ
  deriving DecidableEq, Repr

def maxRepairs : ℕ := 1
def maxJobRetries : ℕ := 2
def maxEvaluationAttempts : ℕ := 4

/-- Settings of the backoff of job-level retries, in microseconds. -/
structure RetrySettings where
  base : Instant
  maxBackoff : Instant
  deriving DecidableEq, Repr

/-- The instant of the next attempt: `min(max_backoff, base * 2^(attempt_number - 1))` and the
sampled jitter after now. -/
def scheduleNextAttemptAt (settings : RetrySettings) (now : Instant) (attemptNumber : ℕ)
    (jitter : Instant) : Instant :=
  now + (min settings.maxBackoff (settings.base * 2 ^ (attemptNumber - 1)) + jitter)

/-! ### The policy of exceptions -/

def transientExceptionNames : List String :=
  ["ReadTimeout", "ConnectTimeout", "APITimeoutError", "RateLimitError",
    "ServiceUnavailableError", "InternalServerError", "APIConnectionError"]

def permanentExceptionNames : List String :=
  ["ValueError", "ValidationError", "RequestValidationError", "EvaluationValidationError",
    "ToolBudgetExhaustedError", "AuthenticationError", "PermissionError"]

/-- The fallback of `categorize_exception`: by the name of the class. -/
def categorizeByName (name : String) : FailureCategory :=
  if transientExceptionNames.contains name || Python.contains name "Timeout" ||
      Python.contains name "RateLimit" then
    if Python.contains name "RateLimit" then .transientRateLimit
    else if Python.contains name "Timeout" then .transientTimeout
    else .transientProvider
  else if permanentExceptionNames.contains name || Python.contains name "Budget" then
    if Python.contains name "Budget" then .permanentBudgetExhausted
    else if Python.contains name "Auth" || Python.contains name "Permission" then
      .permanentAuthConfig
    else .permanentValidation
  else .terminalUnknown

/-- Map an exception to a sanitized failure category. -/
def categorizeException : Exc → FailureCategory
  -- ownership and conflict: never retried
  | .claimOwnership _ | .policyDecisionConflict _ | .evidenceOwnership => .terminalUnknown
  | .evaluation .ownershipLost | .evaluation .conflict | .evaluation .inProgress
  | .evaluation .attemptCap | .evaluation .terminal | .evaluation .notFound
  | .evaluation .stale => .terminalUnknown
  | .model .invocationInProgress | .model .attemptOwnershipLost => .terminalUnknown
  | .tool .invocationInProgress | .tool .attemptOwnershipLost => .terminalUnknown
  | .embedding .conflict => .terminalUnknown
  | .model .timeout | .tool .timeout | .embedding .timeout => .transientTimeout
  | .model .rateLimited | .tool .rateLimited | .embedding .rateLimited => .transientRateLimit
  | .model .temporary | .tool .temporary | .embedding .provider => .transientProvider
  | .model .authConfig | .tool .authConfig | .embedding .authConfig
  | .tool .permissionDenied => .permanentAuthConfig
  | .tool .budgetExhausted => .permanentBudgetExhausted
  | .model .invalidRequest | .model .invalidStructuredOutput | .model .refusal
  | .evaluation .validation | .tool .invalidRequest | .tool .ssrfBlocked
  | .tool .contentRejected | .embedding .invalidRequest => .permanentValidation
  | .model .unknown | .tool .unknown => .terminalUnknown
  | exc => categorizeByName exc.className

/-- The exceptions whose terminal decision is reported as an ownership conflict. -/
def Exc.isOwnershipConflict : Exc → Bool
  | .claimOwnership _ | .policyDecisionConflict _ | .evidenceOwnership => true
  | .evaluation .ownershipLost | .evaluation .conflict | .evaluation .inProgress
  | .evaluation .attemptCap | .evaluation .terminal | .evaluation .notFound
  | .evaluation .stale => true
  | .model .invocationInProgress | .model .attemptOwnershipLost => true
  | .tool .invocationInProgress | .tool .attemptOwnershipLost => true
  | .embedding .conflict => true
  | _ => false

/-- Decide recovery action for a pre-complete processing exception. -/
def decideForException (exc : Exc) (counts : AttemptCounts) : PolicyDecision :=
  let category := categorizeException exc
  if category = .terminalUnknown then
    if exc.isOwnershipConflict then ⟨.terminal, category, "OWNERSHIP_CONFLICT"⟩
    else ⟨.terminal, category, "UNCLASSIFIED_TERMINAL"⟩
  else if Python.startsWith category.value "TRANSIENT_" && counts.jobRetryCount < maxJobRetries then
    ⟨.retry, category, "TRANSIENT_RETRY"⟩
  else if Python.startsWith category.value "TRANSIENT_" then ⟨.terminal, category, "RETRY_CAP"⟩
  else if Python.startsWith category.value "PERMANENT_" then
    ⟨.terminal, category, "PERMANENT_FAIL"⟩
  else ⟨.terminal, category, "UNCLASSIFIED_TERMINAL"⟩

/-- **An exception is retried below the retry cap, or is terminal.** -/
theorem decideForException_action (exc : Exc) (counts : AttemptCounts) :
    ((decideForException exc counts).action = .retry ∧ counts.jobRetryCount < maxJobRetries) ∨
      (decideForException exc counts).action = .terminal := by
  unfold decideForException
  dsimp only
  split
  · split <;> exact .inr rfl
  · split
    · rename_i h
      simp only [Bool.and_eq_true, decide_eq_true_eq] at h
      exact .inl ⟨rfl, h.2⟩
    · split
      · exact .inr rfl
      · split <;> exact .inr rfl

/-! ### The policy of evaluations -/

/-- The dimensions a candidate report is graded on. -/
inductive DimensionName where
  | citationIntegrity
  | toolUse
  | reportStructure
  | coverage
  | completeness
  | lexicalIdGroundedness
  | semanticGroundedness
  deriving DecidableEq, Repr

inductive GraderMethod where
  | deterministic
  | llm
  | skipped
  deriving DecidableEq, Repr

/-- One graded dimension, with what the policy reads of it. -/
structure DimensionResult where
  name : DimensionName
  passed : Bool
  method : GraderMethod
  deriving DecidableEq, Repr

/-- `_HARD_NAME_TO_CATEGORY`, defined on `HARD_DIMENSIONS`. -/
def DimensionName.hardCategory : DimensionName → Option FailureCategory
  | citationIntegrity => some .qualityCitationIntegrity
  | toolUse => some .qualityToolPolicy
  | reportStructure => some .qualityStructure
  | _ => none

/-- `_SOFT_NAME_TO_CATEGORY`. -/
def DimensionName.softCategory : DimensionName → Option FailureCategory
  | coverage => some .qualityCoverage
  | completeness => some .qualityCompleteness
  | lexicalIdGroundedness => some .qualityGroundedness
  | semanticGroundedness => some .qualityGroundedness
  | _ => none

/-- Derive a primary failure category from failed dimension results: the first hard one in the
order of the list, or else any soft one. -/
def categorizeEvaluationFailure (dimensions : List DimensionResult) : FailureCategory :=
  let failed := dimensions.filter fun item => !item.passed && item.method != .skipped
  match failed.findSome? (·.name.hardCategory) with
  | some category => category
  | none =>
      if failed.any (·.name.softCategory.isSome) then .repairableDraft else .needsHumanReview

/-- Decide recovery action for a succeeded evaluation run. -/
def decideForEvaluation (passed : Bool) (dimensions : List DimensionResult)
    (counts : AttemptCounts) : PolicyDecision :=
  if passed then ⟨.complete, .needsHumanReview, "EVALUATION_PASSED"⟩
  else if counts.evaluationAttemptCount ≥ maxEvaluationAttempts then
    ⟨.terminal, .terminalUnknown, "EVALUATION_ATTEMPT_CAP"⟩
  else
    let category := categorizeEvaluationFailure dimensions
    if category = .qualityCitationIntegrity ∨ category = .qualityToolPolicy then
      ⟨.terminal, category, "HARD_QUALITY_FAIL"⟩
    else if category = .qualityStructure then
      if counts.repairCount < maxRepairs then ⟨.repair, category, "STRUCTURE_REPAIR"⟩
      else ⟨.terminal, category, "STRUCTURE_REPAIR_EXHAUSTED"⟩
    else if category = .repairableDraft then
      if counts.repairCount < maxRepairs then ⟨.repair, category, "SOFT_QUALITY_REPAIR"⟩
      else ⟨.awaitReview, .needsHumanReview, "REPAIR_EXHAUSTED"⟩
    else ⟨.awaitReview, .needsHumanReview, "AMBIGUOUS_QUALITY"⟩

/-- A repair is decided only below the repair cap. -/
theorem decideForEvaluation_repair {passed : Bool} {dimensions : List DimensionResult}
    {counts : AttemptCounts} (h : (decideForEvaluation passed dimensions counts).action = .repair) :
    counts.repairCount < maxRepairs := by
  by_contra hcap
  unfold decideForEvaluation at h
  simp only [hcap, if_false] at h
  split_ifs at h

/-- The policy of an evaluation never decides a retry. -/
theorem decideForEvaluation_ne_retry (passed : Bool) (dimensions : List DimensionResult)
    (counts : AttemptCounts) : (decideForEvaluation passed dimensions counts).action ≠ .retry := by
  unfold decideForEvaluation
  dsimp only
  split_ifs <;> simp

/-! ### The fingerprint of a decision -/

/-- What the fingerprint of a decision is computed from. -/
structure PolicyFingerprintInput where
  researchJobId : String
  workflowExecutionId : Option String
  evaluationRunId : Option String
  decision : PolicyAction
  failureCategory : FailureCategory
  reasonCode : String
  counts : AttemptCounts
  deriving DecidableEq, Repr

/-- A nullable string as `json.dumps` writes it. -/
def jsonNullable : Option String → String
  | none => "null"
  | some s => Python.jsonString s

/-- `json.dumps(…, sort_keys=True, separators=(",", ":"))` of the inputs of a decision. -/
def PolicyFingerprintInput.canonical (input : PolicyFingerprintInput) : String :=
  "\x7b\"decision\":" ++ Python.jsonString input.decision.value ++
    ",\"evaluation_attempt_count\":" ++ toString input.counts.evaluationAttemptCount ++
    ",\"evaluation_run_id\":" ++ jsonNullable input.evaluationRunId ++
    ",\"failure_category\":" ++ Python.jsonString input.failureCategory.value ++
    ",\"job_retry_count\":" ++ toString input.counts.jobRetryCount ++
    ",\"reason_code\":" ++ Python.jsonString input.reasonCode ++
    ",\"repair_count\":" ++ toString input.counts.repairCount ++
    ",\"research_job_id\":" ++ Python.jsonString input.researchJobId ++
    ",\"workflow_execution_id\":" ++ jsonNullable input.workflowExecutionId ++ "\x7d"

/-- Compute a SHA-256 hex digest for a policy decision's canonical inputs. -/
def fingerprintPolicyDecision (sha256 : String → String) (input : PolicyFingerprintInput) :
    String :=
  sha256 input.canonical

end Atlas
