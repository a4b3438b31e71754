/-
**The contracts of advisory signals.**

A signal is a record of a closed type: the contract of the type names its fields, says what each may
hold and which may be absent, and may relate them.  A record that breaks its contract cannot be
built.  Signals are put in order by a key of texts, one for each field that is there; the key says
all there is to a signal, so that signals in order are the same list whatever order they came in.

Main definitions:

* `Atlas.FieldCheck`, `Atlas.Contract`, `Atlas.contract` — the contracts;
* `Atlas.AdvisorySignal` — a signal that keeps its contract;
* `Atlas.SignalData.sortKey` — the key signals are ordered by.

Main results:

* `Atlas.sortKey_injective` — **signals with one key are one signal**;
* `Atlas.sortSignals_eq_of_perm` — the order of signals does not depend on where they stood.
-/

import Atlas.PythonJson
import Mathlib.Data.List.Lex
import Mathlib.Data.List.Sort

set_option relaxedAutoImplicit false
set_option autoImplicit false

namespace Atlas

open Python

/-! ### Catalogs -/

def jobStatuses : List String := ["PENDING", "RUNNING", "AWAITING_REVIEW", "COMPLETED", "FAILED"]

def continuationModes : List String := ["NONE", "JOB_RETRY", "REVIEW_COMPLETE"]

def workflowNodeNames : List String :=
  ["validate", "plan", "research", "draft", "verify_citations", "evaluate", "policy", "repair",
    "await_review", "complete", "terminal"]

def workflowNodeStatuses : List String := ["STARTED", "COMPLETED", "FAILED"]

def modelNodeNames : List String := ["plan", "draft", "evaluate"]

def modelProviders : List String := ["fake", "openai", "anthropic"]

def invocationStatuses : List String := ["IN_PROGRESS", "SUCCEEDED", "FAILED"]

def retryClasses : List String :=
  ["timeout", "rate_limited", "temporary", "auth_config", "invalid_request",
    "invalid_structured_output", "refusal", "unknown", "none"]

def toolIds : List String := ["web_search", "fetch_url"]

def toolProviders : List String := ["fake", "tavily", "httpx"]

def toolRetryClasses : List String :=
  ["timeout", "rate_limited", "temporary", "auth_config", "invalid_request", "permission_denied",
    "ssrf_blocked", "content_rejected", "budget_exhausted", "unknown", "none"]

def evaluationProfiles : List String :=
  ["evaluation.v1", "evaluation.candidate.v1", "evaluation.candidate.fake.v1"]

def evaluationRunStatuses : List String := ["IN_PROGRESS", "SUCCEEDED", "FAILED"]

def dispositionHints : List String := ["complete", "terminal", "repair", "await_review", "retry"]

def graderMethods : List String := ["deterministic", "llm", "skipped"]

def dimensionNames : List String :=
  ["citation_integrity", "tool_use", "report_structure", "coverage", "completeness",
    "lexical_id_groundedness", "semantic_groundedness"]

def recoveryDecisions : List String := ["complete", "repair", "await_review", "retry", "terminal"]

def failureCategories : List String :=
  ["QUALITY_CITATION_INTEGRITY", "QUALITY_STRUCTURE", "QUALITY_COVERAGE", "QUALITY_GROUNDEDNESS",
    "QUALITY_COMPLETENESS", "QUALITY_TOOL_POLICY", "TRANSIENT_TIMEOUT", "TRANSIENT_RATE_LIMIT",
    "TRANSIENT_PROVIDER", "PERMANENT_VALIDATION", "PERMANENT_AUTH_CONFIG",
    "PERMANENT_BUDGET_EXHAUSTED", "REPAIRABLE_DRAFT", "NEEDS_HUMAN_REVIEW", "TERMINAL_UNKNOWN"]

def advisoryReasonCodes : List String :=
  ["EVALUATION_PASSED", "EVALUATION_ATTEMPT_CAP", "HARD_QUALITY_FAIL", "STRUCTURE_REPAIR",
    "STRUCTURE_REPAIR_EXHAUSTED", "SOFT_QUALITY_REPAIR", "REPAIR_EXHAUSTED", "AMBIGUOUS_QUALITY",
    "OWNERSHIP_CONFLICT", "UNCLASSIFIED_TERMINAL", "TRANSIENT_RETRY", "RETRY_CAP",
    "PERMANENT_FAIL"]

def reviewDecisionNames : List String := ["approve", "reject"]

def advisoryEventTypes : List String :=
  ["research_job.created", "research_job.completed", "research_job.failed",
    "research_job.awaiting_review", "research_job.retry_scheduled"]

def consumerFailureCodes : List String :=
  ["missing_headers", "unexpected_headers_shape", "unexpected_header_key_type",
    "duplicate_header_key", "null_header_value", "undecodable_header_value",
    "unexpected_header_value_type", "unexpected_header_keys", "event_type_header_mismatch",
    "event_version_header_mismatch", "aggregate_type_header_mismatch", "missing_value",
    "value_too_large", "undecodable_value", "invalid_json", "value_not_an_object",
    "schema_validation_failed", "lifecycle_order_violation"]

def replayStates : List String :=
  ["PENDING", "REPLAYING", "REPLAY_FAILED", "REPLAYED_APPLIED", "REPLAYED_DUPLICATE"]

def alertNames : List String :=
  ["AtlasHighHttpErrorRatio", "AtlasWorkerHeartbeatStale", "AtlasOutboxBacklogGrowing",
    "AtlasScrapeTargetDown"]

def advisoryFailureCodes : List String :=
  ["CITATION_PROVENANCE_INCOMPLETE", "CITATION_EMPTY_CLAIM", "CITATION_UNLINKED", "TOOL_REQUIRED",
    "TOOL_UNKNOWN_ORIGIN", "TOOL_NODE_VIOLATION", "TOOL_BUDGET_EXCEEDED", "STRUCTURE_EMPTY_DRAFT",
    "STRUCTURE_MISSING_SECTION", "STRUCTURE_EMPTY_PLAN", "COVERAGE_FACET_MISSING",
    "COVERAGE_BELOW_MIN", "COMPLETENESS_FACET_MISSING", "GROUNDEDNESS_ID_OUTSIDE_LINKS",
    "SEMANTIC_UNSUPPORTED", "SEMANTIC_UNCLEAR", "SEMANTIC_GROUNDEDNESS_WEAK"]

def advisoryErrorClasses : List String :=
  ["ModelTimeoutError", "ModelRateLimitedError", "ModelTemporaryError", "ModelAuthConfigError",
    "ModelInvalidRequestError", "ModelInvalidStructuredOutputError", "ModelRefusalError",
    "ModelUnknownError", "ModelInvocationInProgressError", "ModelAttemptOwnershipLostError",
    "ModelInvocationStaleError", "ToolTimeoutError", "ToolRateLimitedError", "ToolTemporaryError",
    "ToolAuthConfigError", "ToolInvalidRequestError", "ToolPermissionDeniedError",
    "ToolSsrfBlockedError", "ToolContentRejectedError", "ToolBudgetExhaustedError",
    "ToolUnknownError", "ToolInvocationInProgressError", "ToolAttemptOwnershipLostError",
    "ToolInvocationStaleError", "EvaluationValidationError", "EvaluationNotFoundError",
    "EvaluationConflictError", "EvaluationInProgressError", "EvaluationOwnershipLostError",
    "EvaluationTerminalError", "EvaluationAttemptCapError", "EvaluationStaleError",
    "EvaluationUnexpectedError", "EvaluationProfileMismatchError",
    "SemanticGraderConfigurationError", "PublishError", "EarlierEventPublishFailure",
    "EarlierEventOwnershipLost", "KafkaPublishError", "KafkaPublishTimeoutError",
    "KafkaFatalProducerError", "KafkaProducerConfigurationError", "EventPublishError",
    "FatalEventPublishError", "RelayOwnershipError", "RelayNotOwnerError"]

/-! ### Contracts -/

/-- The floats: which lie between 0.0 and 1.0, and the text `repr` gives, which is read back as the
same float. -/
structure PyFloat (F : Type) where
  inUnit : F → Bool
  repr : F → String
  repr_injective : Function.Injective repr

inductive FieldValue (F : Type) where
  | str (s : String)
  | int (n : ℤ)
  | bool (b : Bool)
  | float (x : F)
  | codes (codes : List String)
  deriving DecidableEq

inductive FieldKind where
  | str
  | int
  | bool
  | float
  | codes
  deriving DecidableEq, Repr

/-- What a field may hold. -/
inductive FieldCheck where
  /-- One of the texts of a `Literal`. -/
  | literal (allowed : List String)
  /-- A text of 1 to 128 characters that a validator finds in a catalog. -/
  | closed (allowed : List String)
  /-- At least so much, and at most a million. -/
  | count (least : ℤ)
  | flag
  | unitFloat
  /-- At most so many texts of a catalog. -/
  | codes (allowed : List String) (most : ℕ)
  deriving DecidableEq, Repr

namespace FieldCheck

variable {F : Type}

def kind : FieldCheck → FieldKind
  | literal _ | closed _ => .str
  | count _ => .int
  | flag => .bool
  | unitFloat => .float
  | codes _ _ => .codes

def accepts (py : PyFloat F) : FieldCheck → FieldValue F → Bool
  | literal allowed, .str s => s ∈ allowed
  | closed allowed, .str s => 1 ≤ s.length ∧ s.length ≤ 128 ∧ s ∈ allowed
  | count least, .int n => least ≤ n ∧ n ≤ 1000000
  | flag, .bool _ => true
  | unitFloat, .float x => py.inUnit x
  | codes allowed most, .codes cs => cs.length ≤ most ∧ ∀ c ∈ cs, c ∈ allowed
  | _, _ => false

end FieldCheck

structure ContractField where
  name : String
  check : FieldCheck
  required : Bool := true
  deriving DecidableEq, Repr

def ContractField.accepts {F : Type} (py : PyFloat F) (field : ContractField) :
    Option (FieldValue F) → Bool
  | none => !field.required
  | some value => field.check.accepts py value

/-- The fields of a type, and what a validator of the whole record asks. -/
structure Contract (F : Type) where
  fields : List ContractField
  validator : List (Option (FieldValue F)) → Bool := fun _ => true

/-- `signal_type`. -/
inductive SignalType where
  | jobStatus
  | jobEvaluationProfile
  | jobContinuationMode
  | jobRepairCount
  | jobRetryCount
  | jobEvaluationAttemptCount
  | workflowNodeOutcome
  | modelOutcomeCount
  | toolOutcomeCount
  | evaluationRun
  | evaluationDimension
  | recoveryDecision
  | reviewDecisionCount
  | outboxSummary
  | consumerProjection
  | consumerDeadLetter
  | alertName
  deriving DecidableEq, Repr

def SignalType.value : SignalType → String
  | jobStatus => "job.status"
  | jobEvaluationProfile => "job.evaluation_profile"
  | jobContinuationMode => "job.continuation_mode"
  | jobRepairCount => "job.repair_count"
  | jobRetryCount => "job.job_retry_count"
  | jobEvaluationAttemptCount => "job.evaluation_attempt_count"
  | workflowNodeOutcome => "workflow_node.outcome"
  | modelOutcomeCount => "model.outcome_count"
  | toolOutcomeCount => "tool.outcome_count"
  | evaluationRun => "evaluation.run"
  | evaluationDimension => "evaluation.dimension"
  | recoveryDecision => "recovery.decision"
  | reviewDecisionCount => "review.decision_count"
  | outboxSummary => "outbox.summary"
  | consumerProjection => "consumer.projection"
  | consumerDeadLetter => "consumer.dead_letter"
  | alertName => "alert.name"

def maxFailureCodesPerDimension : ℕ := 8

/-- The fields of each type, in alphabetical order. -/
def contractFields : SignalType → List ContractField
  | .jobStatus => [⟨"status", .literal jobStatuses, true⟩]
  | .jobEvaluationProfile => [⟨"profile", .literal evaluationProfiles, true⟩]
  | .jobContinuationMode => [⟨"mode", .literal continuationModes, true⟩]
  | .jobRepairCount | .jobRetryCount | .jobEvaluationAttemptCount => [⟨"count", .count 0, true⟩]
  | .workflowNodeOutcome =>
      [⟨"attempt", .count 1, true⟩, ⟨"error_class", .closed advisoryErrorClasses, false⟩,
        ⟨"node_name", .literal workflowNodeNames, true⟩,
        ⟨"status", .literal workflowNodeStatuses, true⟩]
  | .modelOutcomeCount =>
      [⟨"count", .count 1, true⟩, ⟨"error_class", .closed advisoryErrorClasses, false⟩,
        ⟨"node_name", .literal modelNodeNames, true⟩, ⟨"provider", .literal modelProviders, true⟩,
        ⟨"retry_class", .literal retryClasses, false⟩,
        ⟨"status", .literal invocationStatuses, true⟩]
  | .toolOutcomeCount =>
      [⟨"count", .count 1, true⟩, ⟨"provider", .literal toolProviders, true⟩,
        ⟨"retry_class", .literal toolRetryClasses, false⟩,
        ⟨"status", .literal invocationStatuses, true⟩, ⟨"tool_id", .literal toolIds, true⟩]
  | .evaluationRun =>
      [⟨"aggregate_score", .unitFloat, false⟩,
        ⟨"disposition_hint", .literal dispositionHints, false⟩, ⟨"passed", .flag, false⟩,
        ⟨"profile", .literal evaluationProfiles, true⟩,
        ⟨"status", .literal evaluationRunStatuses, true⟩]
  | .evaluationDimension =>
      [⟨"failure_codes", .codes advisoryFailureCodes maxFailureCodesPerDimension, true⟩,
        ⟨"method", .literal graderMethods, true⟩, ⟨"name", .literal dimensionNames, true⟩,
        ⟨"passed", .flag, true⟩, ⟨"score", .unitFloat, true⟩]
  | .recoveryDecision =>
      [⟨"attempt_number", .count 1, false⟩, ⟨"decision", .literal recoveryDecisions, true⟩,
        ⟨"failure_category", .literal failureCategories, true⟩,
        ⟨"reason_code", .literal advisoryReasonCodes, true⟩]
  | .reviewDecisionCount =>
      [⟨"count", .count 1, true⟩, ⟨"decision", .literal reviewDecisionNames, true⟩]
  | .outboxSummary =>
      [⟨"event_type", .literal advisoryEventTypes, true⟩,
        ⟨"last_publish_error_class", .closed advisoryErrorClasses, false⟩,
        ⟨"max_publish_attempts", .count 0, true⟩, ⟨"published_count", .count 0, true⟩,
        ⟨"unpublished_count", .count 0, true⟩]
  | .consumerProjection => [⟨"last_event_type", .literal advisoryEventTypes, true⟩]
  | .consumerDeadLetter =>
      [⟨"count", .count 1, true⟩, ⟨"failure_code", .literal consumerFailureCodes, true⟩,
        ⟨"replay_eligible", .flag, true⟩, ⟨"replay_state", .literal replayStates, true⟩]
  | .alertName => [⟨"alert_name", .literal alertNames, true⟩]

/-- `require_succeeded_fields`. -/
def requireSucceededFields {F : Type} : List (Option (FieldValue F)) → Bool
  | [aggregateScore, _, passed, _, some (.str status)] =>
      status ≠ "SUCCEEDED" || (passed.isSome && aggregateScore.isSome)
  | _ => false

/-- `attempt_number_matches_decision`. -/
def attemptNumberMatchesDecision {F : Type} : List (Option (FieldValue F)) → Bool
  | [attemptNumber, some (.str decision), _, _] =>
      if decision = "retry" then attemptNumber.isSome else attemptNumber.isNone
  | _ => false

def contract {F : Type} (signalType : SignalType) : Contract F where
  fields := contractFields signalType
  validator :=
    match signalType with
    | .evaluationRun => requireSucceededFields
    | .recoveryDecision => attemptNumberMatchesDecision
    | _ => fun _ => true

/-! ### Signals -/

/-- A record of a type, which may break its contract. -/
structure SignalData (F : Type) where
  signalType : SignalType
  /-- The values of the fields of the contract, in its order. -/
  values : List (Option (FieldValue F))
  deriving DecidableEq

namespace SignalData

variable {F : Type}

def fields (s : SignalData F) : List ContractField := contractFields s.signalType

/-- The record keeps its contract. -/
def Accepted (py : PyFloat F) (s : SignalData F) : Prop :=
  s.values.length = s.fields.length ∧
    (∀ p ∈ s.fields.zip s.values, p.1.accepts py p.2 = true) ∧
      (contract s.signalType).validator s.values = true

instance (py : PyFloat F) (s : SignalData F) : Decidable (s.Accepted py) :=
  inferInstanceAs (Decidable (_ ∧ _ ∧ _))

/-- The fields that are there. -/
def present (s : SignalData F) : List (String × FieldValue F) :=
  (s.fields.zip s.values).filterMap fun p => p.2.map fun value => (p.1.name, value)

/-- `model_dump(mode="json", exclude_none=True)`, without the id. -/
def dump (s : SignalData F) : List (String × FieldValue F) :=
  ("signal_type", .str s.signalType.value) :: s.present

end SignalData

/-- A signal: a record that keeps its contract. -/
structure AdvisorySignal {F : Type} (py : PyFloat F) extends SignalData F where
  accepted : toSignalData.Accepted py

/-! ### Texts of values -/

/-- `str` of a list of texts that need no escapes. -/
def listText (codes : List String) : String :=
  "[" ++ String.intercalate ", " (codes.map fun c => "'" ++ c ++ "'") ++ "]"

namespace FieldValue

variable {F : Type}

def kind : FieldValue F → FieldKind
  | str _ => .str
  | int _ => .int
  | bool _ => .bool
  | float _ => .float
  | codes _ => .codes

/-- `str` of a value. -/
def text (py : PyFloat F) : FieldValue F → String
  | str s => s
  | int n => String.ofList (Json.printInt n)
  | bool b => if b then "True" else "False"
  | float x => py.repr x
  | codes cs => listText cs

def toJson (py : PyFloat F) : FieldValue F → Json
  | str s => .str s
  | int n => .int n
  | bool b => .bool b
  | float x => .float (py.repr x)
  | codes cs => .arr (cs.map .str)

end FieldValue

/-- `f"{key}={dumped[key]}"`. -/
def fieldText {F : Type} (py : PyFloat F) (p : String × FieldValue F) : String :=
  p.1 ++ "=" ++ p.2.text py

/-- `_signal_sort_key`. -/
def SignalData.sortKey {F : Type} (py : PyFloat F) (s : SignalData F) : List String :=
  (s.dump.insertionSort fun p q => p.1 ≤ q.1).map (fieldText py)

/-- `pending.sort(key=_signal_sort_key)`. -/
def sortSignals {F : Type} {py : PyFloat F} (signals : List (AdvisorySignal py)) :
    List (AdvisorySignal py) :=
  signals.insertionSort fun s t => s.sortKey py ≤ t.sortKey py

/-! ### A text says what the value is -/

/-- The text of a list from the end of its first item on. -/
def listTail : List String → List Char
  | [] => [']']
  | c :: rest => ',' :: ' ' :: '\'' :: (c.toList ++ '\'' :: listTail rest)

theorem toList_listText_cons (c : String) (rest : List String) :
    (listText (c :: rest)).toList = '[' :: '\'' :: (c.toList ++ '\'' :: listTail rest) := by
  have htail : ∀ (start : String) (rest : List String),
      (String.intercalate ", " (start :: rest.map fun c => "'" ++ c ++ "'") ++ "]").toList =
        start.toList ++ listTail rest := by
    intro start rest
    induction rest generalizing start with
    | nil => simp [listTail]
    | cons d rest ih =>
        have hcons := ih ("'" ++ d ++ "'")
        rw [List.map_cons, String.intercalate_cons_cons]
        simp only [String.toList_append] at hcons ⊢
        rw [List.append_assoc, List.append_assoc, hcons]
        simp [listTail]
  have h := htail ("'" ++ c ++ "'") rest
  rw [listText, String.append_assoc, String.toList_append, List.map_cons, h]
  simp

/-- A mark that neither start has stands at one place. -/
theorem append_mark_inj {α : Type} {a : α} {x y z w : List α} (hx : a ∉ x) (hy : a ∉ y)
    (h : x ++ a :: z = y ++ a :: w) : x = y ∧ z = w := by
  induction x generalizing y with
  | nil =>
      cases y with
      | nil => simpa using h
      | cons b y =>
          obtain ⟨rfl, -⟩ := List.cons.inj h
          exact absurd List.mem_cons_self hy
  | cons b x ih =>
      cases y with
      | nil =>
          obtain ⟨rfl, -⟩ := List.cons.inj h
          exact absurd List.mem_cons_self hx
      | cons b' y =>
          obtain ⟨rfl, hrest⟩ := List.cons.inj h
          obtain ⟨rfl, rfl⟩ := ih (fun h => hx (List.mem_cons_of_mem _ h))
            (fun h => hy (List.mem_cons_of_mem _ h)) hrest
          exact ⟨rfl, rfl⟩

theorem printInt_injective : Function.Injective Json.printInt := by
  have hdigits : ∀ m n : ℕ, Nat.toDigits 10 m = Nat.toDigits 10 n → m = n := by
    intro m n h
    rw [← Nat.ofDigitChars_ten_toDigits (n := m), h, Nat.ofDigitChars_ten_toDigits]
  have hminus : ∀ n : ℕ, ∀ text, Nat.toDigits 10 n ≠ '-' :: text := by
    intro n text h
    have hdigit := Nat.isDigit_of_mem_toDigits (by decide) (by decide)
      (show '-' ∈ Nat.toDigits 10 n by rw [h]; exact List.mem_cons_self)
    exact absurd hdigit (by decide)
  intro m n h
  cases m with
  | ofNat m =>
      cases n with
      | ofNat n => rw [hdigits m n h]
      | negSucc n => exact absurd h (hminus m _)
  | negSucc m =>
      cases n with
      | ofNat n => exact absurd h.symm (hminus n _)
      | negSucc n =>
          have hsame := hdigits _ _ (List.cons.inj h).2
          rw [Nat.succ.inj hsame]

theorem listTail_injective {codes codes' : List String} (h : ∀ c ∈ codes, '\'' ∉ c.toList)
    (h' : ∀ c ∈ codes', '\'' ∉ c.toList) (heq : listTail codes = listTail codes') :
    codes = codes' := by
  induction codes generalizing codes' with
  | nil =>
      cases codes' with
      | nil => rfl
      | cons c rest => simp [listTail] at heq
  | cons c rest ih =>
      cases codes' with
      | nil => simp [listTail] at heq
      | cons d rest' =>
          simp only [listTail, List.cons.injEq, true_and] at heq
          obtain ⟨hc, hrest⟩ := append_mark_inj (h c List.mem_cons_self)
            (h' d List.mem_cons_self) heq
          rw [String.toList_inj.1 hc, ih (fun c hc => h c (List.mem_cons_of_mem _ hc))
            (fun c hc => h' c (List.mem_cons_of_mem _ hc)) hrest]

/-- Lists of texts without quotes have texts of their own. -/
theorem listText_injective {codes codes' : List String} (h : ∀ c ∈ codes, '\'' ∉ c.toList)
    (h' : ∀ c ∈ codes', '\'' ∉ c.toList) (heq : listText codes = listText codes') :
    codes = codes' := by
  have hnil : ∀ c rest, listText [] ≠ listText (c :: rest) := by
    intro c rest hsame
    have hlist := congrArg String.toList hsame
    rw [toList_listText_cons] at hlist
    simp [listText] at hlist
  cases codes with
  | nil =>
      cases codes' with
      | nil => rfl
      | cons c rest => exact absurd heq (hnil c rest)
  | cons c rest =>
      cases codes' with
      | nil => exact absurd heq.symm (hnil c rest)
      | cons d rest' =>
          have hlist := congrArg String.toList heq
          rw [toList_listText_cons, toList_listText_cons] at hlist
          simp only [List.cons.injEq, true_and] at hlist
          obtain ⟨hc, hrest⟩ := append_mark_inj (h c List.mem_cons_self)
            (h' d List.mem_cons_self) hlist
          rw [String.toList_inj.1 hc,
            listTail_injective (fun c hc => h c (List.mem_cons_of_mem _ hc))
              (fun c hc => h' c (List.mem_cons_of_mem _ hc)) hrest]

/-- The kind of value a field has, whatever the signal. -/
def kindOf (name : String) : FieldKind :=
  if name ∈ ["attempt", "attempt_number", "count", "max_publish_attempts", "published_count",
      "unpublished_count"] then .int
  else if name ∈ ["passed", "replay_eligible"] then .bool
  else if name ∈ ["aggregate_score", "score"] then .float
  else if name = "failure_codes" then .codes
  else .str

theorem kind_contractFields (signalType : SignalType) :
    ∀ field ∈ contractFields signalType, kindOf field.name = field.check.kind := by
  cases signalType <;> decide

/-- The value has the kind of its field, and the name and the codes have no characters that the
text is built with. -/
structure Typed {F : Type} (p : String × FieldValue F) : Prop where
  kind : p.2.kind = kindOf p.1
  name : '=' ∉ p.1.toList
  codes : ∀ cs, p.2 = .codes cs → ∀ c ∈ cs, '\'' ∉ c.toList

/-- **A field's text says what the field is.** -/
theorem fieldText_injective {F : Type} {py : PyFloat F} {p q : String × FieldValue F}
    (hp : Typed p) (hq : Typed q) (h : fieldText py p = fieldText py q) : p = q := by
  obtain ⟨name, value⟩ := p
  obtain ⟨name', value'⟩ := q
  have hlist : name.toList ++ '=' :: (value.text py).toList =
      name'.toList ++ '=' :: (value'.text py).toList := by
    have hsame := congrArg String.toList h
    simpa [fieldText, List.append_assoc] using hsame
  obtain ⟨hname, hvalue⟩ := append_mark_inj hp.name hq.name hlist
  obtain rfl : name = name' := String.toList_inj.1 hname
  have htext : value.text py = value'.text py := String.toList_inj.1 hvalue
  have hkind : value.kind = value'.kind := hp.kind.trans hq.kind.symm
  congr 1
  cases value <;> cases value' <;> cases hkind
  · exact congrArg FieldValue.str htext
  · exact congrArg FieldValue.int (printInt_injective (String.ofList_inj.1 htext))
  · rename_i b b'
    have hne : "True" ≠ "False" := by decide
    cases b <;> cases b' <;> first | rfl | exact absurd htext hne | exact absurd htext hne.symm
  · exact congrArg FieldValue.float (py.repr_injective htext)
  · rename_i cs cs'
    exact congrArg FieldValue.codes
      (listText_injective (hp.codes cs rfl) (hq.codes cs' rfl) htext)

/-! ### A key says what the signal is -/

/-- The catalog of the codes has no quotes. -/
def FieldCheck.quoteFree : FieldCheck → Bool
  | .codes allowed _ => allowed.all fun c => '\'' ∉ c.toList
  | _ => true

theorem quoteFree_contractFields (signalType : SignalType) :
    ∀ field ∈ contractFields signalType, field.check.quoteFree = true := by
  cases signalType <;> decide

theorem names_contractFields (signalType : SignalType) :
    (∀ field ∈ contractFields signalType, '=' ∉ field.name.toList ∧ field.name ≠ "signal_type") ∧
      ((contractFields signalType).map ContractField.name).Nodup := by
  cases signalType <;> decide

theorem SignalType.value_injective : Function.Injective SignalType.value := by
  intro a b h
  cases a <;> cases b <;> first | rfl | exact absurd h (by decide)

namespace FieldCheck

variable {F : Type} {py : PyFloat F} {check : FieldCheck} {value : FieldValue F}

theorem kind_of_accepts (h : check.accepts py value = true) : value.kind = check.kind := by
  cases check <;> cases value <;> first | rfl | cases h

theorem codes_of_accepts {cs : List String} (h : check.accepts py (.codes cs : FieldValue F) = true)
    (hplain : check.quoteFree = true) : ∀ c ∈ cs, '\'' ∉ c.toList := by
  cases check with
  | codes allowed most =>
      intro c hc
      have hmem : c ∈ allowed := (of_decide_eq_true h).2 c hc
      exact of_decide_eq_true (List.all_eq_true.1 hplain c hmem)
  | _ => cases h

end FieldCheck

section Key

variable {F : Type} {py : PyFloat F}

theorem mem_present {s : SignalData F} {name : String} {value : FieldValue F} :
    (name, value) ∈ s.present ↔
      ∃ field, (field, some value) ∈ s.fields.zip s.values ∧ field.name = name := by
  rw [SignalData.present, List.mem_filterMap]
  constructor
  · rintro ⟨⟨field, v⟩, hmem, hmap⟩
    cases v with
    | none => cases hmap
    | some v =>
        obtain ⟨rfl, rfl⟩ := Prod.mk.inj (Option.some.inj hmap)
        exact ⟨field, hmem, rfl⟩
  · rintro ⟨field, hmem, rfl⟩
    exact ⟨(field, some value), hmem, rfl⟩

/-- Every field of a signal is of its kind. -/
theorem AdvisorySignal.typed_dump (s : AdvisorySignal py) : ∀ p ∈ s.dump, Typed p := by
  intro p hp
  rcases List.mem_cons.1 hp with rfl | hp
  · have hname : '=' ∉ "signal_type".toList := by decide
    refine ⟨rfl, hname, ?_⟩
    intro cs h
    cases h
  · obtain ⟨name, value⟩ := p
    obtain ⟨field, hmem, rfl⟩ := mem_present.1 hp
    have hfield : field ∈ contractFields s.signalType := (List.of_mem_zip hmem).1
    have haccepts : field.check.accepts py value = true := s.accepted.2.1 _ hmem
    refine ⟨?_, ((names_contractFields s.signalType).1 field hfield).1, ?_⟩
    · rw [FieldCheck.kind_of_accepts haccepts, kind_contractFields s.signalType field hfield]
    · rintro cs rfl
      exact FieldCheck.codes_of_accepts haccepts (quoteFree_contractFields s.signalType field hfield)

/-- Fields of different names have values of their own. -/
theorem value_of_zip {fields : List ContractField} {values : List (Option (FieldValue F))}
    (hnodup : (fields.map ContractField.name).Nodup) {field field' : ContractField}
    {v v' : Option (FieldValue F)} (h : (field, v) ∈ fields.zip values)
    (h' : (field', v') ∈ fields.zip values) (hname : field.name = field'.name) : v = v' := by
  induction fields generalizing values with
  | nil => exact absurd h List.not_mem_nil
  | cons f fields ih =>
      cases values with
      | nil => exact absurd h List.not_mem_nil
      | cons w values =>
          rw [List.map_cons, List.nodup_cons] at hnodup
          have hother : ∀ {g : ContractField} {u : Option (FieldValue F)},
              (g, u) ∈ fields.zip values → g.name ≠ f.name := by
            intro g u hmem heq
            exact hnodup.1 (heq ▸ List.mem_map_of_mem (List.of_mem_zip hmem).1)
          rw [List.zip_cons_cons] at h h'
          rcases List.mem_cons.1 h with heq | hrest <;>
            rcases List.mem_cons.1 h' with heq' | hrest'
          · cases heq
            cases heq'
            rfl
          · cases heq
            exact absurd hname.symm (hother hrest')
          · cases heq'
            exact absurd hname (hother hrest)
          · exact ih hnodup.2 hrest hrest'

/-- The fields that are there are all there is to a signal. -/
theorem AdvisorySignal.ext_of_present {s t : AdvisorySignal py}
    (htype : s.signalType = t.signalType) (h : ∀ p, p ∈ s.present ↔ p ∈ t.present) : s = t := by
  obtain ⟨⟨signalType, values⟩, hs⟩ := s
  obtain ⟨⟨signalType', values'⟩, ht⟩ := t
  obtain rfl : signalType = signalType' := htype
  have hnodup := (names_contractFields signalType).2
  have hvalues : values = values' := by
    refine List.ext_getElem (hs.1.trans ht.1.symm) ?_
    intro i hi hi'
    have hfield : i < (contractFields signalType).length := hs.1 ▸ hi
    have hzip : ((contractFields signalType)[i], values[i]) ∈
        (contractFields signalType).zip values := by
      rw [← List.getElem_zip (h := by simpa using ⟨hfield, hi⟩)]
      exact List.getElem_mem _
    have hzip' : ((contractFields signalType)[i], values'[i]) ∈
        (contractFields signalType).zip values' := by
      rw [← List.getElem_zip (h := by simpa using ⟨hfield, hi'⟩)]
      exact List.getElem_mem _
    apply Option.ext
    intro value
    constructor
    · intro hvalue
      have hmem : ((contractFields signalType)[i].name, value) ∈
          SignalData.present ⟨signalType, values⟩ :=
        mem_present.2 ⟨_, by rw [← hvalue]; exact hzip, rfl⟩
      obtain ⟨field, hmem', hname⟩ := mem_present.1 ((h _).1 hmem)
      exact value_of_zip hnodup hzip' hmem' hname.symm
    · intro hvalue
      have hmem : ((contractFields signalType)[i].name, value) ∈
          SignalData.present ⟨signalType, values'⟩ :=
        mem_present.2 ⟨_, by rw [← hvalue]; exact hzip', rfl⟩
      obtain ⟨field, hmem', hname⟩ := mem_present.1 ((h _).2 hmem)
      exact value_of_zip hnodup hzip hmem' hname.symm
  subst hvalues
  rfl

theorem eq_of_map_eq {α β : Type} {f : α → β} {l l' : List α}
    (hf : ∀ a ∈ l, ∀ b ∈ l', f a = f b → a = b) (h : l.map f = l'.map f) : l = l' := by
  induction l generalizing l' with
  | nil => exact (List.map_eq_nil_iff.1 h.symm).symm
  | cons a l ih =>
      cases l' with
      | nil => cases h
      | cons b l' =>
          obtain ⟨hhead, htail⟩ := List.cons.inj h
          rw [hf a List.mem_cons_self b List.mem_cons_self hhead,
            ih (fun a ha b hb => hf a (List.mem_cons_of_mem _ ha) b (List.mem_cons_of_mem _ hb))
              htail]

/-- **Signals with one key are one signal.** -/
theorem sortKey_injective {s t : AdvisorySignal py}
    (h : s.sortKey py = t.sortKey py) : s = t := by
  have hperm : ∀ s : AdvisorySignal py,
      (s.dump.insertionSort fun p q => p.1 ≤ q.1).Perm s.dump := fun s =>
    List.perm_insertionSort _ _
  have hsorted : (s.dump.insertionSort fun p q => p.1 ≤ q.1) =
      t.dump.insertionSort fun p q => p.1 ≤ q.1 := by
    refine eq_of_map_eq ?_ h
    intro p hp q hq hsame
    exact fieldText_injective (s.typed_dump p ((hperm s).mem_iff.1 hp))
      (t.typed_dump q ((hperm t).mem_iff.1 hq)) hsame
  have hdump : ∀ p, p ∈ s.dump ↔ p ∈ t.dump := by
    intro p
    rw [← (hperm s).mem_iff, hsorted, (hperm t).mem_iff]
  -- no field has the name under which the type stands
  have hfields : ∀ (s : AdvisorySignal py) (p : String × FieldValue F), p ∈ s.present →
      p.1 ≠ "signal_type" := by
    rintro s ⟨name, value⟩ hp
    obtain ⟨field, hmem, rfl⟩ := mem_present.1 hp
    exact ((names_contractFields s.signalType).1 field (List.of_mem_zip hmem).1).2
  have htype : s.signalType = t.signalType := by
    have hmem := (hdump ("signal_type", .str s.signalType.value)).1 List.mem_cons_self
    rcases List.mem_cons.1 hmem with heq | hpresent
    · exact SignalType.value_injective (FieldValue.str.inj (Prod.mk.inj heq).2)
    · exact absurd rfl (hfields t _ hpresent)
  refine AdvisorySignal.ext_of_present htype ?_
  intro p
  have hiff := hdump p
  constructor
  · intro hp
    rcases List.mem_cons.1 (hiff.1 (List.mem_cons_of_mem _ hp)) with heq | hpresent
    · exact absurd (congrArg Prod.fst heq) (hfields s p hp)
    · exact hpresent
  · intro hp
    rcases List.mem_cons.1 (hiff.2 (List.mem_cons_of_mem _ hp)) with heq | hpresent
    · exact absurd (congrArg Prod.fst heq) (hfields t p hp)
    · exact hpresent

theorem perm_sortSignals (signals : List (AdvisorySignal py)) :
    (sortSignals signals).Perm signals :=
  List.perm_insertionSort _ _

/-- **The order of signals does not depend on where they stood.** -/
theorem sortSignals_eq_of_perm {signals signals' : List (AdvisorySignal py)}
    (h : signals.Perm signals') : sortSignals signals = sortSignals signals' := by
  have : Std.Total fun s t : AdvisorySignal py => s.sortKey py ≤ t.sortKey py :=
    ⟨fun s t => le_total _ _⟩
  have : IsTrans (AdvisorySignal py) fun s t => s.sortKey py ≤ t.sortKey py :=
    ⟨fun _ _ _ => le_trans⟩
  have : Std.Antisymm fun s t : AdvisorySignal py => s.sortKey py ≤ t.sortKey py :=
    ⟨fun s t hst hts => sortKey_injective (le_antisymm hst hts)⟩
  refine List.Perm.eq_of_pairwise' (List.pairwise_insertionSort _ _)
    (List.pairwise_insertionSort _ _) ?_
  exact (perm_sortSignals signals).trans (h.trans (perm_sortSignals signals').symm)

end Key

end Atlas
