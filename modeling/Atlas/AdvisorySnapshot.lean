/-
**The assembly of advisory facts.**

The rows loaded for a job become signals.  A row whose texts are unsupported gives none, and a code
in `missing_sources` says so; most kinds of rows have a limit, past which their signals are cut
off.  What is left is put in order and numbered, and a snapshot with too many signals or of too many
bytes is rejected.

Main definitions:

* `Atlas.SnapshotLoad` — the rows of a job;
* `Atlas.assembleFacts` — the facts of a load;
* `Atlas.SnapshotLoad.presented` — the signals the rows stand for, none cut off;
* `Atlas.AssembledFaithfully` — the facts are the same in any order of the rows, nothing is dropped
  silently, and the bounds hold;
* `Atlas.SnapshotLoad.Whole` — when they are.

Main results:

* `Atlas.assembleFacts_alike` — what the order of the rows can change;
* `Atlas.facts_assembled_faithfully` — **the exact condition**.
-/

import Atlas.AdvisoryContracts
import Atlas.Checked
import Mathlib.Data.List.Dedup
import Mathlib.Data.List.Perm.Subperm
import Mathlib.Data.Prod.Lex

set_option relaxedAutoImplicit false
set_option autoImplicit false

namespace Atlas

open Checked Python

/-! ### Rows -/

structure JobRow where
  researchJobId : String
  status : String
  evaluationProfile : Option String
  continuationMode : String
  repairCount : ℤ
  jobRetryCount : ℤ
  evaluationAttemptCount : ℤ

structure NodeRow where
  nodeName : String
  attempt : ℤ
  status : String
  error : Option String

structure CountGroup where
  keys : List String
  count : ℤ

structure SnapshotRunRow (F : Type) where
  status : String
  profile : String
  passed : Option Bool
  aggregateScore : Option F
  dispositionHint : Option String

structure SnapshotDimensionRow (F : Type) where
  name : String
  score : F
  passed : Bool
  method : String
  failureCodes : List String

structure RecoveryRow where
  decision : String
  failureCategory : String
  reasonCode : String
  attemptNumber : Option ℤ

structure SnapshotOutboxRow where
  eventType : String
  unpublishedCount : ℤ
  publishedCount : ℤ
  maxPublishAttempts : ℤ
  lastPublishErrorClass : Option String

structure SnapshotDeadLetterRow where
  failureCode : String
  replayState : String
  replayEligible : Bool
  count : ℤ

structure SnapshotLoad (F : Type) where
  job : JobRow
  nodes : List NodeRow := []
  modelGroups : List CountGroup := []
  toolGroups : List CountGroup := []
  evaluationRun : Option (SnapshotRunRow F) := none
  dimensions : List (SnapshotDimensionRow F) := []
  recovery : List RecoveryRow := []
  reviewCounts : List (String × ℤ) := []
  outbox : List SnapshotOutboxRow := []
  projectionEventType : Option String := none
  deadLetters : List SnapshotDeadLetterRow := []
  alertNames : List String := []

/-! ### What a row stands for -/

/-- The ways an assembly fails: `AdvisorySnapshotRejectedError` with its message, pydantic's
`ValidationError`, and the `ValueError` of a group with the wrong number of keys. -/
inductive SnapshotError where
  | rejected (message : String)
  | validation
  | unpacking
  deriving DecidableEq, Repr

def missingSourceCodes : List String :=
  ["unknown_signal_dropped", "unsupported_evaluation_profile", "evaluation_profile_absent",
    "unsupported_continuation_mode", "unsupported_node_name", "unsupported_node_status",
    "unsupported_error_class", "unsupported_node_error", "unsupported_model_node",
    "unsupported_model_provider", "unsupported_model_status", "unsupported_retry_class",
    "unsupported_tool_id", "unsupported_tool_provider", "unsupported_tool_status",
    "unsupported_evaluation_status", "unsupported_disposition_hint", "unsupported_dimension_name",
    "unsupported_grader_method", "unsupported_failure_code", "unsupported_recovery_decision",
    "unsupported_failure_category", "unsupported_reason_code", "unsupported_review_decision",
    "unsupported_event_type", "unsupported_consumer_failure_code", "unsupported_replay_state",
    "unsupported_alert_name", "evaluation_absent", "evaluation_incomplete", "outbox_absent",
    "consumer_absent", "workflow_absent", "recovery_attempt_absent"]

/-- `_note`: what is noted twice is in the set once. -/
def note (code : String) : List String := if code ∈ missingSourceCodes then [code] else []

/-- `_allow`: the text, when it is supported, and what is noted. -/
def allow (value : String) (allowed : List String) (code : String) :
    Option String × List String :=
  if value ∈ allowed then (some value, []) else (none, note code)

/-- `_allow` on a text that may be empty or absent. -/
def allowSome (value : Option String) (allowed : List String) (code : String) :
    Option String × List String :=
  match value with
  | none => (none, [])
  | some text => if text = "" then (none, []) else allow text allowed code

/-- What a row comes to: its record, if it has one, and what is noted. -/
abbrev Presented (F : Type) := Option (SignalData F) × List String

section RowData

variable {F : Type}

/-- `_NODE_ERROR_RE.fullmatch`: the class in front of the fixed end of the text. -/
def nodeErrorClass (error : String) : Option String :=
  let ending := ": node execution failed".toList
  if ending.isSuffixOf error.toList then
    match error.toList.take (error.toList.length - ending.length) with
    | [] => none
    | first :: rest =>
        if first.isAlpha ∧ rest.length ≤ 127 ∧ ∀ c ∈ rest, c.isAlphanum ∨ c = '_' then
          some (String.ofList (first :: rest))
        else none
  else none

def nodeError (error : Option String) : Option String × List String :=
  match error with
  | none => (none, [])
  | some text =>
      if text = "" then (none, [])
      else match nodeErrorClass text with
        | none => (none, note "unsupported_node_error")
        | some errorClass => allow errorClass advisoryErrorClasses "unsupported_error_class"

def nodeData (row : NodeRow) : Presented F :=
  let name := allow row.nodeName workflowNodeNames "unsupported_node_name"
  let status := allow row.status workflowNodeStatuses "unsupported_node_status"
  match name.1, status.1 with
  | some nodeName, some nodeStatus =>
      let error := nodeError row.error
      (some ⟨.workflowNodeOutcome, [some (.int row.attempt), error.1.map .str, some (.str nodeName),
        some (.str nodeStatus)]⟩, name.2 ++ status.2 ++ error.2)
  | _, _ => (none, name.2 ++ status.2)

def modelData (group : CountGroup) : Except SnapshotError (Presented F) :=
  match group.keys with
  | [nodeName, provider, status, retryClass, errorClass] =>
      let node := allow nodeName modelNodeNames "unsupported_model_node"
      let prov := allow provider modelProviders "unsupported_model_provider"
      let st := allow status invocationStatuses "unsupported_model_status"
      match node.1, prov.1, st.1 with
      | some nodeName, some provider, some status =>
          let retry := allowSome (some retryClass) retryClasses "unsupported_retry_class"
          let err := allowSome (some errorClass) advisoryErrorClasses "unsupported_error_class"
          .ok (some ⟨.modelOutcomeCount, [some (.int group.count), err.1.map .str,
            some (.str nodeName), some (.str provider), retry.1.map .str, some (.str status)]⟩,
            node.2 ++ prov.2 ++ st.2 ++ retry.2 ++ err.2)
      | _, _, _ => .ok (none, node.2 ++ prov.2 ++ st.2)
  | _ => .error .unpacking

def toolData (group : CountGroup) : Except SnapshotError (Presented F) :=
  match group.keys with
  | [toolId, provider, status, retryClass] =>
      let tid := allow toolId toolIds "unsupported_tool_id"
      let prov := allow provider toolProviders "unsupported_tool_provider"
      let st := allow status invocationStatuses "unsupported_tool_status"
      match tid.1, prov.1, st.1 with
      | some toolId, some provider, some status =>
          let retry := allowSome (some retryClass) toolRetryClasses "unsupported_retry_class"
          .ok (some ⟨.toolOutcomeCount, [some (.int group.count), some (.str provider),
            retry.1.map .str, some (.str status), some (.str toolId)]⟩,
            tid.2 ++ prov.2 ++ st.2 ++ retry.2)
      | _, _, _ => .ok (none, tid.2 ++ prov.2 ++ st.2)
  | _ => .error .unpacking

def runData (run : SnapshotRunRow F) : Presented F :=
  let status := allow run.status evaluationRunStatuses "unsupported_evaluation_status"
  let profile := allow run.profile evaluationProfiles "unsupported_evaluation_profile"
  let hint := match run.dispositionHint with
    | none => (none, [])
    | some hint => allow hint dispositionHints "unsupported_disposition_hint"
  let noted := status.2 ++ profile.2 ++ hint.2
  match status.1, profile.1 with
  | some runStatus, some runProfile =>
      if runStatus = "SUCCEEDED" ∧ (run.passed = none ∨ run.aggregateScore.isNone) then
        (none, noted ++ note "evaluation_incomplete")
      else
        (some ⟨.evaluationRun, [run.aggregateScore.map .float, hint.1.map .str,
          run.passed.map .bool, some (.str runProfile), some (.str runStatus)]⟩, noted)
  | _, _ => (none, noted ++ note "evaluation_incomplete")

/-- The supported codes, each once, in the order they first stand in. -/
def supportedCodes : List String → List String → List String
  | codes, [] => codes
  | codes, code :: rest =>
      if code ∈ advisoryFailureCodes ∧ code ∉ codes then supportedCodes (codes ++ [code]) rest
      else supportedCodes codes rest

/-- The record of a dimension with the codes `cut` leaves of those supported. -/
def dimensionData (cut : List String → List String) (row : SnapshotDimensionRow F) : Presented F :=
  let name := allow row.name dimensionNames "unsupported_dimension_name"
  let method := allow row.method graderMethods "unsupported_grader_method"
  match name.1, method.1 with
  | some dimension, some grader =>
      let dropped := if ∀ code ∈ row.failureCodes, code ∈ advisoryFailureCodes then []
        else note "unsupported_failure_code"
      (some ⟨.evaluationDimension, [some (.codes (cut (supportedCodes [] row.failureCodes))),
        some (.str grader), some (.str dimension), some (.bool row.passed),
        some (.float row.score)]⟩, name.2 ++ method.2 ++ dropped)
  | _, _ => (none, name.2 ++ method.2)

def recoveryData (row : RecoveryRow) : Presented F :=
  let decision := allow row.decision recoveryDecisions "unsupported_recovery_decision"
  let category := allow row.failureCategory failureCategories "unsupported_failure_category"
  let reason := allow row.reasonCode advisoryReasonCodes "unsupported_reason_code"
  let noted := decision.2 ++ category.2 ++ reason.2
  match decision.1, category.1, reason.1 with
  | some made, some failure, some why =>
      let record (attemptNumber : Option ℤ) : SignalData F :=
        ⟨.recoveryDecision, [attemptNumber.map .int, some (.str made), some (.str failure),
          some (.str why)]⟩
      if made = "retry" then
        match row.attemptNumber with
        | none => (none, noted ++ note "recovery_attempt_absent")
        | some attemptNumber => (some (record (some attemptNumber)), noted)
      else (some (record none), noted)
  | _, _, _ => (none, noted)

def reviewData (row : String × ℤ) : Presented F :=
  let decision := allow row.1 reviewDecisionNames "unsupported_review_decision"
  match decision.1 with
  | none => (none, decision.2)
  | some made =>
      (some ⟨.reviewDecisionCount, [some (.int row.2), some (.str made)]⟩, decision.2)

def outboxData (row : SnapshotOutboxRow) : Presented F :=
  let eventType := allow row.eventType advisoryEventTypes "unsupported_event_type"
  match eventType.1 with
  | none => (none, eventType.2)
  | some event =>
      let error := allowSome row.lastPublishErrorClass advisoryErrorClasses "unsupported_error_class"
      (some ⟨.outboxSummary, [some (.str event), error.1.map .str,
        some (.int row.maxPublishAttempts), some (.int row.publishedCount),
        some (.int row.unpublishedCount)]⟩, eventType.2 ++ error.2)

def projectionData (eventType : String) : Presented F :=
  let last := allow eventType advisoryEventTypes "unsupported_event_type"
  (last.1.map fun event => ⟨.consumerProjection, [some (.str event)]⟩, last.2)

def deadLetterData (row : SnapshotDeadLetterRow) : Presented F :=
  let code := allow row.failureCode consumerFailureCodes "unsupported_consumer_failure_code"
  let state := allow row.replayState replayStates "unsupported_replay_state"
  match code.1, state.1 with
  | some failure, some replay =>
      (some ⟨.consumerDeadLetter, [some (.int row.count), some (.str failure),
        some (.bool row.replayEligible), some (.str replay)]⟩, code.2 ++ state.2)
  | _, _ => (none, code.2 ++ state.2)

def alertData (name : String) : Presented F :=
  let alert := allow name alertNames "unsupported_alert_name"
  (alert.1.map fun alertName => ⟨.alertName, [some (.str alertName)]⟩, alert.2)

def profileData (evaluationProfile : Option String) : Presented F :=
  match evaluationProfile with
  | none => (none, note "evaluation_profile_absent")
  | some profile =>
      let allowed := allow profile evaluationProfiles "unsupported_evaluation_profile"
      (allowed.1.map fun profile => ⟨.jobEvaluationProfile, [some (.str profile)]⟩, allowed.2)

def modeData (continuationMode : String) : Presented F :=
  let allowed := allow continuationMode continuationModes "unsupported_continuation_mode"
  (allowed.1.map fun mode => ⟨.jobContinuationMode, [some (.str mode)]⟩, allowed.2)

/-- The records of a job whose status is supported. -/
def jobData (job : JobRow) : List (Presented F) :=
  [(some ⟨.jobStatus, [some (.str job.status)]⟩, []), profileData job.evaluationProfile,
    modeData job.continuationMode, (some ⟨.jobRepairCount, [some (.int job.repairCount)]⟩, []),
    (some ⟨.jobRetryCount, [some (.int job.jobRetryCount)]⟩, []),
    (some ⟨.jobEvaluationAttemptCount, [some (.int job.evaluationAttemptCount)]⟩, [])]

end RowData

/-! ### The assembly -/

def maxSignals : ℕ := 64
def maxWorkflowNodes : ℕ := 32
def maxModelGroups : ℕ := 12
def maxToolGroups : ℕ := 8
def maxEvaluationDimensions : ℕ := 7
def maxRecoveryDecisions : ℕ := 8
def maxOutboxGroups : ℕ := 8
def maxDeadLetters : ℕ := 8
def maxMissingSources : ℕ := 16
def maxFactsUtf8Bytes : ℕ := 12288
def maxAdvisoryJobIdLength : ℕ := 128

/-- What is appended to `pending` and to `missing`. -/
structure Added {F : Type} (py : PyFloat F) where
  pending : List (AdvisorySignal py) := []
  missing : List String := []

section Assembly

variable {F : Type} (py : PyFloat F)

def Added.append {py : PyFloat F} (a b : Added py) : Added py :=
  ⟨a.pending ++ b.pending, a.missing ++ b.missing⟩

/-- One function adds after another. -/
def thenAdd {py : PyFloat F} (x y : Except SnapshotError (Added py)) :
    Except SnapshotError (Added py) := do
  let a ← x
  let b ← y
  return a.append b

/-- A signal class, called on the values of a record. -/
def build (data : SignalData F) : Except SnapshotError (AdvisorySignal py) :=
  if h : data.Accepted py then .ok ⟨data, h⟩ else .error .validation

/-- What a row adds. -/
def addRow (presented : Except SnapshotError (Presented F)) : Except SnapshotError (Added py) := do
  let row ← presented
  match row.1 with
  | none => return { missing := row.2 }
  | some data => do
      let signal ← build py data
      return { pending := [signal], missing := row.2 }

/-- What the rows of one kind add, their signals arranged and cut off at a limit. -/
def addRows {ρ : Type} (data : ρ → Except SnapshotError (Presented F))
    (cut : List (AdvisorySignal py) → List (AdvisorySignal py)) (rows : List ρ) :
    Except SnapshotError (Added py) := do
  let added ← rows.mapM fun row => addRow py (data row)
  return { pending := cut (added.flatMap Added.pending), missing := added.flatMap Added.missing }

def addJobSignals (job : JobRow) : Except SnapshotError (Added py) :=
  if job.status ∈ jobStatuses then addRows py Except.ok id (jobData job)
  else .error (.rejected "job status is unsupported")

/-- The key nodes are arranged by: the node's name and its attempt. -/
def nodeKey {py : PyFloat F} (signal : AdvisorySignal py) : String ×ₗ ℤ :=
  match signal.values with
  | [some (.int attempt), _, some (.str nodeName), _] => toLex (nodeName, attempt)
  | _ => toLex ("", 0)

def addNodeSignals (nodes : List NodeRow) : Except SnapshotError (Added py) :=
  if nodes = [] then .ok { missing := note "workflow_absent" }
  else
    addRows py (fun row => .ok (nodeData row))
      (fun kept => (kept.insertionSort fun s t => nodeKey s ≤ nodeKey t).take maxWorkflowNodes) nodes

def addModelSignals (groups : List CountGroup) : Except SnapshotError (Added py) :=
  addRows py modelData (List.take maxModelGroups) groups

def addToolSignals (groups : List CountGroup) : Except SnapshotError (Added py) :=
  addRows py toolData (List.take maxToolGroups) groups

def addEvaluationSignals (run : Option (SnapshotRunRow F))
    (dimensions : List (SnapshotDimensionRow F)) : Except SnapshotError (Added py) :=
  match run with
  | none => .ok { missing := note "evaluation_absent" }
  | some run =>
      thenAdd (addRows py (fun run => .ok (runData run)) id [run])
        (addRows py (fun row => .ok (dimensionData (List.take maxFailureCodesPerDimension) row))
          (List.take maxEvaluationDimensions) dimensions)

def addRecoverySignals (rows : List RecoveryRow) : Except SnapshotError (Added py) :=
  addRows py (fun row => .ok (recoveryData row)) (List.take maxRecoveryDecisions) rows

def addReviewSignals (counts : List (String × ℤ)) : Except SnapshotError (Added py) :=
  addRows py (fun row => .ok (reviewData row)) id counts

def addOutboxSignals (rows : List SnapshotOutboxRow) : Except SnapshotError (Added py) :=
  if rows.isEmpty then .ok { missing := note "outbox_absent" }
  else addRows py (fun row => .ok (outboxData row)) (List.take maxOutboxGroups) rows

def addConsumerSignals (projectionEventType : Option String)
    (deadLetters : List SnapshotDeadLetterRow) : Except SnapshotError (Added py) :=
  if projectionEventType = none ∧ deadLetters.isEmpty then
    .ok { missing := note "consumer_absent" }
  else
    thenAdd (addRows py (fun event => .ok (projectionData event)) id projectionEventType.toList)
      (addRows py (fun row => .ok (deadLetterData row)) (List.take maxDeadLetters) deadLetters)

def addAlertSignals (names : List String) : Except SnapshotError (Added py) :=
  addRows py (fun name => .ok (alertData name)) id names

/-- What all rows add, in order. -/
def addSignals (loaded : SnapshotLoad F) : Except SnapshotError (Added py) :=
  thenAdd (addJobSignals py loaded.job) <|
  thenAdd (addNodeSignals py loaded.nodes) <|
  thenAdd (addModelSignals py loaded.modelGroups) <|
  thenAdd (addToolSignals py loaded.toolGroups) <|
  thenAdd (addEvaluationSignals py loaded.evaluationRun loaded.dimensions) <|
  thenAdd (addRecoverySignals py loaded.recovery) <|
  thenAdd (addReviewSignals py loaded.reviewCounts) <|
  thenAdd (addOutboxSignals py loaded.outbox) <|
  thenAdd (addConsumerSignals py loaded.projectionEventType loaded.deadLetters)
    (addAlertSignals py loaded.alertNames)

/-- The facts, each signal under its id. -/
structure AdvisoryIncidentFacts {F : Type} (py : PyFloat F) where
  researchJobId : String
  signals : List (String × AdvisorySignal py)
  missingSources : List String

def jobIdPattern (s : String) : Prop :=
  s ≠ "" ∧ ∀ c ∈ s.toList, c.isAlphanum ∨ c ∈ ['.', '_', ':', '-']

instance (s : String) : Decidable (jobIdPattern s) := inferInstanceAs (Decidable (_ ∧ _))

/-- The id is one the facts take: in its bounds, and of the pattern when it is stripped. -/
def JobIdAccepted (researchJobId : String) : Prop :=
  1 ≤ researchJobId.length ∧ researchJobId.length ≤ maxAdvisoryJobIdLength ∧
    jobIdPattern (strip researchJobId)

instance (researchJobId : String) : Decidable (JobIdAccepted researchJobId) :=
  inferInstanceAs (Decidable (_ ∧ _ ∧ _))

/-- `f"sig:{index:02d}"`. -/
def signalId (index : ℕ) : String :=
  "sig:" ++ (if index < 10 then "0" else "") ++ toString index

/-- `sorted(set(missing))[:MAX_MISSING_SOURCES]`. -/
def uniqueMissing (missing : List String) : List String :=
  (missing.dedup.insertionSort fun a b => a ≤ b).take maxMissingSources

variable {py} in
def factsOf (researchJobId : String) (added : Added py) : AdvisoryIncidentFacts py where
  researchJobId := strip researchJobId
  signals := ((sortSignals added.pending).zipIdx 1).map fun p => (signalId p.2, p.1)
  missingSources := uniqueMissing added.missing

variable {py} in
def signalJson (p : String × AdvisorySignal py) : Json :=
  .obj (("signal_id", .str p.1) ::
    p.2.dump.map fun field => (field.1, field.2.toJson py))

variable {py} in
/-- `model_dump(mode="json", exclude_none=True)`. -/
def AdvisoryIncidentFacts.modelDump (facts : AdvisoryIncidentFacts py) : Json :=
  .obj [("facts_version", .str "advisory.incident.v1"),
    ("research_job_id", .str facts.researchJobId),
    ("signals", .arr (facts.signals.map signalJson)),
    ("missing_sources", .arr (facts.missingSources.map .str))]

variable {py} in
def canonicalFactsJson (facts : AdvisoryIncidentFacts py) : String := facts.modelDump.dumps

/-- `assemble_facts`. -/
def assembleFacts (loaded : SnapshotLoad F) : Except SnapshotError (AdvisoryIncidentFacts py) := do
  let added ← addSignals py loaded
  ensure (added.pending.length ≤ maxSignals) (.rejected "advisory snapshot exceeds signal bound")
  ensure (JobIdAccepted loaded.job.researchJobId) .validation
  let facts := factsOf loaded.job.researchJobId added
  ensure ((canonicalFactsJson facts).utf8ByteSize ≤ maxFactsUtf8Bytes)
    (.rejected "advisory snapshot exceeds byte bound")
  return facts

end Assembly

/-! ### What a load stands for -/

/-- The records rows stand for, none cut off. -/
def presentedRows {F ρ : Type} (data : ρ → Except SnapshotError (Presented F)) (rows : List ρ) :
    List (SignalData F) :=
  rows.filterMap fun row => (data row).toOption.bind Prod.fst

namespace SnapshotLoad

variable {F : Type}

def presentedNodes (loaded : SnapshotLoad F) : List (SignalData F) :=
  presentedRows (fun row => .ok (nodeData row)) loaded.nodes

def presentedModels (loaded : SnapshotLoad F) : List (SignalData F) :=
  presentedRows modelData loaded.modelGroups

def presentedTools (loaded : SnapshotLoad F) : List (SignalData F) :=
  presentedRows toolData loaded.toolGroups

def presentedRun (loaded : SnapshotLoad F) : List (SignalData F) :=
  presentedRows (fun run => .ok (runData run)) loaded.evaluationRun.toList

/-- The records of the dimensions, with all their supported codes. -/
def presentedDimensions (loaded : SnapshotLoad F) : List (SignalData F) :=
  presentedRows (fun row => .ok (dimensionData id row)) loaded.dimensions

def presentedRecovery (loaded : SnapshotLoad F) : List (SignalData F) :=
  presentedRows (fun row => .ok (recoveryData row)) loaded.recovery

def presentedReviews (loaded : SnapshotLoad F) : List (SignalData F) :=
  presentedRows (fun row => .ok (reviewData row)) loaded.reviewCounts

def presentedOutbox (loaded : SnapshotLoad F) : List (SignalData F) :=
  presentedRows (fun row => .ok (outboxData row)) loaded.outbox

def presentedProjection (loaded : SnapshotLoad F) : List (SignalData F) :=
  presentedRows (fun event => .ok (projectionData event)) loaded.projectionEventType.toList

def presentedDeadLetters (loaded : SnapshotLoad F) : List (SignalData F) :=
  presentedRows (fun row => .ok (deadLetterData row)) loaded.deadLetters

def presentedAlerts (loaded : SnapshotLoad F) : List (SignalData F) :=
  presentedRows (fun name => .ok (alertData name)) loaded.alertNames

def presentedJob (loaded : SnapshotLoad F) : List (SignalData F) :=
  presentedRows Except.ok (jobData loaded.job)

/-- Everything the rows of a load stand for. -/
def presented (loaded : SnapshotLoad F) : List (SignalData F) :=
  loaded.presentedJob ++ (loaded.presentedNodes ++ (loaded.presentedModels ++
    (loaded.presentedTools ++ ((loaded.presentedRun ++ loaded.presentedDimensions) ++
      (loaded.presentedRecovery ++ (loaded.presentedReviews ++ (loaded.presentedOutbox ++
        ((loaded.presentedProjection ++ loaded.presentedDeadLetters) ++
          loaded.presentedAlerts))))))))

/-- How many signals are left within the limits of their kinds. -/
def counted (loaded : SnapshotLoad F) : ℕ :=
  loaded.presentedJob.length + (min loaded.presentedNodes.length maxWorkflowNodes +
    (min loaded.presentedModels.length maxModelGroups +
      (min loaded.presentedTools.length maxToolGroups +
        ((match loaded.evaluationRun with
          | none => 0
          | some _ => loaded.presentedRun.length +
              min loaded.presentedDimensions.length maxEvaluationDimensions) +
          (min loaded.presentedRecovery.length maxRecoveryDecisions +
            (loaded.presentedReviews.length + (min loaded.presentedOutbox.length maxOutboxGroups +
              ((loaded.presentedProjection.length +
                min loaded.presentedDeadLetters.length maxDeadLetters) +
                loaded.presentedAlerts.length))))))))

/-- No kind of rows is over its limit, no dimension has more codes than a signal holds, and no
dimension stands without an evaluation run. -/
structure WithinLimits (loaded : SnapshotLoad F) : Prop where
  nodes : loaded.presentedNodes.length ≤ maxWorkflowNodes
  models : loaded.presentedModels.length ≤ maxModelGroups
  tools : loaded.presentedTools.length ≤ maxToolGroups
  dimensions : loaded.presentedDimensions.length ≤ maxEvaluationDimensions
  run : loaded.evaluationRun = none → loaded.presentedDimensions = []
  codes : ∀ row ∈ loaded.dimensions, row.name ∈ dimensionNames → row.method ∈ graderMethods →
    (supportedCodes [] row.failureCodes).length ≤ maxFailureCodesPerDimension
  recovery : loaded.presentedRecovery.length ≤ maxRecoveryDecisions
  outbox : loaded.presentedOutbox.length ≤ maxOutboxGroups
  deadLetters : loaded.presentedDeadLetters.length ≤ maxDeadLetters

/-- The same rows, each collection in an order of its own. -/
structure Reordered (loaded other : SnapshotLoad F) : Prop where
  job : other.job = loaded.job
  evaluationRun : other.evaluationRun = loaded.evaluationRun
  projectionEventType : other.projectionEventType = loaded.projectionEventType
  nodes : loaded.nodes.Perm other.nodes
  modelGroups : loaded.modelGroups.Perm other.modelGroups
  toolGroups : loaded.toolGroups.Perm other.toolGroups
  dimensions : loaded.dimensions.Perm other.dimensions
  recovery : loaded.recovery.Perm other.recovery
  reviewCounts : loaded.reviewCounts.Perm other.reviewCounts
  outbox : loaded.outbox.Perm other.outbox
  deadLetters : loaded.deadLetters.Perm other.deadLetters
  alertNames : loaded.alertNames.Perm other.alertNames

end SnapshotLoad

/-- The row can be unpacked, and its record keeps the contract. -/
def RowAccepted {F : Type} (py : PyFloat F) (presented : Except SnapshotError (Presented F)) :
    Prop :=
  ∃ row, presented = .ok row ∧ ∀ data ∈ row.1, data.Accepted py

/-- Every row that is looked at is accepted. -/
structure SnapshotLoad.RowsAccepted {F : Type} (py : PyFloat F) (loaded : SnapshotLoad F) :
    Prop where
  job : ∀ row ∈ jobData loaded.job, RowAccepted py (.ok row)
  nodes : ∀ row ∈ loaded.nodes, RowAccepted py (.ok (nodeData row))
  models : ∀ group ∈ loaded.modelGroups, RowAccepted py (modelData group)
  tools : ∀ group ∈ loaded.toolGroups, RowAccepted py (toolData group)
  evaluation : ∀ run, loaded.evaluationRun = some run → RowAccepted py (.ok (runData run)) ∧
    ∀ row ∈ loaded.dimensions,
      RowAccepted py (.ok (dimensionData (List.take maxFailureCodesPerDimension) row))
  recovery : ∀ row ∈ loaded.recovery, RowAccepted py (.ok (recoveryData row))
  reviews : ∀ row ∈ loaded.reviewCounts, RowAccepted py (.ok (reviewData row))
  outbox : ∀ row ∈ loaded.outbox, RowAccepted py (.ok (outboxData row))
  projection : ∀ event ∈ loaded.projectionEventType, RowAccepted py (.ok (projectionData event))
  deadLetters : ∀ row ∈ loaded.deadLetters, RowAccepted py (.ok (deadLetterData row))
  alerts : ∀ name ∈ loaded.alertNames, RowAccepted py (.ok (alertData name))

/-- The rows within the limits make facts of too many bytes. -/
def TooLarge {F : Type} (py : PyFloat F) (loaded : SnapshotLoad F) : Prop :=
  ∃ added, addSignals py loaded = .ok added ∧
    maxFactsUtf8Bytes < (canonicalFactsJson (factsOf loaded.job.researchJobId added)).utf8ByteSize

/-- The facts are the same in any order of the rows; what a row stands for is among them, or the
snapshot is rejected; and they are within the bounds. -/
structure AssembledFaithfully {F : Type} (py : PyFloat F) (loaded : SnapshotLoad F) : Prop where
  sameInAnyOrder : ∀ other, loaded.Reordered other → assembleFacts py other = assembleFacts py loaded
  nothingDropped : (∃ message, assembleFacts py loaded = .error (.rejected message)) ∨
    ∃ facts, assembleFacts py loaded = .ok facts ∧
      loaded.presented.Subperm (facts.signals.map fun p => p.2.toSignalData)
  bounded : ∀ facts, assembleFacts py loaded = .ok facts →
    facts.signals.length ≤ maxSignals ∧
      (canonicalFactsJson facts).utf8ByteSize ≤ maxFactsUtf8Bytes

/-- When they are: the job's status is unsupported, or all rows are accepted and what is left of
them within the limits is too much, or the job's id is accepted and nothing is over a limit, or what
is left is of too many bytes in whatever order the rows come. -/
def SnapshotLoad.Whole {F : Type} (py : PyFloat F) (loaded : SnapshotLoad F) : Prop :=
  loaded.job.status ∉ jobStatuses ∨
    (loaded.RowsAccepted py ∧
      (maxSignals < loaded.counted ∨
        (JobIdAccepted loaded.job.researchJobId ∧
          (loaded.WithinLimits ∨ ∀ other, loaded.Reordered other → TooLarge py other))))

/-! ### Adding rows -/

section Rows

variable {F ρ : Type} {py : PyFloat F} {data : ρ → Except SnapshotError (Presented F)}
  {cut : List (AdvisorySignal py) → List (AdvisorySignal py)} {rows rows' : List ρ}
  {a b : Added py} {row : ρ}

/-- A list of checked results is that of another order of the arguments. -/
theorem mapM_perm {ε α β : Type} {f : α → Except ε β} {l l' : List α} (h : l.Perm l')
    {bs : List β} (hbs : l.mapM f = .ok bs) : ∃ bs', l'.mapM f = .ok bs' ∧ bs.Perm bs' := by
  induction h generalizing bs with
  | nil => exact ⟨bs, hbs, List.Perm.refl _⟩
  | cons x _ ih =>
      simp only [List.mapM_cons, bind_eq_ok, pure_eq_ok] at hbs ⊢
      obtain ⟨b, hb, rest, hrest, rfl⟩ := hbs
      obtain ⟨rest', hrest', hperm⟩ := ih hrest
      exact ⟨b :: rest', ⟨b, hb, rest', hrest', rfl⟩, hperm.cons b⟩
  | swap x y l =>
      simp only [List.mapM_cons, bind_eq_ok, pure_eq_ok] at hbs ⊢
      obtain ⟨b, hb, _, ⟨c, hc, rest, hrest, rfl⟩, rfl⟩ := hbs
      exact ⟨c :: b :: rest, ⟨c, hc, b :: rest, ⟨b, hb, rest, hrest, rfl⟩, rfl⟩, List.Perm.swap _ _ _⟩
  | trans _ _ ih ih' =>
      obtain ⟨bs', hbs', hperm⟩ := ih hbs
      obtain ⟨bs'', hbs'', hperm'⟩ := ih' hbs'
      exact ⟨bs'', hbs'', hperm.trans hperm'⟩

/-- A row adds the record it stands for, if that is accepted. -/
theorem addRow_eq_ok {presented : Except SnapshotError (Presented F)}
    (h : addRow py presented = .ok a) :
    RowAccepted py presented ∧
      a.pending.map (fun s => s.toSignalData) = (presented.toOption.bind Prod.fst).toList := by
  rw [addRow, bind_eq_ok] at h
  obtain ⟨⟨record, noted⟩, rfl, h⟩ := h
  cases record with
  | none =>
      cases h
      refine ⟨⟨_, rfl, ?_⟩, rfl⟩
      intro data hdata
      cases hdata
  | some data =>
      simp only [bind_eq_ok, pure_eq_ok, build] at h
      obtain ⟨signal, hbuild, rfl⟩ := h
      split at hbuild
      · rename_i haccepted
        cases hbuild
        refine ⟨⟨_, rfl, ?_⟩, rfl⟩
        rintro _ ⟨⟩
        exact haccepted
      · cases hbuild

theorem addRow_of_accepted {presented : Except SnapshotError (Presented F)}
    (h : RowAccepted py presented) : ∃ a, addRow py presented = .ok a := by
  obtain ⟨⟨record, noted⟩, rfl, haccepted⟩ := h
  cases record with
  | none => exact ⟨_, rfl⟩
  | some data =>
      have hbuild : build py data = .ok ⟨data, haccepted data rfl⟩ := dif_pos (haccepted data rfl)
      refine ⟨⟨[⟨data, haccepted data rfl⟩], noted⟩, ?_⟩
      change (build py data >>= fun signal =>
        (pure { pending := [signal], missing := noted } : Except SnapshotError (Added py))) = _
      rw [hbuild]
      rfl

/-- What does not add is not rejected: it raises another error. -/
theorem addRow_not_rejected (hdata : ∀ message, data row ≠ .error (.rejected message))
    (message : String) : addRow py (data row) ≠ .error (.rejected message) := by
  intro h
  cases hrow : data row with
  | error e =>
      rw [hrow] at h
      cases h
      exact hdata message hrow
  | ok presented =>
      rw [hrow] at h
      obtain ⟨record, noted⟩ := presented
      cases record with
      | none => cases h
      | some data =>
          by_cases haccepted : data.Accepted py
          · have hrowAccepted : RowAccepted py (.ok (some data, noted)) :=
              ⟨_, rfl, by rintro _ ⟨⟩; exact haccepted⟩
            obtain ⟨added, hadded⟩ := addRow_of_accepted hrowAccepted
            rw [hadded] at h
            cases h
          · have hbuild : build py data = .error .validation := dif_neg haccepted
            simp [addRow, hbuild, bind, Except.bind] at h

/-- How a list is cut: what is left depends on the length alone, and nothing is cut off while it
fits. -/
structure Cutting (fits : ℕ → Prop) (size : ℕ → ℕ)
    (cut : List (AdvisorySignal py) → List (AdvisorySignal py)) : Prop where
  length : ∀ l, (cut l).length = size l.length
  perm : ∀ l, fits l.length → (cut l).Perm l

theorem cutting_id :
    Cutting (fun _ => True) id (id : List (AdvisorySignal py) → List (AdvisorySignal py)) :=
  ⟨fun _ => rfl, fun _ _ => .refl _⟩

theorem cutting_take (limit : ℕ) :
    Cutting (· ≤ limit) (min · limit)
      (List.take limit : List (AdvisorySignal py) → List (AdvisorySignal py)) := by
  refine ⟨?_, ?_⟩
  · intro l
    rw [List.length_take, min_comm]
  · intro l hfits
    rw [List.take_of_length_le hfits]

/-- Arranging the list before it is cut changes nothing of that. -/
theorem cutting_sort_take (limit : ℕ) :
    Cutting (· ≤ limit) (min · limit) fun l : List (AdvisorySignal py) =>
      (l.insertionSort fun s t => nodeKey s ≤ nodeKey t).take limit := by
  have hperm : ∀ l : List (AdvisorySignal py),
      (l.insertionSort fun s t => nodeKey s ≤ nodeKey t).Perm l := fun l =>
    List.perm_insertionSort _ l
  refine ⟨?_, ?_⟩
  · intro l
    rw [List.length_take, (hperm l).length_eq, min_comm]
  · intro l hfits
    rw [List.take_of_length_le]
    · exact hperm l
    · rw [(hperm l).length_eq]
      exact hfits

/-- What the order of the rows can change of what they add: which signals are left, when not all
are. -/
structure Alike (whole : Prop) (a b : Added py) : Prop where
  length : a.pending.length = b.pending.length
  missing : a.missing.Perm b.missing
  pending : whole → a.pending.Perm b.pending

theorem Alike.refl (whole : Prop) (a : Added py) : Alike whole a a :=
  ⟨rfl, .refl _, fun _ => .refl _⟩

theorem Alike.append {whole : Prop} {a' b' : Added py} (h : Alike whole a b)
    (h' : Alike whole a' b') : Alike whole (a.append a') (b.append b') where
  length := by simp [Added.append, h.length, h'.length]
  missing := h.missing.append h'.missing
  pending hwhole := (h.pending hwhole).append (h'.pending hwhole)

theorem Alike.mono {whole whole' : Prop} (h : Alike whole a b) (himp : whole' → whole) :
    Alike whole' a b :=
  ⟨h.length, h.missing, fun hwhole => h.pending (himp hwhole)⟩

variable {fits : ℕ → Prop} {size : ℕ → ℕ}

/-- Before the cut there is a signal for each record. -/
theorem kept_of_mapM {added : List (Added py)}
    (h : rows.mapM (fun row => addRow py (data row)) = .ok added) :
    (∀ row ∈ rows, RowAccepted py (data row)) ∧
      (added.flatMap Added.pending).map (fun s => s.toSignalData) = presentedRows data rows := by
  induction rows generalizing added with
  | nil =>
      cases h
      exact ⟨fun row hrow => absurd hrow List.not_mem_nil, rfl⟩
  | cons row rows ih =>
      simp only [List.mapM_cons, bind_eq_ok, pure_eq_ok] at h
      obtain ⟨first, hfirst, rest, hrest, rfl⟩ := h
      obtain ⟨hall, hmap⟩ := ih hrest
      obtain ⟨haccepted, hrecord⟩ := addRow_eq_ok hfirst
      refine ⟨List.forall_mem_cons.2 ⟨haccepted, hall⟩, ?_⟩
      rw [List.flatMap_cons, List.map_append, hrecord, hmap, presentedRows, presentedRows,
        List.filterMap_cons]
      cases (data row).toOption.bind Prod.fst <;> rfl

theorem length_kept {added : List (Added py)}
    (h : rows.mapM (fun row => addRow py (data row)) = .ok added) :
    (added.flatMap Added.pending).length = (presentedRows data rows).length := by
  rw [← (kept_of_mapM h).2, List.length_map]

/-- What the rows of one kind add stands for what they present. -/
theorem addRows_eq_ok (hcut : Cutting fits size cut) (h : addRows py data cut rows = .ok a) :
    (∀ row ∈ rows, RowAccepted py (data row)) ∧
      a.pending.length = size (presentedRows data rows).length ∧
        (fits (presentedRows data rows).length →
          (a.pending.map fun s => s.toSignalData).Perm (presentedRows data rows)) := by
  simp only [addRows, bind_eq_ok, pure_eq_ok] at h
  obtain ⟨added, hadded, rfl⟩ := h
  obtain ⟨hall, hmap⟩ := kept_of_mapM hadded
  have hlength := length_kept hadded
  refine ⟨hall, ?_, ?_⟩
  · rw [← hlength]
    exact hcut.length _
  · intro hfits
    rw [← hlength] at hfits
    rw [← hmap]
    exact (hcut.perm _ hfits).map _

theorem addRows_of_accepted (h : ∀ row ∈ rows, RowAccepted py (data row)) :
    ∃ a, addRows py data cut rows = .ok a := by
  have hmap : ∃ added, rows.mapM (fun row => addRow py (data row)) = .ok added := by
    induction rows with
    | nil => exact ⟨[], rfl⟩
    | cons row rows ih =>
        obtain ⟨first, hfirst⟩ := addRow_of_accepted (h row List.mem_cons_self)
        obtain ⟨rest, hrest⟩ := ih fun row hrow => h row (List.mem_cons_of_mem _ hrow)
        refine ⟨first :: rest, ?_⟩
        simp only [List.mapM_cons, bind_eq_ok, pure_eq_ok]
        exact ⟨first, hfirst, rest, hrest, rfl⟩
  obtain ⟨added, hadded⟩ := hmap
  exact ⟨_, bind_eq_ok.2 ⟨added, hadded, rfl⟩⟩

/-- The order of the rows does not change more. -/
theorem addRows_alike (hcut : Cutting fits size cut) (hperm : rows.Perm rows')
    (h : addRows py data cut rows = .ok a) :
    ∃ b, addRows py data cut rows' = .ok b ∧ Alike (fits (presentedRows data rows).length) a b := by
  have hlength : (presentedRows data rows).length = (presentedRows data rows').length :=
    (hperm.filterMap _).length_eq
  obtain ⟨-, hsize, -⟩ := addRows_eq_ok hcut h
  simp only [addRows, bind_eq_ok, pure_eq_ok] at h
  obtain ⟨added, hadded, rfl⟩ := h
  obtain ⟨added', hadded', hsame⟩ := mapM_perm hperm hadded
  have hok : addRows py data cut rows' = .ok
      { pending := cut (added'.flatMap Added.pending), missing := added'.flatMap Added.missing } :=
    bind_eq_ok.2 ⟨added', hadded', rfl⟩
  refine ⟨_, hok, ?_, hsame.flatMap_right _, ?_⟩
  · rw [hsize, (addRows_eq_ok hcut hok).2.1, hlength]
  · intro hfits
    have hfits' := hfits
    rw [← length_kept hadded] at hfits
    rw [hlength, ← length_kept hadded'] at hfits'
    exact (hcut.perm _ hfits).trans ((hsame.flatMap_right _).trans (hcut.perm _ hfits').symm)

end Rows

/-! ### Adding signals -/

section Adds

variable {F : Type} {py : PyFloat F} {x y : Except SnapshotError (Added py)}
  {accepted accepted' whole whole' : Prop} {count count' : ℕ} {shown shown' : List (SignalData F)}

/-- What adds: it succeeds exactly when its rows are accepted, then with so many signals, which are
all that the rows stand for when nothing is over a limit; and it rejects nothing itself. -/
structure Adds (x : Except SnapshotError (Added py)) (accepted : Prop) (count : ℕ) (whole : Prop)
    (shown : List (SignalData F)) : Prop where
  ok : ∀ a, x = .ok a → accepted ∧ a.pending.length = count ∧
    (whole → (a.pending.map fun s => s.toSignalData).Perm shown)
  succeeds : accepted → ∃ a, x = .ok a
  unrejected : ∀ message, x ≠ .error (.rejected message)

theorem Adds.thenAdd (h : Adds x accepted count whole shown)
    (h' : Adds y accepted' count' whole shown') :
    Adds (thenAdd x y) (accepted ∧ accepted') (count + count') whole (shown ++ shown') where
  ok a ha := by
    simp only [Atlas.thenAdd, bind_eq_ok, pure_eq_ok] at ha
    obtain ⟨b, hb, c, hc, rfl⟩ := ha
    obtain ⟨hacc, hcount, hshown⟩ := h.ok b hb
    obtain ⟨hacc', hcount', hshown'⟩ := h'.ok c hc
    refine ⟨⟨hacc, hacc'⟩, ?_, ?_⟩
    · rw [Added.append, List.length_append, hcount, hcount']
    · intro hwhole
      rw [Added.append, List.map_append]
      exact (hshown hwhole).append (hshown' hwhole)
  succeeds hacc := by
    obtain ⟨b, hb⟩ := h.succeeds hacc.1
    obtain ⟨c, hc⟩ := h'.succeeds hacc.2
    exact ⟨b.append c, by rw [Atlas.thenAdd, hb, hc]; rfl⟩
  unrejected message heq := by
    cases hx : x with
    | error e =>
        rw [hx] at heq
        cases heq
        exact h.unrejected message hx
    | ok b =>
        cases hy : y with
        | error e =>
            rw [hx, hy] at heq
            cases heq
            exact h'.unrejected message hy
        | ok c =>
            rw [hx, hy] at heq
            cases heq

theorem Adds.mono (h : Adds x accepted count whole shown) (hacc : accepted ↔ accepted')
    (hcount : count = count') (hwhole : whole' → whole) (hshown : whole' → shown = shown') :
    Adds x accepted' count' whole' shown' where
  ok a ha := by
    obtain ⟨ha', hlength, hperm⟩ := h.ok a ha
    refine ⟨hacc.1 ha', hlength.trans hcount, ?_⟩
    intro hw
    rw [← hshown hw]
    exact hperm (hwhole hw)
  succeeds h' := h.succeeds (hacc.2 h')
  unrejected := h.unrejected

/-- Nothing is added but a note. -/
theorem adds_note (missing : List String) (hwhole : whole → shown = []) :
    Adds (.ok { missing := missing } : Except SnapshotError (Added py)) True 0 whole shown where
  ok a ha := by
    cases ha
    refine ⟨trivial, rfl, ?_⟩
    intro hw
    rw [hwhole hw]
    exact .refl _
  succeeds _ := ⟨_, rfl⟩
  unrejected message heq := by cases heq

variable {ρ : Type} {data : ρ → Except SnapshotError (Presented F)}
  {cut : List (AdvisorySignal py) → List (AdvisorySignal py)} {rows : List ρ}
  {fits : ℕ → Prop} {size : ℕ → ℕ}

theorem adds_addRows (hcut : Cutting fits size cut)
    (hdata : ∀ row message, data row ≠ .error (.rejected message)) :
    Adds (addRows py data cut rows) (∀ row ∈ rows, RowAccepted py (data row))
      (size (presentedRows data rows).length) (fits (presentedRows data rows).length)
      (presentedRows data rows) where
  ok a ha := addRows_eq_ok hcut ha
  succeeds h := addRows_of_accepted h
  unrejected message heq := by
    have hmap : ∀ rows : List ρ,
        (rows.mapM fun row => addRow py (data row)) ≠ .error (.rejected message) := by
      intro rows
      induction rows with
      | nil =>
          intro h
          cases h
      | cons row rows ih =>
          intro h
          rw [List.mapM_cons] at h
          cases hrow : addRow py (data row) with
          | error e =>
              rw [hrow] at h
              cases h
              exact addRow_not_rejected (hdata row) message hrow
          | ok first =>
              cases hrest : rows.mapM fun row => addRow py (data row) with
              | error e =>
                  rw [hrow, hrest] at h
                  cases h
                  exact ih hrest
              | ok rest =>
                  rw [hrow, hrest] at h
                  cases h
    rw [addRows] at heq
    cases hall : rows.mapM fun row => addRow py (data row) with
    | error e =>
        rw [hall] at heq
        cases heq
        exact hmap rows hall
    | ok added =>
        rw [hall] at heq
        cases heq

/-! The kinds of rows. -/

theorem modelData_not_rejected (group : CountGroup) (message : String) :
    (modelData group : Except SnapshotError (Presented F)) ≠ .error (.rejected message) := by
  unfold modelData
  intro h
  split at h
  · dsimp only at h
    split at h <;> cases h
  · cases h

theorem toolData_not_rejected (group : CountGroup) (message : String) :
    (toolData group : Except SnapshotError (Presented F)) ≠ .error (.rejected message) := by
  unfold toolData
  intro h
  split at h
  · dsimp only at h
    split at h <;> cases h
  · cases h

theorem ok_not_rejected (presented : Presented F) (message : String) :
    (Except.ok presented : Except SnapshotError (Presented F)) ≠ .error (.rejected message) := by
  intro h
  cases h

/-- The cut of the codes does not change how many dimensions there are. -/
theorem length_presentedDimensions (dimensions : List (SnapshotDimensionRow F))
    (cut : List String → List String) :
    (presentedRows (fun row => .ok (dimensionData cut row)) dimensions).length =
      (presentedRows (fun row => .ok (dimensionData id row)) dimensions).length := by
  rw [presentedRows, presentedRows, List.length_filterMap_eq_countP,
    List.length_filterMap_eq_countP]
  apply List.countP_congr
  intro row _
  change ((dimensionData cut row).1.isSome = true) ↔ ((dimensionData id row).1.isSome = true)
  unfold dimensionData
  dsimp only
  split <;> simp

/-- Nor which they are, when there are no more codes than are left. -/
theorem presentedDimensions_cut {dimensions : List (SnapshotDimensionRow F)} {most : ℕ}
    (h : ∀ row ∈ dimensions, row.name ∈ dimensionNames → row.method ∈ graderMethods →
      (supportedCodes [] row.failureCodes).length ≤ most) :
    presentedRows (fun row => .ok (dimensionData (List.take most) row)) dimensions =
      presentedRows (fun row => .ok (dimensionData id row)) dimensions := by
  apply List.filterMap_congr
  intro row hrow
  change (dimensionData (List.take most) row).1 = (dimensionData id row).1
  by_cases hname : row.name ∈ dimensionNames
  · by_cases hmethod : row.method ∈ graderMethods
    · have hcodes := h row hrow hname hmethod
      simp only [dimensionData, allow, if_pos hname, if_pos hmethod,
        List.take_of_length_le hcodes, id]
    · simp only [dimensionData, allow, if_pos hname, if_neg hmethod]
  · simp only [dimensionData, allow, if_neg hname]

variable {loaded : SnapshotLoad F}

theorem adds_nodes : Adds (addNodeSignals py loaded.nodes)
    (∀ row ∈ loaded.nodes, RowAccepted py (.ok (nodeData row)))
    (min loaded.presentedNodes.length maxWorkflowNodes)
    (loaded.presentedNodes.length ≤ maxWorkflowNodes) loaded.presentedNodes := by
  unfold addNodeSignals
  split
  · rename_i hnil
    have hnone : loaded.presentedNodes = [] := by rw [SnapshotLoad.presentedNodes, hnil]; rfl
    refine (adds_note _ fun _ => hnone).mono ?_ ?_ id fun _ => rfl
    · rw [hnil]
      simp
    · rw [hnone]
      rfl
  · exact adds_addRows (cutting_sort_take maxWorkflowNodes) fun row => ok_not_rejected _

theorem adds_outbox : Adds (addOutboxSignals py loaded.outbox)
    (∀ row ∈ loaded.outbox, RowAccepted py (.ok (outboxData row)))
    (min loaded.presentedOutbox.length maxOutboxGroups)
    (loaded.presentedOutbox.length ≤ maxOutboxGroups) loaded.presentedOutbox := by
  unfold addOutboxSignals
  split
  · rename_i hempty
    have hnil := List.isEmpty_iff.1 hempty
    have hnone : loaded.presentedOutbox = [] := by rw [SnapshotLoad.presentedOutbox, hnil]; rfl
    refine (adds_note _ fun _ => hnone).mono ?_ ?_ id fun _ => rfl
    · rw [hnil]
      simp
    · rw [hnone]
      rfl
  · exact adds_addRows (cutting_take maxOutboxGroups) fun row => ok_not_rejected _

theorem adds_dimensions :
    Adds (addRows py (fun row => .ok (dimensionData (List.take maxFailureCodesPerDimension) row))
        (List.take maxEvaluationDimensions) loaded.dimensions)
      (∀ row ∈ loaded.dimensions,
        RowAccepted py (.ok (dimensionData (List.take maxFailureCodesPerDimension) row)))
      (min loaded.presentedDimensions.length maxEvaluationDimensions)
      loaded.WithinLimits loaded.presentedDimensions := by
  refine (adds_addRows (cutting_take maxEvaluationDimensions)
    fun row => ok_not_rejected _).mono Iff.rfl ?_ ?_ ?_
  · rw [length_presentedDimensions]
    rfl
  · intro hwithin
    rw [length_presentedDimensions]
    exact hwithin.dimensions
  · exact fun hwithin => presentedDimensions_cut hwithin.codes

theorem adds_evaluation :
    Adds (addEvaluationSignals py loaded.evaluationRun loaded.dimensions)
      (∀ run, loaded.evaluationRun = some run → RowAccepted py (.ok (runData run)) ∧
        ∀ row ∈ loaded.dimensions,
          RowAccepted py (.ok (dimensionData (List.take maxFailureCodesPerDimension) row)))
      (match loaded.evaluationRun with
        | none => 0
        | some _ => loaded.presentedRun.length +
            min loaded.presentedDimensions.length maxEvaluationDimensions)
      loaded.WithinLimits (loaded.presentedRun ++ loaded.presentedDimensions) := by
  cases hrun : loaded.evaluationRun with
  | none =>
      refine (adds_note _ ?_).mono ?_ rfl id fun _ => rfl
      · intro hwithin
        rw [hwithin.run hrun, SnapshotLoad.presentedRun, hrun]
        rfl
      · simp
  | some run =>
      have hrunRow : Adds (addRows py (fun run => .ok (runData run)) id [run])
          (RowAccepted py (.ok (runData run))) loaded.presentedRun.length loaded.WithinLimits
          loaded.presentedRun := by
        rw [SnapshotLoad.presentedRun, hrun]
        refine (adds_addRows cutting_id fun row => ok_not_rejected _).mono ?_ rfl
          (fun _ => trivial) fun _ => rfl
        simp
      refine (hrunRow.thenAdd adds_dimensions).mono ?_ rfl id fun _ => rfl
      simp

theorem adds_consumer :
    Adds (addConsumerSignals py loaded.projectionEventType loaded.deadLetters)
      ((∀ event ∈ loaded.projectionEventType, RowAccepted py (.ok (projectionData event))) ∧
        ∀ row ∈ loaded.deadLetters, RowAccepted py (.ok (deadLetterData row)))
      (loaded.presentedProjection.length + min loaded.presentedDeadLetters.length maxDeadLetters)
      (loaded.presentedDeadLetters.length ≤ maxDeadLetters)
      (loaded.presentedProjection ++ loaded.presentedDeadLetters) := by
  unfold addConsumerSignals
  split
  · rename_i hnone
    have hnil := List.isEmpty_iff.1 hnone.2
    have hprojection : loaded.presentedProjection = [] := by
      rw [SnapshotLoad.presentedProjection, hnone.1]
      rfl
    have hletters : loaded.presentedDeadLetters = [] := by
      rw [SnapshotLoad.presentedDeadLetters, hnil]
      rfl
    refine (adds_note _ fun _ => ?_).mono ?_ ?_ id fun _ => rfl
    · rw [hprojection, hletters]
      rfl
    · rw [hnone.1, hnil]
      simp
    · rw [hprojection, hletters]
      rfl
  · have hprojection : Adds (addRows py (fun event => .ok (projectionData event)) id
        loaded.projectionEventType.toList) _ _ _ _ :=
      adds_addRows cutting_id fun row => ok_not_rejected _
    have hletters : Adds (addRows py (fun row => .ok (deadLetterData row))
        (List.take maxDeadLetters) loaded.deadLetters) _ _ _ _ :=
      adds_addRows (cutting_take maxDeadLetters) fun row => ok_not_rejected _
    refine ((hprojection.mono ?_ rfl (fun _ => trivial) fun _ => rfl).thenAdd hletters).mono
      Iff.rfl rfl id fun _ => rfl
    simp

/-- **What all rows add**, when the job's status is supported. -/
theorem adds_signals (hstatus : loaded.job.status ∈ jobStatuses) :
    Adds (addSignals py loaded) (loaded.RowsAccepted py) loaded.counted loaded.WithinLimits
      loaded.presented := by
  have hjob : Adds (addJobSignals py loaded.job)
      (∀ row ∈ jobData loaded.job, RowAccepted py (.ok row)) loaded.presentedJob.length
      loaded.WithinLimits loaded.presentedJob := by
    rw [addJobSignals, if_pos hstatus]
    exact (adds_addRows cutting_id fun row => ok_not_rejected row).mono Iff.rfl rfl
      (fun _ => trivial) fun _ => rfl
  have hmodels : Adds (addModelSignals py loaded.modelGroups) _ _ _ _ :=
    adds_addRows (cutting_take maxModelGroups) modelData_not_rejected
  have htools : Adds (addToolSignals py loaded.toolGroups) _ _ _ _ :=
    adds_addRows (cutting_take maxToolGroups) toolData_not_rejected
  have hrecovery : Adds (addRecoverySignals py loaded.recovery) _ _ _ _ :=
    adds_addRows (cutting_take maxRecoveryDecisions) fun row => ok_not_rejected _
  have hreviews : Adds (addReviewSignals py loaded.reviewCounts) _ _ _ _ :=
    adds_addRows cutting_id fun row => ok_not_rejected _
  have halerts : Adds (addAlertSignals py loaded.alertNames) _ _ _ _ :=
    adds_addRows cutting_id fun row => ok_not_rejected _
  refine (hjob.thenAdd <|
    (adds_nodes.mono Iff.rfl rfl SnapshotLoad.WithinLimits.nodes fun _ => rfl).thenAdd <|
    (hmodels.mono Iff.rfl rfl SnapshotLoad.WithinLimits.models fun _ => rfl).thenAdd <|
    (htools.mono Iff.rfl rfl SnapshotLoad.WithinLimits.tools fun _ => rfl).thenAdd <|
    adds_evaluation.thenAdd <|
    (hrecovery.mono Iff.rfl rfl SnapshotLoad.WithinLimits.recovery fun _ => rfl).thenAdd <|
    (hreviews.mono Iff.rfl rfl (fun _ => trivial) fun _ => rfl).thenAdd <|
    (adds_outbox.mono Iff.rfl rfl SnapshotLoad.WithinLimits.outbox fun _ => rfl).thenAdd <|
    (adds_consumer.mono Iff.rfl rfl SnapshotLoad.WithinLimits.deadLetters fun _ => rfl).thenAdd
      (halerts.mono Iff.rfl rfl (fun _ => trivial) fun _ => rfl)).mono ?_ rfl id fun _ => rfl
  constructor
  · rintro ⟨job, nodes, models, tools, evaluation, recovery, reviews, outbox,
      ⟨projection, deadLetters⟩, alerts⟩
    exact ⟨job, nodes, models, tools, evaluation, recovery, reviews, outbox, projection,
      deadLetters, alerts⟩
  · rintro ⟨job, nodes, models, tools, evaluation, recovery, reviews, outbox, projection,
      deadLetters, alerts⟩
    exact ⟨job, nodes, models, tools, evaluation, recovery, reviews, outbox,
      ⟨projection, deadLetters⟩, alerts⟩

end Adds

/-! ### The order of the rows -/

section Order

variable {F : Type} {py : PyFloat F} {x x' y y' : Except SnapshotError (Added py)} {whole : Prop}
  {loaded other : SnapshotLoad F}

/-- When the one succeeds so does the other, with what is alike. -/
def AlikeResults (whole : Prop) (x y : Except SnapshotError (Added py)) : Prop :=
  ∀ a, x = .ok a → ∃ b, y = .ok b ∧ Alike whole a b

theorem AlikeResults.refl (whole : Prop) (x : Except SnapshotError (Added py)) :
    AlikeResults whole x x := fun a ha => ⟨a, ha, Alike.refl whole a⟩

theorem AlikeResults.thenAdd (h : AlikeResults whole x y) (h' : AlikeResults whole x' y') :
    AlikeResults whole (thenAdd x x') (thenAdd y y') := by
  intro a ha
  simp only [Atlas.thenAdd, bind_eq_ok, pure_eq_ok] at ha
  obtain ⟨b, hb, c, hc, rfl⟩ := ha
  obtain ⟨b', hb', halike⟩ := h b hb
  obtain ⟨c', hc', halike'⟩ := h' c hc
  exact ⟨b'.append c', by rw [Atlas.thenAdd, hb', hc']; rfl, halike.append halike'⟩

theorem alike_rows {ρ : Type} {data : ρ → Except SnapshotError (Presented F)}
    {cut : List (AdvisorySignal py) → List (AdvisorySignal py)} {rows rows' : List ρ}
    {fits : ℕ → Prop} {size : ℕ → ℕ} (hcut : Cutting fits size cut) (hperm : rows.Perm rows')
    (hfits : whole → fits (presentedRows data rows).length) :
    AlikeResults whole (addRows py data cut rows) (addRows py data cut rows') := by
  intro a ha
  obtain ⟨b, hb, halike⟩ := addRows_alike hcut hperm ha
  exact ⟨b, hb, halike.mono hfits⟩

theorem SnapshotLoad.Reordered.refl (loaded : SnapshotLoad F) : loaded.Reordered loaded :=
  ⟨rfl, rfl, rfl, .refl _, .refl _, .refl _, .refl _, .refl _, .refl _, .refl _, .refl _, .refl _⟩

theorem alike_nodes (h : loaded.nodes.Perm other.nodes) :
    AlikeResults loaded.WithinLimits (addNodeSignals py loaded.nodes)
      (addNodeSignals py other.nodes) := by
  by_cases hnil : loaded.nodes = []
  · rw [hnil] at h
    rw [hnil, List.nil_perm.1 h]
    exact AlikeResults.refl _ _
  · have hnil' : other.nodes ≠ [] := by
      intro heq
      rw [heq] at h
      exact hnil (List.perm_nil.1 h)
    rw [addNodeSignals, addNodeSignals, if_neg hnil, if_neg hnil']
    exact alike_rows (cutting_sort_take _) h SnapshotLoad.WithinLimits.nodes

theorem alike_outbox (h : loaded.outbox.Perm other.outbox) :
    AlikeResults loaded.WithinLimits (addOutboxSignals py loaded.outbox)
      (addOutboxSignals py other.outbox) := by
  have hempty : other.outbox.isEmpty = loaded.outbox.isEmpty := h.symm.isEmpty_eq
  rw [addOutboxSignals, addOutboxSignals, hempty]
  split
  · exact AlikeResults.refl _ _
  · exact alike_rows (cutting_take _) h SnapshotLoad.WithinLimits.outbox

theorem alike_evaluation (h : loaded.dimensions.Perm other.dimensions) :
    AlikeResults loaded.WithinLimits
      (addEvaluationSignals py loaded.evaluationRun loaded.dimensions)
      (addEvaluationSignals py loaded.evaluationRun other.dimensions) := by
  unfold addEvaluationSignals
  split
  · exact AlikeResults.refl _ _
  · refine (AlikeResults.refl _ _).thenAdd (alike_rows (cutting_take _) h ?_)
    intro hwithin
    rw [length_presentedDimensions]
    exact hwithin.dimensions

theorem alike_consumer (h : loaded.deadLetters.Perm other.deadLetters) :
    AlikeResults loaded.WithinLimits
      (addConsumerSignals py loaded.projectionEventType loaded.deadLetters)
      (addConsumerSignals py loaded.projectionEventType other.deadLetters) := by
  have hempty : other.deadLetters.isEmpty = loaded.deadLetters.isEmpty := h.symm.isEmpty_eq
  rw [addConsumerSignals, addConsumerSignals, hempty]
  split
  · exact AlikeResults.refl _ _
  · exact (AlikeResults.refl _ _).thenAdd
      (alike_rows (cutting_take _) h SnapshotLoad.WithinLimits.deadLetters)

/-- **What the order of the rows can change**: the signals that are left, when some kind is over its
limit; their number and the notes stay. -/
theorem addSignals_alike (h : loaded.Reordered other) :
    AlikeResults loaded.WithinLimits (addSignals py loaded) (addSignals py other) := by
  unfold addSignals
  rw [h.job, h.evaluationRun, h.projectionEventType]
  refine (AlikeResults.refl _ _).thenAdd <| (alike_nodes h.nodes).thenAdd <|
    (alike_rows (cutting_take _) h.modelGroups SnapshotLoad.WithinLimits.models).thenAdd <|
    (alike_rows (cutting_take _) h.toolGroups SnapshotLoad.WithinLimits.tools).thenAdd <|
    (alike_evaluation h.dimensions).thenAdd <|
    (alike_rows (cutting_take _) h.recovery SnapshotLoad.WithinLimits.recovery).thenAdd <|
    (alike_rows cutting_id h.reviewCounts fun _ => trivial).thenAdd <|
    (alike_outbox h.outbox).thenAdd <| (alike_consumer h.deadLetters).thenAdd
      (alike_rows cutting_id h.alertNames fun _ => trivial)

theorem uniqueMissing_eq_of_perm {missing missing' : List String} (h : missing.Perm missing') :
    uniqueMissing missing = uniqueMissing missing' := by
  have hsorted : (missing.dedup.insertionSort fun a b => a ≤ b) =
      missing'.dedup.insertionSort fun a b => a ≤ b := by
    refine List.Perm.eq_of_pairwise' (List.pairwise_insertionSort _ _)
      (List.pairwise_insertionSort _ _) ?_
    exact (List.perm_insertionSort _ _).trans (h.dedup.trans (List.perm_insertionSort _ _).symm)
  rw [uniqueMissing, uniqueMissing, hsorted]

theorem factsOf_eq_of_alike {a b : Added py} (h : Alike whole a b) (hwhole : whole)
    (researchJobId : String) : factsOf researchJobId a = factsOf researchJobId b := by
  rw [factsOf, factsOf, sortSignals_eq_of_perm (h.pending hwhole),
    uniqueMissing_eq_of_perm h.missing]

end Order

/-! ### The facts -/

section Facts

variable {F : Type} {py : PyFloat F} {loaded other : SnapshotLoad F} {a : Added py}

/-- The facts have the signals that were left. -/
theorem signals_factsOf (researchJobId : String) (a : Added py) :
    (factsOf researchJobId a).signals.map (fun p => p.2) = sortSignals a.pending := by
  have hfst : ∀ (l : List (AdvisorySignal py)) (n : ℕ),
      ((l.zipIdx n).map fun p => (signalId p.2, p.1)).map (fun p => p.2) = l := by
    intro l n
    rw [List.map_map]
    exact List.zipIdx_map_fst n l
  exact hfst _ _

theorem perm_signals_factsOf (researchJobId : String) (a : Added py) :
    ((factsOf researchJobId a).signals.map fun p => p.2.toSignalData).Perm
      (a.pending.map fun s => s.toSignalData) := by
  have h := congrArg (List.map fun s : AdvisorySignal py => s.toSignalData)
    (signals_factsOf researchJobId a)
  rw [List.map_map] at h
  rw [show ((factsOf researchJobId a).signals.map fun p => p.2.toSignalData) = _ from h]
  exact (perm_sortSignals a.pending).map _

theorem length_factsOf (researchJobId : String) (a : Added py) :
    (factsOf researchJobId a).signals.length = a.pending.length := by
  have h := congrArg List.length (signals_factsOf researchJobId a)
  rw [List.length_map, (perm_sortSignals a.pending).length_eq] at h
  exact h

/-- The ways an assembly ends. -/
theorem assembleFacts_of_ok (h : addSignals py loaded = .ok a) :
    assembleFacts py loaded =
      if a.pending.length ≤ maxSignals then
        if JobIdAccepted loaded.job.researchJobId then
          if (canonicalFactsJson (factsOf loaded.job.researchJobId a)).utf8ByteSize ≤
              maxFactsUtf8Bytes then
            .ok (factsOf loaded.job.researchJobId a)
          else .error (.rejected "advisory snapshot exceeds byte bound")
        else .error .validation
      else .error (.rejected "advisory snapshot exceeds signal bound") := by
  have hbind : ∀ {α β : Type} (b : α) (k : α → Except SnapshotError β),
      (Except.ok b >>= k) = k b := fun _ _ => rfl
  have hensure : ∀ {β : Type} (p : Prop) [Decidable p] (e : SnapshotError)
      (k : Unit → Except SnapshotError β),
      (ensure p e >>= k) = if p then k () else .error e := by
    intro β p _ e k
    by_cases hp : p
    · rw [if_pos hp, ensure, if_pos hp]
      rfl
    · rw [if_neg hp, ensure, if_neg hp]
      rfl
  rw [assembleFacts, h, hbind, hensure, hensure]
  simp only [hensure, pure, Except.pure]

theorem assembleFacts_of_error {e : SnapshotError} (h : addSignals py loaded = .error e) :
    assembleFacts py loaded = .error e := by
  rw [assembleFacts, h]
  rfl

theorem addSignals_unsupported (h : loaded.job.status ∉ jobStatuses) :
    addSignals py loaded = .error (.rejected "job status is unsupported") := by
  rw [addSignals, thenAdd, addJobSignals, if_neg h]
  rfl

/-- Too many codes for one signal. -/
theorem codes_of_accepted {s : AdvisorySignal py} (htype : s.signalType = .evaluationDimension)
    {codes : List String} (hcodes : ("failure_codes", .codes codes) ∈ s.present) :
    codes.length ≤ maxFailureCodesPerDimension := by
  obtain ⟨field, hmem, hname⟩ := mem_present.1 hcodes
  have haccepts : field.check.accepts py (.codes codes) = true := s.accepted.2.1 _ hmem
  have hfield : field ∈ contractFields s.signalType := (List.of_mem_zip hmem).1
  rw [htype] at hfield
  have hcheck : ∀ field ∈ contractFields .evaluationDimension, field.name = "failure_codes" →
      field.check = .codes advisoryFailureCodes maxFailureCodesPerDimension := by decide
  rw [hcheck field hfield hname] at haccepts
  exact (of_decide_eq_true haccepts).1

/-- **Over a limit something is dropped.** -/
theorem dropped_of_not_within (hstatus : loaded.job.status ∈ jobStatuses)
    (h : addSignals py loaded = .ok a) (hover : ¬ loaded.WithinLimits) :
    ¬ loaded.presented.Subperm (a.pending.map fun s => s.toSignalData) := by
  intro hsub
  obtain ⟨-, hcount, -⟩ := (adds_signals hstatus).ok a h
  have hlength := hsub.length_le
  rw [List.length_map, hcount] at hlength
  -- every kind is within its limit, since none of its records is missing
  have hkinds : loaded.presentedNodes.length ≤ maxWorkflowNodes ∧
      loaded.presentedModels.length ≤ maxModelGroups ∧
      loaded.presentedTools.length ≤ maxToolGroups ∧
      loaded.presentedDimensions.length ≤ maxEvaluationDimensions ∧
      (loaded.evaluationRun = none → loaded.presentedDimensions.length = 0) ∧
      loaded.presentedRecovery.length ≤ maxRecoveryDecisions ∧
      loaded.presentedOutbox.length ≤ maxOutboxGroups ∧
      loaded.presentedDeadLetters.length ≤ maxDeadLetters := by
    simp only [SnapshotLoad.presented, SnapshotLoad.counted, List.length_append] at hlength
    cases hrun : loaded.evaluationRun with
    | none =>
        simp only [hrun] at hlength
        simp only [maxWorkflowNodes, maxModelGroups, maxToolGroups, maxEvaluationDimensions,
          maxRecoveryDecisions, maxOutboxGroups, maxDeadLetters] at hlength ⊢
        omega
    | some run =>
        simp only [hrun] at hlength
        simp only [maxWorkflowNodes, maxModelGroups, maxToolGroups, maxEvaluationDimensions,
          maxRecoveryDecisions, maxOutboxGroups, maxDeadLetters, reduceCtorEq, false_implies,
          true_and] at hlength ⊢
        omega
  obtain ⟨hnodes, hmodels, htools, hdimensions, hrun, hrecovery, houtbox, hletters⟩ := hkinds
  apply hover
  refine ⟨hnodes, hmodels, htools, hdimensions, fun hnone => List.length_eq_zero_iff.1 (hrun hnone),
    ?_, hrecovery, houtbox, hletters⟩
  intro row hrow hname hmethod
  -- the record of the dimension is among the signals, with all its codes
  have hdata : (dimensionData id row).1 = some ⟨.evaluationDimension,
      [some (.codes (supportedCodes [] row.failureCodes)), some (.str row.method),
        some (.str row.name), some (.bool row.passed), some (.float row.score)]⟩ := by
    simp only [dimensionData, allow, if_pos hname, if_pos hmethod, id]
  have hmem : (⟨.evaluationDimension,
      [some (.codes (supportedCodes [] row.failureCodes)), some (.str row.method),
        some (.str row.name), some (.bool row.passed), some (.float row.score)]⟩ :
          SignalData F) ∈ loaded.presentedDimensions :=
    List.mem_filterMap.2 ⟨row, hrow, hdata⟩
  have hpresented : loaded.presentedDimensions ⊆ loaded.presented := by
    intro data hdata
    simp only [SnapshotLoad.presented, List.mem_append]
    exact .inr (.inr (.inr (.inr (.inl (.inr hdata)))))
  obtain ⟨s, -, hs⟩ := List.mem_map.1 (hsub.subset (hpresented hmem))
  have htype : s.signalType = .evaluationDimension := congrArg SignalData.signalType hs
  refine codes_of_accepted htype ?_
  rw [hs]
  exact List.mem_cons_self

theorem facts_of_assembled {facts : AdvisoryIncidentFacts py} (hadded : addSignals py loaded = .ok a)
    (h : assembleFacts py loaded = .ok facts) :
    facts = factsOf loaded.job.researchJobId a ∧ a.pending.length ≤ maxSignals ∧
      (canonicalFactsJson facts).utf8ByteSize ≤ maxFactsUtf8Bytes := by
  rw [assembleFacts_of_ok hadded] at h
  split at h
  · rename_i hfew
    split at h
    · split at h
      · rename_i hsmall
        cases h
        exact ⟨rfl, hfew, hsmall⟩
      · cases h
    · cases h
  · cases h

/-- Accepted facts are within the bounds, whatever the load. -/
theorem facts_bounded (loaded : SnapshotLoad F) (facts : AdvisoryIncidentFacts py)
    (h : assembleFacts py loaded = .ok facts) :
    facts.signals.length ≤ maxSignals ∧
      (canonicalFactsJson facts).utf8ByteSize ≤ maxFactsUtf8Bytes := by
  cases hadded : addSignals py loaded with
  | error e =>
      rw [assembleFacts_of_error hadded] at h
      cases h
  | ok a =>
      obtain ⟨rfl, hfew, hsmall⟩ := facts_of_assembled hadded h
      rw [length_factsOf]
      exact ⟨hfew, hsmall⟩

/-- What is assembled faithfully is whole. -/
theorem AssembledFaithfully.whole (hf : AssembledFaithfully py loaded) : loaded.Whole py := by
  by_cases hstatus : loaded.job.status ∈ jobStatuses
  · have hadds : Adds (addSignals py loaded) _ _ _ _ := adds_signals hstatus
    cases hadded : addSignals py loaded with
    | error e =>
        -- an error that is no rejection
        have hassemble := assembleFacts_of_error hadded
        rcases hf.nothingDropped with ⟨message, hrejected⟩ | ⟨facts, hok, -⟩
        · rw [hassemble] at hrejected
          cases hrejected
          exact absurd hadded (hadds.unrejected message)
        · rw [hassemble] at hok
          cases hok
    | ok a =>
        obtain ⟨haccepted, hcount, -⟩ := hadds.ok a hadded
        have hassemble := assembleFacts_of_ok hadded
        refine .inr ⟨haccepted, ?_⟩
        by_cases hmany : maxSignals < loaded.counted
        · exact .inl hmany
        · have hfew : a.pending.length ≤ maxSignals := by
            rw [hcount]
            exact Nat.le_of_not_lt hmany
          rw [if_pos hfew] at hassemble
          by_cases hjob : JobIdAccepted loaded.job.researchJobId
          · refine .inr ⟨hjob, ?_⟩
            by_cases hwithin : loaded.WithinLimits
            · exact .inl hwithin
            · refine .inr fun other hother => ?_
              obtain ⟨b, hb, halike⟩ := addSignals_alike hother a hadded
              refine ⟨b, hb, Nat.lt_of_not_le fun hsmall => ?_⟩
              -- the other order would be assembled, and so would this one
              have hother' : assembleFacts py other = .ok (factsOf other.job.researchJobId b) := by
                rw [assembleFacts_of_ok hb, if_pos (halike.length ▸ hfew), hother.job, if_pos hjob,
                  ← hother.job, if_pos hsmall]
              have hsame := hf.sameInAnyOrder other hother
              rcases hf.nothingDropped with ⟨message, hrejected⟩ | ⟨facts, hok, hsub⟩
              · rw [← hsame, hother'] at hrejected
                cases hrejected
              · obtain ⟨rfl, -, -⟩ := facts_of_assembled hadded hok
                exact dropped_of_not_within hstatus hadded hwithin
                  (hsub.trans (perm_signals_factsOf _ a).subperm)
          · rw [if_neg hjob] at hassemble
            rcases hf.nothingDropped with ⟨message, hrejected⟩ | ⟨facts, hok, -⟩
            · rw [hassemble] at hrejected
              cases hrejected
            · rw [hassemble] at hok
              cases hok
  · exact .inl hstatus

theorem faithful_of_unsupported (hstatus : loaded.job.status ∉ jobStatuses) :
    AssembledFaithfully py loaded := by
  have hrejected : ∀ other : SnapshotLoad F, other.job.status ∉ jobStatuses →
      assembleFacts py other = .error (.rejected "job status is unsupported") := fun other hother =>
    assembleFacts_of_error (addSignals_unsupported hother)
  refine ⟨?_, .inl ⟨_, hrejected loaded hstatus⟩, facts_bounded loaded⟩
  intro other hother
  rw [hrejected loaded hstatus, hrejected other (by rw [hother.job]; exact hstatus)]

/-- What is whole is assembled faithfully. -/
theorem SnapshotLoad.Whole.faithful (h : loaded.Whole py) : AssembledFaithfully py loaded := by
  rcases h with hstatus | ⟨haccepted, h⟩
  · exact faithful_of_unsupported hstatus
  · by_cases hstatus : loaded.job.status ∈ jobStatuses
    · have hadds : Adds (addSignals py loaded) _ _ _ _ := adds_signals hstatus
      obtain ⟨a, hadded⟩ := hadds.succeeds haccepted
      obtain ⟨-, hcount, hshown⟩ := hadds.ok a hadded
      rcases h with hmany | ⟨hjob, hwithin | hlarge⟩
      · -- too many signals in any order
        have hrejected : ∀ b : Added py, a.pending.length = b.pending.length →
            ¬ b.pending.length ≤ maxSignals := by
          intro b hlength
          rw [← hlength, hcount]
          exact Nat.not_le_of_lt hmany
        have hassemble := assembleFacts_of_ok hadded
        rw [if_neg (hrejected a rfl)] at hassemble
        refine ⟨?_, .inl ⟨_, hassemble⟩, facts_bounded loaded⟩
        intro other hother
        obtain ⟨b, hb, halike⟩ := addSignals_alike hother a hadded
        rw [hassemble, assembleFacts_of_ok hb, if_neg (hrejected b halike.length)]
      · -- the same signals in any order
        refine ⟨?_, ?_, facts_bounded loaded⟩
        · intro other hother
          obtain ⟨b, hb, halike⟩ := addSignals_alike hother a hadded
          rw [assembleFacts_of_ok hb, assembleFacts_of_ok hadded, hother.job, halike.length,
            factsOf_eq_of_alike halike hwithin]
        · have hassemble := assembleFacts_of_ok hadded
          rw [if_pos hjob] at hassemble
          by_cases hfew : a.pending.length ≤ maxSignals
          · rw [if_pos hfew] at hassemble
            by_cases hsmall : (canonicalFactsJson
                (factsOf loaded.job.researchJobId a)).utf8ByteSize ≤ maxFactsUtf8Bytes
            · rw [if_pos hsmall] at hassemble
              refine .inr ⟨_, hassemble, ?_⟩
              exact ((hshown hwithin).symm.trans (perm_signals_factsOf _ a).symm).subperm
            · rw [if_neg hsmall] at hassemble
              exact .inl ⟨_, hassemble⟩
          · rw [if_neg hfew] at hassemble
            exact .inl ⟨_, hassemble⟩
      · -- too many bytes in any order
        have hrejected : ∀ other : SnapshotLoad F, loaded.Reordered other →
            assembleFacts py other = if a.pending.length ≤ maxSignals then
              .error (.rejected "advisory snapshot exceeds byte bound")
            else .error (.rejected "advisory snapshot exceeds signal bound") := by
          intro other hother
          obtain ⟨b, hb, hbytes⟩ := hlarge other hother
          obtain ⟨b', hb', halike⟩ := addSignals_alike hother a hadded
          rw [hb] at hb'
          cases hb'
          rw [assembleFacts_of_ok hb, halike.length, if_neg (Nat.not_le_of_lt hbytes), hother.job,
            if_pos hjob]
        have hassemble := hrejected loaded (SnapshotLoad.Reordered.refl loaded)
        refine ⟨?_, .inl ?_, facts_bounded loaded⟩
        · intro other hother
          rw [hrejected other hother, hassemble]
        · rw [hassemble]
          split
          · exact ⟨_, rfl⟩
          · exact ⟨_, rfl⟩
    · exact faithful_of_unsupported hstatus

/-- **The exact condition**: the facts are assembled faithfully when nothing is cut off, or all is
rejected. -/
theorem facts_assembled_faithfully (py : PyFloat F) (loaded : SnapshotLoad F) :
    AssembledFaithfully py loaded ↔ loaded.Whole py :=
  ⟨AssembledFaithfully.whole, SnapshotLoad.Whole.faithful⟩

end Facts

/-! ### Nine groups of one tool -/

/-- The two scores `0.0` and `1.0`. -/
def endScores : PyFloat Bool where
  inUnit _ := true
  repr b := if b then "1.0" else "0.0"
  repr_injective := by
    intro a b
    cases a <;> cases b <;> decide

/-- A job whose calls of one tool failed in nine ways: one group more than are kept. -/
def nineToolGroups : SnapshotLoad Bool where
  job := ⟨"job-1", "FAILED", none, "NONE", 0, 0, 0⟩
  toolGroups := (toolRetryClasses.take 9).map fun retryClass =>
    ⟨["fetch_url", "fake", "FAILED", retryClass], 1⟩

theorem added_nineToolGroups : ∃ a, addSignals endScores nineToolGroups = .ok a ∧
    a.pending.length ≤ maxSignals ∧
    Json.byteLength (Json.print (Json.sorted (factsOf "job-1" a).modelDump)) ≤
      maxFactsUtf8Bytes := by
  have hchecked : (match addSignals endScores nineToolGroups with
      | .ok a => decide (a.pending.length ≤ maxSignals ∧
          Json.byteLength (Json.print (Json.sorted (factsOf "job-1" a).modelDump)) ≤
            maxFactsUtf8Bytes)
      | .error _ => false) = true := by
    decide +kernel
  cases hadded : addSignals endScores nineToolGroups with
  | error e =>
      rw [hadded] at hchecked
      cases hchecked
  | ok a =>
      rw [hadded] at hchecked
      exact ⟨a, rfl, of_decide_eq_true hchecked⟩

/-- The ninth group is cut off, and nothing says so. -/
theorem nineToolGroups_not_faithful : ¬ AssembledFaithfully endScores nineToolGroups := by
  intro hf
  obtain ⟨a, hadded, hfew, hsmall⟩ := added_nineToolGroups
  have hassemble := assembleFacts_of_ok hadded
  have hbytes : (canonicalFactsJson (factsOf nineToolGroups.job.researchJobId a)).utf8ByteSize ≤
      maxFactsUtf8Bytes := by
    rw [canonicalFactsJson, Json.dumps, Json.utf8ByteSize_ofList]
    exact hsmall
  rw [if_pos hfew, if_pos (by decide), if_pos hbytes] at hassemble
  have hover : ¬ nineToolGroups.WithinLimits := fun hwithin =>
    absurd hwithin.tools (by decide)
  rcases hf.nothingDropped with ⟨message, hrejected⟩ | ⟨facts, hok, hsub⟩
  · rw [hassemble] at hrejected
    cases hrejected
  · obtain ⟨rfl, -, -⟩ := facts_of_assembled hadded hok
    exact dropped_of_not_within (by decide) hadded hover
      (hsub.trans (perm_signals_factsOf _ a).subperm)

end Atlas
