/-
**The fingerprint of what is graded.**

`evaluation/fingerprint.py` hashes the canonical JSON of a grading snapshot, and `evaluation/runner.py`
finds stored evaluations and approvals by the hash.  Claims, linked identifiers, rows of the tool
ledger and excerpts stand in the snapshot in a sorted order; drafts, findings and the texts of claims
and excerpts by their hashes.

Main definitions:

* `Atlas.assembleSemanticGradeRequest` — the bounded input of the semantic grader;
* `Atlas.gradingPayload`, `Atlas.fingerprintGradingSnapshot` — the snapshot and its hash;
* `Atlas.EvaluationRunner`, `Atlas.GradingInput` — a runner, and what it loads for a candidate;
* `Atlas.EvaluationRunner.payload`, `Atlas.EvaluationRunner.grade` — its snapshot and its grades.

Main results:

* `Atlas.aggregateDimensions_withoutCodes` — failure codes are of no matter to the verdict;
* `Atlas.SameSnapshot` — what two inputs with one snapshot have in common;
* `Atlas.fingerprint_determines_verdict` — **one snapshot, one verdict**.
-/

import Atlas.Graders
import Atlas.PythonJson

set_option relaxedAutoImplicit false
set_option autoImplicit false

namespace Python

/-- A character as `json.dumps` writes it with `ensure_ascii=True`, where it is left raw else. -/
def asciiChar (c : Char) : List Char := if c.toNat ≤ 126 then [c] else jsonChar c

/-- `json.dumps(value, sort_keys=True, separators=(",", ":"))`. -/
def Json.dumpsAscii (v : Json) : String := String.ofList ((Json.dumps v).toList.flatMap asciiChar)

end Python

namespace Atlas

open Python Checked

/-! ### The input of the semantic grader -/

/-- Errors while a candidate is graded: `EvaluationValidationError`, a field of a contract, and what
a live grader raises. -/
inductive GradingError where
  | validation (message : String)
  | contract (field : String)
  | grader (exc : Exc)
  deriving DecidableEq, Repr

/-- Approved evidence-view fields used to assemble excerpts. -/
structure SemanticExcerptSource where
  evidenceItemId : String
  trustLabel : String
  text : String
  deriving DecidableEq, Repr

def maxClaimsPerDraft : ℕ := 20
def maxSemanticClaimCodePoints : ℕ := 500
def maxEvidenceItemsToDrafter : ℕ := 8
def maxEvidenceCharsPerItemInDraft : ℕ := 1500
def maxDraftEvidenceContextBytes : ℕ := 12000
def maxSemanticUserPayloadBytes : ℕ := 16384

/-- `truncate_display_text`. -/
def truncateDisplayText (text : String) (maxCodePoints : ℕ) : String :=
  String.ofList (text.toList.take maxCodePoints)

/-- The contract of a claim for the grader. -/
def SemanticClaimInput.make (claimOrdinal : ℕ) (text : String) (evidenceItemIds : List String) :
    Except GradingError SemanticClaimInput := do
  ensure (1 ≤ claimOrdinal ∧ claimOrdinal ≤ maxClaimsPerDraft) (.contract "claim_ordinal")
  ensure (1 ≤ text.length ∧ text.length ≤ maxSemanticClaimCodePoints ∧ strip text ≠ "")
    (.contract "text")
  ensure (1 ≤ evidenceItemIds.length ∧ evidenceItemIds.length ≤ maxEvidenceIdsPerClaim ∧
    ∀ itemId ∈ evidenceItemIds, strip itemId ≠ "") (.contract "evidence_item_ids")
  return ⟨claimOrdinal, strip text, evidenceItemIds.map strip⟩

/-- The contract of an excerpt for the grader. -/
def SemanticExcerptInput.make (evidenceItemId trustLabel text : String) :
    Except GradingError SemanticExcerptInput := do
  ensure (strip evidenceItemId ≠ "") (.contract "evidence_item_id")
  ensure (strip trustLabel ≠ "") (.contract "trust_label")
  ensure (1 ≤ text.length ∧ text.length ≤ maxEvidenceCharsPerItemInDraft) (.contract "text")
  return ⟨strip evidenceItemId, strip trustLabel, text⟩

/-- The contract of a request. -/
def SemanticGradeRequest.make (jobId : String) (claims : List SemanticClaimInput)
    (excerpts : List SemanticExcerptInput) : Except GradingError SemanticGradeRequest := do
  ensure (strip jobId ≠ "") (.contract "job_id")
  ensure (claims.length ≤ maxClaimsPerDraft) (.contract "claims")
  ensure (excerpts.length ≤ maxEvidenceItemsToDrafter) (.contract "excerpts")
  return ⟨strip jobId, claims, excerpts⟩

/-- The claims of a request, numbered from an ordinal on. -/
def assembleClaims : ℕ → List ClaimStructured → Except GradingError (List SemanticClaimInput)
  | _, [] => .ok []
  | index, claim :: claims => do
      let truncatedText := truncateDisplayText (strip claim.text) maxSemanticClaimCodePoints
      ensure (truncatedText ≠ "") (.validation "Semantic grader claim text is empty.")
      let input ← SemanticClaimInput.make index truncatedText
        (claim.evidenceItemIds.take maxEvidenceIdsPerClaim)
      let inputs ← assembleClaims (index + 1) claims
      return input :: inputs

/-- The identifiers that are cited and linked, in order, as many as a drafter gets. -/
def selectedIds (citedIds : List String) (linkedIds : StrSet) : List String :=
  ((citedIds.dedup.filter fun itemId => itemId ∈ linkedIds.items).insertionSort (· ≤ ·)).take
    maxEvidenceItemsToDrafter

/-- The excerpts of a request: as many as there is room for, up to the first that does not fit. -/
def assembleExcerpts (sources : List SemanticExcerptSource) : ℕ → List String →
    Except GradingError (List SemanticExcerptInput)
  | _, [] => .ok []
  | excerptBytes, itemId :: itemIds =>
      match sources.find? fun source => itemId ≠ "" && strip source.evidenceItemId = itemId with
      | none => assembleExcerpts sources excerptBytes itemIds
      | some source =>
          let truncated := truncateDisplayText source.text maxEvidenceCharsPerItemInDraft
          if strip truncated = "" then assembleExcerpts sources excerptBytes itemIds
          else if maxDraftEvidenceContextBytes < excerptBytes + truncated.utf8ByteSize then .ok []
          else do
            let excerpt ← SemanticExcerptInput.make itemId source.trustLabel truncated
            let excerpts ← assembleExcerpts sources (excerptBytes + truncated.utf8ByteSize) itemIds
            return excerpt :: excerpts

/-- The user prompt of `render_semantic_prompts`. -/
def renderUserPrompt (request : SemanticGradeRequest) : String :=
  let claimLines := request.claims.map fun item => toString item.claimOrdinal ++ ". " ++ item.text
    ++ " [evidence_item_ids=" ++ ",".intercalate item.evidenceItemIds ++ "]"
  let excerptLines := request.excerpts.map fun item => "- id=" ++ item.evidenceItemId ++ " trust="
    ++ item.trustLabel ++ " text=" ++ item.text
  "BEGIN_UNTRUSTED_CLAIMS\n" ++ (if claimLines = [] then "(none)" else "\n".intercalate claimLines)
    ++ "\nEND_UNTRUSTED_CLAIMS\n\nBEGIN_UNTRUSTED_EVIDENCE\n"
    ++ (if excerptLines = [] then "(none)" else "\n".intercalate excerptLines)
    ++ "\nEND_UNTRUSTED_EVIDENCE"

/-- Build a bounded request from claims and job-linked excerpt sources. -/
def assembleSemanticGradeRequest (jobId : String) (claims : List ClaimStructured)
    (linkedIds : StrSet) (sources : List SemanticExcerptSource) :
    Except GradingError SemanticGradeRequest := do
  ensure (claims.length ≤ maxClaimsPerDraft)
    (.validation "Semantic grader claim count exceeds bound.")
  let inputs ← assembleClaims 1 claims
  let excerpts ← assembleExcerpts sources 0 (selectedIds
    (claims.flatMap fun claim => claim.evidenceItemIds.take maxEvidenceIdsPerClaim) linkedIds)
  let request ← SemanticGradeRequest.make jobId inputs excerpts
  ensure ((renderUserPrompt request).utf8ByteSize ≤ maxSemanticUserPayloadBytes)
    (.validation "Semantic grader user payload exceeds the prompt budget.")
  return request

/-! ### The snapshot -/

/-- The row of a claim: the hash of its text, and what it cites in order. -/
def claimFingerprintRow (sha256 : String → String) (claim : ClaimStructured) : String × List String :=
  (sha256 claim.text, claim.evidenceItemIds.insertionSort (· ≤ ·))

/-- The order of the rows of claims. -/
def claimFingerprintLe (a b : String × List String) : Prop := a.1 < b.1 ∨ a.1 = b.1 ∧ a.2 ≤ b.2

instance : DecidableRel claimFingerprintLe := fun a b =>
  inferInstanceAs (Decidable (a.1 < b.1 ∨ a.1 = b.1 ∧ a.2 ≤ b.2))

def claimFingerprintJson (row : String × List String) : Json :=
  .obj [("text_sha256", .str row.1), ("evidence_item_ids", .arr (row.2.map .str))]

/-- `_claims_canonical`. -/
def claimsCanonical (sha256 : String → String) (claims : List ClaimStructured) : Json :=
  .arr (((claims.map (claimFingerprintRow sha256)).insertionSort claimFingerprintLe).map claimFingerprintJson)

/-- The key that rows of the tool ledger are sorted by. -/
def ToolSummaryRow.key (row : ToolSummaryRow) : List String :=
  [row.origin, row.nodeName, row.toolId, row.status]

def ToolSummaryRow.json (row : ToolSummaryRow) : Json :=
  .obj [("node_name", .str row.nodeName), ("origin", .str row.origin), ("tool_id", .str row.toolId),
    ("status", .str row.status)]

/-- `_tool_rows_canonical`. -/
def toolRowsCanonical (toolRows : List ToolSummaryRow) : Json :=
  .arr ((toolRows.insertionSort fun a b => a.key ≤ b.key).map ToolSummaryRow.json)

/-- The row of an excerpt. -/
def excerptRow (sha256 : String → String) (excerpt : SemanticExcerptInput) : String × String :=
  (excerpt.evidenceItemId, sha256 excerpt.text)

def excerptRowJson (row : String × String) : Json :=
  .obj [("evidence_item_id", .str row.1), ("text_sha256", .str row.2)]

/-- `excerpt_fingerprint_rows`. -/
def excerptFingerprintRows (sha256 : String → String) (excerpts : List SemanticExcerptInput) : Json :=
  .arr (((excerpts.map (excerptRow sha256)).insertionSort fun a b => a.1 ≤ b.1).map excerptRowJson)

/-- Which grader the semantic dimension has, and what it is given. -/
inductive SemanticIdentity where
  | skipped
  | fake (request : SemanticGradeRequest)
  /-- With the provider, the name of the model and the text of the temperature. -/
  | live (request : SemanticGradeRequest) (provider modelName temperature : String)

/-- The part of the snapshot about the semantic dimension. -/
def SemanticIdentity.json (sha256 : String → String) : SemanticIdentity → Json
  | skipped => .obj (fields [] (.arr []) "skipped" "skipped")
  | fake request => .obj (fields request.claims (excerptFingerprintRows sha256 request.excerpts)
      "fake.llm.v1" "semantic_groundedness.v1")
  | live request provider modelName temperature => .obj (fields request.claims
      (excerptFingerprintRows sha256 request.excerpts) "semantic_groundedness.v1"
        "semantic_groundedness.v1" ++ [("provider", .str provider), ("model_name", .str modelName),
          ("temperature", .float temperature)])
where
  fields (claims : List SemanticClaimInput) (excerpts : Json) (graderVersion promptVersion : String) :
      List (String × Json) :=
    [("claim_text_sha256", .arr (claims.map fun claim => .str (sha256 claim.text))),
      ("excerpts", excerpts), ("grader_version", .str graderVersion),
      ("prompt_version", .str promptVersion)]

/-- The snapshot that `fingerprint_grading_snapshot` hashes. -/
def gradingPayload (sha256 : String → String) (candidate : EvaluationCandidateInput)
    (linkedIds : StrSet) (toolRows : List ToolSummaryRow) (provenanceOk : Bool)
    (maxLogicalCalls : ℤ) (semantic : SemanticIdentity) : Json :=
  .obj [("claims", claimsCanonical sha256 candidate.claims),
    ("draft_sha256", .str (sha256 candidate.draft)),
    ("evaluation_attempt", .int candidate.evaluationAttempt),
    ("findings_sha256", .arr (candidate.findings.map fun finding => .str (sha256 finding))),
    ("job_id", .str candidate.jobId),
    ("linked_evidence_ids", .arr ((linkedIds.items.insertionSort (· ≤ ·)).map .str)),
    ("plan", .arr (candidate.plan.map .str)),
    ("profile", .str candidate.evaluationProfile.value),
    ("provenance_ok", .bool provenanceOk),
    ("repair_count", .int candidate.repairCount),
    ("semantic", semantic.json sha256),
    ("tool_budget", .obj [("logical_call_count", .int toolRows.length),
      ("max_logical_calls", .int maxLogicalCalls)]),
    ("tool_rows", toolRowsCanonical toolRows)]

/-- `fingerprint_grading_snapshot`. -/
def fingerprintGradingSnapshot (sha256 : String → String) (payload : Json) : String :=
  sha256 payload.dumpsAscii

/-! ### The runner -/

inductive SemanticGrader where
  | fake
  | live (grade : SemanticGradeRequest → Except Exc GradedDimension)

/-- An evaluation runner, by its configuration. -/
structure EvaluationRunner where
  semanticGrader : Option SemanticGrader
  minLinked : ℤ
  maxLogicalCalls : ℤ
  semanticModelProvider : Option String
  semanticModelName : Option String
  semanticTemperature : Option String

/-- A candidate with what is loaded for it: linked identifiers, rows of the tool ledger, whether its
provenance is intact, and the sources of excerpts. -/
structure GradingInput where
  candidate : EvaluationCandidateInput
  linkedIds : StrSet
  toolRows : List ToolSummaryRow
  provenanceOk : Bool
  loadExcerptSources : List String → List SemanticExcerptSource

namespace EvaluationRunner

/-- `_assert_profile_matches_grader`. -/
def assertProfileMatchesGrader (runner : EvaluationRunner) :
    EvaluationProfile → Except GradingError Unit
  | .candidate =>
      match runner.semanticGrader with
      | none => .ok ()
      | some _ =>
          .error (.validation "evaluation.candidate.v1 requires skipped semantic grading")
  | .candidateFake =>
      match runner.semanticGrader with
      | some .fake => .ok ()
      | _ => .error (.validation "evaluation.candidate.fake.v1 requires fake semantic grading")
  | .v1 =>
      match runner.semanticGrader with
      | some (.live _) => .ok ()
      | _ => .error (.validation "evaluation.v1 requires live semantic grading")

/-- `_assemble_semantic_request`. -/
def assembleRequest (input : GradingInput) : Except GradingError SemanticGradeRequest :=
  assembleSemanticGradeRequest input.candidate.jobId input.candidate.claims input.linkedIds
    (input.loadExcerptSources (selectedIds (input.candidate.claims.flatMap (·.evidenceItemIds))
      input.linkedIds))

/-- `_semantic_fingerprint_inputs` and `_live_fingerprint_identity`. -/
def semanticIdentity (runner : EvaluationRunner) (input : GradingInput) :
    Except GradingError SemanticIdentity :=
  match runner.semanticGrader with
  | none => .ok .skipped
  | some .fake => do
      let request ← assembleRequest input
      return .fake request
  | some (.live _) => do
      let request ← assembleRequest input
      match runner.semanticModelProvider, runner.semanticModelName, runner.semanticTemperature with
      | some provider, some modelName, some temperature =>
          return .live request provider modelName temperature
      | _, _, _ =>
          throw (.validation "live semantic fingerprints require provider/model/temperature")

/-- The snapshot that a run of the runner is fingerprinted by. -/
def payload (sha256 : String → String) (runner : EvaluationRunner) (input : GradingInput) :
    Except GradingError Json := do
  runner.assertProfileMatchesGrader input.candidate.evaluationProfile
  let semantic ← runner.semanticIdentity input
  return gradingPayload sha256 input.candidate input.linkedIds input.toolRows input.provenanceOk
    runner.maxLogicalCalls semantic

/-- The fingerprint that stored evaluations and approvals are found by. -/
def fingerprint (sha256 : String → String) (runner : EvaluationRunner) (input : GradingInput) :
    Except GradingError String := do
  let snapshot ← runner.payload sha256 input
  return fingerprintGradingSnapshot sha256 snapshot

/-- The deterministic dimensions of `_grade`. -/
def deterministicDimensions (runner : EvaluationRunner) (input : GradingInput) :
    List GradedDimension :=
  let candidate := input.candidate
  let preview := formatResearchReport candidate.question candidate.plan candidate.findings
    candidate.draft candidate.claims
  [gradeCitationIntegrity candidate input.linkedIds input.provenanceOk,
    gradeToolUse input.toolRows runner.maxLogicalCalls true,
    gradeReportStructure preview candidate.draft candidate.plan,
    gradeCoverage input.linkedIds.items.length (candidate.claims ≠ []) runner.minLinked
      candidate.goldenFacetsHit,
    gradeCompleteness candidate.plan candidate.findings candidate.draft
      candidate.goldenCompletenessRatio,
    gradeLexicalIdGroundedness candidate.claims input.linkedIds]

/-- `_grade`: the deterministic dimensions, and the semantic one. -/
def grade (runner : EvaluationRunner) (input : GradingInput) :
    Except GradingError (List GradedDimension) :=
  let dimensions := runner.deterministicDimensions input
  match runner.semanticGrader with
  | none => .ok (dimensions ++ [skippedSemanticDimension])
  | some .fake => do
      let request ← assembleRequest input
      return dimensions ++ [gradeFakeSemantic request]
  | some (.live gradeLive) => do
      let request ← assembleRequest input
      match gradeLive request with
      | .ok dimension => return dimensions ++ [dimension]
      | .error exc => .error (.grader exc)

end EvaluationRunner

/-! ### Failure codes and the verdict -/

section Codes

variable {dimensions dimensions' : List GradedDimension}

theorem stamp_withoutCodes (weights : List (DimensionName × ℚ)) (item : GradedDimension) :
    stamp weights item.withoutCodes = (stamp weights item).withoutCodes := by
  rw [stamp, stamp]
  by_cases hskipped : item.method = .skipped
  · have hskipped' : item.withoutCodes.method = .skipped := hskipped
    rw [if_pos hskipped', if_pos hskipped]
    rfl
  · have hskipped' : item.withoutCodes.method ≠ .skipped := hskipped
    rw [if_neg hskipped', if_neg hskipped]
    rfl

theorem semanticPresent_withoutCodes (dimensions : List GradedDimension) :
    semanticPresent (dimensions.map GradedDimension.withoutCodes) = semanticPresent dimensions := by
  rw [semanticPresent, semanticPresent, List.find?_map]
  have hname : (fun item : GradedDimension => decide (item.name = .semanticGroundedness)) ∘
      GradedDimension.withoutCodes = fun item => decide (item.name = .semanticGroundedness) := rfl
  rw [hname]
  cases dimensions.find? fun item => decide (item.name = .semanticGroundedness) <;> rfl

theorem stamped_withoutCodes (dimensions : List GradedDimension) :
    stamped (dimensions.map GradedDimension.withoutCodes)
      = (stamped dimensions).map GradedDimension.withoutCodes := by
  rw [stamped, stamped, applicableWeights, applicableWeights, semanticPresent_withoutCodes,
    List.map_map, List.map_map]
  exact List.map_congr_left fun item _ => stamp_withoutCodes _ item

theorem aggregateScore_withoutCodes (dimensions : List GradedDimension) :
    aggregateScore (dimensions.map GradedDimension.withoutCodes) = aggregateScore dimensions := by
  rw [aggregateScore, aggregateScore, stamped_withoutCodes, List.filter_map, List.map_map]
  rfl

theorem allNamed_withoutCodes (dimensions : List GradedDimension) (names : List DimensionName)
    {test : GradedDimension → Bool} (htest : ∀ item, test item.withoutCodes = test item) :
    allNamed (dimensions.map GradedDimension.withoutCodes) names test
      = allNamed dimensions names test := by
  rw [allNamed, allNamed]
  congr 1
  funext name
  have hname : (fun item : GradedDimension => decide (item.name = name)) ∘
      GradedDimension.withoutCodes = fun item => decide (item.name = name) := rfl
  rw [byName, byName, ← List.map_reverse, List.find?_map, hname]
  cases dimensions.reverse.find? fun item => decide (item.name = name) with
  | none => rfl
  | some item => exact htest item

theorem verdict_withoutCodes (dimensions : List GradedDimension) :
    verdict (dimensions.map GradedDimension.withoutCodes) = verdict dimensions := by
  rw [verdict, verdict, allNamed_withoutCodes _ _ fun _ => rfl, allNamed_withoutCodes _ _ fun _ => rfl,
    allNamed_withoutCodes _ _ fun _ => rfl]

/-- What the policy reads of the dimensions, in the order they are listed. -/
def listedDimensions (dimensions : List GradedDimension) : List DimensionResult :=
  (dimensions.map (·.toDimensionResult)).insertionSort fun a b => a.name.order ≤ b.name.order

theorem listedDimensions_withoutCodes (dimensions : List GradedDimension) :
    listedDimensions (dimensions.map GradedDimension.withoutCodes) = listedDimensions dimensions := by
  rw [listedDimensions, listedDimensions, List.map_map]
  rfl

/-- **Failure codes are of no matter to the aggregate, to the verdict and to the policy.** -/
theorem aggregateDimensions_withoutCodes (h : dimensions.map GradedDimension.withoutCodes
      = dimensions'.map GradedDimension.withoutCodes) :
    (aggregateDimensions dimensions).1 = (aggregateDimensions dimensions').1 ∧
      (aggregateDimensions dimensions).2.1 = (aggregateDimensions dimensions').2.1 ∧
      listedDimensions (aggregateDimensions dimensions).2.2
        = listedDimensions (aggregateDimensions dimensions').2.2 := by
  refine ⟨?_, ?_, ?_⟩
  · have hscore := congrArg aggregateScore h
    rwa [aggregateScore_withoutCodes, aggregateScore_withoutCodes] at hscore
  · have hverdict := congrArg verdict h
    rwa [verdict_withoutCodes, verdict_withoutCodes] at hverdict
  · have hstamped := congrArg (fun items => listedDimensions (stamped items)) h
    simp only [stamped_withoutCodes, listedDimensions_withoutCodes] at hstamped
    exact hstamped

end Codes

/-! ### One snapshot -/

/-- What two inputs with one snapshot have in common. -/
structure SameSnapshot (a b : GradingInput) : Prop where
  claims : SameClaims a.candidate.claims b.candidate.claims
  draft : a.candidate.draft = b.candidate.draft
  findings : a.candidate.findings = b.candidate.findings
  linkedIds : SameItems a.linkedIds b.linkedIds
  plan : a.candidate.plan = b.candidate.plan
  provenanceOk : a.provenanceOk = b.provenanceOk
  toolRows : a.toolRows.Perm b.toolRows

section Snapshot

variable {sha256 : String → String} {runner : EvaluationRunner} {a b : GradingInput}

theorem map_str_injective {l l' : List String} (h : l.map Json.str = l'.map Json.str) : l = l' :=
  List.map_injective_iff.2 (fun _ _ h => by injection h) h

/-- Sorted lists are of the same items. -/
theorem perm_of_insertionSort_eq {α : Type} (r : α → α → Prop) [DecidableRel r] {l l' : List α}
    (h : l.insertionSort r = l'.insertionSort r) : l.Perm l' :=
  ((List.perm_insertionSort r l).symm.trans (List.Perm.of_eq h)).trans (List.perm_insertionSort r l')

theorem claimFingerprintJson_injective : Function.Injective claimFingerprintJson := by
  rintro ⟨text, ids⟩ ⟨text', ids'⟩ h
  simp only [claimFingerprintJson, Json.obj.injEq, List.cons.injEq, Prod.mk.injEq, Json.str.injEq,
    Json.arr.injEq, true_and, and_true] at h
  rw [h.1, map_str_injective h.2]

theorem toolRowJson_injective : Function.Injective ToolSummaryRow.json := by
  rintro ⟨nodeName, origin, toolId, status⟩ ⟨nodeName', origin', toolId', status'⟩ h
  simp only [ToolSummaryRow.json, Json.obj.injEq, List.cons.injEq, Prod.mk.injEq, Json.str.injEq,
    true_and, and_true] at h
  obtain ⟨rfl, rfl, rfl, rfl⟩ := h
  rfl

theorem excerptRowJson_injective : Function.Injective excerptRowJson := by
  rintro ⟨itemId, text⟩ ⟨itemId', text'⟩ h
  simp only [excerptRowJson, Json.obj.injEq, List.cons.injEq, Prod.mk.injEq, Json.str.injEq,
    true_and, and_true] at h
  rw [h.1, h.2]

/-- Under an injective hash the rows of claims give the claims back. -/
theorem sameClaims_of_canonical (hsha : Function.Injective sha256)
    {claims claims' : List ClaimStructured}
    (h : claimsCanonical sha256 claims = claimsCanonical sha256 claims') :
    SameClaims claims claims' := by
  rw [claimsCanonical, claimsCanonical, Json.arr.injEq] at h
  have hperm := perm_of_insertionSort_eq claimFingerprintLe (List.map_injective_iff.2 claimFingerprintJson_injective h)
  have hrow : ∀ claims : List ClaimStructured, claims.map (claimFingerprintRow sha256)
      = (claims.map ClaimStructured.canonical).map
          fun claim => (sha256 claim.text, claim.evidenceItemIds) := by
    intro claims
    rw [List.map_map]
    rfl
  rw [hrow, hrow] at hperm
  refine (List.map_perm_map_iff ?_).1 hperm
  rintro ⟨text, ids⟩ ⟨text', ids'⟩ heq
  obtain ⟨htext, rfl⟩ := Prod.mk.inj heq
  obtain rfl := hsha htext
  rfl

/-- **One snapshot is of the same things**, and of the same semantic input. -/
theorem sameSnapshot_of_gradingPayload (hsha : Function.Injective sha256) {maxLogicalCalls : ℤ}
    {semantic semantic' : SemanticIdentity}
    (h : gradingPayload sha256 a.candidate a.linkedIds a.toolRows a.provenanceOk maxLogicalCalls semantic
      = gradingPayload sha256 b.candidate b.linkedIds b.toolRows b.provenanceOk maxLogicalCalls
        semantic') :
    SameSnapshot a b ∧ semantic.json sha256 = semantic'.json sha256 := by
  simp only [gradingPayload, Json.obj.injEq, List.cons.injEq, Prod.mk.injEq, true_and, and_true] at h
  obtain ⟨hclaims, hdraft, -, hfindings, -, hlinked, hplan, -, hprovenance, -, hsemantic, -, htools⟩ := h
  refine ⟨⟨sameClaims_of_canonical hsha hclaims, ?_, ?_, ?_, ?_, ?_, ?_⟩, hsemantic⟩
  · exact hsha (Json.str.inj hdraft)
  · refine List.map_injective_iff.2 (fun text text' heq => ?_) (Json.arr.inj hfindings)
    exact hsha (Json.str.inj heq)
  · exact perm_of_insertionSort_eq _ (map_str_injective (Json.arr.inj hlinked))
  · exact map_str_injective (Json.arr.inj hplan)
  · exact Json.bool.inj hprovenance
  · exact perm_of_insertionSort_eq _
      (List.map_injective_iff.2 toolRowJson_injective (Json.arr.inj htools))

/-- **The deterministic dimensions of one snapshot are the same.** -/
theorem SameSnapshot.deterministicDimensions (h : SameSnapshot a b) (runner : EvaluationRunner)
    (hfacets : a.candidate.goldenFacetsHit = none ∧ b.candidate.goldenFacetsHit = none)
    (hratio : a.candidate.goldenCompletenessRatio = none ∧
      b.candidate.goldenCompletenessRatio = none) :
    (runner.deterministicDimensions a).map GradedDimension.withoutCodes
      = (runner.deterministicDimensions b).map GradedDimension.withoutCodes := by
  have hcitation := gradeCitationIntegrity_perm h.claims h.linkedIds a.provenanceOk
  have htools := gradeToolUse_perm h.toolRows runner.maxLogicalCalls true
  have hlexical := gradeLexicalIdGroundedness_perm h.claims h.linkedIds
  have hclaims : decide (a.candidate.claims ≠ []) = decide (b.candidate.claims ≠ []) :=
    decide_eq_decide.2 (not_congr h.claims.eq_nil)
  have hstructure : ∀ input : GradingInput, ∀ claims, gradeReportStructure
      (formatResearchReport input.candidate.question input.candidate.plan input.candidate.findings
        input.candidate.draft claims) input.candidate.draft input.candidate.plan
          = gradeReportStructure (formatResearchReport "" [] [] "" []) input.candidate.draft
            input.candidate.plan := by
    intro input claims
    rw [gradeReportStructure, gradeReportStructure, hasLabels_formatResearchReport,
      hasLabels_formatResearchReport]
  rw [EvaluationRunner.deterministicDimensions, EvaluationRunner.deterministicDimensions]
  simp only [List.map_cons, List.map_nil, hstructure]
  rw [hcitation, htools, hlexical, h.linkedIds.length_eq, hclaims, h.draft, h.findings, h.plan,
    h.provenanceOk, hfacets.1, hfacets.2, hratio.1, hratio.2]

/-! ### The semantic dimension of one snapshot -/

/-- The claims of a request cite what the claims do. -/
theorem assembleClaims_evidenceItemIds {claims : List ClaimStructured} {index : ℕ}
    {inputs : List SemanticClaimInput} (h : assembleClaims index claims = .ok inputs) :
    inputs.map (·.evidenceItemIds)
      = claims.map fun claim => (claim.evidenceItemIds.take maxEvidenceIdsPerClaim).map strip := by
  induction claims generalizing index inputs with
  | nil =>
      obtain rfl : [] = inputs := Except.ok.inj h
      rfl
  | cons claim claims ih =>
      rw [assembleClaims, bind_eq_ok] at h
      obtain ⟨_, -, h⟩ := h
      rw [bind_eq_ok] at h
      obtain ⟨input, hinput, h⟩ := h
      rw [bind_eq_ok] at h
      obtain ⟨rest, hrest, h⟩ := h
      obtain rfl := pure_eq_ok.1 h
      have hids : input.evidenceItemIds
          = (claim.evidenceItemIds.take maxEvidenceIdsPerClaim).map strip := by
        rw [SemanticClaimInput.make, bind_eq_ok] at hinput
        obtain ⟨_, -, hinput⟩ := hinput
        rw [bind_eq_ok] at hinput
        obtain ⟨_, -, hinput⟩ := hinput
        rw [bind_eq_ok] at hinput
        obtain ⟨_, -, hinput⟩ := hinput
        obtain rfl := pure_eq_ok.1 hinput
        rfl
      rw [List.map_cons, List.map_cons, hids, ih hrest]

/-- A claim cites only what there are excerpts of. -/
def claimExcerpted (excerptIds : List String) (claim : ClaimStructured) : Bool :=
  claim.evidenceItemIds.all fun itemId => strip itemId ∈ excerptIds

theorem claimExcerpted_canonical (excerptIds : List String) (claim : ClaimStructured) :
    claimExcerpted excerptIds claim.canonical = claimExcerpted excerptIds claim :=
  (List.perm_insertionSort (· ≤ ·) claim.evidenceItemIds).all_eq

/-- What an assembled request is of: claims that cite no more than a claim may. -/
theorem assembleRequest_spec {input : GradingInput} {request : SemanticGradeRequest}
    (h : EvaluationRunner.assembleRequest input = .ok request) :
    (request.claims = [] ↔ input.candidate.claims = []) ∧
      allExcerpted request
        = input.candidate.claims.all (claimExcerpted (request.excerpts.map (·.evidenceItemId))) := by
  rw [EvaluationRunner.assembleRequest, assembleSemanticGradeRequest, bind_eq_ok] at h
  obtain ⟨_, -, h⟩ := h
  rw [bind_eq_ok] at h
  obtain ⟨inputs, hinputs, h⟩ := h
  rw [bind_eq_ok] at h
  obtain ⟨excerpts, -, h⟩ := h
  rw [bind_eq_ok] at h
  obtain ⟨made, hmade, h⟩ := h
  rw [bind_eq_ok] at h
  obtain ⟨_, -, h⟩ := h
  obtain rfl := pure_eq_ok.1 h
  have hclaims : made.claims = inputs := by
    rw [SemanticGradeRequest.make, bind_eq_ok] at hmade
    obtain ⟨_, -, hmade⟩ := hmade
    rw [bind_eq_ok] at hmade
    obtain ⟨_, -, hmade⟩ := hmade
    rw [bind_eq_ok] at hmade
    obtain ⟨_, -, hmade⟩ := hmade
    obtain rfl := pure_eq_ok.1 hmade
    rfl
  have hids := assembleClaims_evidenceItemIds hinputs
  have hall : ∀ test : List String → Bool, (inputs.all fun claim => test claim.evidenceItemIds)
      = input.candidate.claims.all fun claim => test (claim.evidenceItemIds.map strip) := by
    intro test
    calc (inputs.all fun claim => test claim.evidenceItemIds)
        = (inputs.map (·.evidenceItemIds)).all test := List.all_map.symm
      _ = input.candidate.claims.all fun claim =>
            test ((claim.evidenceItemIds.take maxEvidenceIdsPerClaim).map strip) := by
          rw [hids, List.all_map]
          rfl
      _ = input.candidate.claims.all fun claim => test (claim.evidenceItemIds.map strip) := by
          rw [Bool.eq_iff_iff, List.all_eq_true, List.all_eq_true]
          refine forall₂_congr fun claim hclaim => ?_
          rw [List.take_of_length_le (input.candidate.claims_checked claim hclaim).bounded]
  refine ⟨?_, ?_⟩
  · have hlength := congrArg List.length hids
    rw [List.length_map, List.length_map] at hlength
    rw [hclaims, ← List.length_eq_zero_iff, ← List.length_eq_zero_iff, hlength]
  · rw [allExcerpted, hclaims, hall fun ids => ids.all fun itemId =>
      itemId ∈ made.excerpts.map (·.evidenceItemId)]
    refine List.all_congr rfl fun claim => ?_
    rw [List.all_map]
    rfl

/-- The excerpts of one snapshot are of the same items. -/
theorem mem_excerpts_of_fingerprintRows {excerpts excerpts' : List SemanticExcerptInput}
    (h : excerptFingerprintRows sha256 excerpts = excerptFingerprintRows sha256 excerpts')
    (itemId : String) :
    itemId ∈ excerpts.map (·.evidenceItemId) ↔ itemId ∈ excerpts'.map (·.evidenceItemId) := by
  have hperm := perm_of_insertionSort_eq _
    (List.map_injective_iff.2 excerptRowJson_injective (Json.arr.inj h))
  have hids := hperm.map Prod.fst
  rw [List.map_map, List.map_map] at hids
  exact hids.mem_iff

/-- **The offline semantic dimension of one snapshot is the same.** -/
theorem SameSnapshot.gradeFakeSemantic (h : SameSnapshot a b) {request request' : SemanticGradeRequest}
    (ha : EvaluationRunner.assembleRequest a = .ok request)
    (hb : EvaluationRunner.assembleRequest b = .ok request')
    (hsemantic : (SemanticIdentity.fake request).json sha256
      = (SemanticIdentity.fake request').json sha256) :
    (Atlas.gradeFakeSemantic request).withoutCodes
      = (Atlas.gradeFakeSemantic request').withoutCodes := by
  simp only [SemanticIdentity.json, SemanticIdentity.json.fields, Json.obj.injEq, List.cons.injEq,
    Prod.mk.injEq, true_and, and_true] at hsemantic
  have hmem := mem_excerpts_of_fingerprintRows hsemantic.2
  obtain ⟨hnil, hall⟩ := assembleRequest_spec ha
  obtain ⟨hnil', hall'⟩ := assembleRequest_spec hb
  have hscore : fakeScore request = fakeScore request' := by
    have htest : claimExcerpted (request.excerpts.map (·.evidenceItemId))
        = claimExcerpted (request'.excerpts.map (·.evidenceItemId)) := by
      funext claim
      rw [claimExcerpted, claimExcerpted]
      simp only [hmem]
    have hiff : request.claims = [] ↔ request'.claims = [] :=
      hnil.trans (h.claims.eq_nil.trans hnil'.symm)
    rw [fakeScore, fakeScore, hall, hall', h.claims.all (claimExcerpted_canonical _), htest]
    simp only [hiff]
  rw [Atlas.gradeFakeSemantic, Atlas.gradeFakeSemantic]
  exact withoutCodes_softDimension hscore _ _ (fakeScore_bounds _) (fakeScore_bounds _) _ _ _

/-! ### One snapshot, one verdict -/

/-- The golden fields of a candidate are absent. -/
def NoGolden (candidate : EvaluationCandidateInput) : Prop :=
  candidate.goldenFacetsHit = none ∧ candidate.goldenCompletenessRatio = none

/-- What a run of a runner takes from its snapshot: the identity of the semantic grader is made, and
it stands in the snapshot. -/
theorem payload_spec {payload : Json} (h : runner.payload sha256 a = .ok payload) :
    ∃ semantic, runner.semanticIdentity a = .ok semantic ∧ payload = gradingPayload sha256 a.candidate
      a.linkedIds a.toolRows a.provenanceOk runner.maxLogicalCalls semantic := by
  rw [EvaluationRunner.payload, bind_eq_ok] at h
  obtain ⟨_, -, h⟩ := h
  rw [bind_eq_ok] at h
  obtain ⟨semantic, hsemantic, h⟩ := h
  exact ⟨semantic, hsemantic, (pure_eq_ok.1 h).symm⟩

theorem semanticIdentity_fake (hfake : runner.semanticGrader = some .fake)
    {semantic : SemanticIdentity} (h : runner.semanticIdentity a = .ok semantic) :
    ∃ request, EvaluationRunner.assembleRequest a = .ok request ∧ semantic = .fake request := by
  rw [EvaluationRunner.semanticIdentity, hfake] at h
  simp only [bind_eq_ok] at h
  obtain ⟨request, hrequest, h⟩ := h
  exact ⟨request, hrequest, (pure_eq_ok.1 h).symm⟩

/-- Offline, two inputs of one snapshot have the same grades. -/
theorem grade_eq (hsha : Function.Injective sha256) {payload : Json}
    (ha : runner.payload sha256 a = .ok payload) (hb : runner.payload sha256 b = .ok payload)
    (hoffline : runner.semanticGrader = none ∨ runner.semanticGrader = some .fake)
    (hdeterministic : (runner.deterministicDimensions a).map GradedDimension.withoutCodes
      = (runner.deterministicDimensions b).map GradedDimension.withoutCodes) :
    ∃ dimensions dimensions', runner.grade a = .ok dimensions ∧ runner.grade b = .ok dimensions' ∧
      dimensions.map GradedDimension.withoutCodes
        = dimensions'.map GradedDimension.withoutCodes := by
  rcases hoffline with hnone | hfake
  · refine ⟨runner.deterministicDimensions a ++ [skippedSemanticDimension],
      runner.deterministicDimensions b ++ [skippedSemanticDimension], ?_, ?_, ?_⟩
    · rw [EvaluationRunner.grade, hnone]
    · rw [EvaluationRunner.grade, hnone]
    · rw [List.map_append, List.map_append, hdeterministic]
  · obtain ⟨semantic, hsemantic, hpayload⟩ := payload_spec ha
    obtain ⟨semantic', hsemantic', hpayload'⟩ := payload_spec hb
    obtain ⟨hsame, hjson⟩ := sameSnapshot_of_gradingPayload hsha (hpayload.symm.trans hpayload')
    obtain ⟨request, hrequest, rfl⟩ := semanticIdentity_fake hfake hsemantic
    obtain ⟨request', hrequest', rfl⟩ := semanticIdentity_fake hfake hsemantic'
    have hgrade : ∀ {input : GradingInput} {request : SemanticGradeRequest},
        EvaluationRunner.assembleRequest input = .ok request → runner.grade input
          = .ok (runner.deterministicDimensions input ++ [gradeFakeSemantic request]) := by
      intro input request hrequest
      rw [EvaluationRunner.grade, hfake]
      simp only [hrequest]
      rfl
    refine ⟨_, _, hgrade hrequest, hgrade hrequest', ?_⟩
    rw [List.map_append, List.map_append, hdeterministic, List.map_singleton, List.map_singleton,
      hsame.gradeFakeSemantic hrequest hrequest' hjson]

/-- **One snapshot, one verdict.**  Two inputs that a runner takes the same snapshot of have, but for
failure codes, the same deterministic dimensions; and offline the same semantic one, the same
aggregate, the same verdict and the same decision of the policy, whatever the counts of attempts. -/
theorem fingerprint_determines_verdict (hsha : Function.Injective sha256)
    (runner : EvaluationRunner) {payload : Json} (ha : runner.payload sha256 a = .ok payload)
    (hb : runner.payload sha256 b = .ok payload) (hgolden : NoGolden a.candidate)
    (hgolden' : NoGolden b.candidate) :
    (runner.deterministicDimensions a).map GradedDimension.withoutCodes
        = (runner.deterministicDimensions b).map GradedDimension.withoutCodes ∧
      (runner.semanticGrader = none ∨ runner.semanticGrader = some .fake →
        ∃ dimensions dimensions', runner.grade a = .ok dimensions ∧
          runner.grade b = .ok dimensions' ∧
          dimensions.map GradedDimension.withoutCodes
            = dimensions'.map GradedDimension.withoutCodes ∧
          (aggregateDimensions dimensions).1 = (aggregateDimensions dimensions').1 ∧
          (aggregateDimensions dimensions).2.1 = (aggregateDimensions dimensions').2.1 ∧
          ∀ counts : AttemptCounts,
            decideForEvaluation (aggregateDimensions dimensions).2.1
                (listedDimensions (aggregateDimensions dimensions).2.2) counts
              = decideForEvaluation (aggregateDimensions dimensions').2.1
                (listedDimensions (aggregateDimensions dimensions').2.2) counts) := by
  obtain ⟨semantic, -, hpayload⟩ := payload_spec ha
  obtain ⟨semantic', -, hpayload'⟩ := payload_spec hb
  obtain ⟨hsame, -⟩ := sameSnapshot_of_gradingPayload hsha (hpayload.symm.trans hpayload')
  have hdeterministic := hsame.deterministicDimensions runner ⟨hgolden.1, hgolden'.1⟩
    ⟨hgolden.2, hgolden'.2⟩
  refine ⟨hdeterministic, fun hoffline => ?_⟩
  obtain ⟨dimensions, dimensions', hgrade, hgrade', hcodes⟩ :=
    grade_eq hsha ha hb hoffline hdeterministic
  obtain ⟨haggregate, hverdict, hlisted⟩ := aggregateDimensions_withoutCodes hcodes
  refine ⟨dimensions, dimensions', hgrade, hgrade', hcodes, haggregate, hverdict, fun counts => ?_⟩
  rw [hverdict, hlisted]

end Snapshot

/-! ### An instance -/

section Instance

/-- A claim that cites two items, in a given order. -/
def citingBoth (first second : String) : ClaimStructured := ⟨"Both agree.", [first, second]⟩

theorem citingBoth_checked {first second : String} (h : first ≠ second) :
    (citingBoth first second).Checked where
  cites := List.cons_ne_nil _ _
  bounded := Nat.le_of_ble_eq_true rfl
  nodup := by simp [citingBoth, h]

/-- A candidate with one claim. -/
def oneClaim (first second : String) (h : first ≠ second) : EvaluationCandidateInput where
  jobId := "job"
  question := "Why?"
  plan := ["search"]
  findings := ["found"]
  draft := "Both agree."
  claims := [citingBoth first second]
  repairCount := 0
  evaluationAttempt := 1
  evaluationProfile := .candidateFake
  goldenFacetsHit := none
  goldenCompletenessRatio := none
  claims_checked := by
    intro claim hclaim
    rw [List.mem_singleton.1 hclaim]
    exact citingBoth_checked h

/-- A run over one claim, with its items and its calls of tools in a given order. -/
def oneClaimInput (first second : String) (h : first ≠ second) (tools : List String) :
    GradingInput where
  candidate := oneClaim first second h
  linkedIds := ⟨[first, second], by simp [h]⟩
  toolRows := tools.map fun toolId => ⟨"research", "WORKFLOW", toolId, "ok"⟩
  provenanceOk := true
  loadExcerptSources := fun itemIds => itemIds.map fun itemId => ⟨itemId, "trusted", "text"⟩

def fakeRunner : EvaluationRunner := ⟨some .fake, 1, 4, none, none, none⟩

/-- What the grader gets of a run over one claim. -/
def oneClaimRequest (first second : String) : SemanticGradeRequest where
  jobId := "job"
  claims := [⟨1, "Both agree.", [first, second]⟩]
  excerpts := [⟨"a", "trusted", "text"⟩, ⟨"b", "trusted", "text"⟩]

/-- The snapshot of a run over one claim is that of its request. -/
theorem payload_oneClaimInput (first second : String) (h : first ≠ second) (tools : List String)
    (request : SemanticGradeRequest)
    (hrequest : EvaluationRunner.assembleRequest (oneClaimInput first second h tools) = .ok request) :
    fakeRunner.payload id (oneClaimInput first second h tools)
      = .ok (gradingPayload id (oneClaim first second h) (oneClaimInput first second h tools).linkedIds
          (oneClaimInput first second h tools).toolRows true 4 (.fake request)) := by
  rw [EvaluationRunner.payload, EvaluationRunner.semanticIdentity]
  simp only [fakeRunner, hrequest]
  rfl

/-- The citations of a claim and the calls of tools are in the snapshot in no order. -/
theorem gradingPayload_reordered :
    gradingPayload id (oneClaim "b" "a" (by decide))
        (oneClaimInput "b" "a" (by decide) ["fetch", "search"]).linkedIds
        (oneClaimInput "b" "a" (by decide) ["fetch", "search"]).toolRows true 4
        (.fake (oneClaimRequest "b" "a"))
      = gradingPayload id (oneClaim "a" "b" (by decide))
        (oneClaimInput "a" "b" (by decide) ["search", "fetch"]).linkedIds
        (oneClaimInput "a" "b" (by decide) ["search", "fetch"]).toolRows true 4
        (.fake (oneClaimRequest "a" "b")) := by
  have hclaims : ([citingBoth "b" "a"].map (claimFingerprintRow id)).insertionSort claimFingerprintLe
      = ([citingBoth "a" "b"].map (claimFingerprintRow id)).insertionSort claimFingerprintLe := by decide +kernel
  have hlinked : ["b", "a"].insertionSort (· ≤ ·) = ["a", "b"].insertionSort (· ≤ ·) := by
    decide +kernel
  have htools : (oneClaimInput "b" "a" (by decide) ["fetch", "search"]).toolRows.insertionSort
        (fun x y => x.key ≤ y.key)
      = (oneClaimInput "a" "b" (by decide) ["search", "fetch"]).toolRows.insertionSort
        (fun x y => x.key ≤ y.key) := by decide +kernel
  rw [gradingPayload, gradingPayload, toolRowsCanonical, toolRowsCanonical, htools, claimsCanonical,
    claimsCanonical, oneClaim, oneClaim]
  simp only [hclaims, oneClaimInput, hlinked]
  rfl

/-- The same claim with its citations the other way, and the same calls of tools in another order,
have the same grades. -/
theorem fingerprint_determines_verdict_reordered :
    ∃ dimensions dimensions',
      fakeRunner.grade (oneClaimInput "a" "b" (by decide) ["search", "fetch"]) = .ok dimensions ∧
      fakeRunner.grade (oneClaimInput "b" "a" (by decide) ["fetch", "search"]) = .ok dimensions' ∧
      (aggregateDimensions dimensions).2.1 = (aggregateDimensions dimensions').2.1 := by
  have ha := payload_oneClaimInput "a" "b" (by decide) ["search", "fetch"]
    (oneClaimRequest "a" "b") (by decide +kernel)
  have hb := payload_oneClaimInput "b" "a" (by decide) ["fetch", "search"]
    (oneClaimRequest "b" "a") (by decide +kernel)
  rw [gradingPayload_reordered] at hb
  obtain ⟨-, h⟩ := fingerprint_determines_verdict Function.injective_id fakeRunner ha hb ⟨rfl, rfl⟩
    ⟨rfl, rfl⟩
  obtain ⟨dimensions, dimensions', ha, hb, -, -, hverdict, -⟩ := h (Or.inr rfl)
  exact ⟨dimensions, dimensions', ha, hb, hverdict⟩

end Instance

end Atlas
