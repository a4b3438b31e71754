/-
**The graders of a candidate report.**

`evaluation/graders.py`: six deterministic graders and the offline semantic one.  Each gives one
dimension; the hard ones score one or nothing, the soft ones a ratio.  Texts are compared by their
significant tokens and identifiers as sets.

Main definitions:

* `Atlas.EvaluationCandidateInput`, `Atlas.ToolSummaryRow` — what is graded;
* `Atlas.significantTokens` — the tokens of a text;
* `Atlas.gradeCitationIntegrity`, `Atlas.gradeToolUse`, `Atlas.gradeReportStructure`,
  `Atlas.gradeCoverage`, `Atlas.gradeCompleteness`, `Atlas.gradeLexicalIdGroundedness` — the
  deterministic graders;
* `Atlas.gradeFakeSemantic`, `Atlas.skippedSemanticDimension` — the semantic dimension offline;
* `Atlas.GradedDimension.withoutCodes` — a dimension without its failure codes.

Main results:

* `Atlas.hasLabels_formatResearchReport` — the preview of a report has all its sections;
* `Atlas.gradeCitationIntegrity_perm`, `Atlas.gradeToolUse_perm`,
  `Atlas.gradeLexicalIdGroundedness_perm` — **grades do not depend on the order** of claims, rows and
  identifiers.
-/

import Atlas.EvaluationAggregate

set_option relaxedAutoImplicit false
set_option autoImplicit false

namespace Python

/-- A `set` of strings: its items in some order. -/
structure StrSet where
  items : List String
  nodup : items.Nodup

/-- `text.lower()`, as far as ASCII letters come of it. -/
def lowerChar (c : Char) : List Char :=
  if c.isUpper then [c.toLower]
  else if c.toNat = 0x212A then ['k']
  else if c.toNat = 0x130 then ['i', Char.ofNat 0x307]
  else [c]

/-- `text.upper()`, as far as ASCII letters come of it. -/
def upperChar (c : Char) : List Char :=
  if c.isLower then [c.toUpper]
  else
    match c.toNat with
    | 0xDF => ['S', 'S']
    | 0x131 => ['I']
    | 0x17F => ['S']
    | 0xFB00 => ['F', 'F']
    | 0xFB01 => ['F', 'I']
    | 0xFB02 => ['F', 'L']
    | 0xFB03 => ['F', 'F', 'I']
    | 0xFB04 => ['F', 'F', 'L']
    | 0xFB05 | 0xFB06 => ['S', 'T']
    | _ => [c]

end Python

namespace Atlas

open Python

/-! ### What is graded -/

/-- Sanitized logical tool-ledger row for grading and fingerprints. -/
structure ToolSummaryRow where
  nodeName : String
  origin : String
  toolId : String := ""
  status : String := ""
  deriving DecidableEq, Repr

/-- `MAX_EVIDENCE_IDS_PER_CLAIM`. -/
def maxEvidenceIdsPerClaim : ℕ := 5

/-- What is checked of a claim when it is made: it cites evidence, not too much and none twice. -/
structure ClaimStructured.Checked (claim : ClaimStructured) : Prop where
  cites : claim.evidenceItemIds ≠ []
  bounded : claim.evidenceItemIds.length ≤ maxEvidenceIdsPerClaim
  nodup : claim.evidenceItemIds.Nodup

/-- The profiles of an evaluation. -/
inductive EvaluationProfile where
  | candidate
  | candidateFake
  | v1
  deriving DecidableEq, Repr

/-- The stored text of a profile. -/
def EvaluationProfile.value : EvaluationProfile → String
  | candidate => "evaluation.candidate.v1"
  | candidateFake => "evaluation.candidate.fake.v1"
  | v1 => "evaluation.v1"

/-- A share. -/
abbrev UnitRatio : Type := {ratio : ℚ // 0 ≤ ratio ∧ ratio ≤ 1}

/-- Pre-persist candidate pack consumed by graders. -/
structure EvaluationCandidateInput where
  jobId : String
  question : String
  plan : List String
  findings : List String
  draft : String
  claims : List ClaimStructured
  repairCount : ℕ
  evaluationAttempt : ℕ
  evaluationProfile : EvaluationProfile
  goldenFacetsHit : Option UnitRatio
  goldenCompletenessRatio : Option UnitRatio
  claims_checked : ∀ claim ∈ claims, claim.Checked

/-! ### Dimensions -/

/-- A score of one or nothing. -/
def passScore (ok : Bool) : ℚ := if ok then 1 else 0

theorem passScore_bounds (ok : Bool) : 0 ≤ passScore ok ∧ passScore ok ≤ 1 := by
  cases ok <;> decide +kernel

/-- The dimension of a hard grader. -/
def hardDimension (name : DimensionName) (isProvisional : Bool) (ok : Bool)
    (failureCodes : List String) (weight : ℚ) : GradedDimension where
  name := name
  passed := passScore ok = hardPassScore
  method := .deterministic
  score := passScore ok
  isHard := true
  isProvisional := isProvisional
  failureCodes := failureCodes
  weight := weight
  score_nonneg := (passScore_bounds ok).1
  score_le_one := (passScore_bounds ok).2

/-- The dimension of a soft grader. -/
def softDimension (name : DimensionName) (method : GraderMethod) (score : ℚ)
    (bounds : 0 ≤ score ∧ score ≤ 1) (failureCodes : List String) (weight : ℚ) :
    GradedDimension where
  name := name
  passed := score ≥ provisionalSoftPassThreshold
  method := method
  score := score
  isHard := false
  isProvisional := true
  failureCodes := failureCodes
  weight := weight
  score_nonneg := bounds.1
  score_le_one := bounds.2

/-- `weight_for`. -/
def weightFor (name : DimensionName) (semanticPresent : Bool) : ℚ :=
  if name = .semanticGroundedness then if semanticPresent then semanticWeight else 0
  else (baseWeights.lookup name).getD 0

/-- The share of the items that meet a test. -/
def ratio {α : Type} (items : List α) (test : α → Bool) : ℚ :=
  (items.countP test : ℚ) / items.length

theorem ratio_bounds {α : Type} (items : List α) (test : α → Bool) :
    0 ≤ ratio items test ∧ ratio items test ≤ 1 := by
  rw [ratio]
  refine ⟨div_nonneg (Nat.cast_nonneg _) (Nat.cast_nonneg _), div_le_one_of_le₀ ?_ (Nat.cast_nonneg _)⟩
  exact_mod_cast List.countP_le_length

/-! ### The hard graders -/

/-- What a claim adds to the failure codes of citation integrity. -/
def citationCodes (linkedIds : StrSet) (claim : ClaimStructured) : List String :=
  if claim.evidenceItemIds = [] then ["CITATION_EMPTY_CLAIM"]
  else if claim.evidenceItemIds.any fun itemId => itemId ∉ linkedIds.items then
    ["CITATION_UNLINKED"]
  else []

/-- Hard gate: every claim id must be linked and provenance must be intact. -/
def gradeCitationIntegrity (candidate : EvaluationCandidateInput) (linkedIds : StrSet)
    (provenanceOk : Bool) : GradedDimension :=
  let codes := (if provenanceOk then [] else ["CITATION_PROVENANCE_INCOMPLETE"]) ++
    candidate.claims.flatMap (citationCodes linkedIds)
  hardDimension .citationIntegrity false codes.isEmpty codes.eraseDups
    (weightFor .citationIntegrity false)

/-- The failure code of a row of the tool ledger, if it has one. -/
def toolCode (row : ToolSummaryRow) : Option String :=
  if (strip row.origin).toList.flatMap upperChar ≠ "WORKFLOW".toList then
    some "TOOL_UNKNOWN_ORIGIN"
  else if strip row.nodeName ≠ "research" then some "TOOL_NODE_VIOLATION"
  else none

/-- Hard gate for execution-scoped logical tool use: the first row with a failure decides, and
without one the number of calls. -/
def gradeToolUse (toolRows : List ToolSummaryRow) (maxLogicalCalls : ℤ) (allowZeroTools : Bool) :
    GradedDimension :=
  let codes :=
    if toolRows = [] then if allowZeroTools then [] else ["TOOL_REQUIRED"]
    else
      match toolRows.findSome? toolCode with
      | some code => [code]
      | none => if maxLogicalCalls < toolRows.length then ["TOOL_BUDGET_EXCEEDED"] else []
  hardDimension .toolUse false codes.isEmpty codes (weightFor .toolUse false)

/-- The sections a report has. -/
def requiredLabels : List String := ["Question:", "Plan:", "Findings:", "Draft:"]

/-- Hard empty-draft gate; provisional section labels on the preview report. -/
def gradeReportStructure (previewReport draft : String) (plan : List String) : GradedDimension :=
  let codes := (if strip draft = "" then ["STRUCTURE_EMPTY_DRAFT"] else []) ++
    (if requiredLabels.all (contains previewReport) then [] else ["STRUCTURE_MISSING_SECTION"]) ++
    if plan = [] then ["STRUCTURE_EMPTY_PLAN"] else []
  hardDimension .reportStructure true codes.isEmpty codes (weightFor .reportStructure false)

/-! ### The soft graders -/

/-- Provisional soft coverage heuristic or golden facet hit ratio. -/
def gradeCoverage (linkedCount : ℕ) (hasClaims : Bool) (minLinked : ℤ)
    (golden : Option UnitRatio) : GradedDimension :=
  match golden with
  | some facets =>
      softDimension .coverage .deterministic facets.1 facets.2
        (if facets.1 < provisionalSoftPassThreshold then ["COVERAGE_FACET_MISSING"] else [])
        (weightFor .coverage false)
  | none =>
      let ok := !hasClaims || decide (minLinked ≤ linkedCount)
      softDimension .coverage .deterministic (passScore ok) (passScore_bounds ok)
        (if ok then [] else ["COVERAGE_BELOW_MIN"]) (weightFor .coverage false)

/-- A character of a significant token. -/
def isTokenChar (c : Char) : Bool := c.isLower || c.isDigit

/-- The runs of characters of a kind, from one that is being read. -/
def runsFrom (kind : Char → Bool) : List Char → List Char → List (List Char)
  | run, [] => [run]
  | run, c :: rest => if kind c then runsFrom kind (run ++ [c]) rest else run :: runsFrom kind [] rest

/-- `_significant_tokens`: runs of four letters or digits and more, of the text in lower case. -/
def significantTokens (text : String) : List (List Char) :=
  (runsFrom isTokenChar [] (text.toList.flatMap lowerChar)).filter fun run => 4 ≤ run.length

/-- A task of the plan has all of its tokens among those of the corpus. -/
def taskSatisfied (corpusTokens : List (List Char)) (task : String) : Bool :=
  (significantTokens task).all corpusTokens.contains

/-- Provisional soft completeness via plan-token presence or golden ratio. -/
def gradeCompleteness (plan findings : List String) (draft : String)
    (golden : Option UnitRatio) : GradedDimension :=
  match golden with
  | some facets =>
      softDimension .completeness .deterministic facets.1 facets.2
        (if facets.1 < provisionalSoftPassThreshold then ["COMPLETENESS_FACET_MISSING"] else [])
        (weightFor .completeness false)
  | none =>
      if plan = [] then
        softDimension .completeness .deterministic 1 (passScore_bounds true) []
          (weightFor .completeness false)
      else
        let corpusTokens := significantTokens (" ".intercalate (findings ++ [draft]))
        softDimension .completeness .deterministic (ratio plan (taskSatisfied corpusTokens))
          (ratio_bounds plan _)
          (if plan.all (taskSatisfied corpusTokens) then [] else ["COMPLETENESS_FACET_MISSING"])
          (weightFor .completeness false)

/-- A claim cites evidence, and only what is linked. -/
def claimSupported (linkedIds : StrSet) (claim : ClaimStructured) : Bool :=
  claim.evidenceItemIds ≠ [] && claim.evidenceItemIds.all fun itemId => itemId ∈ linkedIds.items

/-- Provisional soft lexical ID check. -/
def gradeLexicalIdGroundedness (claims : List ClaimStructured) (linkedIds : StrSet) :
    GradedDimension :=
  if claims = [] then
    softDimension .lexicalIdGroundedness .deterministic 1 (passScore_bounds true) []
      (weightFor .lexicalIdGroundedness false)
  else
    softDimension .lexicalIdGroundedness .deterministic (ratio claims (claimSupported linkedIds))
      (ratio_bounds claims _)
      (if claims.all (claimSupported linkedIds) then [] else ["GROUNDEDNESS_ID_OUTSIDE_LINKS"])
      (weightFor .lexicalIdGroundedness false)

/-! ### The semantic dimension -/

/-- One sanitized claim sent to the semantic grader. -/
structure SemanticClaimInput where
  claimOrdinal : ℕ
  text : String
  evidenceItemIds : List String
  deriving DecidableEq, Repr

/-- One truncated, job-linked evidence excerpt sent to the grader. -/
structure SemanticExcerptInput where
  evidenceItemId : String
  trustLabel : String
  text : String
  deriving DecidableEq, Repr

/-- Bounded grader input: claims plus job-linked excerpts only. -/
structure SemanticGradeRequest where
  jobId : String
  claims : List SemanticClaimInput
  excerpts : List SemanticExcerptInput
  deriving DecidableEq, Repr

inductive SemanticSupportLabel where
  | supported
  | unsupported
  | unclear
  deriving DecidableEq, Repr

/-- Derive the categorical label from a numeric score. -/
def supportLabelForScore (score : ℚ) : SemanticSupportLabel :=
  if score < 0.40 then .unsupported
  else if score < semanticPassThreshold then .unclear
  else .supported

/-- Every claim cites only what there are excerpts of. -/
def allExcerpted (request : SemanticGradeRequest) : Bool :=
  request.claims.all fun claim => claim.evidenceItemIds.all fun itemId =>
    itemId ∈ request.excerpts.map (·.evidenceItemId)

/-- The score of the offline semantic grader. -/
def fakeScore (request : SemanticGradeRequest) : ℚ :=
  if request.claims = [] then 1 else if allExcerpted request then 1 else 0.5

theorem fakeScore_bounds (request : SemanticGradeRequest) :
    0 ≤ fakeScore request ∧ fakeScore request ≤ 1 := by
  rw [fakeScore]
  split
  · decide +kernel
  · split <;> decide +kernel

/-- `FakeSemanticGroundednessGrader.grade`. -/
def gradeFakeSemantic (request : SemanticGradeRequest) : GradedDimension :=
  let codes :=
    if fakeScore request ≥ provisionalSoftPassThreshold then []
    else
      match supportLabelForScore (fakeScore request) with
      | .unsupported => ["SEMANTIC_UNSUPPORTED"]
      | .unclear => ["SEMANTIC_UNCLEAR"]
      | .supported => ["SEMANTIC_GROUNDEDNESS_WEAK"]
  softDimension .semanticGroundedness .llm (fakeScore request) (fakeScore_bounds request) codes
    (weightFor .semanticGroundedness true)

/-- Dimension placeholder when no semantic grader is configured. -/
def skippedSemanticDimension : GradedDimension where
  name := .semanticGroundedness
  passed := true
  method := .skipped
  score := 0
  isHard := false
  isProvisional := true
  failureCodes := []
  weight := 0
  score_nonneg := le_rfl
  score_le_one := zero_le_one

/-! ### Grades without their codes -/

/-- A dimension without its failure codes. -/
def GradedDimension.withoutCodes (item : GradedDimension) : GradedDimension :=
  { item with failureCodes := [] }

theorem withoutCodes_hardDimension {ok ok' : Bool} (h : ok = ok') (name : DimensionName)
    (isProvisional : Bool) (codes codes' : List String) (weight : ℚ) :
    (hardDimension name isProvisional ok codes weight).withoutCodes
      = (hardDimension name isProvisional ok' codes' weight).withoutCodes := by
  subst h
  rfl

theorem withoutCodes_softDimension {score score' : ℚ} (h : score = score') (name : DimensionName)
    (method : GraderMethod) (bounds : 0 ≤ score ∧ score ≤ 1) (bounds' : 0 ≤ score' ∧ score' ≤ 1)
    (codes codes' : List String) (weight : ℚ) :
    (softDimension name method score bounds codes weight).withoutCodes
      = (softDimension name method score' bounds' codes' weight).withoutCodes := by
  subst h
  rfl

/-- A claim with what it cites in order. -/
def ClaimStructured.canonical (claim : ClaimStructured) : ClaimStructured :=
  { claim with evidenceItemIds := claim.evidenceItemIds.insertionSort (· ≤ ·) }

section Order

variable {claims claims' : List ClaimStructured} {linkedIds linkedIds' : StrSet}

/-- The same claims, up to the order of claims and of what they cite. -/
def SameClaims (claims claims' : List ClaimStructured) : Prop :=
  (claims.map ClaimStructured.canonical).Perm (claims'.map ClaimStructured.canonical)

/-- The same set. -/
def SameItems (linkedIds linkedIds' : StrSet) : Prop := linkedIds.items.Perm linkedIds'.items

theorem claimSupported_canonical (linkedIds : StrSet) (claim : ClaimStructured) :
    claimSupported linkedIds claim.canonical = claimSupported linkedIds claim := by
  have hperm := List.perm_insertionSort (· ≤ ·) claim.evidenceItemIds
  have hnil : (claim.evidenceItemIds.insertionSort (· ≤ ·) = []) ↔ claim.evidenceItemIds = [] := by
    rw [← List.length_eq_zero_iff, ← List.length_eq_zero_iff, hperm.length_eq]
  rw [claimSupported, claimSupported, ClaimStructured.canonical]
  simp only [ne_eq, hnil, hperm.all_eq]

theorem claimSupported_same (h : SameItems linkedIds linkedIds') :
    claimSupported linkedIds = claimSupported linkedIds' := by
  funext claim
  rw [claimSupported, claimSupported]
  simp only [h.mem_iff]

/-- As many claims meet a test in any order. -/
theorem SameClaims.countP (h : SameClaims claims claims') {test : ClaimStructured → Bool}
    (htest : ∀ claim, test claim.canonical = test claim) :
    claims.countP test = claims'.countP test := by
  have hcount : ∀ claims : List ClaimStructured, claims.countP test
      = (claims.map ClaimStructured.canonical).countP test := by
    intro claims
    rw [List.countP_map]
    exact List.countP_congr fun claim _ => by rw [Function.comp_apply, htest]
  rw [hcount claims, hcount claims', h.countP_eq]

theorem SameClaims.length (h : SameClaims claims claims') : claims.length = claims'.length := by
  simpa using h.length_eq

theorem SameClaims.eq_nil (h : SameClaims claims claims') : claims = [] ↔ claims' = [] := by
  rw [← List.length_eq_zero_iff, ← List.length_eq_zero_iff, h.length]

/-- All claims meet a test when as many do as there are. -/
theorem SameClaims.all (h : SameClaims claims claims') {test : ClaimStructured → Bool}
    (htest : ∀ claim, test claim.canonical = test claim) : claims.all test = claims'.all test := by
  rw [Bool.eq_iff_iff, List.all_eq_true, List.all_eq_true, ← List.countP_eq_length,
    ← List.countP_eq_length, h.countP htest, h.length]

/-- A claim has a code for its citations if it is not supported. -/
theorem citationCodes_eq_nil (linkedIds : StrSet) (claim : ClaimStructured) :
    citationCodes linkedIds claim = [] ↔ claimSupported linkedIds claim = true := by
  rw [citationCodes, claimSupported]
  by_cases hnil : claim.evidenceItemIds = []
  · simp [hnil]
  · simp [hnil]

/-- Citations are graded by whether every claim is supported. -/
theorem isEmpty_citationCodes (provenanceOk : Bool) (linkedIds : StrSet)
    (claims : List ClaimStructured) :
    ((if provenanceOk then [] else ["CITATION_PROVENANCE_INCOMPLETE"]) ++
      claims.flatMap (citationCodes linkedIds)).isEmpty
        = (provenanceOk && claims.all (claimSupported linkedIds)) := by
  rw [Bool.eq_iff_iff, List.isEmpty_iff, List.append_eq_nil_iff, List.flatMap_eq_nil_iff,
    Bool.and_eq_true, List.all_eq_true]
  simp only [citationCodes_eq_nil]
  cases provenanceOk <;> simp

/-- **Citations are graded alike in any order.** -/
theorem gradeCitationIntegrity_perm {candidate candidate' : EvaluationCandidateInput}
    (hclaims : SameClaims candidate.claims candidate'.claims) (hlinked : SameItems linkedIds linkedIds')
    (provenanceOk : Bool) :
    (gradeCitationIntegrity candidate linkedIds provenanceOk).withoutCodes
      = (gradeCitationIntegrity candidate' linkedIds' provenanceOk).withoutCodes := by
  rw [gradeCitationIntegrity, gradeCitationIntegrity]
  refine withoutCodes_hardDimension ?_ _ _ _ _ _
  rw [isEmpty_citationCodes, isEmpty_citationCodes, hclaims.all (claimSupported_canonical linkedIds),
    claimSupported_same hlinked]

/-- **Tool use is graded alike in any order of the rows**, though not with the same code. -/
theorem gradeToolUse_perm {toolRows toolRows' : List ToolSummaryRow} (h : toolRows.Perm toolRows')
    (maxLogicalCalls : ℤ) (allowZeroTools : Bool) :
    (gradeToolUse toolRows maxLogicalCalls allowZeroTools).withoutCodes
      = (gradeToolUse toolRows' maxLogicalCalls allowZeroTools).withoutCodes := by
  have hcodes : ∀ rows : List ToolSummaryRow, (match rows.findSome? toolCode with
      | some code => [code]
      | none => if maxLogicalCalls < rows.length then ["TOOL_BUDGET_EXCEEDED"] else []).isEmpty
        = (rows.all (fun row => (toolCode row).isNone) &&
          decide (¬ maxLogicalCalls < rows.length)) := by
    intro rows
    cases hfind : rows.findSome? toolCode with
    | some code =>
        obtain ⟨row, hrow, hcode⟩ := List.exists_of_findSome?_eq_some hfind
        have hall : rows.all (fun row => (toolCode row).isNone) = false := by
          rw [List.all_eq_false]
          exact ⟨row, hrow, by simp [hcode]⟩
        rw [hall]
        rfl
    | none =>
        have hall : rows.all (fun row => (toolCode row).isNone) = true := by
          rw [List.all_eq_true]
          rw [List.findSome?_eq_none_iff] at hfind
          exact fun row hrow => by simp [hfind row hrow]
        rw [hall]
        by_cases hmax : maxLogicalCalls < rows.length
        · simp [hmax]
        · simp [hmax]
  have hnil : toolRows = [] ↔ toolRows' = [] := by
    rw [← List.length_eq_zero_iff, ← List.length_eq_zero_iff, h.length_eq]
  rw [gradeToolUse, gradeToolUse]
  refine withoutCodes_hardDimension ?_ _ _ _ _ _
  simp only [hnil]
  split
  · rfl
  · rw [hcodes, hcodes, h.all_eq, h.length_eq]

/-- **Groundedness is graded alike in any order.** -/
theorem gradeLexicalIdGroundedness_perm (hclaims : SameClaims claims claims')
    (hlinked : SameItems linkedIds linkedIds') :
    (gradeLexicalIdGroundedness claims linkedIds).withoutCodes
      = (gradeLexicalIdGroundedness claims' linkedIds').withoutCodes := by
  have hratio : ratio claims (claimSupported linkedIds) = ratio claims' (claimSupported linkedIds') := by
    rw [ratio, ratio, hclaims.countP (claimSupported_canonical linkedIds), hclaims.length,
      claimSupported_same hlinked]
  rw [gradeLexicalIdGroundedness, gradeLexicalIdGroundedness]
  by_cases hnil : claims = []
  · rw [if_pos hnil, if_pos (hclaims.eq_nil.1 hnil)]
  · rw [if_neg hnil, if_neg (hclaims.eq_nil.not.1 hnil)]
    exact withoutCodes_softDimension hratio _ _ _ _ _ _ _

end Order

/-! ### The preview of a report -/

theorem contains_append_left {text needle : String} (h : contains text needle = true)
    (more : String) : contains (text ++ more) needle = true := by
  rw [contains, decide_eq_true_iff] at h ⊢
  rw [String.toList_append]
  exact h.trans (List.prefix_append _ _).isInfix

theorem contains_append_right {text needle : String} (h : contains text needle = true)
    (before : String) : contains (before ++ text) needle = true := by
  rw [contains, decide_eq_true_iff] at h ⊢
  rw [String.toList_append]
  exact h.trans (List.suffix_append _ _).isInfix

/-- The preview of a report has all its sections. -/
theorem hasLabels_formatResearchReport (question : String) (plan findings : List String)
    (draft : String) (claims : List ClaimStructured) :
    requiredLabels.all (contains (formatResearchReport question plan findings draft claims))
      = true := by
  have hquestion : contains "Question:\n" "Question:" = true := by decide +kernel
  have hplan : contains "\n\nPlan:\n" "Plan:" = true := by decide +kernel
  have hfindings : contains "\n\nFindings:\n" "Findings:" = true := by decide +kernel
  have hdraft : contains "\n\nDraft:\n" "Draft:" = true := by decide +kernel
  obtain ⟨report, hreport⟩ : ∃ report, report = "Question:\n" ++ question ++ "\n\nPlan:\n"
      ++ "\n".intercalate (numbered plan) ++ "\n\nFindings:\n"
      ++ "\n".intercalate (findings.map ("- " ++ ·)) ++ "\n\nDraft:\n" ++ draft := ⟨_, rfl⟩
  have hlabels : ∀ label ∈ requiredLabels, contains report label = true := by
    intro label hlabel
    rw [hreport]
    simp only [requiredLabels, List.mem_cons, List.not_mem_nil, or_false] at hlabel
    rcases hlabel with rfl | rfl | rfl | rfl
    · iterate 7 refine contains_append_left ?_ _
      exact hquestion
    · iterate 5 refine contains_append_left ?_ _
      exact contains_append_right hplan _
    · iterate 3 refine contains_append_left ?_ _
      exact contains_append_right hfindings _
    · refine contains_append_left ?_ _
      exact contains_append_right hdraft _
  rw [List.all_eq_true]
  intro label hlabel
  rw [formatResearchReport, ← hreport]
  split
  · exact hlabels label hlabel
  · refine contains_append_left (contains_append_left ?_ _) _
    exact hlabels label hlabel

end Atlas
