/-
**The research graph.**

The state, the nodes and the wiring of the workflow graph of `workflow/graph.py`.  A node here is
its own part only: what it makes of the state and of the answer of the specialist, the evaluation
runner or the policy it calls.  Who is called, and what happens to the database around it, is in
the module on graph runs.

The graph checkpoints its state after every node, together with the node to go on with.  It stops
after `await_review`, whose successor is `complete`.

Main definitions:

* `Atlas.GraphState`, `Atlas.ClaimStructured`, `Atlas.Node` — states and nodes;
* `Atlas.validateNode`, …, `Atlas.completeNode` — what the nodes do;
* `Atlas.Node.next` — the edges;
* `Atlas.Checkpoint` — what is stored after a node.

Main results:

* `Atlas.completeNode_eq_ok` — **the complete node returns the report of its own draft and claims,
  and only when it is authorized**;
* `Atlas.Node.next_eq_complete` — what leads to the complete node.
-/

import Atlas.Events

set_option relaxedAutoImplicit false
set_option autoImplicit false

namespace Atlas

open Checked

/-! ### States and nodes -/

/-- A claim with the evidence it cites. -/
structure ClaimStructured where
  text : String
  evidenceItemIds : List String
  deriving DecidableEq, Repr

/-- Typed channels for the research graph.  The disposition is empty until the policy node has
run. -/
structure GraphState where
  jobId : String
  question : String
  plan : List String := []
  findings : List String := []
  evidenceItemIds : List String := []
  draft : String := ""
  claims : List ClaimStructured := []
  result : String := ""
  evaluationPassed : Bool := false
  evaluationRunId : String := ""
  disposition : Option PolicyAction := none
  repairCount : ℕ := 0
  evaluationAttempt : ℕ := 0
  evaluationFingerprint : String := ""
  deriving DecidableEq, Repr

/-- The initial state for a new workflow thread. -/
def initialGraphState (jobId question : String) : GraphState :=
  { jobId := jobId, question := question }

inductive Node where
  | validate
  | plan
  | research
  | draft
  | verifyCitations
  | evaluate
  | policy
  | repair
  | awaitReview
  | complete
  | terminal
  deriving DecidableEq, Repr

/-- The names of the nodes. -/
def Node.name : Node → String
  | validate => "validate"
  | plan => "plan"
  | research => "research"
  | draft => "draft"
  | verifyCitations => "verify_citations"
  | evaluate => "evaluate"
  | policy => "policy"
  | repair => "repair"
  | awaitReview => "await_review"
  | complete => "complete"
  | terminal => "terminal"

/-! ### What the nodes do -/

/-- Reject empty job_id or question. -/
def validateNode (state : GraphState) : Except Exc GraphState := do
  let jobId := Python.strip state.jobId
  let question := Python.strip state.question
  ensure (jobId ≠ "") (.valueError "job_id must be non-empty")
  ensure (question ≠ "") (.valueError "question must be non-empty")
  return { state with jobId := jobId, question := question }

def planNode (state : GraphState) (tasks : List String) : GraphState :=
  { state with plan := tasks }

def researchNode (state : GraphState) (findings evidenceItemIds : List String) : GraphState :=
  { state with findings := findings, evidenceItemIds := evidenceItemIds }

def draftNode (state : GraphState) (draft : String) (claims : List ClaimStructured) :
    GraphState :=
  { state with draft := draft, claims := claims }

def verifyCitationsNode (state : GraphState) (claims : List ClaimStructured) : GraphState :=
  { state with claims := claims }

/-- What the evaluate node reads of the result of an evaluation. -/
structure EvaluationAnswer where
  runId : String
  passed : Option Bool
  inputFingerprint : String
  deriving DecidableEq, Repr

def evaluateNode (state : GraphState) (result : EvaluationAnswer) : GraphState :=
  { state with
    evaluationPassed := result.passed.getD false, evaluationRunId := result.runId
    evaluationAttempt := state.evaluationAttempt + 1
    evaluationFingerprint := result.inputFingerprint }

def policyNode (state : GraphState) (disposition : PolicyAction) : GraphState :=
  { state with disposition := some disposition }

/-- Increment repair_count; routing re-enters draft. -/
def repairNode (state : GraphState) : GraphState :=
  { state with repairCount := state.repairCount + 1 }

/-- `f"{index}. {line}"` from 1 on. -/
def numbered (lines : List String) : List String :=
  lines.mapIdx fun index line => toString (index + 1) ++ ". " ++ line

/-- Format the stable research report, optionally with a Citations section. -/
def formatResearchReport (question : String) (plan findings : List String) (draft : String)
    (claims : List ClaimStructured) : String :=
  let report := "Question:\n" ++ question ++ "\n\nPlan:\n" ++ "\n".intercalate (numbered plan)
    ++ "\n\nFindings:\n" ++ "\n".intercalate (findings.map ("- " ++ ·))
    ++ "\n\nDraft:\n" ++ draft
  if claims.isEmpty then report
  else report ++ "\n\nCitations:\n" ++ "\n".intercalate (numbered (claims.map fun claim =>
    claim.text ++ " [" ++ ", ".intercalate claim.evidenceItemIds ++ "]"))

/-- The report of a state. -/
def GraphState.report (state : GraphState) : String :=
  formatResearchReport state.question state.plan state.findings state.draft state.claims

/-- The report the complete node persists and returns.  A passing evaluation authorizes it, or
the override the checker looks up; a blank draft is never completed. -/
def completeNode (state : GraphState) (override : Bool) : Except Exc String := do
  ensure (state.evaluationPassed ∨ override)
    (.valueError "complete_node human-review override authorization failed")
  ensure (Python.strip state.draft ≠ "") (.valueError "draft must be non-empty before complete")
  return state.report

/-- **The complete node returns the report of its own draft and claims, when it is authorized.** -/
theorem completeNode_eq_ok {state : GraphState} {override : Bool} {report : String} :
    completeNode state override = .ok report ↔
      (state.evaluationPassed = true ∨ override = true) ∧ Python.strip state.draft ≠ "" ∧
        report = state.report := by
  simp only [completeNode, bind_eq_ok, ensure_eq_ok, pure_eq_ok]
  constructor
  · rintro ⟨_, hauth, _, hdraft, rfl⟩
    exact ⟨hauth, hdraft, rfl⟩
  · rintro ⟨hauth, hdraft, rfl⟩
    exact ⟨(), hauth, (), hdraft, rfl⟩

/-! ### The wiring -/

/-- Route based on disposition from policy node. -/
def routeAfterPolicy (state : GraphState) : Node :=
  match state.disposition with
  | some .complete => .complete
  | some .repair => .repair
  | some .awaitReview => .awaitReview
  | _ => .terminal

/-- The node after a node, in the state that node left; none at the end. -/
def Node.next (node : Node) (state : GraphState) : Option Node :=
  match node with
  | validate => some plan
  | plan => some research
  | research => some draft
  | draft => some verifyCitations
  | verifyCitations => some evaluate
  | evaluate => some policy
  | policy => some (routeAfterPolicy state)
  | repair => some draft
  | awaitReview => some complete
  | complete => none
  | terminal => none

/-- Only the policy, by its decision, and the pause for review lead to the complete node. -/
theorem Node.next_eq_complete {node : Node} {state : GraphState}
    (h : node.next state = some .complete) :
    node = .policy ∧ state.disposition = some .complete ∨ node = .awaitReview := by
  cases node with
  | policy =>
      refine .inl ⟨rfl, ?_⟩
      simp only [next, Option.some.injEq] at h
      unfold routeAfterPolicy at h
      split at h
      · assumption
      all_goals cases h
  | awaitReview => exact .inr rfl
  | validate | plan | research | draft | verifyCitations | evaluate | repair | complete
  | terminal => cases h

/-- What the checkpointer stores after a node: the state, and the node to go on with. -/
structure Checkpoint where
  values : GraphState
  next : Option Node
  deriving DecidableEq, Repr

end Atlas
