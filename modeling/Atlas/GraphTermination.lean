/-
**The graph stops by itself.**

The graph has one loop: a repair goes back to the draft.  The policy decides a repair only while the
larger of the two repair counts, of the row and of the graph, is below the cap; and the graph counts
each repair it makes.  So the loop is taken once at most, whatever the specialists, the evaluations
and the database answer, and also when a run is resumed from a checkpoint.  A run of the graph takes
thirteen nodes at most, and stores as many audit rows of nodes at most.  So the fuel of the recursion
is no bound of its own: with more of it every run is the same.

Main definitions:

* `Atlas.Node.height` — the nodes a run may still take, with its node;
* `Atlas.World.nodeRuns` — the node runs that have been begun.

Main results:

* `Atlas.nodeBody_returns` — a node leads to a smaller height;
* `Atlas.runGraph_fuel` — a run of the graph is the same with all fuel that suffices;
* `Atlas.graph_node_runs` — **an invocation runs thirteen nodes at most**.
-/

import Atlas.WorkerActs

set_option relaxedAutoImplicit false
set_option autoImplicit false

namespace Atlas

/-! ### Heights -/

/-- The nodes the repairs that are left may take: each goes from the draft to the policy again. -/
def GraphState.allowance (state : GraphState) : ℕ := 5 * (maxRepairs - state.repairCount)

/-- The nodes a run may still take, this one included. -/
def Node.height (node : Node) (state : GraphState) : ℕ :=
  match node with
  | .validate => 8 + state.allowance
  | .plan => 7 + state.allowance
  | .research => 6 + state.allowance
  | .draft => 5 + state.allowance
  | .verifyCitations => 4 + state.allowance
  | .evaluate => 3 + state.allowance
  | .policy => 2 + state.allowance
  | .repair => 6 + (repairNode state).allowance
  | .awaitReview | .complete | .terminal => 1

theorem GraphState.allowance_le (state : GraphState) : state.allowance ≤ 5 := by
  rw [allowance, maxRepairs]
  omega

theorem Node.height_pos (node : Node) (state : GraphState) : 0 < node.height state := by
  cases node <;> simp only [height] <;> omega

theorem Node.height_le (node : Node) (state : GraphState) :
    node.height state ≤ maxNodeRuns := by
  rw [maxNodeRuns]
  have hstate := state.allowance_le
  have hrepaired := (repairNode state).allowance_le
  cases node <;> simp only [height] <;> omega

/-- The state a node leaves leads on to a smaller height. -/
def Descends (node : Node) (state state' : GraphState) : Prop :=
  node ≠ .awaitReview → ∀ next, node.next state' = some next →
    next.height state' < node.height state

section Nodes

variable {ctx : GraphContext} {node : Node} {state state' : GraphState}

/-- A node that has one successor only goes on towards the end. -/
theorem descends_of_next {next : Node} (hnext : node.next state' = some next)
    (hheight : next.height state' < node.height state) : Descends node state state' := by
  intro _ other hother
  rw [hnext] at hother
  cases hother
  exact hheight

/-- A repair the policy decides is one the graph has left. -/
theorem descends_policy {disposition : PolicyAction}
    (h : disposition = .repair → state.repairCount < maxRepairs) :
    Descends .policy state (policyNode state disposition) := by
  refine descends_of_next rfl ?_
  cases disposition with
  | repair =>
      have hleft := h rfl
      simp only [routeAfterPolicy, policyNode, Node.height, GraphState.allowance, repairNode]
      omega
  | complete | awaitReview | retry | terminal =>
      simp only [routeAfterPolicy, policyNode, Node.height]
      omega

theorem policyCallback_returns (evalRunId : String) (repairCount evaluationAttempt : ℕ) :
    (policyCallback ctx evalRunId repairCount evaluationAttempt).Returns fun disposition =>
      disposition = .repair → repairCount < maxRepairs := by
  unfold policyCallback
  split
  · exact .ret nofun
  refine .bind (.trivial _) fun runs _ => ?_
  split
  · exact .ret nofun
  refine .bind (.trivial _) fun stored _ => .bind (.trivial _) fun _ _ => .ret fun hrepair => ?_
  -- the policy has seen the larger of the two counts
  have hbelow := decideForEvaluation_repair hrepair
  exact lt_of_le_of_lt (Nat.le_max_right stored.1 repairCount) hbelow

/-- **A node leads to a smaller height**, whatever it is answered. -/
theorem nodeBody_returns (ctx : GraphContext) (node : Node) (state : GraphState) :
    (nodeBody ctx node state).Returns (Descends node state) := by
  cases node with
  | validate =>
      refine .lift fun state' h => ?_
      simp only [validateNode, Checked.bind_eq_ok, Checked.pure_eq_ok] at h
      obtain ⟨_, -, _, -, rfl⟩ := h
      exact descends_of_next rfl (by simp only [Node.height, GraphState.allowance]; omega)
  | plan =>
      refine .bind (.trivial _) fun tasks _ => .ret ?_
      exact descends_of_next rfl (by simp only [Node.height, planNode, GraphState.allowance]; omega)
  | research =>
      refine .bind (.trivial _) fun answer _ => .ret ?_
      refine descends_of_next rfl ?_
      simp only [Node.height, researchNode, GraphState.allowance]
      omega
  | draft =>
      refine .bind (.trivial _) fun answer _ => .ret ?_
      exact descends_of_next rfl
        (by simp only [Node.height, draftNode, GraphState.allowance]; omega)
  | verifyCitations =>
      refine .bind (.trivial _) fun claims _ => .ret ?_
      refine descends_of_next rfl ?_
      simp only [Node.height, verifyCitationsNode, GraphState.allowance]
      omega
  | evaluate =>
      refine .bind (.trivial _) fun _ _ => .bind (.trivial _) fun now _ => ?_
      refine .bind (.trivial _) fun _ _ => .bind (.trivial _) fun result _ => .ret ?_
      refine descends_of_next rfl ?_
      simp only [Node.height, evaluateNode, GraphState.allowance]
      omega
  | policy =>
      by_cases hpassed : state.evaluationPassed = true
      · simp only [nodeBody, hpassed, if_true]
        exact .ret (descends_policy fun hrepair => by cases hrepair)
      · simp only [nodeBody, hpassed]
        exact .bind (policyCallback_returns _ _ _) fun disposition h => .ret (descends_policy h)
  | repair =>
      refine .ret (descends_of_next rfl ?_)
      simp only [Node.height]
      omega
  | awaitReview => exact .ret fun h => absurd rfl h
  | complete =>
      refine .bind (.trivial _) fun override _ => .bind (.trivial _) fun report _ => ?_
      refine .bind (.trivial _) fun _ _ => .bind (.trivial _) fun _ _ => .ret ?_
      rintro - next ⟨⟩
  | terminal => exact .raise _

theorem wrapNode_returns (ctx : GraphContext) (node : Node) (state : GraphState) :
    (wrapNode ctx node state).Returns (Descends node state) := by
  refine .bind (.trivial _) fun attempt _ => ?_
  refine .bind (.tryCatch (nodeBody_returns ctx node state) fun x => ?_) fun state' h => ?_
  · exact .bind (.trivial _) fun _ _ => .raise x
  · exact .bind (.trivial _) fun _ _ => .ret h

/-! ### Fuel -/

/-- **A run of the graph is the same with all fuel that suffices.** -/
theorem runGraph_fuel {fuel fuel' : ℕ} (hfuel : node.height state ≤ fuel)
    (hfuel' : node.height state ≤ fuel') :
    runGraph ctx fuel state node = runGraph ctx fuel' state node := by
  induction fuel generalizing fuel' node state with
  | zero => exact absurd (node.height_pos state) (by omega)
  | succ fuel ih =>
      cases fuel' with
      | zero => exact absurd (node.height_pos state) (by omega)
      | succ fuel' =>
          refine Program.Returns.bind_congr (wrapNode_returns ctx node state) fun state' h => ?_
          refine Program.Returns.bind_congr (.trivial _) fun _ _ => ?_
          split
          · rfl
          · rename_i hnode
            cases hnext : node.next state' with
            | none => rfl
            | some next =>
                -- the successor is lower, and both have one less
                have hlower := h hnode next hnext
                exact ih (by omega) (by omega)

theorem invokeGraphWithin_fuel (ctx : GraphContext) (input : Option GraphState) (more : ℕ) :
    invokeGraphWithin ctx (maxNodeRuns + more) input = invokeGraph ctx input := by
  have hrun (state : GraphState) (node : Node) : runGraph ctx (maxNodeRuns + more) state node
      = runGraph ctx maxNodeRuns state node :=
    runGraph_fuel (le_trans (node.height_le state) (Nat.le_add_right _ _)) (node.height_le state)
  cases input with
  | some state => simp only [invokeGraph, invokeGraphWithin, hrun]
  | none => simp only [invokeGraph, invokeGraphWithin, hrun]

end Nodes

/-! ### Node runs -/

/-- The node runs that have been begun: each has an audit row. -/
def World.nodeRuns (w : World) : ℕ := w.nodeExecutions.length

section Runs

/-- Between its audit rows a node begins no other. -/
theorem NodeCommit.nodeRuns_eq {settings : Settings} {jobId token : String} {e : Env} {w w' : World}
    (h : NodeCommit settings jobId token e w w') : w'.nodeRuns = w.nodeRuns :=
  congrArg List.length h.rows

/-- A program whose acts begin no node adds none. -/
theorem adds_zero {α : Type} {p : Activity α} (h : p.Acts fun _ w w' => w'.nodeRuns = w.nodeRuns) :
    p.Adds World.nodeRuns 0 :=
  .of_acts h fun _ _ _ hsame => le_of_eq hsame

theorem acts_closeNodeAttempt (executionId : String) (node : Node) (attempt : ℕ)
    (status : NodeExecutionStatus) (error : Option String) :
    (Program.atomically (closeNodeAttempt executionId node attempt status error)).Acts
      fun _ w w' => w'.nodeRuns = w.nodeRuns := by
  refine .atomically (fun _ _ => rfl) fun e w u w' h => ?_
  simp only [closeNodeAttempt, Tx.bind_eq_ok, Tx.reading_eq_ok, Tx.modify_eq_ok] at h
  obtain ⟨_, _, ⟨-, rfl⟩, rfl⟩ := h
  exact List.length_map _

theorem acts_saveCheckpoint (executionId : String) (checkpoint : Checkpoint) :
    (saveCheckpoint executionId checkpoint).Acts fun _ w w' => w'.nodeRuns = w.nodeRuns := by
  refine .atomically (fun _ _ => rfl) fun e w u w' h => ?_
  obtain rfl := Tx.modify_eq_ok.1 h
  rfl

/-- A node is begun once. -/
theorem wrapNode_adds (ctx : GraphContext) (node : Node) (state : GraphState) :
    (wrapNode ctx node state).Adds World.nodeRuns 1 := by
  have hbegin : (Program.atomically (beginNodeAttempt ctx.executionId node) : Activity ℕ).Adds
      World.nodeRuns 1 := by
    refine .atomically fun e w attempt w' h => ?_
    simp only [beginNodeAttempt, Tx.bind_eq_ok, Tx.reading_eq_ok, Tx.read_eq_ok, Tx.modify_eq_ok,
      Tx.pure_eq_ok] at h
    obtain ⟨_, _, ⟨-, rfl⟩, _, _, ⟨-, rfl⟩, _, _, rfl, -, rfl⟩ := h
    exact le_of_eq List.length_append
  refine hbegin.bind fun attempt => adds_zero ?_
  refine .bind (.tryCatch ?_ fun x => ?_) fun state' => ?_
  · exact (nodeActs_nodeBody node state).mono fun _ _ _ h => h.nodeRuns_eq
  · exact .bind (acts_closeNodeAttempt _ _ _ _ _) fun _ => .raise x
  · exact .bind (acts_closeNodeAttempt _ _ _ _ _) fun _ => .ret state'

/-- **A run takes as many nodes as its height allows at most**, with any fuel. -/
theorem runGraph_adds (ctx : GraphContext) (fuel : ℕ) (state : GraphState) (node : Node) :
    (runGraph ctx fuel state node).Adds World.nodeRuns (node.height state) := by
  induction fuel generalizing node state with
  | zero => exact .raise _
  | succ fuel ih =>
      have hpos := node.height_pos state
      refine Program.Adds.mono (n := 1 + (0 + (node.height state - 1))) ?_ (by omega)
      refine Program.Returns.adds_bind (wrapNode_returns ctx node state)
        (wrapNode_adds ctx node state) fun state' h => ?_
      refine Program.Adds.bind (adds_zero (acts_saveCheckpoint _ _)) fun _ => ?_
      split
      · exact .ret _
      · rename_i hnode
        cases hnext : node.next state' with
        | none => exact .ret _
        | some next =>
            have hlower := h hnode next hnext
            exact (ih state' next).mono (by omega)

/-- **An invocation of the graph runs thirteen nodes at most**, all its acts together, from the start
and from every checkpoint, whatever it is answered and whatever others do in between; and with more
fuel than for these it is the same program. -/
theorem graph_node_runs (ctx : GraphContext) (input : Option GraphState) (fuel more : ℕ) :
    (invokeGraphWithin ctx fuel input).Adds World.nodeRuns 13 ∧
      invokeGraphWithin ctx (13 + more) input = invokeGraph ctx input := by
  refine ⟨?_, invokeGraphWithin_fuel ctx input more⟩
  have hrun (state : GraphState) (node : Node) :
      (runGraph ctx fuel state node).Adds World.nodeRuns 13 :=
    (runGraph_adds ctx fuel state node).mono (node.height_le state)
  cases input with
  | some state =>
      exact Program.Adds.mono ((adds_zero (acts_saveCheckpoint _ _)).bind fun _ => hrun _ _)
        (by omega)
  | none =>
      have hread : (getState ctx.executionId).Adds World.nodeRuns 0 :=
        adds_zero (.read fun _ _ => rfl)
      refine Program.Adds.mono (hread.bind (m := 13) fun checkpoint => ?_) (by omega)
      match checkpoint with
      | some ⟨values, some next⟩ => exact hrun _ _
      | some ⟨values, none⟩ => exact .ret _
      | none => exact .raise _

end Runs

end Atlas
