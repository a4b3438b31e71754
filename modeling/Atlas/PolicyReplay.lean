/-
**Replays of the policy callback.**

The policy callback stores its decision under a fingerprint of its inputs, so that running it again
after a crash finds the stored decision.  The counters of the job are among the inputs.  A decision
to repair increments one of them in its own transaction; the replay then sees the repair counted,
decides otherwise, and stores a second decision.  Every other decision leaves the counters as they
are, and its replay finds it.

Main definitions:

* `Atlas.SameInputs` — nothing the callback of a job reads has changed;
* `Atlas.AfterReplays` — the states after any number of crashes and replays;
* `Atlas.Replays` — the replay returns the same action and changes nothing.

Main results:

* `Atlas.policyCallback_run` — a run of the callback is its one transaction;
* `Atlas.recorded_replays` — a decision other than a repair is found again;
* `Atlas.policy_replay` — **the replay is idempotent exactly when the decision is not a repair**.
-/

import Atlas.ReviewGate

set_option relaxedAutoImplicit false
set_option autoImplicit false

namespace Atlas

open Checked

/-! ### Replays -/

/-- The decisions of a job. -/
def World.decisionsOf (w : World) (jobId : String) : List PolicyDecisionRow :=
  w.policyDecisions.filter (·.researchJobId = jobId)

/-- The decisions made for an evaluation run. -/
def World.decisionsFor (w : World) (evalRunId : String) : List PolicyDecisionRow :=
  w.policyDecisions.filter (·.evaluationRunId = some evalRunId)

/-- The counters of a job. -/
def World.counts (w : World) (jobId : String) : ℕ × ℕ × ℕ := getAttemptCounts (w.jobs.lookup jobId)

/-- What the callback of a job reads is the same: its evaluation runs, its decisions, and its
counters.  The claim, and everything of other jobs, may have changed. -/
structure SameInputs (jobId : String) (w w' : World) : Prop where
  runs : runsOfJob w'.evaluationRuns jobId = runsOfJob w.evaluationRuns jobId
  decisions : w'.decisionsOf jobId = w.decisionsOf jobId
  counts : w'.counts jobId = w.counts jobId

/-- The graph of the same execution of the same job, possibly under another claim. -/
structure SameGraph (ctx ctx' : GraphContext) : Prop where
  jobId : ctx'.jobId = ctx.jobId
  executionId : ctx'.executionId = ctx.executionId
  sha256 : ctx'.settings.sha256 = ctx.settings.sha256

section Replays

variable (ctx : GraphContext) (evalRunId : String) (repairCount evaluationAttempt : ℕ)

/-- The states after any number of crashes and replays of the callback. -/
inductive AfterReplays (w : World) : World → Prop
  | none : AfterReplays w w
  /-- The worker crashed, and the job was reclaimed. -/
  | crash {w₁ w₂ : World} : AfterReplays w w₁ → SameInputs ctx.jobId w₁ w₂ → AfterReplays w w₂
  /-- The callback ran again. -/
  | replay {w₁ : World} (ctx' : GraphContext) (env : ℕ → Env) (i : ℕ) :
      AfterReplays w w₁ → SameGraph ctx ctx' →
      AfterReplays w
        ((policyCallback ctx' evalRunId repairCount evaluationAttempt).run env i w₁).2.2

/-- A replay returns the action, inserts no decision for the evaluation run, and counts no
repair. -/
structure Replays (action : PolicyAction) (ctx' : GraphContext) (env : ℕ → Env) (i : ℕ)
    (w : World) : Prop where
  action : ((policyCallback ctx' evalRunId repairCount evaluationAttempt).run env i w).1
    = .ok action
  decisions : (((policyCallback ctx' evalRunId repairCount evaluationAttempt).run env i
    w).2.2.decisionsFor evalRunId).length = (w.decisionsFor evalRunId).length
  repairs : (((policyCallback ctx' evalRunId repairCount evaluationAttempt).run env i
    w).2.2.counts ctx.jobId).1 = (w.counts ctx.jobId).1

end Replays

section Proofs

variable {ctx ctx' : GraphContext} {evalRunId : String} {repairCount evaluationAttempt : ℕ}
  {w w' : World} {env : ℕ → Env} {i j : ℕ} {e : Env} {action : PolicyAction}

/-! ### One run of the callback -/

/-- The decision the callback makes for an evaluation result. -/
def callbackDecision (w : World) (jobId : String) (repairCount evaluationAttempt : ℕ)
    (result : EvaluationRunResult) : PolicyDecision :=
  decideForEvaluation (result.passed.getD false) result.dimensions
    (policyCounts (w.counts jobId) repairCount evaluationAttempt)

/-- The transaction of the callback. -/
def callbackTx (ctx : GraphContext) (evalRunId : String) (repairCount evaluationAttempt : ℕ)
    (w : World) (result : EvaluationRunResult) : Transaction Unit :=
  recordEvaluationDecision ctx evalRunId
    (callbackDecision w ctx.jobId repairCount evaluationAttempt result)
    (policyCounts (w.counts ctx.jobId) repairCount evaluationAttempt)

/-- **A run of the callback on a known evaluation is its one transaction.** -/
theorem policyCallback_run {result : EvaluationRunResult} (hid : evalRunId ≠ "")
    (hresult : (runsOfJob w.evaluationRuns ctx.jobId).find? (·.runId = evalRunId) = some result) :
    (policyCallback ctx evalRunId repairCount evaluationAttempt).run env i w =
      match callbackTx ctx evalRunId repairCount evaluationAttempt w result (env (i + 2)) w with
      | .ok (_, w') => (.ok (callbackDecision w ctx.jobId repairCount evaluationAttempt result).action,
          i + 3, w')
      | .error x => (.error x, i + 3, w) := by
  have hstart : (policyCallback ctx evalRunId repairCount evaluationAttempt).run env i w =
      (do
        Program.atomically (callbackTx ctx evalRunId repairCount evaluationAttempt w result)
        Program.ret (callbackDecision w ctx.jobId repairCount evaluationAttempt
          result).action : Activity PolicyAction).run env (i + 2) w := by
    simp only [policyCallback, if_neg hid, Program.run_bind, Program.run_read, hresult]
    rfl
  rw [hstart, Program.run_bind, Program.run_atomically]
  cases callbackTx ctx evalRunId repairCount evaluationAttempt w result (env (i + 2)) w with
  | ok answer => rfl
  | error x => rfl

/-- Without a known evaluation the callback stores nothing. -/
theorem policyCallback_run_unknown
    (h : evalRunId = "" ∨
      (runsOfJob w.evaluationRuns ctx.jobId).find? (·.runId = evalRunId) = none) :
    ((policyCallback ctx evalRunId repairCount evaluationAttempt).run env i w).2.2 = w := by
  by_cases hid : evalRunId = ""
  · simp [policyCallback, hid]
  · rcases h with h | h
    · exact absurd h hid
    · simp only [policyCallback, if_neg hid, Program.run_bind, Program.run_read, h,
        Program.run_ret]

/-- What the transaction stores: the decision, and with a new decision to repair the repair. -/
theorem recordEvaluationDecision_eq_ok {decision : PolicyDecision} {counts : AttemptCounts}
    {u : Unit} (h : recordEvaluationDecision ctx evalRunId decision counts e w = .ok (u, w')) :
    ∃ id decisions, insertPolicyDecision w.policyDecisions
        (evaluationDecisionRow ctx evalRunId decision counts (e.uuid 0) e.now)
        (w.hasReferences (evaluationDecisionRow ctx evalRunId decision counts (e.uuid 0) e.now))
          = .ok (id, decisions) ∧
      ((id = e.uuid 0 ∧ decision.action = .repair ∧ ∃ row,
          incrementRepairCount (w.jobs.lookup ctx.jobId) ctx.claimToken e.now = .ok (some row) ∧
          w' = { w with policyDecisions := decisions, jobs := w.jobs.insert ctx.jobId row }) ∨
        (¬ (id = e.uuid 0 ∧ decision.action = .repair) ∧
          w' = { w with policyDecisions := decisions })) := by
  simp only [recordEvaluationDecision, Tx.bind_eq_ok, Tx.reading_eq_ok] at h
  obtain ⟨_, _, ⟨rfl, rfl⟩, _, _, ⟨rfl, rfl⟩, ⟨id, created⟩, _, hrecord, h⟩ := h
  obtain ⟨decisions, hinsert, rfl, rfl⟩ := recordPolicyDecision_eq_ok.1 hrecord
  refine ⟨id, decisions, hinsert, ?_⟩
  split at h
  · rename_i hrepair
    obtain ⟨hcreated, haction⟩ := hrepair
    simp only [Tx.bind_eq_ok, onJob_eq_ok, require_eq_ok] at h
    obtain ⟨ok, _, hjob, rfl, rfl⟩ := h
    rcases hjob with ⟨row, hrow, -, rfl⟩ | ⟨-, hfalse, -⟩
    · exact .inl ⟨of_decide_eq_true hcreated, haction, row, hrow, rfl⟩
    · cases hfalse
  · rename_i hnot
    obtain ⟨-, rfl⟩ := Tx.pure_eq_ok.1 h
    refine .inr ⟨?_, rfl⟩
    rintro ⟨hid, haction⟩
    exact hnot ⟨decide_eq_true hid, haction⟩

/-- The job's decisions are all the insertion looks at. -/
theorem find_sameKey (w : World) (row : PolicyDecisionRow) :
    w.policyDecisions.find? (·.sameKey row)
      = (w.decisionsOf row.researchJobId).find? (·.sameKey row) := by
  rw [World.decisionsOf, List.find?_filter]
  congr 1
  funext existing
  by_cases hjob : existing.researchJobId = row.researchJobId <;>
    simp [PolicyDecisionRow.sameKey, hjob]

/-- A row that was not there is found after it is appended, by any row with its key. -/
theorem find_appended {decisions : List PolicyDecisionRow} {row row' : PolicyDecisionRow}
    (hkey : ∀ existing, PolicyDecisionRow.sameKey existing row'
      = PolicyDecisionRow.sameKey existing row)
    (hnone : decisions.find? (·.sameKey row) = none) (hself : row.sameKey row = true) :
    (decisions ++ [row]).find? (·.sameKey row') = some row := by
  simp only [hkey, List.find?_append, hnone, Option.none_or]
  simp [hself]

/-! ### A decision that is stored -/

/-- The decision for an evaluation run is stored, with the inputs it was made from. -/
structure Recorded (ctx : GraphContext) (evalRunId : String) (repairCount evaluationAttempt : ℕ)
    (action : PolicyAction) (w : World) (result : EvaluationRunResult)
    (existing : PolicyDecisionRow) : Prop where
  known : evalRunId ≠ ""
  answer : (runsOfJob w.evaluationRuns ctx.jobId).find? (·.runId = evalRunId) = some result
  decided : (callbackDecision w ctx.jobId repairCount evaluationAttempt result).action = action
  length : ∀ id now, (evaluationDecisionRow ctx evalRunId
    (callbackDecision w ctx.jobId repairCount evaluationAttempt result)
    (policyCounts (w.counts ctx.jobId) repairCount evaluationAttempt) id
    now).decisionFingerprint.length = 64
  found : ∀ id now, (w.decisionsOf ctx.jobId).find? (·.sameKey (evaluationDecisionRow ctx evalRunId
    (callbackDecision w ctx.jobId repairCount evaluationAttempt result)
    (policyCounts (w.counts ctx.jobId) repairCount evaluationAttempt) id now)) = some existing
  agrees : ∀ id now, existing.agrees (evaluationDecisionRow ctx evalRunId
    (callbackDecision w ctx.jobId repairCount evaluationAttempt result)
    (policyCounts (w.counts ctx.jobId) repairCount evaluationAttempt) id now) = true

variable {result : EvaluationRunResult} {existing : PolicyDecisionRow}

/-- The stored decision stays stored while nothing the callback reads changes. -/
theorem Recorded.sameInputs
    (h : Recorded ctx evalRunId repairCount evaluationAttempt action w result existing)
    (hsame : SameInputs ctx.jobId w w') :
    Recorded ctx evalRunId repairCount evaluationAttempt action w' result existing := by
  have hdecision : callbackDecision w' ctx.jobId repairCount evaluationAttempt result
      = callbackDecision w ctx.jobId repairCount evaluationAttempt result := by
    rw [callbackDecision, callbackDecision, hsame.counts]
  constructor
  · exact h.known
  · rw [hsame.runs]
    exact h.answer
  · rw [hdecision]
    exact h.decided
  · rw [hdecision, hsame.counts]
    exact h.length
  · rw [hdecision, hsame.counts, hsame.decisions]
    exact h.found
  · rw [hdecision, hsame.counts]
    exact h.agrees

theorem Recorded.sameGraph
    (h : Recorded ctx evalRunId repairCount evaluationAttempt action w result existing)
    (hsame : SameGraph ctx ctx') :
    Recorded ctx' evalRunId repairCount evaluationAttempt action w result existing := by
  have hrow (decision : PolicyDecision) (counts : AttemptCounts) (id : String) (now : Instant) :
      evaluationDecisionRow ctx' evalRunId decision counts id now
        = evaluationDecisionRow ctx evalRunId decision counts id now := by
    simp only [evaluationDecisionRow, hsame.jobId, hsame.executionId, hsame.sha256]
  constructor
  · exact h.known
  · rw [hsame.jobId]
    exact h.answer
  · rw [hsame.jobId]
    exact h.decided
  · simp only [hrow, hsame.jobId]
    exact h.length
  · simp only [hrow, hsame.jobId]
    exact h.found
  · simp only [hrow, hsame.jobId]
    exact h.agrees

/-- **A stored decision other than a repair is found again, and nothing changes.** -/
theorem Recorded.run
    (h : Recorded ctx evalRunId repairCount evaluationAttempt action w result existing)
    (hrepair : action ≠ .repair) :
    (policyCallback ctx evalRunId repairCount evaluationAttempt).run env i w
      = (.ok action, i + 3, w) := by
  have htx (e : Env) : callbackTx ctx evalRunId repairCount evaluationAttempt w result e w
      = .ok ((), w) := by
    let row := evaluationDecisionRow ctx evalRunId
      (callbackDecision w ctx.jobId repairCount evaluationAttempt result)
      (policyCounts (w.counts ctx.jobId) repairCount evaluationAttempt) (e.uuid 0) e.now
    have hinsert : insertPolicyDecision w.policyDecisions row (w.hasReferences row)
        = .ok (existing.id, w.policyDecisions) :=
      insertPolicyDecision_eq_ok.2 ⟨h.length (e.uuid 0) e.now, .inl ⟨existing,
        (find_sameKey w row).trans (h.found (e.uuid 0) e.now), h.agrees (e.uuid 0) e.now, rfl, rfl⟩⟩
    have hrecord : recordPolicyDecision row e w
        = .ok ((existing.id, decide (existing.id = row.id)), w) :=
      recordPolicyDecision_eq_ok.2 ⟨_, hinsert, rfl, rfl⟩
    rw [callbackTx, recordEvaluationDecision]
    simp only [Tx.bind_eq_ok, Tx.reading_eq_ok]
    refine ⟨e.now, w, ⟨rfl, rfl⟩, e.uuid 0, w, ⟨rfl, rfl⟩, _, _, hrecord, ?_⟩
    rw [if_neg]
    · rfl
    · rintro ⟨-, haction⟩
      exact hrepair (h.decided.symm.trans haction)
  rw [policyCallback_run h.known h.answer, htx]
  exact congrArg (fun a => (Except.ok a, i + 3, w)) h.decided

/-! ### After the first run -/

/-- A run that stores a decision made it for a known evaluation. -/
theorem committed_cases
    (hfirst : (policyCallback ctx evalRunId repairCount evaluationAttempt).run env i w
      = (.ok action, j, w'))
    (hcommitted : w'.policyDecisions ≠ w.policyDecisions) :
    ∃ result, evalRunId ≠ "" ∧
      (runsOfJob w.evaluationRuns ctx.jobId).find? (·.runId = evalRunId) = some result ∧
      (callbackDecision w ctx.jobId repairCount evaluationAttempt result).action = action ∧
      callbackTx ctx evalRunId repairCount evaluationAttempt w result (env (i + 2)) w
        = .ok ((), w') := by
  have hend : ((policyCallback ctx evalRunId repairCount evaluationAttempt).run env i w).2.2 = w' := by
    rw [hfirst]
  by_cases hid : evalRunId = ""
  · have hsame := (policyCallback_run_unknown (.inl hid)).symm.trans hend
    exact absurd (by rw [hsame]) hcommitted
  · cases hresult : (runsOfJob w.evaluationRuns ctx.jobId).find? (·.runId = evalRunId) with
    | none =>
        have hsame := (policyCallback_run_unknown (.inr hresult)).symm.trans hend
        exact absurd (by rw [hsame]) hcommitted
    | some result =>
        rw [policyCallback_run hid hresult] at hfirst
        cases htx : callbackTx ctx evalRunId repairCount evaluationAttempt w result (env (i + 2)) w
          with
        | error x =>
            rw [htx] at hfirst
            cases hfirst
        | ok answer =>
            obtain ⟨⟨⟩, w₁⟩ := answer
            rw [htx] at hfirst
            cases hfirst
            exact ⟨result, hid, rfl, rfl, htx⟩

/-- A decision other than a repair is stored with the inputs it was made from. -/
theorem recorded_of_committed
    (hfirst : (policyCallback ctx evalRunId repairCount evaluationAttempt).run env i w
      = (.ok action, j, w'))
    (hcommitted : w'.policyDecisions ≠ w.policyDecisions) (hrepair : action ≠ .repair) :
    ∃ result existing,
      Recorded ctx evalRunId repairCount evaluationAttempt action w' result existing := by
  obtain ⟨result, hid, hresult, haction, htx⟩ := committed_cases hfirst hcommitted
  obtain ⟨id, decisions, hinsert, ⟨-, hisRepair, -⟩ | ⟨-, rfl⟩⟩ := recordEvaluationDecision_eq_ok htx
  · exact absurd (haction.symm.trans hisRepair) hrepair
  · obtain ⟨hlength, ⟨_, -, -, -, rfl⟩ | ⟨hnone, -, -, -, rfl⟩⟩ :=
      insertPolicyDecision_eq_ok.1 hinsert
    · exact absurd rfl hcommitted
    · -- the row just appended is the one the replay finds
      refine ⟨result, evaluationDecisionRow ctx evalRunId
        (callbackDecision w ctx.jobId repairCount evaluationAttempt result)
        (policyCounts (w.counts ctx.jobId) repairCount evaluationAttempt) ((env (i + 2)).uuid 0)
        (env (i + 2)).now, hid, hresult, haction, fun _ _ => hlength, ?_, fun _ _ => ?_⟩
      · intro id now
        refine Eq.trans (find_sameKey _ _).symm ?_
        refine find_appended (fun _ => rfl) hnone ?_
        rw [PolicyDecisionRow.sameKey, Bool.and_eq_true]
        exact ⟨decide_eq_true rfl, decide_eq_true rfl⟩
      · simp only [PolicyDecisionRow.agrees, Bool.and_eq_true]
        exact ⟨⟨⟨⟨decide_eq_true rfl, decide_eq_true rfl⟩, decide_eq_true rfl⟩,
          decide_eq_true rfl⟩, decide_eq_true rfl⟩

/-- A replay decides to repair only when no repair is counted. -/
theorem repair_of_run
    (h : ((policyCallback ctx evalRunId repairCount evaluationAttempt).run env i w).1
      = .ok .repair) : (w.counts ctx.jobId).1 < maxRepairs := by
  by_cases hid : evalRunId = ""
  · simp [policyCallback, hid] at h
  · cases hresult : (runsOfJob w.evaluationRuns ctx.jobId).find? (·.runId = evalRunId) with
    | none => simp [policyCallback, hid, Program.run_bind, hresult] at h
    | some result =>
        rw [policyCallback_run hid hresult] at h
        have haction : (callbackDecision w ctx.jobId repairCount evaluationAttempt result).action
            = .repair := by
          split at h
          · exact Except.ok.inj h
          · cases h
        have hbelow := decideForEvaluation_repair haction
        exact lt_of_le_of_lt (le_max_left _ _) hbelow

/-- A decision to repair counts the repair when it is stored. -/
theorem counted_of_committed
    (hfirst : (policyCallback ctx evalRunId repairCount evaluationAttempt).run env i w
      = (.ok .repair, j, w'))
    (hcommitted : w'.policyDecisions ≠ w.policyDecisions) : maxRepairs ≤ (w'.counts ctx.jobId).1 := by
  obtain ⟨result, hid, hresult, haction, htx⟩ := committed_cases hfirst hcommitted
  obtain ⟨id, decisions, hinsert, ⟨-, -, row, hrow, rfl⟩ | ⟨hnot, rfl⟩⟩ :=
    recordEvaluationDecision_eq_ok htx
  · obtain ⟨before, -, -, -, -, rfl⟩ := incrementRepairCount_eq_some.1 hrow
    rw [World.counts, AList.lookup_insert]
    exact Nat.succ_le_succ (Nat.zero_le _)
  · obtain ⟨-, ⟨_, -, -, -, rfl⟩ | ⟨-, -, -, hid', rfl⟩⟩ := insertPolicyDecision_eq_ok.1 hinsert
    · exact absurd rfl hcommitted
    · exact absurd ⟨hid'.symm, haction⟩ hnot

/-- After any number of crashes and replays the decision is still the one that is stored. -/
theorem Recorded.afterReplays
    (h : Recorded ctx evalRunId repairCount evaluationAttempt action w result existing)
    (hrepair : action ≠ .repair)
    (hafter : AfterReplays ctx evalRunId repairCount evaluationAttempt w w') :
    Recorded ctx evalRunId repairCount evaluationAttempt action w' result existing := by
  induction hafter with
  | none => exact h
  | crash _ hsame ih => exact ih.sameInputs hsame
  | replay ctx' env i _ hgraph ih =>
      rw [(ih.sameGraph hgraph).run hrepair]
      exact ih

/-! ### Idempotence -/

/-- **The policy callback is idempotent exactly when its decision is not a repair.**  The first run
has stored its decision; afterwards the worker may crash and the callback be replayed any number of
times, under any claim. -/
theorem policy_replay {w₀ w₁ : World}
    (hfirst : (policyCallback ctx evalRunId repairCount evaluationAttempt).run env i w₀
      = (.ok action, j, w₁))
    (hcommitted : w₁.policyDecisions ≠ w₀.policyDecisions) :
    (∀ w₂ ctx' env' k, AfterReplays ctx evalRunId repairCount evaluationAttempt w₁ w₂ →
        SameGraph ctx ctx' →
        Replays ctx evalRunId repairCount evaluationAttempt action ctx' env' k w₂) ↔
      action ≠ .repair := by
  constructor
  · rintro hreplays rfl
    have hagain := (hreplays w₁ ctx env i .none ⟨rfl, rfl, rfl⟩).action
    have hbelow := repair_of_run hagain
    have habove := counted_of_committed hfirst hcommitted
    omega
  · intro hrepair w₂ ctx' env' k hafter hgraph
    obtain ⟨result, existing, hrecorded⟩ := recorded_of_committed hfirst hcommitted hrepair
    have hrun : (policyCallback ctx' evalRunId repairCount evaluationAttempt).run env' k w₂
        = (.ok action, k + 3, w₂) :=
      ((hrecorded.afterReplays hrepair hafter).sameGraph hgraph).run hrepair
    constructor
    · rw [hrun]
    · rw [hrun]
    · rw [hrun]

end Proofs

/-! ### Instances -/

/-- The digests of the decisions below: to repair, to wait for review, and to fail. -/
def replayDigest (canonical : String) : String :=
  if Python.startsWith canonical "\x7b\"decision\":\"repair\"" then
    "19b48cc4e5f2712bc1c64bfdf4782f15bba9f0e1fe5014a34c1c649f446d01db"
  else if Python.startsWith canonical "\x7b\"decision\":\"await_review\"" then
    "f69efef2054e93e8a488a64d467e5c0712f56b2d31a2e0bad6b7789e8815086e"
  else "300eed04e746477a4f9e3bc63b157873d3502f210465a44eae17db2295c78f21"

/-- The graph of the execution, under the claim of its job. -/
def replayContext : GraphContext where
  settings := { sampleSettings with sha256 := replayDigest }
  jobId := "job-1"
  executionId := "exec-1"
  claimToken := String.ofList (List.replicate 64 'a')
  evaluationProfile := "evaluation.candidate.v1"

/-- The environments, before the lease of the claim ends. -/
def replayEnv (i : ℕ) : Env := { sampleEnv i with now := 15 }

/-- The database after an evaluation in which one dimension failed. -/
def replayWorld (failed : DimensionName) : World :=
  { sampleWorld .none ⟨gateValues, some .policy⟩ with
    evaluationRuns := (∅ : EvaluationRuns).insert "run-1"
      { id := "run-1", researchJobId := "job-1", workflowExecutionId := "exec-1"
        evaluationProfile := "evaluation.candidate.v1", evaluationAttempt := 1
        status := .succeeded, ownershipToken := String.ofList (List.replicate 64 'd')
        inputFingerprint := String.ofList (List.replicate 64 'e')
        jobClaimFingerprint := String.ofList (List.replicate 64 'c')
        passed := some false, dimensions := [⟨failed, false, .deterministic⟩]
        deadlineAt := 40, startedAt := 11, finishedAt := some 12 } }

/-- A run of the callback for the evaluation. -/
def replayRun (i : ℕ) (w : World) : Except Exc PolicyAction × ℕ × World :=
  (policyCallback replayContext "run-1" 0 1).run replayEnv i w

theorem replayRun_eq (i : ℕ) (w : World) :
    (policyCallback replayContext "run-1" 0 1).run replayEnv i w
      = ((replayRun i w).1, (replayRun i w).2.1, (replayRun i w).2.2) :=
  rfl

/-- The database after the first run. -/
def replayedWorld (failed : DimensionName) : World := (replayRun 0 (replayWorld failed)).2.2

/-- The database after a first run that decided to repair. -/
def repairedWorld : World :=
  { replayWorld .completeness with
    jobs := (∅ : Jobs).insert "job-1" { sampleRow .none with repairCount := 1 }
    policyDecisions :=
      [{ id := "id-2-0", researchJobId := "job-1", workflowExecutionId := some "exec-1"
         evaluationRunId := some "run-1", decision := .repair, failureCategory := .repairableDraft
         reasonCode := "SOFT_QUALITY_REPAIR"
         decisionFingerprint := "19b48cc4e5f2712bc1c64bfdf4782f15bba9f0e1fe5014a34c1c649f446d01db"
         createdAt := 15 }] }

theorem replayRun_repair : (replayRun 0 (replayWorld .completeness)).1 = .ok .repair ∧
    (replayRun 0 (replayWorld .completeness)).2.2.SameTables repairedWorld := by
  decide +kernel

theorem replayRun_repaired : (replayRun 3 repairedWorld).1 = .ok .awaitReview ∧
    ((replayRun 3 repairedWorld).2.2.decisionsFor "run-1").length = 2 := by
  decide +kernel

/-- A repair: the first run counts it, and the replay decides to wait for review and stores a second
decision for the same evaluation run. -/
theorem policy_replay_repaired :
    (replayRun 0 (replayWorld .completeness)).1 = .ok .repair ∧
      (replayedWorld .completeness).policyDecisions.length = 1 ∧
      ((replayRun 3 (replayedWorld .completeness)).2.2.decisionsFor "run-1").length = 2 ∧
      ¬ Replays replayContext "run-1" 0 1 .repair replayContext replayEnv 3
        (replayedWorld .completeness) := by
  have hworld : replayedWorld .completeness = repairedWorld := replayRun_repair.2.eq
  rw [hworld]
  refine ⟨replayRun_repair.1, rfl, replayRun_repaired.2, ?_⟩
  intro hreplays
  have haction := hreplays.action
  rw [← replayRun, replayRun_repaired.1] at haction
  cases haction

/-- A decision to fail is found by the replay. -/
theorem policy_replay_terminal :
    Replays replayContext "run-1" 0 1 .terminal replayContext replayEnv 3
      (replayedWorld .citationIntegrity) := by
  obtain ⟨hdecided, hstored⟩ : (replayRun 0 (replayWorld .citationIntegrity)).1 = .ok .terminal ∧
      (replayedWorld .citationIntegrity).policyDecisions.length = 1 := by
    decide +kernel
  have hfirst := replayRun_eq 0 (replayWorld .citationIntegrity)
  rw [hdecided, ← replayedWorld] at hfirst
  refine (policy_replay hfirst ?_).2 nofun _ replayContext replayEnv 3 .none ⟨?_, ?_, ?_⟩
  · intro hsame
    have hlength := congrArg List.length hsame
    rw [hstored] at hlength
    cases hlength
  · rfl
  · rfl
  · rfl

end Atlas
