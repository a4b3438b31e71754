/-
**Decisions of reviews.**

A review looks for a decision under its key before anything else, in its first transaction and again
in its second one, where it holds the row of the job until the decision is stored.  Between the two
it reads the checkpoint outside of any transaction.  So a decision that is stored is found again by
every call that begins later, whatever has become of the job; and a job that waits is left together
with one new decision.  Only a call that began before the decision and reads the checkpoint after the
graph has gone on finds neither the decision nor a job it may review, and is refused.

Main definitions:

* `Atlas.decisionsOf`, `Atlas.World.awaitsReview` — the decisions of a job, and whether it waits;
* `Atlas.ReviewChange` — what a step does to them;
* `Atlas.SystemState.exits` — how often a job left its review along a run;
* `Atlas.ReviewStage` — how far a review is, and what it has answered.

Main results:

* `Atlas.reviewChange_of_change` — **a job leaves its review exactly with one new decision**;
* `Atlas.submitDecision_perform_decided` — a call that begins after the decision answers with it;
* `Atlas.review_decisions` — **decisions take effect once, in every interleaving**;
* `Atlas.review_overlap_refused` — two overlapping calls of one request, the later refused.
-/

import Atlas.Rows
import Atlas.Submissions

set_option relaxedAutoImplicit false
set_option autoImplicit false

namespace Atlas

open Checked

/-! ### What a step does to the decisions of a job -/

/-- The decisions of a job, in the order they were stored. -/
def decisionsOf (w : World) (jobId : String) : List ReviewDecisionRow :=
  w.reviewDecisions.filter (·.researchJobId = jobId)

/-- The job waits for its review. -/
def World.awaitsReview (w : World) (jobId : String) : Bool :=
  (w.jobs.lookup jobId).any (·.status = .awaitingReview)

/-- The row a decision leaves. -/
structure DecidedRow (verdict : ReviewVerdict) (row : ResearchJobRow) : Prop where
  approve : verdict = .approve → row.status = .pending ∧ row.continuationMode = .reviewComplete
  reject : verdict = .reject → row.status = .failed

/-- What a step does to the review of a job. -/
inductive ReviewChange (w w' : World) (jobId : String) : Prop
  /-- No decision is stored, and a job that waits goes on waiting. -/
  | same (hdecisions : decisionsOf w' jobId = decisionsOf w jobId)
      (hwaits : w.awaitsReview jobId = true → w'.awaitsReview jobId = true)
  /-- One decision is stored, and the job leaves its review as the decision says. -/
  | decided (decision : ReviewDecisionRow) (row' : ResearchJobRow)
      (hdecisions : decisionsOf w' jobId = decisionsOf w jobId ++ [decision])
      (hnew : ∀ existing ∈ w.reviewDecisions, existing.id ≠ decision.id)
      (hwaits : w.awaitsReview jobId = true)
      (hrow : w'.jobs.lookup jobId = some row') (hdecided : DecidedRow decision.decision row')

section Changes

variable {w w' : World} {jobId : String}

theorem awaitsReview_eq_true : w.awaitsReview jobId = true ↔
    ∃ row, w.jobs.lookup jobId = some row ∧ row.status = .awaitingReview := by
  simp [World.awaitsReview, Option.any_eq_true]

/-- A row may be written that goes on waiting if it waits. -/
theorem awaitsReview_insert {target : String} {row row' : ResearchJobRow}
    (hrow : w.jobs.lookup target = some row)
    (hstatus : row.status = .awaitingReview → row'.status = .awaitingReview)
    (hjobs : w'.jobs = w.jobs.insert target row') (h : w.awaitsReview jobId = true) :
    w'.awaitsReview jobId = true := by
  obtain ⟨waiting, hwaiting, hwaits⟩ := awaitsReview_eq_true.1 h
  refine awaitsReview_eq_true.2 ?_
  rw [hjobs, Table.lookup_insert_eq]
  split
  · rename_i heq
    subst heq
    obtain rfl := Option.some.inj (hrow.symm.trans hwaiting)
    exact ⟨row', rfl, hstatus hwaits⟩
  · exact ⟨waiting, hwaiting, hwaits⟩

theorem decisionsOf_of_eq (h : w'.reviewDecisions = w.reviewDecisions) :
    decisionsOf w' jobId = decisionsOf w jobId := by
  rw [decisionsOf, h, decisionsOf]

theorem reviewChange_of_jobs (hjobs : w'.jobs = w.jobs)
    (hdecisions : w'.reviewDecisions = w.reviewDecisions) : ReviewChange w w' jobId := by
  refine .same (decisionsOf_of_eq hdecisions) ?_
  rw [World.awaitsReview, World.awaitsReview, hjobs]
  exact id

/-- A worker writes the row of a job that runs. -/
theorem RowWrite.reviewChange {target token : String} {row row' : ResearchJobRow}
    (h : RowWrite target token w row row') (hjobs : w'.jobs = w.jobs.insert target row')
    (hdecisions : w'.reviewDecisions = w.reviewDecisions) : ReviewChange w w' jobId := by
  refine .same (decisionsOf_of_eq hdecisions) (awaitsReview_insert h.owned.1 ?_ hjobs)
  intro hwaits
  rw [h.owned.2.1] at hwaits
  cases hwaits

/-- **A worker neither decides nor ends a review.** -/
theorem WorkerEffect.reviewChange {target token : String} (h : WorkerEffect target token w w') :
    ReviewChange w w' jobId := by
  cases h with
  | aside h => exact reviewChange_of_jobs h.jobs h.reviewDecisions
  | decided _ _ _ h | reran _ _ _ h | closed _ _ _ _ _ _ _ _ _ _ _ h =>
      subst h
      exact reviewChange_of_jobs rfl rfl
  | repaired row row' decision hwrite hrow hjob hrepair h =>
      subst h
      exact hwrite.reviewChange rfl rfl
  | evaluated target row row' run hrecounted hnew hplace h =>
      subst h
      obtain ⟨count, rfl⟩ := hrecounted.columns
      refine .same rfl (awaitsReview_insert hrecounted.lookup ?_ rfl)
      exact fun hwaits => hwaits
  | created row row' executionId execution time hwrite hrow huuid hnew hjob hrunning h =>
      subst h
      exact hwrite.reviewChange rfl rfl
  | paused row row' decision event outbox hwrite hstatus hactive hcounts hdecision htype hrows h =>
      subst h
      exact hwrite.reviewChange rfl rfl
  | retried row row' decision event outbox executions attempts abandon count next time hwrite
      hstatus hmode hactive hretries hrepairs hevaluations hjob hretry hexecution haggregate
      hpayload hrows habandon h =>
      subst h
      exact hwrite.reviewChange rfl rfl
  | ended row row' event outbox hwrite hstatus hactive hcounts htype hrows h =>
      subst h
      exact hwrite.reviewChange rfl rfl

/-- A decision on a job that waits. -/
theorem Records.reviewChange {request : ReviewRequest} {fingerprint : String}
    {answer : String × Bool} {decision : ReviewDecisionRow} {row row' : ResearchJobRow}
    (h : Records request fingerprint answer w decision)
    (hrow : w.jobs.lookup request.jobId = some row) (hstatus : row.status = .awaitingReview)
    (hdecided : DecidedRow request.decision row')
    (hjobs : w'.jobs = w.jobs.insert request.jobId row')
    (hdecisions : w'.reviewDecisions = w.reviewDecisions ++ [decision]) :
    ReviewChange w w' jobId := by
  by_cases heq : jobId = request.jobId
  · subst heq
    refine .decided decision row' ?_ h.id_new (awaitsReview_eq_true.2 ⟨row, hrow, hstatus⟩) ?_ ?_
    · rw [decisionsOf, hdecisions, List.filter_append, List.filter_singleton]
      simp [h.job, decisionsOf]
    · rw [hjobs, AList.lookup_insert]
    · rw [h.verdict]
      exact hdecided
  · have hother : decision.researchJobId ≠ jobId := fun hsame => heq (hsame.symm.trans h.job)
    refine .same ?_ ?_
    · rw [decisionsOf, hdecisions, List.filter_append, List.filter_singleton]
      simp [hother, decisionsOf]
    · rw [World.awaitsReview, World.awaitsReview, hjobs, AList.lookup_insert_ne heq]
      exact id

/-- **A review changes nothing, or leaves the review of its job with one new decision.** -/
theorem Reviewed.reviewChange {request : ReviewRequest} {fingerprint : String}
    {answer : String × Bool} (h : Reviewed request fingerprint answer w w') :
    ReviewChange w w' jobId := by
  cases h with
  | replayed _ _ _ _ h =>
      subst h
      exact reviewChange_of_jobs rfl rfl
  | approved row row' executionId now decision hverdict hrecords hrow hstatus hactive happrove h =>
      subst h
      refine hrecords.reviewChange hrow hstatus ⟨fun _ => ?_, ?_⟩ rfl rfl
      · obtain ⟨_, -, -, row₁, htransition, hflush⟩ := approveReviewToPending_eq_some.1 happrove
        obtain ⟨-, -, rfl⟩ := flushBinding_eq_ok.1 hflush
        obtain ⟨hpending, -⟩ := transition_status .pending (fun _ _ hop => by
          obtain ⟨-, -, rfl⟩ := ResearchJob.approveToPending_eq_ok.1 hop
          rfl) htransition
        exact ⟨hpending, rfl⟩
      · rw [hverdict]
        nofun
  | rejected row row' executionId now executions decision hverdict hrecords hrow hstatus hactive
      hfail hreject h =>
      subst h
      refine hrecords.reviewChange hrow hstatus ⟨?_, fun _ => ?_⟩ rfl rfl
      · rw [hverdict]
        nofun
      · obtain ⟨_, -, -, row₁, htransition, -, rfl⟩ := failFromReview_eq_some.1 hreject
        exact (transition_status .failed (fun _ _ hop => by
          obtain ⟨-, -, -, rfl⟩ := ResearchJob.failFromReview_eq_ok.1 hop
          rfl) htransition).1

variable {issued issued' : List String}

/-- **Every change stores no decision of a job and lets it wait, or ends its review with one.** -/
theorem reviewChange_of_change (jobId : String) (h : WorldChange issued issued' w w') :
    ReviewChange w w' jobId := by
  cases h with
  | worked target token heffect => exact heffect.reviewChange
  | submitted key fingerprint row event hsubmitted =>
      obtain ⟨outbox, -, hworld⟩ := hsubmitted.world
      refine .same (decisionsOf_of_eq (by rw [hworld])) ?_
      intro hwaits
      obtain ⟨waiting, hwaiting, hstatus⟩ := awaitsReview_eq_true.1 hwaits
      refine awaitsReview_eq_true.2 ⟨waiting, ?_, hstatus⟩
      rw [hsubmitted.lookup_eq, if_neg]
      · exact hwaiting
      · rintro rfl
        rw [hsubmitted.new] at hwaiting
        cases hwaiting
  | claimed target token profile lease row row' claimed hnew htoken hrow hfrom hclaims heq =>
      subst heq
      refine .same rfl (awaitsReview_insert hrow ?_ rfl)
      intro hwaits
      rcases hfrom.claimable with hstatus | hstatus <;>
        · rw [hstatus] at hwaits
          cases hwaits
  | reviewed request fingerprint answer hreviewed => exact hreviewed.reviewChange
  | relayed outbox hevents heq =>
      subst heq
      exact reviewChange_of_jobs rfl rfl

end Changes

/-! ### Stored decisions -/

/-- One decision for each job and key, each of a job that exists. -/
structure DecisionBooks (w : World) : Prop where
  unique : (w.reviewDecisions.map fun row => (row.researchJobId, row.idempotencyKey)).Nodup
  job : ∀ row ∈ w.reviewDecisions, ∃ job, w.jobs.lookup row.researchJobId = some job

section Books

variable {w w' : World} {issued issued' : List String}

/-- A decision under the key is the one that the lookup finds. -/
theorem DecisionBooks.lookup (h : DecisionBooks w) {row : ReviewDecisionRow}
    (hrow : row ∈ w.reviewDecisions) :
    reviewDecisionByIdempotency w.reviewDecisions row.researchJobId row.idempotencyKey
      = some row := by
  have hfind := Rows.find?_key h.unique hrow
  rw [reviewDecisionByIdempotency, ← hfind]
  congr 1
  funext other
  rw [Bool.eq_iff_iff]
  simp

/-- Jobs are never deleted. -/
theorem jobs_of_change (h : WorldChange issued issued' w w') {jobId : String}
    {row : ResearchJobRow} (hrow : w.jobs.lookup jobId = some row) :
    ∃ row', w'.jobs.lookup jobId = some row' := by
  rcases h.keys with hkept | ⟨key, fingerprint, fresh, event, hsubmitted⟩
  · rw [← Option.ne_none_iff_exists', ne_eq, hkept.jobs, hrow]
    exact Option.some_ne_none row
  · rw [hsubmitted.lookup_eq]
    split
    · exact ⟨fresh, rfl⟩
    · exact ⟨row, hrow⟩

/-- A change stores no decision, or one whose key is new. -/
theorem reviewDecisions_of_change (h : WorldChange issued issued' w w') :
    w'.reviewDecisions = w.reviewDecisions ∨
      ∃ decision row, w'.reviewDecisions = w.reviewDecisions ++ [decision] ∧
        w.jobs.lookup decision.researchJobId = some row ∧
        reviewDecisionByIdempotency w.reviewDecisions decision.researchJobId
          decision.idempotencyKey = none := by
  cases h with
  | worked target token heffect =>
      refine .inl ?_
      cases heffect with
      | aside h => exact h.reviewDecisions
      | decided _ _ _ h | repaired _ _ _ _ _ _ _ h | reran _ _ _ h
      | evaluated _ _ _ _ _ _ _ h | closed _ _ _ _ _ _ _ _ _ _ _ h
      | created _ _ _ _ _ _ _ _ _ _ _ h | paused _ _ _ _ _ _ _ _ _ _ _ _ h
      | retried _ _ _ _ _ _ _ _ _ _ _ _ _ _ _ _ _ _ _ _ _ _ _ _ _ h
      | ended _ _ _ _ _ _ _ _ _ _ h => rw [h]
  | submitted key fingerprint row event hsubmitted =>
      obtain ⟨outbox, -, hworld⟩ := hsubmitted.world
      exact .inl (by rw [hworld])
  | claimed target token profile lease row row' claimed hnew htoken hrow hfrom hclaims heq =>
      exact .inl (by rw [heq])
  | relayed outbox hevents heq => exact .inl (by rw [heq])
  | reviewed request fingerprint answer hreviewed =>
      cases hreviewed with
      | replayed _ _ _ _ h => exact .inl (by rw [h])
      | approved row row' executionId now decision hverdict hrecords hrow hstatus hactive happrove
          h =>
          refine .inr ⟨decision, row, by rw [h], ?_, ?_⟩
          · rw [hrecords.job]
            exact hrow
          · rw [hrecords.job, hrecords.key]
            exact hrecords.unused
      | rejected row row' executionId now executions decision hverdict hrecords hrow hstatus hactive
          hfail hreject h =>
          refine .inr ⟨decision, row, by rw [h], ?_, ?_⟩
          · rw [hrecords.job]
            exact hrow
          · rw [hrecords.job, hrecords.key]
            exact hrecords.unused

/-- A stored decision stays. -/
theorem decision_of_change (h : WorldChange issued issued' w w') {row : ReviewDecisionRow}
    (hrow : row ∈ w.reviewDecisions) : row ∈ w'.reviewDecisions := by
  rcases reviewDecisions_of_change h with heq | ⟨decision, _, heq, -⟩
  · rw [heq]
    exact hrow
  · rw [heq]
    exact List.mem_append_left _ hrow

theorem DecisionBooks.change (hbooks : DecisionBooks w) (h : WorldChange issued issued' w w') :
    DecisionBooks w' := by
  rcases reviewDecisions_of_change h with heq | ⟨decision, job, heq, hjob, hunused⟩
  · refine ⟨by rw [heq]; exact hbooks.unique, ?_⟩
    intro row hrow
    rw [heq] at hrow
    obtain ⟨job, hjob⟩ := hbooks.job row hrow
    exact jobs_of_change h hjob
  · refine ⟨?_, ?_⟩
    · -- the new key is none of the old ones
      have hnew : (decision.researchJobId, decision.idempotencyKey) ∉
          w.reviewDecisions.map fun row => (row.researchJobId, row.idempotencyKey) := by
        intro hmem
        obtain ⟨row, hrow, hsame⟩ := List.mem_map.1 hmem
        obtain ⟨hid, hkey⟩ := Prod.mk.inj hsame
        have hfound := hbooks.lookup hrow
        rw [hid, hkey, hunused] at hfound
        cases hfound
      rw [heq, List.map_append, List.map_singleton, List.nodup_append]
      refine ⟨hbooks.unique, List.nodup_singleton _, ?_⟩
      intro old hold new hnew' hsame
      rw [List.mem_singleton] at hnew'
      exact hnew (hnew' ▸ hsame ▸ hold)
    · intro row hrow
      rw [heq, List.mem_append, List.mem_singleton] at hrow
      rcases hrow with hold | rfl
      · obtain ⟨job, hjob⟩ := hbooks.job row hold
        exact jobs_of_change h hjob
      · exact jobs_of_change h hjob

end Books

/-- **In every reachable state there is one decision at most for each job and key.** -/
theorem decisionBooks_of_reachable {s : SystemState} (h : system.Reachable s) :
    DecisionBooks s.world := by
  have hpreserved : system.Preserved fun s => system.Reachable s ∧ DecisionBooks s.world := by
    rintro s action s' ⟨hreach, hbooks⟩ hstep
    exact ⟨hreach.step hstep, hbooks.change (change_of_reachable hreach hstep)⟩
  refine (h.invariant ?_ hpreserved).2
  rintro s rfl
  refine ⟨.of_init rfl, List.nodup_nil, ?_⟩
  intro row hrow
  exact absurd hrow List.not_mem_nil

theorem decision_of_run {s s' : SystemState} {actions : List SystemAction}
    (hreach : system.Reachable s) (h : system.Run s actions s') {row : ReviewDecisionRow}
    (hrow : row ∈ s.world.reviewDecisions) : row ∈ s'.world.reviewDecisions := by
  induction h with
  | nil => exact hrow
  | snoc hrun hstep ih => exact decision_of_change (change_of_reachable (hreach.run hrun) hstep) ih

/-! ### Exits from the review -/

namespace SystemState

/-- The job waits before the action, and no longer waits after it. -/
def leavesReview (s : SystemState) (jobId : String) (action : SystemAction) : Bool :=
  s.world.awaitsReview jobId && !(s.apply action).world.awaitsReview jobId

/-- How often the job leaves its review along the actions. -/
def exits (jobId : String) : SystemState → List SystemAction → ℕ
  | _, [] => 0
  | s, action :: actions =>
      (if s.leavesReview jobId action then 1 else 0) + exits jobId (s.apply action) actions

theorem exits_append (jobId : String) (actions actions' : List SystemAction) (s : SystemState) :
    exits jobId s (actions ++ actions')
      = exits jobId s actions + exits jobId (actions.foldl apply s) actions' := by
  induction actions generalizing s with
  | nil => simp [exits]
  | cons action actions ih => simp [exits, ih, Nat.add_assoc]

end SystemState

/-- The decisions of a job, and whether a step ends its review. -/
theorem decisionsOf_length_of_step {s s' : SystemState} {action : SystemAction}
    (hreach : system.Reachable s) (hstep : system.step s action s') (jobId : String) :
    (decisionsOf s'.world jobId).length = (decisionsOf s.world jobId).length +
      if s.leavesReview jobId action then 1 else 0 := by
  have hchange := reviewChange_of_change jobId (change_of_reachable hreach hstep)
  rw [SystemState.leavesReview, ← hstep.2]
  cases hchange with
  | same hdecisions hwaits =>
      rw [hdecisions]
      cases hbefore : s.world.awaitsReview jobId with
      | false => simp
      | true => simp [hwaits hbefore]
  | decided decision row' hdecisions hnew hwaits hrow hdecided =>
      have hleft : s'.world.awaitsReview jobId = false := by
        rw [World.awaitsReview, hrow]
        cases hverdict : decision.decision with
        | approve => simp [(hdecided.approve hverdict).1]
        | reject => simp [hdecided.reject hverdict]
      rw [hdecisions, hwaits, hleft]
      simp

/-- **A job has as many decisions as it left its review.** -/
theorem decisionsOf_length_of_run {s : SystemState} {actions : List SystemAction}
    (h : system.Run {} actions s) (jobId : String) :
    (decisionsOf s.world jobId).length = SystemState.exits jobId {} actions := by
  induction h with
  | nil => rfl
  | @snoc t u actions action hrun hstep ih =>
      rw [SystemState.exits_append, ← SystemState.eq_foldl_of_run hrun, ← ih,
        decisionsOf_length_of_step ⟨{}, actions, rfl, hrun⟩ hstep jobId]
      simp [SystemState.exits]

/-! ### One call -/

section Call

variable {e : Env} {w w' : World} {sha256 : String → String} {request : ReviewRequest}
  {fingerprint : String} {target : ReviewTarget} {decision : ReviewDecisionRow}

/-- A review that has a target: the checkpoint, and the second transaction. -/
def decideReview (request : ReviewRequest) (fingerprint : String) (target : ReviewTarget) :
    Activity (String × Bool) := do
  let snapshot ← getState target.executionId
  if snapshot.bind Checkpoint.next = some .complete then
    Program.atomically (recordReview request fingerprint target)
  else .raise reviewReadiness

/-- The answer of a call that finds the decision under its key. -/
def storedAnswer (fingerprint : String) (decision : ReviewDecisionRow) : Except Exc (String × Bool) :=
  if decision.requestFingerprint = fingerprint then .ok (decision.id, false)
  else .error reviewConflict

/-- A review by nobody is refused before anything is read. -/
theorem submitDecision_of_blank (sha256 : String → String)
    (h : Python.strip request.actorId = "") :
    submitDecision sha256 request = .raise (.valueError "actor_id must be non-empty") := by
  simp [submitDecision, ensure, h, Program.lift]

theorem submitDecision_of_actor (sha256 : String → String)
    (h : Python.strip request.actorId ≠ "") :
    submitDecision sha256 request = (do
      let target ← Program.atomically (reviewTarget request (request.fingerprint sha256))
      match target with
      | .inl decisionId => return (decisionId, false)
      | .inr target => decideReview request (request.fingerprint sha256) target) := by
  rw [submitDecision, ensure, if_pos h]
  rfl

/-! ### A stored decision -/

theorem reviewableJob_of_lookup {row : ResearchJobRow}
    (h : w.jobs.lookup request.jobId = some row) :
    reviewableJob request.jobId e w = .ok (row, w) := by
  have hread : (Tx.read fun w : World => w.jobs.lookup request.jobId : Transaction _) e w
      = .ok (some row, w) := Tx.read_eq_ok.2 ⟨h, rfl⟩
  rw [reviewableJob, Tx.bind_of_ok hread]
  rfl

theorem replayedReview_of_stored (fingerprint : String) (e : Env)
    (h : reviewDecisionByIdempotency w.reviewDecisions request.jobId request.idempotencyKey
      = some decision) :
    replayedReview request fingerprint e w
      = if decision.requestFingerprint = fingerprint then .ok (some decision.id, w)
        else .error reviewConflict := by
  have hread : (Tx.read fun w : World =>
      reviewDecisionByIdempotency w.reviewDecisions request.jobId request.idempotencyKey :
        Transaction _) e w = .ok (some decision, w) := Tx.read_eq_ok.2 ⟨h, rfl⟩
  rw [replayedReview, Tx.bind_of_ok hread]
  by_cases hsame : decision.requestFingerprint = fingerprint
  · rw [if_pos hsame]
    have hrequire : require (decision.requestFingerprint = fingerprint) reviewConflict e w
        = .ok ((), w) := require_eq_ok.2 ⟨hsame, rfl⟩
    exact (Tx.bind_of_ok hrequire).trans rfl
  · rw [if_neg hsame]
    refine Tx.bind_of_error ?_
    rw [require, Tx.lift_eq_error, ensure_eq_error]
    exact ⟨hsame, rfl⟩

/-- A first transaction that finds the decision. -/
theorem reviewTarget_of_stored (fingerprint : String) (e : Env) {row : ResearchJobRow}
    (hrow : w.jobs.lookup request.jobId = some row)
    (h : reviewDecisionByIdempotency w.reviewDecisions request.jobId request.idempotencyKey
      = some decision) :
    reviewTarget request fingerprint e w
      = if decision.requestFingerprint = fingerprint then .ok (.inl decision.id, w)
        else .error reviewConflict := by
  have hreplayed := replayedReview_of_stored fingerprint e h
  rw [reviewTarget, Tx.bind_of_ok (reviewableJob_of_lookup hrow)]
  by_cases hsame : decision.requestFingerprint = fingerprint
  · rw [if_pos hsame] at hreplayed ⊢
    exact (Tx.bind_of_ok hreplayed).trans rfl
  · rw [if_neg hsame] at hreplayed ⊢
    exact Tx.bind_of_error hreplayed

/-- A second transaction that finds the decision. -/
theorem recordReview_of_stored (fingerprint : String) (target : ReviewTarget) (e : Env)
    {row : ResearchJobRow} (hrow : w.jobs.lookup request.jobId = some row)
    (h : reviewDecisionByIdempotency w.reviewDecisions request.jobId request.idempotencyKey
      = some decision) :
    recordReview request fingerprint target e w
      = if decision.requestFingerprint = fingerprint then .ok ((decision.id, false), w)
        else .error reviewConflict := by
  have hreplayed := replayedReview_of_stored fingerprint e h
  rw [recordReview, Tx.bind_of_ok (reviewableJob_of_lookup hrow)]
  by_cases hsame : decision.requestFingerprint = fingerprint
  · rw [if_pos hsame] at hreplayed ⊢
    exact (Tx.bind_of_ok hreplayed).trans rfl
  · rw [if_neg hsame] at hreplayed ⊢
    exact Tx.bind_of_error hreplayed

/-- The stored decision of the request's job and key. -/
def DecidedUnder (request : ReviewRequest) (decision : ReviewDecisionRow) (w : World) : Prop :=
  decision ∈ w.reviewDecisions ∧ decision.researchJobId = request.jobId ∧
    decision.idempotencyKey = request.idempotencyKey

theorem DecisionBooks.decidedUnder (hbooks : DecisionBooks w) (h : DecidedUnder request decision w) :
    (∃ row, w.jobs.lookup request.jobId = some row) ∧
      reviewDecisionByIdempotency w.reviewDecisions request.jobId request.idempotencyKey
        = some decision := by
  obtain ⟨hmem, hjob, hkey⟩ := h
  have hfound := hbooks.lookup hmem
  rw [hjob, hkey] at hfound
  exact ⟨hjob ▸ hbooks.job decision hmem, hfound⟩

/-- **A call that begins after the decision answers with it**, or with the conflict. -/
theorem submitDecision_perform_decided (hbooks : DecisionBooks w)
    (h : DecidedUnder request decision w) (hactor : Python.strip request.actorId ≠ "") :
    (submitDecision sha256 request).perform e w
      = (w, Program.lift (storedAnswer (request.fingerprint sha256) decision)) := by
  obtain ⟨⟨row, hrow⟩, hfound⟩ := hbooks.decidedUnder h
  have htarget := reviewTarget_of_stored (request.fingerprint sha256) e hrow hfound
  rw [submitDecision_of_actor sha256 hactor, storedAnswer]
  by_cases hsame : decision.requestFingerprint = request.fingerprint sha256
  · rw [if_pos hsame] at htarget ⊢
    exact Program.perform_atomically_bind_of_ok htarget
  · rw [if_neg hsame] at htarget ⊢
    exact Program.perform_atomically_bind_of_error htarget

/-- **A call that comes to its second transaction after the decision answers in the same way.** -/
theorem recordReview_perform_decided (hbooks : DecisionBooks w)
    (h : DecidedUnder request decision w) :
    (Program.atomically (recordReview request fingerprint target) :
      Activity (String × Bool)).perform e w
        = (w, Program.lift (storedAnswer fingerprint decision)) := by
  obtain ⟨⟨row, hrow⟩, hfound⟩ := hbooks.decidedUnder h
  have hrecord := recordReview_of_stored fingerprint target e hrow hfound
  rw [storedAnswer]
  by_cases hsame : decision.requestFingerprint = fingerprint
  · rw [if_pos hsame] at hrecord ⊢
    exact Program.perform_atomically_of_ok hrecord
  · rw [if_neg hsame] at hrecord ⊢
    exact Program.perform_atomically_of_error hrecord

/-- The checkpoint sends a call on to its second transaction, or refuses it. -/
theorem decideReview_perform :
    (decideReview request fingerprint target).perform e w
      = (w, if (w.checkpoints.lookup target.executionId).bind Checkpoint.next = some .complete then
          Program.atomically (recordReview request fingerprint target)
        else .raise reviewReadiness) := rfl

/-! ### Stages -/

/-- How far a review is, and what it has answered. -/
inductive ReviewStage (sha256 : String → String) (request : ReviewRequest) (w : World) :
    Activity (String × Bool) → Prop
  /-- It has not begun. -/
  | begun : ReviewStage sha256 request w (submitDecision sha256 request)
  /-- It has a target, and is to read its checkpoint. -/
  | checking (target : ReviewTarget) :
      ReviewStage sha256 request w (decideReview request (request.fingerprint sha256) target)
  /-- It is to decide. -/
  | deciding (target : ReviewTarget) :
      ReviewStage sha256 request w
        (Program.atomically (recordReview request (request.fingerprint sha256) target))
  /-- It has returned the decision under its key. -/
  | returned (answer : String × Bool) (decision : ReviewDecisionRow)
      (h : DecidedUnder request decision w) (hid : decision.id = answer.1)
      (hsame : decision.requestFingerprint = request.fingerprint sha256) :
      ReviewStage sha256 request w (.ret answer)
  /-- It has raised. -/
  | raised (x : Exc) : ReviewStage sha256 request w (.raise x)

variable {call : Activity (String × Bool)}

theorem decidedUnder_of_found
    (h : reviewDecisionByIdempotency w.reviewDecisions request.jobId request.idempotencyKey
      = some decision) : DecidedUnder request decision w := by
  have hmatch := List.find?_some h
  simp only [Bool.and_eq_true, decide_eq_true_eq] at hmatch
  exact ⟨List.mem_of_find?_eq_some h, hmatch⟩

/-- A first transaction that returns a decision has found it. -/
theorem reviewTarget_eq_inl {decisionId : String}
    (h : reviewTarget request fingerprint e w = .ok (.inl decisionId, w')) :
    ∃ decision, DecidedUnder request decision w ∧ decision.id = decisionId ∧
      decision.requestFingerprint = fingerprint := by
  simp only [reviewTarget, Tx.bind_eq_ok] at h
  obtain ⟨row, _, hjob, replayed, _, hreplayed, h⟩ := h
  obtain ⟨-, rfl⟩ := reviewableJob_eq_ok hjob
  obtain ⟨rfl, hfound⟩ := replayedReview_eq_ok hreplayed
  cases replayed with
  | some stored =>
      obtain ⟨hsame, -⟩ := Tx.pure_eq_ok.1 h
      cases hsame
      obtain ⟨decision, hfound, hsame, hid⟩ := hfound
      exact ⟨decision, decidedUnder_of_found hfound, hid, hsame⟩
  | none =>
      simp only [Tx.bind_eq_ok, Tx.pure_eq_ok, reduceCtorEq, false_and, and_false,
        exists_false] at h

/-- What a review has answered still holds later. -/
theorem ReviewStage.later (h : ReviewStage sha256 request w call)
    (hlater : ∀ row ∈ w.reviewDecisions, row ∈ w'.reviewDecisions) :
    ReviewStage sha256 request w' call := by
  cases h with
  | begun => exact .begun
  | checking target => exact .checking target
  | deciding target => exact .deciding target
  | returned answer decision h hid hsame =>
      exact .returned answer decision ⟨hlater decision h.1, h.2⟩ hid hsame
  | raised x => exact .raised x

/-- The act changes nothing, or it stores the decision that the call returns. -/
def ReviewCommit (sha256 : String → String) (request : ReviewRequest) (w w' : World)
    (call' : Activity (String × Bool)) : Prop :=
  w' = w ∨ ∃ decision, call' = .ret (decision.id, true) ∧
    Records request (request.fingerprint sha256) (decision.id, true) w decision ∧
      w'.reviewDecisions = w.reviewDecisions ++ [decision]

/-- A second transaction that commits. -/
theorem stage_of_reviewed {answer : String × Bool}
    (h : Reviewed request (request.fingerprint sha256) answer w w') :
    ReviewStage sha256 request w' (.ret answer) ∧
      ReviewCommit sha256 request w w' (.ret answer) := by
  have hnew {decision : ReviewDecisionRow}
      (hrecords : Records request (request.fingerprint sha256) answer w decision)
      (hdecisions : w'.reviewDecisions = w.reviewDecisions ++ [decision]) :
      ReviewStage sha256 request w' (.ret answer) ∧
        ReviewCommit sha256 request w w' (.ret answer) := by
    have hanswer := hrecords.answer
    subst hanswer
    refine ⟨.returned _ decision ⟨?_, hrecords.job, hrecords.key⟩ rfl hrecords.fingerprint,
      .inr ⟨decision, rfl, hrecords, hdecisions⟩⟩
    rw [hdecisions]
    exact List.mem_append_right _ List.mem_cons_self
  cases h with
  | replayed decision hfound hsame hanswer heq =>
      subst heq hanswer
      exact ⟨.returned _ decision (decidedUnder_of_found hfound) rfl hsame, .inl rfl⟩
  | approved row row' executionId now decision hverdict hrecords hrow hstatus hactive happrove h =>
      exact hnew hrecords (by rw [h])
  | rejected row row' executionId now executions decision hverdict hrecords hrow hstatus hactive
      hfail hreject h =>
      exact hnew hrecords (by rw [h])

/-- **One act of a review**: it changes nothing, or it stores the decision that it returns. -/
theorem ReviewStage.perform (h : ReviewStage sha256 request w call) (e : Env) :
    ReviewStage sha256 request (call.perform e w).1 (call.perform e w).2 ∧
      ReviewCommit sha256 request w (call.perform e w).1 (call.perform e w).2 := by
  cases h with
  | begun =>
      by_cases hblank : Python.strip request.actorId = ""
      · rw [submitDecision_of_blank sha256 hblank]
        exact ⟨.raised _, .inl rfl⟩
      rw [submitDecision_of_actor sha256 hblank]
      cases htarget : reviewTarget request (request.fingerprint sha256) e w with
      | error x =>
          rw [Program.perform_atomically_bind_of_error htarget]
          exact ⟨.raised x, .inl rfl⟩
      | ok r =>
          obtain ⟨target, w'⟩ := r
          rw [Program.perform_atomically_bind_of_ok htarget]
          obtain rfl := reviewTarget_eq_ok htarget
          cases target with
          | inl decisionId =>
              obtain ⟨decision, hdecided, hid, hsame⟩ := reviewTarget_eq_inl htarget
              exact ⟨.returned _ decision hdecided hid hsame, .inl rfl⟩
          | inr target => exact ⟨.checking target, .inl rfl⟩
  | checking target =>
      rw [decideReview_perform]
      refine ⟨?_, .inl rfl⟩
      dsimp only
      split
      · exact .deciding target
      · exact .raised _
  | deciding target =>
      cases hrecord : recordReview request (request.fingerprint sha256) target e w with
      | error x =>
          rw [Program.perform_atomically_of_error hrecord]
          exact ⟨.raised x, .inl rfl⟩
      | ok r =>
          obtain ⟨answer, w'⟩ := r
          rw [Program.perform_atomically_of_ok hrecord]
          exact stage_of_reviewed (recordReview_eq_ok hrecord)
  | returned answer decision h hid hsame =>
      exact ⟨.returned answer decision h hid hsame, .inl rfl⟩
  | raised x => exact ⟨.raised x, .inl rfl⟩

end Call

/-! ### Every review of the system -/

/-- A task that is a review is at one of the stages. -/
def Task.Review (w : World) : Task → Prop
  | reviewing sha256 request call => ReviewStage sha256 request w call
  | _ => True

/-- **Every review is at one of the stages.** -/
theorem reviews_of_reachable {s : SystemState} (h : system.Reachable s) :
    s.Tasks fun _ task => task.Review s.world := by
  refine tasks_of_reachable ?_ ?_ ?_ ?_ ?_ ?_ ?_ h
  · intro s s' action hreach hstep task htask
    cases task with
    | reviewing sha256 request call =>
        exact ReviewStage.later htask fun _ => decision_of_change (change_of_reachable hreach hstep)
    | processing | timedOut | settling | submitting => trivial
  · intros
    trivial
  · intro w sha256 request
    exact .begun
  · intros
    trivial
  · intro s e _ task htask
    cases task with
    | reviewing sha256 request call => exact (ReviewStage.perform htask e).1
    | processing settings claimed call => cases call <;> exact trivial
    | timedOut | settling | submitting => exact trivial
  · intro s e _ task htask
    cases task with
    | reviewing sha256 request call => exact htask
    | processing | timedOut | settling | submitting => exact trivial
  · intro w task htask
    cases task with
    | reviewing sha256 request call => exact htask
    | processing | timedOut | settling | submitting => exact trivial

/-! ### Decisions take effect once -/

/-- What a review is doing, what it has answered, and what its next act does. -/
structure ReviewCall (sha256 : String → String) (request : ReviewRequest) (w : World)
    (call : Activity (String × Bool)) : Prop where
  /-- It has not begun, is to read its checkpoint, is to decide, or has ended. -/
  phase : call = submitDecision sha256 request ∨
    (∃ target, call = decideReview request (request.fingerprint sha256) target) ∨
    (∃ target, call = Program.atomically
      (recordReview request (request.fingerprint sha256) target)) ∨
    (∃ answer, call = .ret answer) ∨ ∃ x, call = .raise x
  /-- What it has returned is the decision under its key, of the same request. -/
  returned : ∀ answer, call = .ret answer → ∃ decision, DecidedUnder request decision w ∧
    decision.id = answer.1 ∧ decision.requestFingerprint = request.fingerprint sha256
  /-- Its next act changes nothing, or stores the decision it returns as a new one. -/
  commits : ∀ e, ReviewCommit sha256 request w (call.perform e w).1 (call.perform e w).2
  /-- Begun after the decision, it answers with it or raises the conflict. -/
  repeated : ∀ e decision, DecidedUnder request decision w → Python.strip request.actorId ≠ "" →
    call = submitDecision sha256 request → call.perform e w
      = (w, Program.lift (storedAnswer (request.fingerprint sha256) decision))
  /-- Come to its second transaction after the decision, it does the same. -/
  decides : ∀ e decision target, DecidedUnder request decision w →
    call = Program.atomically (recordReview request (request.fingerprint sha256) target) →
      call.perform e w = (w, Program.lift (storedAnswer (request.fingerprint sha256) decision))
  /-- Between the two the checkpoint sends it on, or refuses it. -/
  checks : ∀ e target, call = decideReview request (request.fingerprint sha256) target →
    call.perform e w
      = (w, if (w.checkpoints.lookup target.executionId).bind Checkpoint.next = some .complete then
          Program.atomically (recordReview request (request.fingerprint sha256) target)
        else .raise reviewReadiness)

section Calls

variable {w : World} {sha256 : String → String} {request : ReviewRequest}
  {call : Activity (String × Bool)}

/-- A review that has not begun has returned nothing. -/
theorem submitDecision_ne_ret (sha256 : String → String) (request : ReviewRequest)
    (answer : String × Bool) : submitDecision sha256 request ≠ .ret answer := by
  by_cases hblank : Python.strip request.actorId = ""
  · rw [submitDecision_of_blank sha256 hblank]
    nofun
  · rw [submitDecision_of_actor sha256 hblank]
    nofun

theorem ReviewStage.returned_decided {answer : String × Bool}
    (h : ReviewStage sha256 request w call) (hcall : call = .ret answer) :
    ∃ decision, DecidedUnder request decision w ∧ decision.id = answer.1 ∧
      decision.requestFingerprint = request.fingerprint sha256 := by
  cases h with
  | begun => exact absurd hcall (submitDecision_ne_ret sha256 request answer)
  | checking | deciding | raised => cases hcall
  | returned answer' decision h hid hsame =>
      cases hcall
      exact ⟨decision, h, hid, hsame⟩

theorem ReviewStage.phase (h : ReviewStage sha256 request w call) :
    call = submitDecision sha256 request ∨
      (∃ target, call = decideReview request (request.fingerprint sha256) target) ∨
      (∃ target, call = Program.atomically
        (recordReview request (request.fingerprint sha256) target)) ∨
      (∃ answer, call = .ret answer) ∨ ∃ x, call = .raise x := by
  cases h with
  | begun => exact .inl rfl
  | checking target => exact .inr (.inl ⟨target, rfl⟩)
  | deciding target => exact .inr (.inr (.inl ⟨target, rfl⟩))
  | returned answer => exact .inr (.inr (.inr (.inl ⟨answer, rfl⟩)))
  | raised x => exact .inr (.inr (.inr (.inr ⟨x, rfl⟩)))

/-- What holds of a review at one of the stages. -/
theorem ReviewStage.reviewCall (hbooks : DecisionBooks w) (h : ReviewStage sha256 request w call) :
    ReviewCall sha256 request w call where
  phase := h.phase
  returned _ hcall := h.returned_decided hcall
  commits e := (h.perform e).2
  repeated e decision hdecided hactor hcall := by
    rw [hcall]
    exact submitDecision_perform_decided hbooks hdecided hactor
  decides e decision target hdecided hcall := by
    rw [hcall]
    exact recordReview_perform_decided hbooks hdecided
  checks e target hcall := by
    rw [hcall]
    exact decideReview_perform

end Calls

/-- **Review decisions take effect once.**  Whatever the interleaving, a job has one decision at most
for each key, and it stays; a step that leaves the review of a job stores one new decision of it,
which says how the job goes on, and so the job has as many decisions as it left its review; and each
call answers as its key and its request tell, and changes nothing unless it decides. -/
theorem review_decisions {s : SystemState} (h : system.Reachable s) :
    (s.world.reviewDecisions.map fun row => (row.researchJobId, row.idempotencyKey)).Nodup ∧
      (∀ actions s' row, system.Run s actions s' → row ∈ s.world.reviewDecisions →
        row ∈ s'.world.reviewDecisions) ∧
      (∀ action s' jobId, system.step s action s' → ReviewChange s.world s'.world jobId) ∧
      (∀ actions jobId, system.Run {} actions s →
        (decisionsOf s.world jobId).length = SystemState.exits jobId {} actions) ∧
      ∀ name sha256 request call,
        s.tasks.lookup name = some (.reviewing sha256 request call) →
          ReviewCall sha256 request s.world call := by
  have hbooks := decisionBooks_of_reachable h
  refine ⟨hbooks.unique, ?_, ?_, ?_, ?_⟩
  · intro actions s' row hrun
    exact decision_of_run h hrun
  · intro action s' jobId hstep
    exact reviewChange_of_change jobId (change_of_reachable h hstep)
  · intro actions jobId hrun
    exact decisionsOf_length_of_run hrun jobId
  · intro name sha256 request call hname
    have hstage := reviews_of_reachable h name _ hname
    exact ReviewStage.reviewCall hbooks hstage

/-! ### Two overlapping calls -/

/-- The environments of the run: every specialist answers, and the graders fail the candidate. -/
def overlapEnv (i : ℕ) : Env where
  now := 100 + i
  uuid n := String.ofList ("5a1c0000-0000-4000-8000-".toList ++ Nat.toDigits 10 (100000 + i) ++
    Nat.toDigits 10 (100000 + n))
  tokenHex := repeatedToken 'c'
  jitter := 0
  traceparent := none
  outside :=
    { plan := .ok ["look it up"]
      research := .ok (["found"], ["evidence-1"])
      draft := .ok ("because", [])
      verifiedClaims := .ok []
      provenance := .ok true
      snapshotFingerprint := .ok (repeatedToken 'e')
      grading := .ok (false, [])
      citations := .ok () }

/-- A worker of the run. -/
def overlapSettings : Settings :=
  { sampleSettings with sha256 := lengthDigest }

/-- The request both reviewers send. -/
def overlapRequest : ReviewRequest where
  jobId := "5a1c0000-0000-4000-8000-000000000001"
  decision := .approve
  actorId := "operator"
  idempotencyKey := "review-1"
  evaluationRunId := none

/-- The execution of the run, and its evaluation run and first decision. -/
def overlapExecution : String := "5a1c0000-0000-4000-8000-100000100000"

/-- A job is submitted and processed up to its review, and its worker stops. -/
def awaitingActions : List SystemAction :=
  [.submit "request-1" (fun _ => repeatedToken 'f') "why?" "key-1",
    .act "request-1" submissionEnv,
    .claim overlapSettings [] 30 1000 (repeatedToken 'a') (some overlapRequest.jobId)] ++
  List.replicate 39 (.act (repeatedToken 'a') (overlapEnv 0)) ++
  List.replicate 7 (.act (repeatedToken 'a') (overlapEnv 1)) ++
  [.crash "request-1", .crash (repeatedToken 'a')]

/-- The job that awaits its review. -/
def awaitingJob : ResearchJobRow where
  id := overlapRequest.jobId
  question := "why?"
  status := .awaitingReview
  createdAt := 20
  updatedAt := 101
  startedAt := some 30
  finishedAt := none
  result := none
  failureReason := none
  idempotencyKey := some "key-1"
  requestFingerprint := some (repeatedToken 'f')
  evaluationAttemptCount := 1
  activeWorkflowExecutionId := some overlapExecution
  evaluationProfile := some "evaluation.candidate.v1"

/-- A node that was run once. -/
def completedNode (startedAt finishedAt : Instant) (node : Node) : NodeExecutionRow where
  workflowExecutionId := overlapExecution
  node := node
  attempt := 1
  status := .completed
  startedAt := startedAt
  finishedAt := some finishedAt
  error := none

/-- The evaluation the candidate failed. -/
def awaitingEvaluation : EvaluationRunRow where
  id := overlapExecution
  researchJobId := overlapRequest.jobId
  workflowExecutionId := overlapExecution
  evaluationProfile := "evaluation.candidate.v1"
  evaluationAttempt := 1
  status := .succeeded
  ownershipToken := repeatedToken 'c'
  inputFingerprint := repeatedToken 'e'
  jobClaimFingerprint := lengthDigest (repeatedToken 'a')
  passed := some false
  dimensions := []
  deadlineAt := 25000100
  startedAt := 100
  finishedAt := some 100

/-- A decision to await a review. -/
def awaitingDecision (id reasonCode decisionFingerprint : String) (createdAt : Instant) :
    PolicyDecisionRow where
  id := id
  researchJobId := overlapRequest.jobId
  workflowExecutionId := some overlapExecution
  evaluationRunId := some overlapExecution
  decision := .awaitReview
  failureCategory := .needsHumanReview
  reasonCode := reasonCode
  decisionFingerprint := decisionFingerprint
  createdAt := createdAt

/-- The checkpoint the review waits at. -/
def awaitingCheckpoint : Checkpoint where
  values :=
    { jobId := overlapRequest.jobId
      question := "why?"
      plan := ["look it up"]
      findings := ["found"]
      evidenceItemIds := ["evidence-1"]
      draft := "because"
      evaluationRunId := overlapExecution
      disposition := some .awaitReview
      evaluationAttempt := 1
      evaluationFingerprint := repeatedToken 'e' }
  next := some .complete

/-- The database when the job awaits its review. -/
def awaitingWorld : World where
  jobs := AList.singleton overlapRequest.jobId awaitingJob
  executions := AList.singleton overlapExecution
    ⟨overlapExecution, overlapRequest.jobId, overlapExecution, .running, 100, none⟩
  nodeExecutions :=
    ([.validate, .plan, .research, .draft, .verifyCitations, .evaluate].map
      (completedNode 100 100)) ++ [completedNode 100 101 .policy, completedNode 101 101 .awaitReview]
  evaluationRuns := AList.singleton overlapExecution awaitingEvaluation
  policyDecisions :=
    [awaitingDecision overlapExecution "AMBIGUOUS_QUALITY"
        "000000000000000000000000000000000000000000000001000000000000015a" 100,
      awaitingDecision "5a1c0000-0000-4000-8000-100001100000" "AWAIT_REVIEW_POLICY"
        "000000000000000000000000000000000000000000000001000000000000015c" 101]
  outbox :=
    { rows :=
        [{ event := ⟨"5a1c0000-0000-4000-8000-000000000002", overlapRequest.jobId, 20, .created,
            by decide, trivial⟩
           position := 1
           createdAt := 20 },
          { event := ⟨"5a1c0000-0000-4000-8000-100001100001", overlapRequest.jobId, 101,
              .awaitingReview overlapExecution, by decide, by decide⟩
            position := 2
            createdAt := 101 }]
      nextPosition := 3 }
  checkpoints := AList.singleton overlapExecution awaitingCheckpoint

/-- The system then: no task runs. -/
def awaitingSystem : SystemState where
  world := awaitingWorld
  issued := [repeatedToken 'a', "request-1"]

/-- A state is this one. -/
def SystemState.Awaits (s : SystemState) : Prop :=
  s.world.SameTables awaitingWorld ∧ s.tasks.entries.isEmpty = true ∧
    s.issued = awaitingSystem.issued

instance (s : SystemState) : Decidable s.Awaits := inferInstanceAs (Decidable (_ ∧ _))

theorem SystemState.Awaits.eq_awaitingSystem {s : SystemState} (h : s.Awaits) :
    s = awaitingSystem := by
  obtain ⟨world, tasks, issued⟩ := s
  obtain ⟨hworld, htasks, rfl⟩ := h
  obtain rfl : world = awaitingWorld := hworld.eq
  obtain rfl : tasks = ∅ := AList.ext (List.isEmpty_iff.1 htasks)
  rfl

set_option maxRecDepth 4000 in
theorem awaitingActions_replay :
    ((SystemState.replay {} awaitingActions).any fun s => decide s.Awaits) = true := by
  decide +kernel

theorem awaitingSystem_reachable : system.Reachable awaitingSystem := by
  obtain ⟨s, hreplay, hawaits⟩ := (Option.any_eq_true _ _).1 awaitingActions_replay
  rw [← (of_decide_eq_true hawaits).eq_awaitingSystem]
  exact ⟨{}, awaitingActions, rfl, run_of_replay hreplay⟩

/-- Two reviews of one request find their target; the first decides, the job is completed, and then
the second reads the checkpoint. -/
def overlapActions : List SystemAction :=
  [.review "review-1" lengthDigest overlapRequest, .review "review-2" lengthDigest overlapRequest,
    .act "review-1" (overlapEnv 2), .act "review-2" (overlapEnv 2),
    .act "review-1" (overlapEnv 2), .act "review-1" (overlapEnv 2),
    .claim overlapSettings [] 200 1000 (repeatedToken 'b') (some overlapRequest.jobId)] ++
  List.replicate 11 (.act (repeatedToken 'b') (overlapEnv 3)) ++
  [.act "review-2" (overlapEnv 3)]

/-- What a review has answered, and to which request. -/
def SystemState.reviewAnswer (s : SystemState) (name : String) :
    Option (ReviewRequest × Except Exc (String × Bool)) :=
  match s.tasks.lookup name with
  | some (.reviewing _ request (.ret answer)) => some (request, .ok answer)
  | some (.reviewing _ request (.raise x)) => some (request, .error x)
  | _ => none

set_option maxRecDepth 4000 in
theorem overlapActions_replay :
    ((awaitingSystem.replay overlapActions).any fun s =>
      s.world.reviewDecisions.any fun decision =>
        decide (s.reviewAnswer "review-1" = some (overlapRequest, .ok (decision.id, true)) ∧
          s.reviewAnswer "review-2" = some (overlapRequest, .error reviewReadiness))) = true := by
  decide +kernel

/-- **A call that overlaps the deciding one may be refused**: two reviews of one request run, the
first decides, and the second is refused although the decision is stored under its key. -/
theorem review_overlap_refused :
    ∃ s decision, system.Reachable s ∧ decision ∈ s.world.reviewDecisions ∧
      s.reviewAnswer "review-1" = some (overlapRequest, .ok (decision.id, true)) ∧
      s.reviewAnswer "review-2" = some (overlapRequest, .error reviewReadiness) := by
  obtain ⟨s, hreplay, hanswers⟩ := (Option.any_eq_true _ _).1 overlapActions_replay
  obtain ⟨decision, hmem, hdecision⟩ := List.any_eq_true.1 hanswers
  obtain ⟨hfirst, hsecond⟩ := of_decide_eq_true hdecision
  have hreach := awaitingSystem_reachable.run (run_of_replay hreplay)
  exact ⟨s, decision, hreach, hmem, hfirst, hsecond⟩

/-- The request under the key of the first, with the other verdict. -/
def rejectedRequest : ReviewRequest := { overlapRequest with decision := .reject }

/-- After the job is completed, the request is repeated, and its key is used for another one. -/
def repeatedActions : List SystemAction :=
  overlapActions ++ List.replicate 4 (.act (repeatedToken 'b') (overlapEnv 150)) ++
    [.review "review-3" lengthDigest overlapRequest, .act "review-3" (overlapEnv 4),
      .review "review-4" lengthDigest rejectedRequest, .act "review-4" (overlapEnv 4)]

set_option maxRecDepth 4000 in
theorem repeatedActions_replay :
    ((awaitingSystem.replay repeatedActions).any fun s =>
      (s.world.jobs.lookup overlapRequest.jobId).any (·.status = .completed) &&
        match s.world.reviewDecisions with
        | [decision] => decide (decision.researchJobId = overlapRequest.jobId ∧
            s.reviewAnswer "review-1" = some (overlapRequest, .ok (decision.id, true)) ∧
            s.reviewAnswer "review-3" = some (overlapRequest, .ok (decision.id, false)) ∧
            s.reviewAnswer "review-4" = some (rejectedRequest, .error reviewConflict))
        | _ => false) = true := by
  decide +kernel

/-- A run in which a review decides, the job is completed, the request is repeated and its key is
used again: the job has left its review once, by the one decision, which the repeated call returns,
and the other request meets the conflict. -/
theorem review_decisions_repeated :
    ∃ actions s decision, system.Run {} actions s ∧
      (s.world.reviewDecisions.map fun row => (row.researchJobId, row.idempotencyKey)).Nodup ∧
      s.world.reviewDecisions = [decision] ∧
      SystemState.exits overlapRequest.jobId {} actions = 1 ∧
      s.reviewAnswer "review-1" = some (overlapRequest, .ok (decision.id, true)) ∧
      s.reviewAnswer "review-3" = some (overlapRequest, .ok (decision.id, false)) ∧
      s.reviewAnswer "review-4" = some (rejectedRequest, .error reviewConflict) := by
  obtain ⟨s, hreplay, hanswers⟩ := (Option.any_eq_true _ _).1 repeatedActions_replay
  obtain ⟨start, actions, rfl, hrun⟩ := awaitingSystem_reachable.run (run_of_replay hreplay)
  obtain ⟨hunique, -, -, hexits, -⟩ := review_decisions (Lts.Reachable.run (.of_init rfl) hrun)
  rw [Bool.and_eq_true] at hanswers
  obtain ⟨-, hdecided⟩ := hanswers
  split at hdecided
  · rename_i decision hdecisions
    obtain ⟨hjob, hfirst, hthird, hfourth⟩ := of_decide_eq_true hdecided
    refine ⟨actions, s, decision, hrun, hunique, hdecisions, ?_, hfirst, hthird, hfourth⟩
    rw [← hexits actions overlapRequest.jobId hrun]
    simp [decisionsOf, hdecisions, hjob]
  · cases hdecided

end Atlas
