/-
**What the holder of a claim does, and what the others leave it.**

A worker that holds a claim shares the database with everybody else.  Two relations say how that
goes.  *Undisturbed*: as long as the job runs under the claim, nobody else has touched the job's
row or its executions, but for the count of evaluation attempts.  *Conduct*: an act of the holder
leaves the rows of other jobs and their executions alone, and if it changes its own job, then in one
of a few ways, each under the claim.  Only that count is written under the claim of an earlier read.
The first is what processing relies on, the second is what it guarantees; this module states both
and shows for every transaction of processing which change it is.

Main definitions:

* `Atlas.Owned` — the job runs under the claim;
* `Atlas.Undisturbed`, `Atlas.Conduct`, `Atlas.OwnChange` — rely and guarantee;
* `Atlas.Quiet`, `Atlas.Steady` — the acts within a graph run, and the assertions they keep.

Main results:

* `Atlas.Undisturbed.trans` — what the others do composes;
* `Atlas.createAndBind_conduct`, …, `Atlas.recordRetry_conduct` — **each transaction of processing
  is one of the changes**;
* `Atlas.keeps_quiet` — a quiet transaction keeps every steady assertion.
-/

import Atlas.Worker

set_option relaxedAutoImplicit false
set_option autoImplicit false

namespace Atlas

/-! ### Rely and guarantee -/

section Relations

variable (jobId token : String)

/-- The job runs under the claim. -/
def Owned (w : World) (row : ResearchJobRow) : Prop :=
  w.jobs.lookup jobId = some row ∧ row.status = .running ∧ row.claimToken = some token

/-- No other job carries the token, and the job's row is the one of its id. -/
structure Exclusive (w : World) : Prop where
  others : ∀ other row, other ≠ jobId → w.jobs.lookup other = some row →
    row.claimToken ≠ some token
  key : ∀ row, w.jobs.lookup jobId = some row → row.id = jobId

/-- What the others have done: nothing to the job and its executions while it runs under the claim,
but perhaps another count of evaluation attempts, and the token is on no other job. -/
structure Undisturbed (w w' : World) : Prop where
  owned : ∀ row, Owned jobId token w' row →
    (∃ before count, Owned jobId token w before ∧
      row = { before with evaluationAttemptCount := count }) ∧
    ∀ id execution, execution.researchJobId = jobId →
      (w'.executions.lookup id = some execution ↔ w.executions.lookup id = some execution)
  exclusive : Exclusive jobId token w → Exclusive jobId token w'

/-- What an act leaves as it is elsewhere: the other jobs, their executions, and the reviews. -/
structure Elsewhere (w w' : World) : Prop where
  jobs : ∀ other, other ≠ jobId → w'.jobs.lookup other = w.jobs.lookup other
  executions : ExecutionsChange jobId w.executions w'.executions
  reviews : w'.reviewDecisions = w.reviewDecisions

/-- The row of a job that has left the claim. -/
structure Released (row row' : ResearchJobRow) (status : ResearchJobStatus) : Prop where
  id : row'.id = row.id
  status : row'.status = status
  token : row'.claimToken = none

/-- The ways an act changes the job and its executions, all but the first two under the claim. -/
inductive OwnChange (w w' : World) : Prop
  /-- Nothing. -/
  | same (hjob : w'.jobs.lookup jobId = w.jobs.lookup jobId)
      (hexecutions : w'.executions = w.executions)
  /-- The evaluation attempts of the row, as they were loaded and one more. -/
  | recounted (row : ResearchJobRow) (count : ℕ) (hrow : w.jobs.lookup jobId = some row)
      (hjob : w'.jobs.lookup jobId = some { row with evaluationAttemptCount := count })
      (hexecutions : w'.executions = w.executions)
  /-- The repairs of the row. -/
  | counted (row : ResearchJobRow) (repairs : ℕ) (howned : Owned jobId token w row)
      (hjob : w'.jobs.lookup jobId = some { row with repairCount := repairs })
      (hexecutions : w'.executions = w.executions)
  /-- A new execution, to which the row is bound. -/
  | bound (row : ResearchJobRow) (executionId : String) (howned : Owned jobId token w row)
      (hmode : row.claimedContinuationMode ≠ .reviewComplete)
      (hnew : w.executions.lookup executionId = none)
      (hexecution : ∃ execution, w'.executions.lookup executionId = some execution ∧
        execution.researchJobId = jobId ∧ execution.status = .running)
      (hjob : w'.jobs.lookup jobId = some { row with
        activeWorkflowExecutionId := some executionId })
  /-- The end of the bound execution. -/
  | closed (row : ResearchJobRow) (executionId : String) (execution : WorkflowExecutionRow)
      (target : ExecutionStatus) (time : Instant) (howned : Owned jobId token w row)
      (hactive : row.activeWorkflowExecutionId = some executionId)
      (hexecution : w.executions.lookup executionId = some execution)
      (hrunning : execution.status = .running)
      (htarget : target = .completed ∨ target = .failed) (hjobs : w'.jobs = w.jobs)
      (hexecutions : w'.executions = w.executions.insert executionId (execution.close target time))
  /-- A scheduled retry. -/
  | retried (row row' : ResearchJobRow) (howned : Owned jobId token w row)
      (hjob : w'.jobs.lookup jobId = some row') (hreleased : Released row row' .pending)
      (hmode : row'.continuationMode = .jobRetry)
      (hactive : row'.activeWorkflowExecutionId = none)
  /-- A pause for review. -/
  | paused (row row' : ResearchJobRow) (howned : Owned jobId token w row)
      (hmode : row.claimedContinuationMode ≠ .reviewComplete)
      (hjob : w'.jobs.lookup jobId = some row') (hreleased : Released row row' .awaitingReview)
      (hactive : row'.activeWorkflowExecutionId = row.activeWorkflowExecutionId)
      (hexecutions : w'.executions = w.executions)
  /-- The end of the job, with a result of its completed execution. -/
  | completed (row row' : ResearchJobRow) (executionId : String)
      (execution : WorkflowExecutionRow) (howned : Owned jobId token w row)
      (hactive : row.activeWorkflowExecutionId = some executionId)
      (hexecution : w.executions.lookup executionId = some execution)
      (hdone : execution.status = .completed) (hjob : w'.jobs.lookup jobId = some row')
      (hreleased : Released row row' .completed)
      (hinactive : row'.activeWorkflowExecutionId = none)
      (hexecutions : w'.executions = w.executions)
  /-- The end of the job, failed. -/
  | failed (row row' : ResearchJobRow) (howned : Owned jobId token w row)
      (hjob : w'.jobs.lookup jobId = some row') (hreleased : Released row row' .failed)
      (hinactive : row'.activeWorkflowExecutionId = none)
      (hexecutions : w'.executions = w.executions)

/-- An act of the holder of the claim. -/
structure Conduct (w w' : World) : Prop where
  elsewhere : Elsewhere jobId w w'
  own : OwnChange jobId token w w'

/-- The acts within a graph run: they leave the queue alone, or count. -/
inductive Quiet (w w' : World) : Prop
  | untouched (hjobs : w'.jobs = w.jobs) (hexecutions : w'.executions = w.executions)
      (hreviews : w'.reviewDecisions = w.reviewDecisions)
  | recounted (row : ResearchJobRow) (count : ℕ) (hrow : w.jobs.lookup jobId = some row)
      (hjobs : w'.jobs = w.jobs.insert jobId { row with evaluationAttemptCount := count })
      (hexecutions : w'.executions = w.executions)
      (hreviews : w'.reviewDecisions = w.reviewDecisions)
  | counted (row : ResearchJobRow) (repairs : ℕ) (howned : Owned jobId token w row)
      (hjobs : w'.jobs = w.jobs.insert jobId { row with repairCount := repairs })
      (hexecutions : w'.executions = w.executions)
      (hreviews : w'.reviewDecisions = w.reviewDecisions)

end Relations

variable {jobId token : String} {w w' w'' : World}

theorem Undisturbed.refl (w : World) : Undisturbed jobId token w w where
  owned row hrow := ⟨⟨row, row.evaluationAttemptCount, hrow, rfl⟩, fun _ _ _ => Iff.rfl⟩
  exclusive h := h

/-- What the others do composes. -/
theorem Undisturbed.trans (h : Undisturbed jobId token w w') (h' : Undisturbed jobId token w' w'') :
    Undisturbed jobId token w w'' where
  owned row hrow := by
    obtain ⟨⟨row', count, hrow', rfl⟩, hexec'⟩ := h'.owned row hrow
    obtain ⟨⟨row₀, count₀, hrow₀, rfl⟩, hexec⟩ := h.owned row' hrow'
    exact ⟨⟨row₀, count, hrow₀, rfl⟩,
      fun id ex hjob => (hexec' id ex hjob).trans (hexec id ex hjob)⟩
  exclusive hw := h'.exclusive (h.exclusive hw)

theorem Owned.unique {row row' : ResearchJobRow} (h : Owned jobId token w row)
    (h' : w.jobs.lookup jobId = some row') : row' = row :=
  Option.some.inj (h'.symm.trans h.1)

theorem Owned.of_owns {row : ResearchJobRow} {time : Instant}
    (hrow : w.jobs.lookup jobId = some row) (h : ownsRunningClaim row token time = true) :
    Owned jobId token w row := by
  obtain ⟨hstatus, htoken, -⟩ := ownsRunningClaim_eq_true.1 h
  exact ⟨hrow, hstatus, htoken⟩

theorem Elsewhere.refl (w : World) : Elsewhere jobId w w :=
  ⟨fun _ _ => rfl, .refl _, rfl⟩

theorem Conduct.refl (w : World) : Conduct jobId token w w :=
  ⟨.refl w, .same rfl rfl⟩

/-- A change of the job's row alone is nothing elsewhere. -/
theorem Elsewhere.of_insert {row : ResearchJobRow}
    (hjobs : w'.jobs = w.jobs.insert jobId row) (hexecutions : w'.executions = w.executions)
    (hreviews : w'.reviewDecisions = w.reviewDecisions) : Elsewhere jobId w w' where
  jobs other hother := by rw [hjobs, AList.lookup_insert_ne hother]
  executions := by
    rw [hexecutions]
    exact .refl _
  reviews := hreviews

theorem Quiet.conduct (h : Quiet jobId token w w') : Conduct jobId token w w' := by
  cases h with
  | untouched hjobs hexecutions hreviews =>
      refine ⟨⟨fun _ _ => by rw [hjobs], ?_, hreviews⟩, .same (by rw [hjobs]) hexecutions⟩
      rw [hexecutions]
      exact .refl _
  | recounted row count hrow hjobs hexecutions hreviews =>
      refine ⟨.of_insert hjobs hexecutions hreviews, .recounted row count hrow ?_ hexecutions⟩
      rw [hjobs, AList.lookup_insert]
  | counted row repairs howned hjobs hexecutions hreviews =>
      refine ⟨.of_insert hjobs hexecutions hreviews, .counted row repairs howned ?_ hexecutions⟩
      rw [hjobs, AList.lookup_insert]

/-- The queue is the same in two databases: the jobs, the executions and the reviews. -/
structure SameQueue (w u : World) : Prop where
  jobs : w.jobs = u.jobs
  executions : w.executions = u.executions
  reviews : w.reviewDecisions = u.reviewDecisions

/-- A conduct is one of the queue: the other tables may be what they like. -/
theorem Conduct.congr {u u' : World} (hw : SameQueue w u) (hw' : SameQueue w' u')
    (h : Conduct jobId token u u') : Conduct jobId token w w' := by
  obtain ⟨hjobs, hexecutions, hreviews⟩ := hw
  obtain ⟨hjobs', hexecutions', hreviews'⟩ := hw'
  cases w
  cases w'
  subst hjobs hexecutions hreviews hjobs' hexecutions' hreviews'
  refine ⟨⟨h.elsewhere.jobs, h.elsewhere.executions, h.elsewhere.reviews⟩, ?_⟩
  cases h.own with
  | same hjob hexecutions => exact .same hjob hexecutions
  | recounted row count hrow hjob hexecutions => exact .recounted row count hrow hjob hexecutions
  | counted row repairs howned hjob hexecutions => exact .counted row repairs howned hjob hexecutions
  | bound row executionId howned hmode hnew hexecution hjob =>
      exact .bound row executionId howned hmode hnew hexecution hjob
  | closed row executionId execution target time howned hactive hexecution hrunning htarget hjobs
      hexecutions =>
      exact .closed row executionId execution target time howned hactive hexecution hrunning htarget
        hjobs hexecutions
  | retried row row' howned hjob hreleased hmode hactive =>
      exact .retried row row' howned hjob hreleased hmode hactive
  | paused row row' howned hmode hjob hreleased hactive hexecutions =>
      exact .paused row row' howned hmode hjob hreleased hactive hexecutions
  | completed row row' executionId execution howned hactive hexecution hdone hjob hreleased
      hinactive hexecutions =>
      exact .completed row row' executionId execution howned hactive hexecution hdone hjob
        hreleased hinactive hexecutions
  | failed row row' howned hjob hreleased hinactive hexecutions =>
      exact .failed row row' howned hjob hreleased hinactive hexecutions

/-- A row of the job after an act is of the same id as the one before. -/
theorem OwnChange.row_id {row' : ResearchJobRow} (h : OwnChange jobId token w w')
    (hrow' : w'.jobs.lookup jobId = some row') :
    ∃ row, w.jobs.lookup jobId = some row ∧ row'.id = row.id := by
  cases h with
  | same hjob _ => exact ⟨row', hjob ▸ hrow', rfl⟩
  | recounted row _ hrow hjob _ =>
      rw [hjob] at hrow'
      cases hrow'
      exact ⟨row, hrow, rfl⟩
  | counted row _ howned hjob _ =>
      rw [hjob] at hrow'
      cases hrow'
      exact ⟨row, howned.1, rfl⟩
  | bound row _ howned _ _ _ hjob =>
      rw [hjob] at hrow'
      cases hrow'
      exact ⟨row, howned.1, rfl⟩
  | closed row _ _ _ _ howned _ _ _ _ hjobs _ => exact ⟨row', hjobs ▸ hrow', rfl⟩
  | retried row row₁ howned hjob hreleased _ _ | paused row row₁ howned _ hjob hreleased _ _
  | completed row row₁ _ _ howned _ _ _ hjob hreleased _ _
  | failed row row₁ howned hjob hreleased _ _ =>
      rw [hjob] at hrow'
      cases hrow'
      exact ⟨row, howned.1, hreleased.id⟩

/-- An act of the holder brings the token to no other job. -/
theorem Conduct.exclusive (h : Conduct jobId token w w') (hw : Exclusive jobId token w) :
    Exclusive jobId token w' where
  others other row hother hrow := by
    rw [h.elsewhere.jobs other hother] at hrow
    exact hw.others other row hother hrow
  key row' hrow' := by
    obtain ⟨row, hrow, hid⟩ := h.own.row_id hrow'
    exact hid.trans (hw.key row hrow)

/-! ### Steady assertions -/

/-- An assertion that neither the others, who may do `le`, nor the acts of a graph run take back. -/
structure Steady (le : World → World → Prop) (jobId token : String) (K : World → Prop) : Prop where
  rely : ∀ w w', le w w' → K w → K w'
  quiet : ∀ w w', Quiet jobId token w w' → K w → K w'
  exclusive : ∀ w, K w → Exclusive jobId token w

/-- A program of the holder of the claim that keeps an assertion, whatever it returns or raises. -/
def Keeps (le : World → World → Prop) (jobId token : String) (K : World → Prop) {α : Type}
    (p : Activity α) : Prop :=
  Program.Triple le (Conduct jobId token) K p (fun _ => K) (fun _ => K)

/-- Writing the row of the job under its id brings the token to no other job. -/
theorem Exclusive.insert {row : ResearchJobRow} (hw : Exclusive jobId token w)
    (hjobs : w'.jobs = w.jobs.insert jobId row) (hid : row.id = jobId) :
    Exclusive jobId token w' where
  others other row' hother hrow' := by
    rw [hjobs, AList.lookup_insert_ne hother] at hrow'
    exact hw.others other row' hother hrow'
  key row' hrow' := by
    rw [hjobs, AList.lookup_insert] at hrow'
    cases hrow'
    exact hid

theorem Exclusive.quiet (h : Quiet jobId token w w') (hw : Exclusive jobId token w) :
    Exclusive jobId token w' := by
  cases h with
  | untouched hjobs hexecutions hreviews =>
      constructor
      · rw [hjobs]
        exact hw.others
      · rw [hjobs]
        exact hw.key
  | recounted before count hbefore hjobs hexecutions hreviews =>
      exact hw.insert hjobs (hw.key before hbefore)
  | counted before repairs howned hjobs hexecutions hreviews =>
      exact hw.insert hjobs (hw.key before howned.1)

theorem Exclusive.steady : Steady (Undisturbed jobId token) jobId token (Exclusive jobId token) where
  rely _ _ h hw := h.exclusive hw
  quiet _ _ h hw := hw.quiet h
  exclusive _ hw := hw

section Keeps

variable {le : World → World → Prop} {K : World → Prop} {α β : Type}

theorem keeps_ret (a : α) : Keeps le jobId token K (.ret a : Activity α) :=
  Program.Triple.ret fun _ h => h

theorem keeps_raise (x : Exc) : Keeps le jobId token K (.raise x : Activity α) :=
  Program.Triple.raise fun _ h => h

theorem keeps_lift (r : Except Exc α) : Keeps le jobId token K (Program.lift r : Activity α) :=
  Program.Triple.lift (fun _ _ _ h => h) (fun _ _ _ h => h)

theorem keeps_bind {p : Activity α} {k : α → Activity β} (hp : Keeps le jobId token K p)
    (hk : ∀ a, Keeps le jobId token K (k a)) : Keeps le jobId token K (p >>= k) :=
  Program.Triple.bind hp hk

theorem keeps_tryCatch {p : Activity α} {handler : Exc → Activity α}
    (hp : Keeps le jobId token K p) (hx : ∀ x, Keeps le jobId token K (handler x)) :
    Keeps le jobId token K (tryCatch p handler) :=
  Program.Triple.tryCatch hp hx

theorem keeps_reading (hK : Steady le jobId token K) (f : Env → α) :
    Keeps le jobId token K (Program.reading f : Activity α) :=
  Program.Triple.reading hK.rely (fun w _ => .refl w) (fun _ _ h => h)

theorem keeps_ask (hK : Steady le jobId token K) (question : Outside → Except Exc α) :
    Keeps le jobId token K (ask question) :=
  keeps_bind (keeps_reading hK _) fun _ => keeps_lift _

/-- **A quiet transaction keeps every steady assertion.** -/
theorem keeps_quiet (hK : Steady le jobId token K) {t : Transaction α}
    (ht : ∀ e w a w', K w → t e w = .ok (a, w') → Quiet jobId token w w') :
    Keeps le jobId token K (Program.atomically t) := by
  refine Program.Triple.atomically hK.rely ?_ ?_
  · intro e w a w' hw h
    have hquiet := ht e w a w' hw h
    exact ⟨hquiet.conduct, hK.quiet w w' hquiet hw⟩
  · intro e w x hw _
    exact ⟨.refl w, hw⟩

theorem keeps_read (hK : Steady le jobId token K) (f : World → α) :
    Keeps le jobId token K (Program.atomically (Tx.read f)) := by
  refine keeps_quiet hK ?_
  intro e w a w' _ h
  obtain ⟨-, rfl⟩ := Tx.read_eq_ok.1 h
  exact .untouched rfl rfl rfl

end Keeps

end Atlas
