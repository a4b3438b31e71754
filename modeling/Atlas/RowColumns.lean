/-
**Columns that are written once.**

The key and the fingerprint of a submission and its trace context are written when a job is
inserted; the evaluation profile and the mark that the trace context is consumed are written by
claims only.  Every other write of the repository keeps them, and keeps the fields of the job those
of a valid one, since each transition goes through the domain object.

Main definitions:

* `Atlas.Kept` — what a write that is not a claim keeps of a row;
* `Atlas.Claims` — what a claim writes into these columns.

Main results:

* `Atlas.transition_kept` — a transition of the job keeps them;
* `Atlas.kept_of_fenced` — **every fenced write keeps them**;
* `Atlas.claims_of_claimRow` — **a claim writes the profile and the mark, each at most once**.
-/

import Atlas.RowConstraints

set_option relaxedAutoImplicit false
set_option autoImplicit false

namespace Atlas

open Checked

variable {row row₁ row' : ResearchJobRow} {model : Option ResearchJobRow} {token : String}
  {time : Instant}

/-! ### Writes that are not claims -/

/-- What every write but a claim keeps of a row. -/
structure Kept (row row' : ResearchJobRow) : Prop where
  id : row'.id = row.id
  key : row'.idempotencyKey = row.idempotencyKey
  fingerprint : row'.requestFingerprint = row.requestFingerprint
  traceparent : row'.traceparent = row.traceparent
  consumed : row'.initialTraceparentConsumedAt = row.initialTraceparentConsumedAt
  profile : row'.evaluationProfile = row.evaluationProfile
  valid : row.Valid → row'.Valid

theorem Kept.refl (row : ResearchJobRow) : Kept row row :=
  ⟨rfl, rfl, rfl, rfl, rfl, rfl, fun h => h⟩

theorem Kept.trans (h : Kept row row₁) (h' : Kept row₁ row') : Kept row row' where
  id := h'.id.trans h.id
  key := h'.key.trans h.key
  fingerprint := h'.fingerprint.trans h.fingerprint
  traceparent := h'.traceparent.trans h.traceparent
  consumed := h'.consumed.trans h.consumed
  profile := h'.profile.trans h.profile
  valid hvalid := h'.valid (h.valid hvalid)

/-- A job that goes through a transition under the id of its row stays valid. -/
theorem valid_transition {op : ResearchJob → Except DomainError ResearchJob}
    (hop : ∀ job job', job.Valid → op job = .ok job' → job'.Valid)
    (h : transition op row = .ok row') (hvalid : row.Valid) : row'.Valid := by
  obtain ⟨job, job', -, -, hvalid', rfl⟩ := transition_valid hop h
  exact { hvalid' with id_clean := hvalid.id_clean, id_length := hvalid.id_length }

/-- **A transition of the job keeps the columns.** -/
theorem transition_kept {op : ResearchJob → Except DomainError ResearchJob}
    (hop : ∀ job job', job.Valid → op job = .ok job' → job'.Valid)
    (h : transition op row = .ok row') : Kept row row' := by
  have hvalid := valid_transition hop h
  obtain ⟨job, hid, rfl⟩ := transition_columns h
  exact ⟨hid, rfl, rfl, rfl, rfl, rfl, hvalid⟩

/-- Releasing a claim keeps the columns. -/
theorem kept_clearClaimAndContinuation (row : ResearchJobRow) :
    Kept row (clearClaimAndContinuation row) :=
  ⟨rfl, rfl, rfl, rfl, rfl, rfl, fun h => h⟩

theorem kept_of_retryRow {next : Instant}
    (h : scheduleRetry.retryRow next time row = .ok row') : Kept row row' := by
  obtain ⟨row₁, htransition, -, rfl⟩ := retryRow_eq_ok.1 h
  have hkept := transition_kept (fun _ _ hv => hv.returnToPending) htransition
  exact ⟨hkept.id, hkept.key, hkept.fingerprint, hkept.traceparent, hkept.consumed, hkept.profile,
    hkept.valid⟩

/-- **Every fenced write keeps the columns.** -/
theorem kept_of_fenced {call : FencedCall}
    (h : call.run (some row) token time = .ok (some row')) : Kept row row' := by
  cases call with
  | finalizeCompletion result =>
      obtain ⟨_, heq, -, row₁, htransition, -, rfl⟩ := finalizeCompletion_eq_some.1 h
      cases heq
      exact (transition_kept (fun _ _ hv => hv.complete) htransition).trans
        (kept_clearClaimAndContinuation row₁)
  | finalizeFailure reason =>
      obtain ⟨_, heq, -, row₁, htransition, -, rfl⟩ := finalizeFailure_eq_some.1 h
      cases heq
      exact (transition_kept (fun _ _ hv => hv.fail) htransition).trans
        (kept_clearClaimAndContinuation row₁)
  | setActiveWorkflowExecution executions executionId =>
      obtain ⟨_, heq, -, -, -, rfl⟩ := setActiveWorkflowExecution_eq_some.1 h
      cases heq
      exact ⟨rfl, rfl, rfl, rfl, rfl, rfl, fun hv => hv⟩
  | scheduleRetry executions next abandon =>
      simp only [FencedCall.run, map_eq_ok, Option.map_eq_some_iff] at h
      obtain ⟨_, hschedule, ⟨_, executions'⟩, rfl, rfl⟩ := h
      obtain ⟨_, heq, -, hretry, -⟩ := scheduleRetry_eq_some.1 hschedule
      cases heq
      exact kept_of_retryRow hretry
  | transitionAwaitingReview =>
      obtain ⟨_, heq, -, row₁, htransition, -, rfl⟩ := transitionAwaitingReview_eq_some.1 h
      cases heq
      have hkept := transition_kept (fun _ _ hv => hv.awaitReview) htransition
      exact hkept.trans ⟨rfl, rfl, rfl, rfl, rfl, rfl, fun hv => hv⟩
  | incrementRepairCount =>
      obtain ⟨_, heq, -, -, -, rfl⟩ := incrementRepairCount_eq_some.1 h
      cases heq
      exact ⟨rfl, rfl, rfl, rfl, rfl, rfl, fun hv => hv⟩
  | incrementEvaluationAttemptCount =>
      obtain ⟨_, heq, -, -, -, rfl⟩ := incrementEvaluationAttemptCount_eq_some.1 h
      cases heq
      exact ⟨rfl, rfl, rfl, rfl, rfl, rfl, fun hv => hv⟩

theorem kept_of_approve {executions : Executions} {executionId : String} {next : Instant}
    (h : approveReviewToPending executions (some row) executionId next time = .ok (some row')) :
    Kept row row' := by
  obtain ⟨_, heq, -, row₁, htransition, hflush⟩ := approveReviewToPending_eq_some.1 h
  cases heq
  obtain ⟨-, -, rfl⟩ := flushBinding_eq_ok.1 hflush
  have hkept := transition_kept (fun _ _ hv => hv.approveToPending) htransition
  exact hkept.trans ⟨rfl, rfl, rfl, rfl, rfl, rfl, fun hv => hv⟩

theorem kept_of_reject {reason : String}
    (h : failFromReview (some row) reason time = .ok (some row')) : Kept row row' := by
  obtain ⟨_, heq, -, row₁, htransition, -, rfl⟩ := failFromReview_eq_some.1 h
  cases heq
  exact (transition_kept (fun _ _ hv => hv.failFromReview) htransition).trans
    (kept_clearClaimAndContinuation row₁)

/-! ### Claims -/

/-- What a claim by a worker of the profile writes: it binds a row without a profile and passes over
one with another, and it marks an unused trace context as consumed, which it hands on as a
parent. -/
structure Claims (row row' : ResearchJobRow) (claimed : ClaimedResearchJob) (profile : String) :
    Prop where
  key : row'.idempotencyKey = row.idempotencyKey
  fingerprint : row'.requestFingerprint = row.requestFingerprint
  traceparent : row'.traceparent = row.traceparent
  profile : row.evaluationProfile = none ∨ row.evaluationProfile = some profile
  parent : claimed.useTraceparentAsParent = true → row.initialTraceparentConsumedAt = none
  consumes : claimed.useTraceparentAsParent = true → row'.initialTraceparentConsumedAt.isSome = true
  consumed : row.initialTraceparentConsumedAt.isSome = true →
    row'.initialTraceparentConsumedAt = row.initialTraceparentConsumedAt
  valid : row.Valid → row'.Valid

theorem valid_startOrResume {now : Instant} (job job' : ResearchJob) (hvalid : job.Valid)
    (h : startOrResume now job = .ok job') : job'.Valid := by
  unfold startOrResume at h
  split at h
  · exact hvalid.start h
  · exact hvalid.resumeFromPending h

/-- The end of a claim, on a row that was brought to run. -/
theorem claims_of_finishClaim {now lease : Instant} {mode : ContinuationMode} {profile : String}
    {claimed : ClaimedResearchJob}
    (hprofile : row.evaluationProfile = none ∨ row.evaluationProfile = some profile)
    (hkept : Kept { row with evaluationProfile := some profile } row₁)
    (h : finishClaim row₁ now lease token mode profile = .ok (row', claimed)) :
    Claims row row' claimed profile := by
  obtain ⟨hrow', -, job, -, rfl⟩ := finishClaim_eq_ok h
  have hconsumed : row₁.initialTraceparentConsumedAt = row.initialTraceparentConsumedAt :=
    hkept.consumed
  rw [maybeConsumeInitialTraceparent] at hrow'
  split at hrow'
  · rename_i hconsumes
    -- the context is there and has not been used
    have hnone : row.initialTraceparentConsumedAt = none := by
      simp only [consumesTraceparent, Bool.and_eq_true, Option.isNone_iff_eq_none] at hconsumes
      exact hconsumed.symm.trans hconsumes.2
    subst hrow'
    refine ⟨hkept.key, hkept.fingerprint, hkept.traceparent, hprofile, fun _ => hnone,
      fun _ => rfl, fun hsome => ?_, hkept.valid⟩
    rw [hnone] at hsome
    cases hsome
  · rename_i hunused
    subst hrow'
    refine ⟨hkept.key, hkept.fingerprint, hkept.traceparent, hprofile, fun huse => ?_,
      fun huse => ?_, fun _ => hconsumed, hkept.valid⟩
    · exact absurd huse hunused
    · exact absurd huse hunused

/-- **A claim writes the profile and the mark, each at most once.** -/
theorem claims_of_claimRow {now lease : Instant} {profile : String} {claimed : ClaimedResearchJob}
    (h : claimRow row now lease token profile = .ok (some (row', claimed))) :
    Claims row row' claimed profile := by
  unfold claimRow at h
  cases hbind : bindEvaluationProfile row profile with
  | none => simp [hbind] at h
  | some bound =>
      have hprofile : row.evaluationProfile = none ∨ row.evaluationProfile = some profile := by
        unfold bindEvaluationProfile at hbind
        cases hcurrent : row.evaluationProfile with
        | none => exact .inl rfl
        | some current =>
            simp only [hcurrent] at hbind
            split at hbind
            · cases hbind
            · rename_i hsame
              rw [ne_eq, not_not] at hsame
              exact .inr (congrArg some hsame)
      obtain rfl := bindEvaluationProfile_eq_some hbind
      simp only [hbind] at h
      cases hs : row.status with
      | pending =>
          simp only [hs, bind_eq_ok, pure_eq_ok, Option.some.injEq] at h
          obtain ⟨row₁, htransition, _, hfinish, rfl⟩ := h
          have hkept := transition_kept valid_startOrResume htransition
          refine claims_of_finishClaim hprofile ?_ hfinish
          exact ⟨hkept.id, hkept.key, hkept.fingerprint, hkept.traceparent, hkept.consumed,
            hkept.profile, hkept.valid⟩
      | running =>
          simp only [hs, bind_eq_ok, pure_eq_ok, Option.some.injEq] at h
          obtain ⟨row₁, htransition, _, hfinish, rfl⟩ := h
          have hkept := transition_kept (fun job job' hv hjob => by cases hjob; exact hv)
            htransition
          exact claims_of_finishClaim hprofile hkept hfinish
      | awaitingReview => simp [hs] at h
      | completed => simp [hs] at h
      | failed => simp [hs] at h

end Atlas
