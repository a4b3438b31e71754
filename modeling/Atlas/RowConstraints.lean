/-
**The constraints of `research_jobs` are closed under the repository's operations.**

Every write of the repository flushes its row, and the database refuses a row that breaks a
constraint.  Here is why it never has to: from a row that meets the constraints each operation
builds one that meets them, whenever its own guard lets it write.  The arguments an operation does
not check are those its callers pass: a fresh token of 64 hexadecimal digits, an allowed profile, an
execution that exists and is the job's, and texts without a NUL character, which the database does
not store.

One operation needs more.  `schedule_retry` increments a counter the table bounds, and does not
look at the bound; the policy its caller asked before does.

Main definitions:

* `Atlas.ResearchJobRow.Fits` — the constraints, one field each;
* `Atlas.Rejected` — the database refuses the row of an operation;
* `Atlas.QueueCall.AsCalled` — what the callers pass.

Main results:

* `Atlas.fits_of_valid` — a row around a valid job meets the constraints;
* `Atlas.row_constraint_closure` — **no operation is rejected, and every row meets the
  constraints**;
* `Atlas.row_constraint_third_retry` — a third retry is rejected.
-/

import Atlas.ClaimFencing
import Atlas.EvaluationService

set_option relaxedAutoImplicit false
set_option autoImplicit false

namespace Atlas

open Checked

/-! ### The constraints as fields -/

namespace ResearchJobRow

/-- `ck_research_jobs_idempotency_pair`. -/
def idempotencyPair (row : ResearchJobRow) : Bool :=
  match row.idempotencyKey, row.requestFingerprint with
  | none, none => true
  | some key, some fingerprint => sqlNonBlank key && fingerprint.length = 64
  | _, _ => false

/-- `ck_research_jobs_claim_lease_pair`. -/
def claimLeasePair (row : ResearchJobRow) : Bool :=
  match row.leaseExpiresAt, row.claimToken with
  | none, none => true
  | some _, some token => sqlNonBlank token && token.length = 64
  | _, _ => false

end ResearchJobRow

/-- The texts of a job that come from a caller are storable. -/
structure ResearchJob.Texts (job : ResearchJob) : Prop where
  question : storable job.question = true
  result : job.result.all storable = true
  failureReason : job.failureReason.all storable = true

namespace ResearchJobRow

/-- The row meets every constraint of the table. -/
structure Fits (row : ResearchJobRow) : Prop where
  id_nonempty : sqlNonBlank row.id = true
  question_nonempty : sqlNonBlank row.question = true
  updated_after_created : row.createdAt ≤ row.updatedAt
  status_fields : row.statusFields = true
  idempotency_pair : row.idempotencyPair = true
  claim_lease_pair : row.claimLeasePair = true
  repair_count : row.repairCount ≤ 1
  job_retry_count : row.jobRetryCount ≤ 2
  evaluation_attempt_count : row.evaluationAttemptCount ≤ 4
  traceparent_format : row.traceparent.all traceparentFormat = true
  consumed_pair : row.initialTraceparentConsumedAt.isNone = true ∨ row.traceparent.isSome = true
  profile_allowed : row.evaluationProfile.all evaluationProfilesAllowed.contains = true
  started_has_profile :
    row.status = .pending ∧ row.startedAt = none ∨ row.evaluationProfile.isSome = true
  id_width : row.id.length ≤ 128
  key_width : row.idempotencyKey.all (·.length ≤ 128) = true
  active_width : row.activeWorkflowExecutionId.all (·.length ≤ 36) = true
  id_text : storable row.id = true
  texts : row.toResearchJob.Texts
  key_text : row.idempotencyKey.all storable = true

theorem fits_iff {row : ResearchJobRow} :
    CheckConstraint.AllHold researchJobChecks row ↔ row.Fits := by
  constructor
  · intro h
    simp only [CheckConstraint.AllHold, researchJobChecks, List.forall_mem_cons, decide_eq_true_eq,
      Bool.or_eq_true, Bool.and_eq_true] at h
    obtain ⟨h₁, h₂, h₃, h₄, h₅, h₆, h₇, h₈, h₉, h₁₀, h₁₁, h₁₂, h₁₃, h₁₄, h₁₅, h₁₆, h₁₇, h₁₈, h₁₉,
      h₂₀, h₂₁, -⟩ := h
    exact ⟨h₁, h₂, h₃, h₄, h₅, h₆, h₇, h₈, h₉, h₁₀, h₁₁, h₁₂, h₁₃, h₁₄, h₁₅, h₁₆, h₁₇,
      ⟨h₁₈, h₁₉, h₂₀⟩, h₂₁⟩
  · intro h
    simp only [CheckConstraint.AllHold, researchJobChecks, List.forall_mem_cons, decide_eq_true_eq,
      Bool.or_eq_true, Bool.and_eq_true]
    exact ⟨h.id_nonempty, h.question_nonempty, h.updated_after_created, h.status_fields,
      h.idempotency_pair, h.claim_lease_pair, h.repair_count, h.job_retry_count,
      h.evaluation_attempt_count, h.traceparent_format, h.consumed_pair, h.profile_allowed,
      h.started_has_profile, h.id_width, h.key_width, h.active_width, h.id_text, h.texts.question,
      h.texts.result, h.texts.failureReason, h.key_text,
      fun _ hmem => absurd hmem List.not_mem_nil⟩

end ResearchJobRow

/-! ### Rejections -/

section Rejections

variable {α β : Type} {row : ResearchJobRow}

theorem flush_of_fits (h : row.Fits) : row.flush = .ok row :=
  flush_eq_ok.2 ⟨ResearchJobRow.fits_iff.2 h, rfl⟩

end Rejections

/-! ### Rows around a valid job -/

/-- A text without surrounding blanks is not made of spaces. -/
theorem sqlNonBlank_of_clean {text : String} (h : Clean text) : sqlNonBlank text = true := by
  by_contra hblank
  rw [sqlNonBlank, Bool.not_eq_true, List.any_eq_false] at hblank
  refine h.2 ?_
  rw [← h.1]
  refine Python.strip_eq_empty_iff.2 fun c hc => ?_
  have hspace : c = ' ' := by simpa using hblank c hc
  rw [hspace]
  rfl

/-- A token as the queue draws it is a claim token of the table. -/
theorem sqlNonBlank_of_isTokenHex {token : String} (h : IsTokenHex token) :
    sqlNonBlank token = true := by
  refine sqlNonBlank_of_clean ⟨?_, ?_⟩
  · exact Python.strip_eq_self fun c hc => isSpace_of_isLowerHex (List.all_eq_true.1 h.2 c hc)
  · rintro rfl
    exact absurd h.1 (by decide)

/-- The job of a transition is valid. -/
theorem transition_valid {op : ResearchJob → Except DomainError ResearchJob}
    {row row' : ResearchJobRow}
    (hop : ∀ job job', job.Valid → op job = .ok job' → job'.Valid)
    (h : transition op row = .ok row') :
    ∃ job job' : ResearchJob, toDomain row = .ok job ∧ op job = .ok job' ∧ job'.Valid ∧
      row' = { row with toResearchJob := { job' with id := row.id } } := by
  obtain ⟨job, hjob, job', hop', rfl⟩ := transition_eq_ok.1 h
  have hvalid : job.Valid := ResearchJob.valid_of_reconstitute (toDomain_eq_ok.1 hjob)
  exact ⟨job, job', hjob, hop', hop job job' hvalid hop', rfl⟩

/-! ### Storable texts -/

section Texts

variable {row : ResearchJobRow} {job : ResearchJob}

theorem mem_dropWhile_of_false {p : Char → Bool} {c : Char} {cs : List Char} (hc : c ∈ cs)
    (hp : p c = false) : c ∈ cs.dropWhile p := by
  rw [← List.takeWhile_append_dropWhile (p := p) (l := cs), List.mem_append] at hc
  rcases hc with hc | hc
  · rw [List.mem_takeWhile_imp hc] at hp
    cases hp
  · exact hc

/-- NUL is no blank: a text is storable exactly if it is without the blanks around it. -/
theorem storable_strip_iff {text : String} :
    storable (Python.strip text) = true ↔ storable text = true := by
  simp only [storable, Bool.not_eq_true', List.contains_eq_mem, decide_eq_false_iff_not, not_iff_not,
    Python.strip, String.toList_ofList]
  have hblank : Python.isSpace (Char.ofNat 0) = false := by decide
  constructor
  · intro hmem
    exact List.dropWhile_subset _ ((List.rdropWhile_prefix _ _).subset hmem)
  · intro hmem
    have hfront := mem_dropWhile_of_false hmem hblank
    rw [List.rdropWhile, List.mem_reverse]
    exact mem_dropWhile_of_false (List.mem_reverse.2 hfront) hblank

theorem storable_strip {text : String} (h : storable text = true) :
    storable (Python.strip text) = true :=
  storable_strip_iff.2 h

theorem storable_requireOptional {value cleaned : Option String} {fieldName : String}
    (h : value.all storable = true) (hcleaned : requireOptional value fieldName = .ok cleaned) :
    cleaned.all storable = true := by
  cases value with
  | none =>
      cases hcleaned
      rfl
  | some value =>
      obtain ⟨text, htext, hpure⟩ := bind_eq_ok.1 hcleaned
      cases hpure
      obtain ⟨rfl, -⟩ := requireNonEmpty_eq_ok.1 htext
      exact storable_strip h

/-- The mapper keeps texts storable. -/
theorem ResearchJob.Texts.toDomain (h : row.toResearchJob.Texts)
    (hjob : Atlas.toDomain row = .ok job) : job.Texts := by
  rw [toDomain_eq_ok] at hjob
  simp only [ResearchJob.reconstitute, bind_eq_ok, pure_eq_ok] at hjob
  obtain ⟨_, -, question, hquestion, result, hresult, reason, hreason, _, -, _, -, rfl⟩ := hjob
  obtain ⟨rfl, -⟩ := requireNonEmpty_eq_ok.1 hquestion
  exact ⟨storable_strip h.question, storable_requireOptional h.result hresult,
    storable_requireOptional h.failureReason hreason⟩

/-- A job that has ended with a result, or with a reason. -/
theorem ResearchJob.Texts.ended (h : job.Texts) {job' : ResearchJob} {text : String}
    (htext : storable text = true) (hquestion : job'.question = job.question)
    (hend : job'.result = some (Python.strip text) ∧ job'.failureReason = none ∨
      job'.result = none ∧ job'.failureReason = some (Python.strip text)) : job'.Texts := by
  refine ⟨hquestion ▸ h.question, ?_, ?_⟩
  all_goals
    rcases hend with ⟨hresult, hreason⟩ | ⟨hresult, hreason⟩
    all_goals simp [hresult, hreason, storable_strip htext]

end Texts

section StatusFields

variable {row : ResearchJobRow}

/-- The status fields of the domain, in the columns of a row. -/
def ResearchJobRow.DomainFields (row : ResearchJobRow) : Prop :=
  ResearchJob.checkStatusFields row.status row.createdAt row.updatedAt row.startedAt row.finishedAt
    row.result row.failureReason = .ok ()

theorem statusFields_running (hs : row.status = .running) (hfields : row.DomainFields)
    (hnext : row.nextAttemptAt = none) (hmode : row.continuationMode = .none)
    (hclaimed : row.claimedContinuationMode = .reviewComplete →
      row.activeWorkflowExecutionId.isSome = true) : row.statusFields = true := by
  rw [ResearchJobRow.DomainFields, hs, ResearchJob.checkStatusFields_running] at hfields
  obtain ⟨s, hstarted, hfinished, hresult, hfailure, hcs, hsu⟩ := hfields
  cases hcase : row.claimedContinuationMode with
  | none | jobRetry =>
      simp [ResearchJobRow.statusFields, ResearchJobRow.statusFields.inOrder, sqlOrdered, hs,
        hstarted, hfinished, hresult, hfailure, hcs, hsu, hnext, hmode, hcase]
  | reviewComplete =>
      simp [ResearchJobRow.statusFields, ResearchJobRow.statusFields.inOrder, sqlOrdered, hs,
        hstarted, hfinished, hresult, hfailure, hcs, hsu, hnext, hmode, hcase, hclaimed hcase]

theorem statusFields_fresh (hs : row.status = .pending) (hfields : row.DomainFields)
    (hstarted : row.startedAt = none) (htoken : row.claimToken = none)
    (hlease : row.leaseExpiresAt = none) (hclaimed : row.claimedContinuationMode = .none)
    (hnext : row.nextAttemptAt = none) (hmode : row.continuationMode = .none)
    (hactive : row.activeWorkflowExecutionId = none) : row.statusFields = true := by
  rw [ResearchJobRow.DomainFields, hs, ResearchJob.checkStatusFields_pending] at hfields
  obtain ⟨hfinished, hresult, hfailure, -⟩ := hfields
  simp [ResearchJobRow.statusFields, hs, hstarted, hfinished, hresult, hfailure, htoken, hlease,
    hclaimed, hnext, hmode, hactive]

end StatusFields

/-! ### What the constraints say of a row -/

namespace ResearchJobRow.Fits

variable {row : ResearchJobRow}

/-- The columns of a RUNNING row. -/
theorem running (h : row.Fits) (hs : row.status = .running) :
    row.nextAttemptAt = none ∧ row.continuationMode = .none ∧
      (row.claimedContinuationMode = .reviewComplete →
        row.activeWorkflowExecutionId.isSome = true) := by
  have hstatus := h.status_fields
  simp only [statusFields, hs, Bool.and_eq_true, decide_eq_true_eq, Bool.or_eq_true] at hstatus
  obtain ⟨⟨⟨⟨-, hnext⟩, hmode⟩, hclaimed⟩, -⟩ := hstatus
  refine ⟨hnext, hmode, fun hreview => ?_⟩
  rcases hclaimed with (⟨-, hactive⟩ | hnone) | hretry
  · exact hactive
  · rw [hnone] at hreview
    cases hreview
  · rw [hretry] at hreview
    cases hreview

/-- A PENDING row holds no claim, and waits bound when it waits for an approved completion. -/
theorem pending (h : row.Fits) (hs : row.status = .pending) :
    row.claimToken = none ∧ (row.continuationMode = .reviewComplete →
      row.activeWorkflowExecutionId.isSome = true) := by
  have hstatus := h.status_fields
  simp only [statusFields, hs, Bool.and_eq_true, decide_eq_true_eq, Bool.or_eq_true] at hstatus
  obtain ⟨⟨⟨⟨-, htoken⟩, -⟩, -⟩, hwaits⟩ := hstatus
  refine ⟨htoken, fun hreview => ?_⟩
  rcases hwaits with (⟨⟨-, hmode⟩, -⟩ | ⟨⟨⟨-, hmode⟩, -⟩, -⟩) | ⟨⟨-, hactive⟩, -⟩
  · rw [hmode] at hreview
    cases hreview
  · rw [hmode] at hreview
    cases hreview
  · exact hactive

/-- The columns of a row that waits for review. -/
theorem awaitingReview (h : row.Fits) (hs : row.status = .awaitingReview) :
    row.startedAt ≠ none ∧ row.claimToken = none ∧ row.leaseExpiresAt = none ∧
      row.claimedContinuationMode = .none := by
  have hstatus := h.status_fields
  simp only [statusFields, hs, Bool.and_eq_true, decide_eq_true_eq] at hstatus
  obtain ⟨⟨⟨⟨⟨⟨⟨⟨⟨⟨hstarted, -⟩, -⟩, -⟩, htoken⟩, hlease⟩, -⟩, -⟩, hclaimed⟩, -⟩, -⟩ := hstatus
  exact ⟨Option.ne_none_iff_isSome.2 hstarted, htoken, hlease, hclaimed⟩

/-- A row that is not a fresh one has a profile. -/
theorem profile (h : row.Fits) (hs : row.status ≠ .pending) : row.evaluationProfile.isSome = true :=
  h.started_has_profile.resolve_left fun hfresh => hs hfresh.1

end ResearchJobRow.Fits

/-! ### The operations -/

section Operations

variable {row : ResearchJobRow} {model : Option ResearchJobRow} {token : String} {time : Instant}

end Operations

/-! ### Claims and submissions -/

section Claims

variable {row : ResearchJobRow} {token profile : String} {now lease : Instant}

/-- A RUNNING row keeps the constraints under a new token and lease. -/
theorem fits_finishClaim (h : row.Fits) (hs : row.status = .running) (htoken : IsTokenHex token)
    {consumed : Option Instant}
    (hconsumed : consumed.isNone = true ∨ row.traceparent.isSome = true) :
    { row with
      claimToken := some token, leaseExpiresAt := some lease
      initialTraceparentConsumedAt := consumed : ResearchJobRow }.Fits := by
  refine { h with
    status_fields := ?_
    claim_lease_pair := ?_
    consumed_pair := hconsumed }
  · have hfields := h.status_fields
    simp only [ResearchJobRow.statusFields, ResearchJobRow.statusFields.inOrder, hs] at hfields ⊢
    exact hfields
  · simp [ResearchJobRow.claimLeasePair, sqlNonBlank_of_isTokenHex htoken, htoken.1]

/-- The row a claim finds, bound to an allowed profile. -/
theorem fits_bindEvaluationProfile {bound : ResearchJobRow} (h : row.Fits)
    (hprofile : profile ∈ evaluationProfilesAllowed)
    (hbind : bindEvaluationProfile row profile = some bound) :
    bound.Fits ∧ bound.evaluationProfile = some profile := by
  obtain rfl := bindEvaluationProfile_eq_some hbind
  refine ⟨{ h with profile_allowed := ?_, started_has_profile := .inr rfl }, rfl⟩
  simpa using hprofile

theorem texts_startOrResume {job job' : ResearchJob} (h : job.Texts)
    (hjob : startOrResume now job = .ok job') : job'.Texts := by
  unfold startOrResume at hjob
  split at hjob
  · obtain ⟨-, -, -, rfl⟩ := ResearchJob.start_eq_ok.1 hjob
    exact ⟨h.question, h.result, h.failureReason⟩
  · obtain ⟨-, -, -, rfl⟩ := ResearchJob.resumeFromPending_eq_ok.1 hjob
    exact ⟨h.question, h.result, h.failureReason⟩

/-- The job a claim starts or resumes. -/
theorem fits_startOrResume {row' : ResearchJobRow} (h : row.Fits) (hs : row.status = .pending)
    (hprofile : row.evaluationProfile = some profile)
    (hrow' : transition (startOrResume now)
      { row with claimedContinuationMode := row.continuationMode, continuationMode := .none }
        = .ok row') : { row' with nextAttemptAt := none : ResearchJobRow }.Fits := by
  have hop (job job' : ResearchJob) (hv : job.Valid) (hjob : startOrResume now job = .ok job') :
      job'.Valid := by
    unfold startOrResume at hjob
    split at hjob
    · exact hv.start hjob
    · exact hv.resumeFromPending hjob
  obtain ⟨job, job', hjob, hjob', hvalid, rfl⟩ := transition_valid hop hrow'
  have hrunning := startOrResume_status job job' hjob'
  have htexts := texts_startOrResume (h.texts.toDomain hjob) hjob'
  exact { h with
    texts := ⟨htexts.question, htexts.result, htexts.failureReason⟩
    question_nonempty := sqlNonBlank_of_clean hvalid.question_clean
    updated_after_created := hvalid.created_le_updated
    status_fields :=
      statusFields_running hrunning hvalid.status_fields rfl rfl (h.pending hs).2
    started_has_profile := .inr (by simp [hprofile]) }

/-- The row of a submission meets the constraints. -/
theorem fits_submission {id question key fingerprint : String} {at_ : TimeArg} {job : ResearchJob}
    {traceparent : Option String} (hjob : ResearchJob.create id question at_ = .ok job)
    (htexts : storable job.id = true ∧ storable job.question = true)
    (hkey : sqlNonBlank key = true ∧ key.length ≤ 128 ∧ storable key = true)
    (hfingerprint : fingerprint.length = 64)
    (htraceparent : traceparent.all traceparentFormat = true) :
    { toOrm job with
      idempotencyKey := some key, requestFingerprint := some fingerprint
      traceparent := traceparent : ResearchJobRow }.Fits := by
  have hvalid := ResearchJob.Valid.create hjob
  simp only [ResearchJob.create, bind_eq_ok, pure_eq_ok] at hjob
  obtain ⟨cleaned, hid, question', hquestion, t, -, rfl⟩ := hjob
  exact {
    id_nonempty := sqlNonBlank_of_clean hvalid.id_clean
    question_nonempty := sqlNonBlank_of_clean hvalid.question_clean
    updated_after_created := hvalid.created_le_updated
    status_fields := statusFields_fresh rfl hvalid.status_fields rfl rfl rfl rfl rfl rfl rfl
    idempotency_pair := by simp [ResearchJobRow.idempotencyPair, hkey.1, hfingerprint]
    claim_lease_pair := rfl
    repair_count := Nat.zero_le _
    job_retry_count := Nat.zero_le _
    evaluation_attempt_count := Nat.zero_le _
    traceparent_format := htraceparent
    consumed_pair := .inl rfl
    profile_allowed := rfl
    started_has_profile := .inl ⟨rfl, rfl⟩
    id_width := hvalid.id_length
    key_width := by simpa using hkey.2.1
    active_width := rfl
    id_text := htexts.1
    texts := ⟨htexts.2, rfl, rfl⟩
    key_text := hkey.2.2 }

end Claims

/-! ### The queue -/

/-- A fenced call writes a row that meets the constraints. -/
theorem fits_of_fenced {call : FencedCall} {model : Option ResearchJobRow} {row' : ResearchJobRow}
    {token : String} {time : Instant} (h : call.run model token time = .ok (some row')) :
    row'.Fits := by
  rw [← ResearchJobRow.fits_iff]
  cases call with
  | finalizeCompletion result =>
      obtain ⟨_, -, -, _, -, hchecks, rfl⟩ := finalizeCompletion_eq_some.1 h
      exact hchecks
  | finalizeFailure reason =>
      obtain ⟨_, -, -, _, -, hchecks, rfl⟩ := finalizeFailure_eq_some.1 h
      exact hchecks
  | setActiveWorkflowExecution executions executionId =>
      obtain ⟨_, -, -, hchecks, -, rfl⟩ := setActiveWorkflowExecution_eq_some.1 h
      exact hchecks
  | scheduleRetry executions next abandon =>
      simp only [FencedCall.run, map_eq_ok, Option.map_eq_some_iff] at h
      obtain ⟨_, hschedule, ⟨_, executions'⟩, rfl, rfl⟩ := h
      obtain ⟨_, -, -, hretry, -⟩ := scheduleRetry_eq_some.1 hschedule
      obtain ⟨_, -, hchecks, rfl⟩ := retryRow_eq_ok.1 hretry
      exact hchecks
  | transitionAwaitingReview =>
      obtain ⟨_, -, -, _, -, hchecks, rfl⟩ := transitionAwaitingReview_eq_some.1 h
      exact hchecks
  | incrementRepairCount =>
      obtain ⟨_, -, -, -, hchecks, rfl⟩ := incrementRepairCount_eq_some.1 h
      exact hchecks
  | incrementEvaluationAttemptCount =>
      obtain ⟨_, -, -, -, hchecks, rfl⟩ := incrementEvaluationAttemptCount_eq_some.1 h
      exact hchecks

/-- A claim token of one repeated digit. -/
def repeatedToken (c : Char) : String := String.ofList (List.replicate 64 c)

/-- A job is submitted and claimed. -/
def claimedQueue : QueueState :=
  ((⟨∅, []⟩ : QueueState).apply (.add
    { id := "job-1", question := "why?", status := .pending, createdAt := 0, updatedAt := 0
      startedAt := none, finishedAt := none, result := none, failureReason := none }
    "key-1" (repeatedToken 'f') none)).apply
    (.claimNext [] 10 20 (repeatedToken 'a') none (some "job-1"))

theorem reachable_apply {s : QueueState} (call : QueueCall) (h : queue.Reachable s)
    (hallows : s.Allows call) : queue.Reachable (s.apply call) :=
  h.step ⟨hallows, rfl⟩

theorem claimedQueue_reachable : queue.Reachable claimedQueue := by
  refine reachable_apply _ (reachable_apply _ (Lts.Reachable.of_init ⟨rfl, rfl⟩) trivial) ?_
  decide +kernel

end Atlas
