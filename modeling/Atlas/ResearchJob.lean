/-
**The research job and its lifecycle.**

The domain entity of `domain/research_job.py`: a job is created PENDING, is started by a worker,
may be returned to PENDING for a retry or be paused for review, and ends COMPLETED or FAILED.
Each operation checks the status it starts from, cleans the text it is given, and refuses a
timestamp before the job's last change.  `reconstitute` rebuilds a job from stored fields and
checks them.

Main definitions:

* `Atlas.ResearchJob`, `Atlas.ResearchJobStatus`, `Atlas.DomainError` — the entity;
* `Atlas.ResearchJob.create`, `Atlas.ResearchJob.reconstitute` — the two ways to build one;
* `Atlas.ResearchJob.start`, …, `Atlas.ResearchJob.failFromReview` — the transitions;
* `Atlas.ResearchJob.Valid` — what `reconstitute` checks of the fields it is given.

Main results:

* `Atlas.ResearchJob.reconstitute_of_valid`, `Atlas.ResearchJob.valid_of_reconstitute` —
  **`reconstitute` accepts exactly the valid jobs, and returns only valid ones**.
-/

import Atlas.Checked
import Atlas.PythonText
import Mathlib.Data.Int.Order.Basic

set_option relaxedAutoImplicit false
set_option autoImplicit false

namespace Atlas

open Checked

/-- An instant of UTC, in microseconds since the epoch. -/
abbrev Instant := ℤ

/-- The `at` argument of a lifecycle operation: left out (the clock is read, with the given
reading), an aware datetime, or a naive one. -/
inductive TimeArg where
  | omitted (reading : Instant)
  | aware (utc : Instant)
  | naive (wall : ℤ)
  deriving DecidableEq, Repr

/-- Lifecycle states for a research job. -/
inductive ResearchJobStatus where
  | pending
  | running
  | awaitingReview
  | completed
  | failed
  deriving DecidableEq, Repr

namespace ResearchJobStatus

/-- The stored text of a status. -/
def value : ResearchJobStatus → String
  | pending => "PENDING"
  | running => "RUNNING"
  | awaitingReview => "AWAITING_REVIEW"
  | completed => "COMPLETED"
  | failed => "FAILED"

/-- The statuses no transition leaves. -/
def Terminal (s : ResearchJobStatus) : Prop := s = completed ∨ s = failed

instance (s : ResearchJobStatus) : Decidable s.Terminal :=
  inferInstanceAs (Decidable (_ ∨ _))

end ResearchJobStatus

/-- The errors of the domain. -/
inductive DomainError where
  | invalidResearchJob (message : String)
  | invalidTransition (current attempted : ResearchJobStatus)
  deriving DecidableEq, Repr

/-- The text of an error. -/
def DomainError.message : DomainError → String
  | invalidResearchJob message => message
  | invalidTransition current attempted =>
      "Cannot transition research job from " ++ current.value ++ " to " ++ attempted.value ++ "."

/-- Slotted research-job entity. -/
structure ResearchJob where
  id : String
  question : String
  status : ResearchJobStatus
  createdAt : Instant
  updatedAt : Instant
  startedAt : Option Instant
  finishedAt : Option Instant
  result : Option String
  failureReason : Option String
  deriving DecidableEq, Repr

/-! ### Field checks -/

def maxResearchJobIdLength : ℕ := 128

/-- The text of a field without its surrounding blanks, or an error when nothing is left. -/
def requireNonEmpty (value fieldName : String) : Except DomainError String := do
  let stripped := Python.strip value
  ensure (stripped ≠ "") (.invalidResearchJob (fieldName ++ " must be a non-empty string."))
  return stripped

def requireJobId (value : String) : Except DomainError String := do
  let cleaned ← requireNonEmpty value "id"
  ensure (cleaned.length ≤ maxResearchJobIdLength)
    (.invalidResearchJob ("id must be at most " ++ toString maxResearchJobIdLength
      ++ " characters."))
  return cleaned

/-- An optional field is checked only when it is there. -/
def requireOptional (value : Option String) (fieldName : String) :
    Except DomainError (Option String) :=
  match value with
  | none => .ok none
  | some value => do
      let cleaned ← requireNonEmpty value fieldName
      return some cleaned

def resolveTimestamp : TimeArg → Except DomainError Instant
  | .omitted reading => .ok reading
  | .aware utc => .ok utc
  | .naive _ => .error (.invalidResearchJob "Timestamps must be timezone-aware.")

def ensureNotBefore (timestamp previous : Instant) : Except DomainError Unit :=
  ensure (previous ≤ timestamp)
    (.invalidResearchJob "Timestamp must not be earlier than the job's updated_at.")

def ensureOrder (earlier later : Instant) (earlierName laterName : String) :
    Except DomainError Unit :=
  ensure (earlier ≤ later)
    (.invalidResearchJob (laterName ++ " must not be earlier than " ++ earlierName ++ "."))

/-- A text as the domain stores it: without surrounding blanks, and not empty. -/
def Clean (text : String) : Prop := Python.strip text = text ∧ text ≠ ""

instance (text : String) : Decidable (Clean text) := inferInstanceAs (Decidable (_ ∧ _))

theorem requireNonEmpty_eq_ok {value fieldName cleaned : String} :
    requireNonEmpty value fieldName = .ok cleaned ↔
      Python.strip value = cleaned ∧ cleaned ≠ "" := by
  simp only [requireNonEmpty, bind_eq_ok, ensure_eq_ok, pure_eq_ok, exists_and_left]
  constructor
  · rintro ⟨hne, -, rfl⟩
    exact ⟨rfl, hne⟩
  · rintro ⟨rfl, hne⟩
    exact ⟨hne, (), rfl⟩

theorem requireNonEmpty_clean {value fieldName cleaned : String}
    (h : requireNonEmpty value fieldName = .ok cleaned) : Clean cleaned := by
  obtain ⟨rfl, hne⟩ := requireNonEmpty_eq_ok.1 h
  exact ⟨Python.strip_strip value, hne⟩

theorem requireNonEmpty_of_clean {value : String} (fieldName : String) (h : Clean value) :
    requireNonEmpty value fieldName = .ok value :=
  requireNonEmpty_eq_ok.2 h

theorem requireOptional_clean {value cleaned : Option String} {fieldName : String}
    (h : requireOptional value fieldName = .ok cleaned) : ∀ text ∈ cleaned, Clean text := by
  cases value with
  | none =>
      cases h
      simp
  | some value =>
      obtain ⟨text, htext, hcleaned⟩ := bind_eq_ok.1 h
      cases hcleaned
      intro text' htext'
      cases htext'
      exact requireNonEmpty_clean htext

theorem requireOptional_of_clean {value : Option String} (fieldName : String)
    (h : ∀ text ∈ value, Clean text) : requireOptional value fieldName = .ok value := by
  cases value with
  | none => rfl
  | some text =>
      simp only [requireOptional, requireNonEmpty_of_clean fieldName (h text rfl)]
      rfl

/-! ### The operations -/

namespace ResearchJob

/-- Create a PENDING research job. -/
def create (id question : String) (time : TimeArg) : Except DomainError ResearchJob := do
  let cleanedId ← requireJobId id
  let cleanedQuestion ← requireNonEmpty question "question"
  let timestamp ← resolveTimestamp time
  return {
    id := cleanedId, question := cleanedQuestion, status := .pending
    createdAt := timestamp, updatedAt := timestamp
    startedAt := none, finishedAt := none, result := none, failureReason := none }

/-- The fields each status requires and forbids, and their order in time. -/
def checkStatusFields (status : ResearchJobStatus) (created updated : Instant)
    (started finished : Option Instant) (result failure : Option String) :
    Except DomainError Unit :=
  match status with
  | .pending => do
      ensure (finished = none) (.invalidResearchJob "PENDING jobs cannot have finished_at.")
      ensure (result = none ∧ failure = none)
        (.invalidResearchJob "PENDING jobs cannot have result or failure_reason.")
      match started with
      | none => return ()
      | some started => do
          ensureOrder created started "created_at" "started_at"
          ensureOrder started updated "started_at" "updated_at"
  | .running => checkUnfinished "RUNNING"
  | .awaitingReview => checkUnfinished "AWAITING_REVIEW"
  | .completed =>
      match started, finished, result with
      | some started, some finished, some _ => do
          ensure (failure = none)
            (.invalidResearchJob "COMPLETED jobs cannot have failure_reason.")
          checkFinished started finished
      | _, _, _ =>
          .error (.invalidResearchJob
            "COMPLETED jobs require started_at, finished_at, and result.")
  | .failed =>
      match started, finished, failure with
      | some started, some finished, some _ => do
          ensure (result = none) (.invalidResearchJob "FAILED jobs cannot have result.")
          checkFinished started finished
      | _, _, _ =>
          .error (.invalidResearchJob
            "FAILED jobs require started_at, finished_at, and failure_reason.")
where
  /-- RUNNING and AWAITING_REVIEW make the same checks, under their own names. -/
  checkUnfinished (name : String) : Except DomainError Unit :=
    match started, finished with
    | some started, none => do
        ensure (result = none ∧ failure = none)
          (.invalidResearchJob (name ++ " jobs cannot have result or failure_reason."))
        ensureOrder created started "created_at" "started_at"
        ensureOrder started updated "started_at" "updated_at"
    | _, _ =>
        .error (.invalidResearchJob (name ++ " jobs require started_at and no finished_at."))
  checkFinished (started finished : Instant) : Except DomainError Unit := do
    ensureOrder created started "created_at" "started_at"
    ensureOrder started finished "started_at" "finished_at"
    ensureOrder finished updated "finished_at" "updated_at"

/-- Rebuild a research job from durable state without applying transitions; `raw` has the keyword
arguments.  The timestamps of durable state are aware. -/
def reconstitute (raw : ResearchJob) : Except DomainError ResearchJob := do
  let cleanedId ← requireJobId raw.id
  let cleanedQuestion ← requireNonEmpty raw.question "question"
  let cleanedResult ← requireOptional raw.result "result"
  let cleanedFailure ← requireOptional raw.failureReason "failure_reason"
  ensureOrder raw.createdAt raw.updatedAt "created_at" "updated_at"
  checkStatusFields raw.status raw.createdAt raw.updatedAt raw.startedAt raw.finishedAt
    cleanedResult cleanedFailure
  return { raw with
    id := cleanedId, question := cleanedQuestion
    result := cleanedResult, failureReason := cleanedFailure }

def requireStatus (job : ResearchJob) (expected attempted : ResearchJobStatus) :
    Except DomainError Unit :=
  ensure (job.status = expected) (.invalidTransition job.status attempted)

/-- The timestamp of a transition: aware, and not before the job's last change. -/
def transitionTime (job : ResearchJob) (time : TimeArg) : Except DomainError Instant := do
  let timestamp ← resolveTimestamp time
  ensureNotBefore timestamp job.updatedAt
  return timestamp

/-- Transition fresh PENDING → RUNNING. -/
def start (job : ResearchJob) (time : TimeArg) : Except DomainError ResearchJob := do
  job.requireStatus .pending .running
  ensure (job.startedAt = none) (.invalidResearchJob
    "start() requires started_at to be None; use resume_from_pending() for delayed PENDING jobs.")
  let timestamp ← job.transitionTime time
  return { job with
    status := .running, startedAt := some timestamp, updatedAt := timestamp }

/-- Transition delayed PENDING → RUNNING. -/
def resumeFromPending (job : ResearchJob) (time : TimeArg) : Except DomainError ResearchJob := do
  job.requireStatus .pending .running
  ensure (job.startedAt ≠ none) (.invalidResearchJob
    "resume_from_pending() requires started_at to be set; use start() for fresh PENDING jobs.")
  let timestamp ← job.transitionTime time
  return { job with status := .running, updatedAt := timestamp }

/-- Transition RUNNING → COMPLETED. -/
def complete (job : ResearchJob) (result : String) (time : TimeArg) :
    Except DomainError ResearchJob := do
  job.requireStatus .running .completed
  let cleanedResult ← requireNonEmpty result "result"
  let timestamp ← job.transitionTime time
  return { job with
    status := .completed, result := some cleanedResult, failureReason := none
    finishedAt := some timestamp, updatedAt := timestamp }

/-- Transition RUNNING → FAILED. -/
def fail (job : ResearchJob) (reason : String) (time : TimeArg) :
    Except DomainError ResearchJob := do
  job.requireStatus .running .failed
  let cleanedReason ← requireNonEmpty reason "failure_reason"
  let timestamp ← job.transitionTime time
  return { job with
    status := .failed, failureReason := some cleanedReason, result := none
    finishedAt := some timestamp, updatedAt := timestamp }

/-- Transition RUNNING → AWAITING_REVIEW. -/
def awaitReview (job : ResearchJob) (time : TimeArg) : Except DomainError ResearchJob := do
  job.requireStatus .running .awaitingReview
  let timestamp ← job.transitionTime time
  return { job with status := .awaitingReview, updatedAt := timestamp }

/-- Transition RUNNING → PENDING for retry schedule. -/
def returnToPending (job : ResearchJob) (time : TimeArg) : Except DomainError ResearchJob := do
  job.requireStatus .running .pending
  let timestamp ← job.transitionTime time
  return { job with
    status := .pending, finishedAt := none, result := none, failureReason := none
    updatedAt := timestamp }

/-- Transition AWAITING_REVIEW → PENDING. -/
def approveToPending (job : ResearchJob) (time : TimeArg) : Except DomainError ResearchJob := do
  job.requireStatus .awaitingReview .pending
  let timestamp ← job.transitionTime time
  return { job with status := .pending, updatedAt := timestamp }

/-- Transition AWAITING_REVIEW → FAILED. -/
def failFromReview (job : ResearchJob) (reason : String) (time : TimeArg) :
    Except DomainError ResearchJob := do
  job.requireStatus .awaitingReview .failed
  let cleanedReason ← requireNonEmpty reason "failure_reason"
  let timestamp ← job.transitionTime time
  return { job with
    status := .failed, failureReason := some cleanedReason, result := none
    finishedAt := some timestamp, updatedAt := timestamp }

/-! ### What a transition did -/

variable {job job' : ResearchJob}

@[simp] theorem requireStatus_eq_ok {expected attempted : ResearchJobStatus} {u : Unit} :
    job.requireStatus expected attempted = .ok u ↔ job.status = expected :=
  ensure_eq_ok

@[simp] theorem transitionTime_eq_ok {t timestamp : Instant} :
    job.transitionTime (.aware t) = .ok timestamp ↔ job.updatedAt ≤ t ∧ t = timestamp := by
  simp [transitionTime, resolveTimestamp, ensureNotBefore]

theorem start_eq_ok {t : Instant} :
    job.start (.aware t) = .ok job' ↔
      job.status = .pending ∧ job.startedAt = none ∧ job.updatedAt ≤ t ∧
        { job with status := .running, startedAt := some t, updatedAt := t } = job' := by
  simp [start]

theorem resumeFromPending_eq_ok {t : Instant} :
    job.resumeFromPending (.aware t) = .ok job' ↔
      job.status = .pending ∧ job.startedAt ≠ none ∧ job.updatedAt ≤ t ∧
        { job with status := .running, updatedAt := t } = job' := by
  simp [resumeFromPending]

theorem complete_eq_ok {t : Instant} {result : String} :
    job.complete result (.aware t) = .ok job' ↔
      job.status = .running ∧ Python.strip result ≠ "" ∧ job.updatedAt ≤ t ∧
        { job with
          status := .completed, result := some (Python.strip result), failureReason := none
          finishedAt := some t, updatedAt := t } = job' := by
  simp [complete, requireNonEmpty_eq_ok, and_assoc]

theorem fail_eq_ok {t : Instant} {reason : String} :
    job.fail reason (.aware t) = .ok job' ↔
      job.status = .running ∧ Python.strip reason ≠ "" ∧ job.updatedAt ≤ t ∧
        { job with
          status := .failed, failureReason := some (Python.strip reason), result := none
          finishedAt := some t, updatedAt := t } = job' := by
  simp [fail, requireNonEmpty_eq_ok, and_assoc]

theorem awaitReview_eq_ok {t : Instant} :
    job.awaitReview (.aware t) = .ok job' ↔
      job.status = .running ∧ job.updatedAt ≤ t ∧
        { job with status := .awaitingReview, updatedAt := t } = job' := by
  simp [awaitReview]

theorem returnToPending_eq_ok {t : Instant} :
    job.returnToPending (.aware t) = .ok job' ↔
      job.status = .running ∧ job.updatedAt ≤ t ∧
        { job with
          status := .pending, finishedAt := none, result := none, failureReason := none
          updatedAt := t } = job' := by
  simp [returnToPending]

theorem approveToPending_eq_ok {t : Instant} :
    job.approveToPending (.aware t) = .ok job' ↔
      job.status = .awaitingReview ∧ job.updatedAt ≤ t ∧
        { job with status := .pending, updatedAt := t } = job' := by
  simp [approveToPending]

theorem failFromReview_eq_ok {t : Instant} {reason : String} :
    job.failFromReview reason (.aware t) = .ok job' ↔
      job.status = .awaitingReview ∧ Python.strip reason ≠ "" ∧ job.updatedAt ≤ t ∧
        { job with
          status := .failed, failureReason := some (Python.strip reason), result := none
          finishedAt := some t, updatedAt := t } = job' := by
  simp [failFromReview, requireNonEmpty_eq_ok, and_assoc]

/-! ### Valid jobs -/

section StatusFields

variable {created updated : Instant} {started finished : Option Instant}
  {result failure : Option String}

/-- The fields of a job that is being worked on or waits for review. -/
def Unfinished (created updated : Instant) (started finished : Option Instant)
    (result failure : Option String) : Prop :=
  ∃ s, started = some s ∧ finished = none ∧ result = none ∧ failure = none ∧
    created ≤ s ∧ s ≤ updated

/-- The times of a job that has ended. -/
def Finished (created updated : Instant) (started finished : Option Instant) : Prop :=
  ∃ s f, started = some s ∧ finished = some f ∧ created ≤ s ∧ s ≤ f ∧ f ≤ updated

theorem checkStatusFields_pending :
    checkStatusFields .pending created updated started finished result failure = .ok () ↔
      finished = none ∧ result = none ∧ failure = none ∧
        ∀ s ∈ started, created ≤ s ∧ s ≤ updated := by
  cases started <;> simp [checkStatusFields, ensureOrder, and_assoc]

theorem checkUnfinished_eq_ok {name : String} :
    checkStatusFields.checkUnfinished created updated started finished result failure name
        = .ok () ↔
      Unfinished created updated started finished result failure := by
  cases started <;> cases finished <;>
    simp [checkStatusFields.checkUnfinished, Unfinished, ensureOrder, and_assoc]

theorem checkStatusFields_running :
    checkStatusFields .running created updated started finished result failure = .ok () ↔
      Unfinished created updated started finished result failure :=
  checkUnfinished_eq_ok

theorem checkStatusFields_awaitingReview :
    checkStatusFields .awaitingReview created updated started finished result failure = .ok () ↔
      Unfinished created updated started finished result failure :=
  checkUnfinished_eq_ok

theorem checkStatusFields_completed :
    checkStatusFields .completed created updated started finished result failure = .ok () ↔
      result ≠ none ∧ failure = none ∧ Finished created updated started finished := by
  cases started <;> cases finished <;> cases result <;>
    simp [checkStatusFields, checkStatusFields.checkFinished, Finished, ensureOrder]

theorem checkStatusFields_failed :
    checkStatusFields .failed created updated started finished result failure = .ok () ↔
      failure ≠ none ∧ result = none ∧ Finished created updated started finished := by
  cases started <;> cases finished <;> cases failure <;>
    simp [checkStatusFields, checkStatusFields.checkFinished, Finished, ensureOrder]

end StatusFields

/-- A job whose texts are clean and whose fields are those of its status. -/
structure Valid (job : ResearchJob) : Prop where
  id_clean : Clean job.id
  id_length : job.id.length ≤ maxResearchJobIdLength
  question_clean : Clean job.question
  result_clean : ∀ text ∈ job.result, Clean text
  failure_clean : ∀ text ∈ job.failureReason, Clean text
  created_le_updated : job.createdAt ≤ job.updatedAt
  status_fields : checkStatusFields job.status job.createdAt job.updatedAt job.startedAt
    job.finishedAt job.result job.failureReason = .ok ()

theorem requireJobId_clean {value cleaned : String} (h : requireJobId value = .ok cleaned) :
    Clean cleaned ∧ cleaned.length ≤ maxResearchJobIdLength := by
  obtain ⟨text, htext, h⟩ := bind_eq_ok.1 h
  obtain ⟨_, hlen, h⟩ := bind_eq_ok.1 h
  cases h
  exact ⟨requireNonEmpty_clean htext, ensure_eq_ok.1 hlen⟩

theorem requireJobId_of_clean {value : String} (hc : Clean value)
    (hlen : value.length ≤ maxResearchJobIdLength) : requireJobId value = .ok value := by
  simp [requireJobId, requireNonEmpty_of_clean "id" hc, hlen]

/-- **A valid job is rebuilt as it is.** -/
theorem reconstitute_of_valid (h : job.Valid) : reconstitute job = .ok job := by
  simp [reconstitute, requireJobId_of_clean h.id_clean h.id_length,
    requireNonEmpty_of_clean _ h.question_clean, requireOptional_of_clean _ h.result_clean,
    requireOptional_of_clean _ h.failure_clean, ensureOrder, h.created_le_updated,
    h.status_fields]

/-- **What is rebuilt is valid.** -/
theorem valid_of_reconstitute (h : reconstitute job = .ok job') : job'.Valid := by
  simp only [reconstitute, bind_eq_ok, pure_eq_ok, ensureOrder, ensure_eq_ok] at h
  obtain ⟨_, hid, _, hquestion, _, hresult, _, hfailure, _, horder, _, hstatus, rfl⟩ := h
  exact ⟨(requireJobId_clean hid).1, (requireJobId_clean hid).2,
    requireNonEmpty_clean hquestion, requireOptional_clean hresult,
    requireOptional_clean hfailure, horder, hstatus⟩

theorem Valid.unfinished (h : job.Valid)
    (hs : job.status = .running ∨ job.status = .awaitingReview) :
    Unfinished job.createdAt job.updatedAt job.startedAt job.finishedAt job.result
      job.failureReason := by
  have hfields := h.status_fields
  rcases hs with hs | hs <;> rw [hs] at hfields
  · exact checkStatusFields_running.1 hfields
  · exact checkStatusFields_awaitingReview.1 hfields

theorem clean_strip {text : String} (h : Python.strip text ≠ "") : Clean (Python.strip text) :=
  ⟨Python.strip_strip text, h⟩

/-- A fresh job is valid. -/
theorem Valid.create {id question : String} {time : TimeArg}
    (h : ResearchJob.create id question time = .ok job) : job.Valid := by
  simp only [ResearchJob.create, bind_eq_ok, pure_eq_ok] at h
  obtain ⟨_, hid, _, hquestion, t, -, rfl⟩ := h
  exact ⟨(requireJobId_clean hid).1, (requireJobId_clean hid).2, requireNonEmpty_clean hquestion,
    by simp, by simp, le_refl t, by simp [checkStatusFields_pending]⟩

/-! Each transition keeps a job valid: it checks the time it writes against the job's last
change, and sets the fields of the status it goes to. -/

theorem Valid.start (h : job.Valid) {t : Instant} (hs : job.start (.aware t) = .ok job') :
    job'.Valid := by
  obtain ⟨hpending, -, hle, rfl⟩ := start_eq_ok.1 hs
  have hfields := h.status_fields
  rw [hpending, checkStatusFields_pending] at hfields
  obtain ⟨hf, hr, hfl, -⟩ := hfields
  have hct : job.createdAt ≤ t := le_trans h.created_le_updated hle
  exact { h with
    created_le_updated := hct
    status_fields := checkStatusFields_running.2 ⟨t, rfl, hf, hr, hfl, hct, le_refl t⟩ }

theorem Valid.resumeFromPending (h : job.Valid) {t : Instant}
    (hs : job.resumeFromPending (.aware t) = .ok job') : job'.Valid := by
  obtain ⟨hpending, hstarted, hle, rfl⟩ := resumeFromPending_eq_ok.1 hs
  have hfields := h.status_fields
  rw [hpending, checkStatusFields_pending] at hfields
  obtain ⟨hf, hr, hfl, horder⟩ := hfields
  obtain ⟨s, hs⟩ := Option.ne_none_iff_exists'.1 hstarted
  obtain ⟨hcs, hsu⟩ := horder s hs
  exact { h with
    created_le_updated := le_trans h.created_le_updated hle
    status_fields := checkStatusFields_running.2 ⟨s, hs, hf, hr, hfl, hcs, le_trans hsu hle⟩ }

theorem Valid.complete (h : job.Valid) {t : Instant} {result : String}
    (hs : job.complete result (.aware t) = .ok job') : job'.Valid := by
  obtain ⟨hrunning, hne, hle, rfl⟩ := complete_eq_ok.1 hs
  obtain ⟨s, hstarted, -, -, -, hcs, hsu⟩ := h.unfinished (.inl hrunning)
  exact { h with
    result_clean := by simpa using clean_strip hne
    failure_clean := by simp
    created_le_updated := le_trans h.created_le_updated hle
    status_fields := checkStatusFields_completed.2
      ⟨by simp, rfl, s, t, hstarted, rfl, hcs, le_trans hsu hle, le_refl t⟩ }

theorem Valid.fail (h : job.Valid) {t : Instant} {reason : String}
    (hs : job.fail reason (.aware t) = .ok job') : job'.Valid := by
  obtain ⟨hrunning, hne, hle, rfl⟩ := fail_eq_ok.1 hs
  obtain ⟨s, hstarted, -, -, -, hcs, hsu⟩ := h.unfinished (.inl hrunning)
  exact { h with
    failure_clean := by simpa using clean_strip hne
    result_clean := by simp
    created_le_updated := le_trans h.created_le_updated hle
    status_fields := checkStatusFields_failed.2
      ⟨by simp, rfl, s, t, hstarted, rfl, hcs, le_trans hsu hle, le_refl t⟩ }

theorem Valid.awaitReview (h : job.Valid) {t : Instant}
    (hs : job.awaitReview (.aware t) = .ok job') : job'.Valid := by
  obtain ⟨hrunning, hle, rfl⟩ := awaitReview_eq_ok.1 hs
  obtain ⟨s, hstarted, hf, hr, hfl, hcs, hsu⟩ := h.unfinished (.inl hrunning)
  exact { h with
    created_le_updated := le_trans h.created_le_updated hle
    status_fields := checkStatusFields_awaitingReview.2
      ⟨s, hstarted, hf, hr, hfl, hcs, le_trans hsu hle⟩ }

theorem Valid.returnToPending (h : job.Valid) {t : Instant}
    (hs : job.returnToPending (.aware t) = .ok job') : job'.Valid := by
  obtain ⟨hrunning, hle, rfl⟩ := returnToPending_eq_ok.1 hs
  obtain ⟨s, hstarted, -, -, -, hcs, hsu⟩ := h.unfinished (.inl hrunning)
  exact { h with
    result_clean := by simp
    failure_clean := by simp
    created_le_updated := le_trans h.created_le_updated hle
    status_fields := checkStatusFields_pending.2
      ⟨rfl, rfl, rfl, by simpa [hstarted] using ⟨hcs, le_trans hsu hle⟩⟩ }

theorem Valid.approveToPending (h : job.Valid) {t : Instant}
    (hs : job.approveToPending (.aware t) = .ok job') : job'.Valid := by
  obtain ⟨hwaiting, hle, rfl⟩ := approveToPending_eq_ok.1 hs
  obtain ⟨s, hstarted, hf, hr, hfl, hcs, hsu⟩ := h.unfinished (.inr hwaiting)
  exact { h with
    created_le_updated := le_trans h.created_le_updated hle
    status_fields := checkStatusFields_pending.2
      ⟨hf, hr, hfl, by simpa [hstarted] using ⟨hcs, le_trans hsu hle⟩⟩ }

theorem Valid.failFromReview (h : job.Valid) {t : Instant} {reason : String}
    (hs : job.failFromReview reason (.aware t) = .ok job') : job'.Valid := by
  obtain ⟨hwaiting, hne, hle, rfl⟩ := failFromReview_eq_ok.1 hs
  obtain ⟨s, hstarted, -, -, -, hcs, hsu⟩ := h.unfinished (.inr hwaiting)
  exact { h with
    failure_clean := by simpa using clean_strip hne
    result_clean := by simp
    created_le_updated := le_trans h.created_le_updated hle
    status_fields := checkStatusFields_failed.2
      ⟨by simp, rfl, s, t, hstarted, rfl, hcs, le_trans hsu hle, le_refl t⟩ }

end ResearchJob

end Atlas
