/-
**The life of a research job object.**

A job of `domain/research_job.py` is an object whose methods check their preconditions, raise when
one fails, and otherwise assign the fields one after the other.  A caller that catches the error
goes on with the object as the method left it.  Here a method is a computation on the object that
leaves it in some state whether it returns or raises, and the methods are written statement by
statement; each of them turns out to check first and assign afterwards, so that a rejected call
leaves no trace.

Main definitions:

* `Method`, `Method.guarded` — methods of a mutable object, and those that check before they assign;
* `Atlas.Operation`, `Atlas.Operation.perform` — the operations of a job, with their arguments;
* `Atlas.jobObject` — the transition system of a job that any operations are called on.

Main results:

* `Atlas.Operation.perform_eq_guarded` — **every operation checks before it assigns**;
* `Atlas.Operation.perform_spec` — an accepted operation is the transition of `Atlas.ResearchJob`;
* `Atlas.jobObject_sound` — **every job reached can be stored and loaded again**, its `updated_at`
  never decreases, rejected operations change nothing, and an ended job accepts none.
-/

import Atlas.JobRow
import Atlas.PythonDatetime
import Atlas.TransitionSystem

set_option relaxedAutoImplicit false
set_option autoImplicit false

/-! ### Methods of an object -/

/-- A method of an object with fields `σ`: it returns or raises, and leaves the fields as they are
then. -/
def Method (ε σ α : Type) := σ → Except ε α × σ

namespace Method

open Checked

variable {ε σ α β : Type}

/-- One method after the other: what the first raises ends the two. -/
def andThen (m : Method ε σ α) (k : α → Method ε σ β) : Method ε σ β := fun s =>
  match m s with
  | (.ok a, s') => k a s'
  | (.error e, s') => (.error e, s')

instance : Monad (Method ε σ) where
  pure a := fun s => (.ok a, s)
  bind := andThen

/-- A check of the fields, which may raise. -/
def check (f : σ → Except ε α) : Method ε σ α := fun s => (f s, s)

/-- An assignment to the fields. -/
def assign (f : σ → σ) : Method ε σ Unit := fun s => (.ok (), f s)

/-- A method that makes all its checks before it assigns: `f` raises, or gives the new fields. -/
def guarded (f : σ → Except ε σ) : Method ε σ Unit := fun s =>
  match f s with
  | .ok s' => (.ok (), s')
  | .error e => (.error e, s)

theorem guarded_eq_ok {f : σ → Except ε σ} {s s' : σ} :
    guarded f s = (.ok (), s') ↔ f s = .ok s' := by
  unfold guarded
  cases f s <;> simp

theorem guarded_eq_error {f : σ → Except ε σ} {s s' : σ} {e : ε} :
    guarded f s = (.error e, s') ↔ f s = .error e ∧ s' = s := by
  unfold guarded
  cases f s <;> simp [eq_comm]

/-- An assignment is a method with no checks. -/
theorem assign_eq_guarded (f : σ → σ) : (assign f : Method ε σ Unit) = guarded fun s => .ok (f s) :=
  rfl

/-- Two assignments are one. -/
theorem assign_bind_assign (f g : σ → σ) :
    ((assign f : Method ε σ Unit) >>= fun _ => assign g) = assign fun s => g (f s) :=
  rfl

/-- **A check before a method that checks before it assigns.** -/
theorem check_bind_guarded (f : σ → Except ε α) (g : α → σ → Except ε σ) :
    (check f >>= fun a => guarded (g a)) = guarded fun s => f s >>= fun a => g a s := by
  funext s
  change andThen (check f) (fun a => guarded (g a)) s = _
  cases hf : f s with
  | ok a => simp only [andThen, check, guarded, hf, ok_bind]
  | error e => simp only [andThen, check, guarded, hf, error_bind]

@[simp] theorem pure_bind (a : α) (k : α → Method ε σ β) : (pure a >>= k) = k a := rfl

@[simp] theorem bind_assoc {γ : Type} (m : Method ε σ α) (k : α → Method ε σ β)
    (k' : β → Method ε σ γ) : ((m >>= k) >>= k') = m >>= fun a => k a >>= k' := by
  funext s
  change andThen (andThen m k) k' s = andThen m (fun a => andThen (k a) k') s
  unfold andThen
  obtain ⟨r, s'⟩ := m s
  cases r <;> rfl

end Method

namespace Atlas

open Checked Method

/-! ### The arguments and errors of an operation -/

/-- The text of a status names it. -/
def ResearchJobStatus.ofValue (text : String) : Option ResearchJobStatus :=
  [pending, running, awaitingReview, completed, failed].find? fun status => status.value = text

theorem ResearchJobStatus.ofValue_value (status : ResearchJobStatus) :
    ofValue status.value = some status := by
  cases status <;> decide

/-- A `datetime`: what its fields say, and the offset of its zone when it has one. -/
structure Datetime where
  wall : ℤ
  utcoffset : Option ℤ
  representable : Python.Representable wall

/-- The keyword argument `at`, with what the clock would say. -/
structure At where
  argument : Option Datetime
  now : Instant

/-- What an operation may raise. -/
inductive OperationError where
  | domain (error : DomainError)
  /-- A `datetime` whose instant is before the year 1 or after the year 9999 in UTC. -/
  | overflow
  deriving DecidableEq

/-- The timestamp of an operation in UTC. -/
def At.resolveTimestamp (time : At) : Except OperationError Instant :=
  match time.argument with
  | none => .ok time.now
  | some datetime =>
      match datetime.utcoffset with
      | none => .error (.domain (.invalidResearchJob "Timestamps must be timezone-aware."))
      | some offset => do
          ensure (Python.Representable (datetime.wall - offset)) .overflow
          return datetime.wall - offset

/-- A check of the domain, as one of an operation. -/
def domainCheck {α : Type} (r : Except DomainError α) : Except OperationError α :=
  r.mapError .domain

/-! ### The operations, statement by statement -/

namespace ResearchJob

/-- The methods of a job. -/
abbrev JobMethod (α : Type) := Method OperationError ResearchJob α

/-- `_resolve_timestamp(at)` and `_ensure_not_before(timestamp, self._updated_at)`. -/
def readTime (time : At) : JobMethod Instant := do
  let timestamp ← check fun _ => time.resolveTimestamp
  check fun self => domainCheck (ensureNotBefore timestamp self.updatedAt)
  return timestamp

def checkStatus (expected attempted : ResearchJobStatus) : JobMethod Unit :=
  check fun self => domainCheck (self.requireStatus expected attempted)

def setStatus (status : ResearchJobStatus) : JobMethod Unit :=
  assign fun self => { self with status }

def setStartedAt (timestamp : Instant) : JobMethod Unit :=
  assign fun self => { self with startedAt := some timestamp }

def setFinishedAt (timestamp : Option Instant) : JobMethod Unit :=
  assign fun self => { self with finishedAt := timestamp }

def setResult (result : Option String) : JobMethod Unit :=
  assign fun self => { self with result }

def setFailureReason (failureReason : Option String) : JobMethod Unit :=
  assign fun self => { self with failureReason }

def setUpdatedAt (timestamp : Instant) : JobMethod Unit :=
  assign fun self => { self with updatedAt := timestamp }

end ResearchJob

open ResearchJob

/-- A call of one of the operations of a job, with its arguments. -/
inductive Operation where
  | start (time : At)
  | resumeFromPending (time : At)
  | complete (result : String) (time : At)
  | fail (reason : String) (time : At)
  | awaitReview (time : At)
  | returnToPending (time : At)
  | approveToPending (time : At)
  | failFromReview (reason : String) (time : At)

namespace Operation

/-- What a call does to the job. -/
def perform : Operation → JobMethod Unit
  | start time => do
      checkStatus .pending .running
      check fun self => domainCheck (ensure (self.startedAt = none) (.invalidResearchJob
        ("start() requires started_at to be None; " ++
          "use resume_from_pending() for delayed PENDING jobs.")))
      let timestamp ← readTime time
      setStatus .running
      setStartedAt timestamp
      setUpdatedAt timestamp
  | resumeFromPending time => do
      checkStatus .pending .running
      check fun self => domainCheck (ensure (self.startedAt ≠ none) (.invalidResearchJob
        ("resume_from_pending() requires started_at to be set; " ++
          "use start() for fresh PENDING jobs.")))
      let timestamp ← readTime time
      setStatus .running
      setUpdatedAt timestamp
  | complete result time => do
      checkStatus .running .completed
      let cleanedResult ← check fun _ => domainCheck (requireNonEmpty result "result")
      let timestamp ← readTime time
      setStatus .completed
      setResult (some cleanedResult)
      setFailureReason none
      setFinishedAt (some timestamp)
      setUpdatedAt timestamp
  | fail reason time => do
      checkStatus .running .failed
      let cleanedReason ← check fun _ => domainCheck (requireNonEmpty reason "failure_reason")
      let timestamp ← readTime time
      setStatus .failed
      setFailureReason (some cleanedReason)
      setResult none
      setFinishedAt (some timestamp)
      setUpdatedAt timestamp
  | awaitReview time => do
      checkStatus .running .awaitingReview
      let timestamp ← readTime time
      setStatus .awaitingReview
      setUpdatedAt timestamp
  | returnToPending time => do
      checkStatus .running .pending
      let timestamp ← readTime time
      setStatus .pending
      setFinishedAt none
      setResult none
      setFailureReason none
      setUpdatedAt timestamp
  | approveToPending time => do
      checkStatus .awaitingReview .pending
      let timestamp ← readTime time
      setStatus .pending
      setUpdatedAt timestamp
  | failFromReview reason time => do
      checkStatus .awaitingReview .failed
      let cleanedReason ← check fun _ => domainCheck (requireNonEmpty reason "failure_reason")
      let timestamp ← readTime time
      setStatus .failed
      setFailureReason (some cleanedReason)
      setResult none
      setFinishedAt (some timestamp)
      setUpdatedAt timestamp

/-- The `at` of a call. -/
def time : Operation → At
  | start time | resumeFromPending time | complete _ time | fail _ time | awaitReview time
  | returnToPending time | approveToPending time | failFromReview _ time => time

/-- The transition of a call, at its timestamp. -/
def transition (timestamp : Instant) (job : ResearchJob) :
    Operation → Except DomainError ResearchJob
  | start _ => job.start (.aware timestamp)
  | resumeFromPending _ => job.resumeFromPending (.aware timestamp)
  | complete result _ => job.complete result (.aware timestamp)
  | fail reason _ => job.fail reason (.aware timestamp)
  | awaitReview _ => job.awaitReview (.aware timestamp)
  | returnToPending _ => job.returnToPending (.aware timestamp)
  | approveToPending _ => job.approveToPending (.aware timestamp)
  | failFromReview reason _ => job.failFromReview reason (.aware timestamp)

/-! ### Checks first, assignments afterwards -/

/-- Assign the fields at the timestamp of the call, once that is known to be one. -/
def timed (time : At) (g : Instant → ResearchJob → ResearchJob) (job : ResearchJob) :
    Except OperationError ResearchJob := do
  let timestamp ← time.resolveTimestamp
  domainCheck (ensureNotBefore timestamp job.updatedAt)
  .ok (g timestamp job)

@[simp] theorem domainCheck_eq_ok {α : Type} {r : Except DomainError α} {a : α} :
    domainCheck r = .ok a ↔ r = .ok a :=
  mapError_eq_ok

theorem timed_eq_ok {time : At} {g : Instant → ResearchJob → ResearchJob} {job job' : ResearchJob} :
    timed time g job = .ok job' ↔ ∃ timestamp, time.resolveTimestamp = .ok timestamp ∧
      job.updatedAt ≤ timestamp ∧ g timestamp job = job' := by
  simp [timed, ensureNotBefore]

theorem readTime_assign (time : At) (g : Instant → ResearchJob → ResearchJob) :
    (readTime time >>= fun timestamp => assign (g timestamp)) = guarded (timed time g) := by
  simp only [readTime, bind_assoc, pure_bind]
  simp only [assign_eq_guarded, check_bind_guarded]
  rfl

/-- What the checks of a call let through: its timestamp is one, and its transition accepts it. -/
def Accepts (op : Operation) (job job' : ResearchJob) : Prop :=
  ∃ timestamp, op.time.resolveTimestamp = .ok timestamp ∧
    op.transition timestamp job = .ok job'

attribute [local simp] perform checkStatus setStatus setStartedAt setFinishedAt setResult
  setFailureReason setUpdatedAt assign_bind_assign readTime_assign check_bind_guarded

theorem checksFirst {op : Operation} {f : ResearchJob → Except OperationError ResearchJob}
    (hrun : op.perform = guarded f) (hspec : ∀ job job', f job = .ok job' ↔ op.Accepts job job') :
    ∃ f, op.perform = guarded f ∧ ∀ job job', f job = .ok job' ↔ op.Accepts job job' :=
  ⟨f, hrun, hspec⟩

/-- **Every operation makes its checks before it assigns a field**, and what they let through is
the transition. -/
theorem perform_eq_guarded (op : Operation) :
    ∃ f, op.perform = guarded f ∧ ∀ job job', f job = .ok job' ↔ op.Accepts job job' := by
  cases op with
  | start time =>
      apply checksFirst
      · simp
        rfl
      · intro job job'
        simp only [Accepts, transition, start_eq_ok, bind_eq_ok, domainCheck_eq_ok, ensure_eq_ok,
          requireStatus_eq_ok, timed_eq_ok]
        constructor
        · rintro ⟨_, hstatus, _, hstarted, t, ht, hle, h⟩
          exact ⟨t, ht, hstatus, hstarted, hle, h⟩
        · rintro ⟨t, ht, hstatus, hstarted, hle, h⟩
          exact ⟨(), hstatus, (), hstarted, t, ht, hle, h⟩
  | resumeFromPending time =>
      apply checksFirst
      · simp
        rfl
      · intro job job'
        simp only [Accepts, transition, resumeFromPending_eq_ok, bind_eq_ok, domainCheck_eq_ok,
          ensure_eq_ok, requireStatus_eq_ok, timed_eq_ok]
        constructor
        · rintro ⟨_, hstatus, _, hstarted, t, ht, hle, h⟩
          exact ⟨t, ht, hstatus, hstarted, hle, h⟩
        · rintro ⟨t, ht, hstatus, hstarted, hle, h⟩
          exact ⟨(), hstatus, (), hstarted, t, ht, hle, h⟩
  | complete result time =>
      apply checksFirst
      · simp
        rfl
      · intro job job'
        simp only [Accepts, transition, complete_eq_ok, bind_eq_ok, domainCheck_eq_ok,
          requireNonEmpty_eq_ok, requireStatus_eq_ok, timed_eq_ok]
        constructor
        · rintro ⟨_, hstatus, _, ⟨rfl, hne⟩, t, ht, hle, h⟩
          exact ⟨t, ht, hstatus, hne, hle, h⟩
        · rintro ⟨t, ht, hstatus, hne, hle, h⟩
          exact ⟨(), hstatus, _, ⟨rfl, hne⟩, t, ht, hle, h⟩
  | fail reason time =>
      apply checksFirst
      · simp
        rfl
      · intro job job'
        simp only [Accepts, transition, fail_eq_ok, bind_eq_ok, domainCheck_eq_ok,
          requireNonEmpty_eq_ok, requireStatus_eq_ok, timed_eq_ok]
        constructor
        · rintro ⟨_, hstatus, _, ⟨rfl, hne⟩, t, ht, hle, h⟩
          exact ⟨t, ht, hstatus, hne, hle, h⟩
        · rintro ⟨t, ht, hstatus, hne, hle, h⟩
          exact ⟨(), hstatus, _, ⟨rfl, hne⟩, t, ht, hle, h⟩
  | awaitReview time =>
      apply checksFirst
      · simp
        rfl
      · intro job job'
        simp only [Accepts, transition, awaitReview_eq_ok, bind_eq_ok, domainCheck_eq_ok,
          requireStatus_eq_ok, timed_eq_ok]
        constructor
        · rintro ⟨_, hstatus, t, ht, hle, h⟩
          exact ⟨t, ht, hstatus, hle, h⟩
        · rintro ⟨t, ht, hstatus, hle, h⟩
          exact ⟨(), hstatus, t, ht, hle, h⟩
  | returnToPending time =>
      apply checksFirst
      · simp
        rfl
      · intro job job'
        simp only [Accepts, transition, returnToPending_eq_ok, bind_eq_ok, domainCheck_eq_ok,
          requireStatus_eq_ok, timed_eq_ok]
        constructor
        · rintro ⟨_, hstatus, t, ht, hle, h⟩
          exact ⟨t, ht, hstatus, hle, h⟩
        · rintro ⟨t, ht, hstatus, hle, h⟩
          exact ⟨(), hstatus, t, ht, hle, h⟩
  | approveToPending time =>
      apply checksFirst
      · simp
        rfl
      · intro job job'
        simp only [Accepts, transition, approveToPending_eq_ok, bind_eq_ok, domainCheck_eq_ok,
          requireStatus_eq_ok, timed_eq_ok]
        constructor
        · rintro ⟨_, hstatus, t, ht, hle, h⟩
          exact ⟨t, ht, hstatus, hle, h⟩
        · rintro ⟨t, ht, hstatus, hle, h⟩
          exact ⟨(), hstatus, t, ht, hle, h⟩
  | failFromReview reason time =>
      apply checksFirst
      · simp
        rfl
      · intro job job'
        simp only [Accepts, transition, failFromReview_eq_ok, bind_eq_ok, domainCheck_eq_ok,
          requireNonEmpty_eq_ok, requireStatus_eq_ok, timed_eq_ok]
        constructor
        · rintro ⟨_, hstatus, _, ⟨rfl, hne⟩, t, ht, hle, h⟩
          exact ⟨t, ht, hstatus, hne, hle, h⟩
        · rintro ⟨t, ht, hstatus, hne, hle, h⟩
          exact ⟨(), hstatus, _, ⟨rfl, hne⟩, t, ht, hle, h⟩

/-- **What a call does.**  It is accepted, and then did its transition, or it is rejected, and then
no field has changed. -/
theorem perform_spec {op : Operation} {job job' : ResearchJob}
    {outcome : Except OperationError Unit} (h : op.perform job = (outcome, job')) :
    outcome = .ok () ∧ op.Accepts job job' ∨ ∃ e, outcome = .error e ∧ job' = job := by
  obtain ⟨f, hf, hspec⟩ := op.perform_eq_guarded
  rw [hf] at h
  cases outcome with
  | ok u => exact .inl ⟨rfl, (hspec job job').1 (guarded_eq_ok.1 h)⟩
  | error e => exact .inr ⟨e, rfl, (guarded_eq_error.1 h).2⟩

variable {op : Operation} {job job' : ResearchJob}

theorem Accepts.valid (h : op.Accepts job job') (hjob : job.Valid) : job'.Valid := by
  obtain ⟨t, -, h⟩ := h
  cases op with
  | start time => exact hjob.start h
  | resumeFromPending time => exact hjob.resumeFromPending h
  | complete result time => exact hjob.complete h
  | fail reason time => exact hjob.fail h
  | awaitReview time => exact hjob.awaitReview h
  | returnToPending time => exact hjob.returnToPending h
  | approveToPending time => exact hjob.approveToPending h
  | failFromReview reason time => exact hjob.failFromReview h

/-- An accepted call finds the job in a status it can leave, and writes no earlier time. -/
theorem Accepts.progress (h : op.Accepts job job') :
    ¬ job.status.Terminal ∧ job.updatedAt ≤ job'.updatedAt := by
  obtain ⟨t, -, h⟩ := h
  cases op with
  | start time =>
      obtain ⟨hstatus, -, hle, rfl⟩ := start_eq_ok.1 h
      exact ⟨by simp [hstatus, ResearchJobStatus.Terminal], hle⟩
  | resumeFromPending time =>
      obtain ⟨hstatus, -, hle, rfl⟩ := resumeFromPending_eq_ok.1 h
      exact ⟨by simp [hstatus, ResearchJobStatus.Terminal], hle⟩
  | complete result time =>
      obtain ⟨hstatus, -, hle, rfl⟩ := complete_eq_ok.1 h
      exact ⟨by simp [hstatus, ResearchJobStatus.Terminal], hle⟩
  | fail reason time =>
      obtain ⟨hstatus, -, hle, rfl⟩ := fail_eq_ok.1 h
      exact ⟨by simp [hstatus, ResearchJobStatus.Terminal], hle⟩
  | awaitReview time =>
      obtain ⟨hstatus, hle, rfl⟩ := awaitReview_eq_ok.1 h
      exact ⟨by simp [hstatus, ResearchJobStatus.Terminal], hle⟩
  | returnToPending time =>
      obtain ⟨hstatus, hle, rfl⟩ := returnToPending_eq_ok.1 h
      exact ⟨by simp [hstatus, ResearchJobStatus.Terminal], hle⟩
  | approveToPending time =>
      obtain ⟨hstatus, hle, rfl⟩ := approveToPending_eq_ok.1 h
      exact ⟨by simp [hstatus, ResearchJobStatus.Terminal], hle⟩
  | failFromReview reason time =>
      obtain ⟨hstatus, -, hle, rfl⟩ := failFromReview_eq_ok.1 h
      exact ⟨by simp [hstatus, ResearchJobStatus.Terminal], hle⟩

end Operation

/-! ### Any calls on a created job -/

/-- A job that has been created, and then had any operations called on it.  The label of a step is
the call and what came of it. -/
def jobObject : Lts ResearchJob (Operation × Except OperationError Unit) where
  init job := ∃ id question time, ResearchJob.create id question time = .ok job
  step job call job' := call.1.perform job = (call.2, job')

theorem jobObject_valid {job : ResearchJob} (h : jobObject.Reachable job) : job.Valid := by
  refine h.invariant ?_ ?_
  · rintro job ⟨id, question, time, hcreate⟩
    exact ResearchJob.Valid.create hcreate
  · rintro job ⟨op, outcome⟩ job' hvalid hstep
    rcases op.perform_spec hstep with ⟨-, haccepts⟩ | ⟨_, -, rfl⟩
    · exact haccepts.valid hvalid
    · exact hvalid

theorem jobObject_updatedAt {job job' : ResearchJob}
    {calls : List (Operation × Except OperationError Unit)} (h : jobObject.Run job calls job') :
    job.updatedAt ≤ job'.updatedAt := by
  refine h.preserves (I := fun later => job.updatedAt ≤ later.updatedAt) ?_ (le_refl _)
  rintro before ⟨op, outcome⟩ after hle hstep
  rcases op.perform_spec hstep with ⟨-, haccepts⟩ | ⟨_, -, rfl⟩
  · exact le_trans hle haccepts.progress.2
  · exact hle

/-- **Every job reached is stored and loaded as it is.**  Whatever operations have been called on a
created job, `reconstitute` accepts its fields and gives the same job, by way of its row too, whose
status has a text that names it.  From there its last change never goes back, a rejected call
changes no field, and an ended job accepts no call. -/
theorem jobObject_sound {job : ResearchJob} (h : jobObject.Reachable job) :
    ResearchJob.reconstitute job = .ok job ∧
      ResearchJobStatus.ofValue job.status.value = some job.status ∧
      toDomain (toOrm job) = .ok job ∧
      (∀ calls job', jobObject.Run job calls job' → job.updatedAt ≤ job'.updatedAt) ∧
      ∀ op outcome job', jobObject.step job (op, outcome) job' →
        (∀ e, outcome = .error e → job' = job) ∧
        (job.status.Terminal → ∃ e, outcome = .error e) := by
  have hvalid := jobObject_valid h
  refine ⟨ResearchJob.reconstitute_of_valid hvalid, ResearchJobStatus.ofValue_value _,
    toDomain_toOrm hvalid, fun calls job' => jobObject_updatedAt, ?_⟩
  intro op outcome job' hstep
  rcases op.perform_spec hstep with ⟨rfl, haccepts⟩ | ⟨e, rfl, rfl⟩
  · refine ⟨?_, fun hterminal => absurd hterminal haccepts.progress.1⟩
    intro e he
    cases he
  · exact ⟨fun _ _ => rfl, fun _ => ⟨e, rfl⟩⟩

/-- A job that was created with blanks around its question, and then started. -/
def startedJob : ResearchJob where
  id := "job-1"
  question := "Why?"
  status := .running
  createdAt := 0
  updatedAt := 5
  startedAt := some 5
  finishedAt := none
  result := none
  failureReason := none

theorem startedJob_reachable : jobObject.Reachable startedJob := by
  have hcreate : ResearchJob.create "job-1" " Why? " (.omitted 0) = .ok { startedJob with
      status := .pending, updatedAt := 0, startedAt := none } := by decide +kernel
  exact .step (.of_init ⟨"job-1", " Why? ", .omitted 0, hcreate⟩)
    (l := (.start ⟨none, 5⟩, .ok ())) rfl

/-- It is loaded as it is. -/
theorem jobObject_sound_startedJob : toDomain (toOrm startedJob) = .ok startedJob :=
  (jobObject_sound startedJob_reachable).2.2.1

end Atlas
