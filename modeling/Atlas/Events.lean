/-
**Domain events and the outbox.**

The lifecycle events of a research job, as `eventing/contracts.py` validates and
`eventing/builders.py` builds them, and the row `enqueue` inserts for one.  A payload repeats the
job's id and a timestamp; the contracts require both to agree with the envelope
(`_align_payload`), so the model keeps only the envelope's.  An event carries the proof that its
contract holds: an event that would be refused cannot be built.

Main definitions:

* `Atlas.Payload`, `Atlas.DomainEvent`, `Atlas.EventType` — the events;
* `Atlas.buildResearchJobCreated`, …, `Atlas.buildResearchJobRetryScheduled` — the builders;
* `Atlas.OutboxRow`, `Atlas.Outbox.enqueue` — the outbox and the insertion of an event.

Main results:

* `Atlas.buildEvent_eq_ok` — a builder returns the event it is asked for, or raises;
* `Atlas.Outbox.enqueue_eq_ok` — **what enqueueing does**: one row at the drawn position.
-/

import Atlas.RecoveryPolicy

set_option relaxedAutoImplicit false
set_option autoImplicit false

namespace Atlas

open Checked

/-! ### Events -/

inductive EventType where
  | created
  | completed
  | failed
  | awaitingReview
  | retryScheduled
  deriving DecidableEq, Repr

namespace EventType

def value : EventType → String
  | created => "research_job.created"
  | completed => "research_job.completed"
  | failed => "research_job.failed"
  | awaitingReview => "research_job.awaiting_review"
  | retryScheduled => "research_job.retry_scheduled"

/-- `TERMINAL_EVENT_TYPES`: after one of these the domain produces no further event. -/
def Terminal (type : EventType) : Prop := type = completed ∨ type = failed

instance (type : EventType) : Decidable type.Terminal := inferInstanceAs (Decidable (_ ∨ _))

end EventType

/-- The payload of an event, without the fields that repeat the envelope's. -/
inductive Payload where
  | created
  | completed
  | failed (reasonClass : String)
  | awaitingReview (workflowExecutionId : String)
  | retryScheduled (abandonedWorkflowExecutionId : Option String) (jobRetryCount : ℕ)
      (nextAttemptAt : Instant)
  deriving DecidableEq, Repr

namespace Payload

def type : Payload → EventType
  | created => .created
  | completed => .completed
  | failed _ => .failed
  | awaitingReview _ => .awaitingReview
  | retryScheduled _ _ _ => .retryScheduled

/-- What the contracts require of the fields of a payload. -/
def Valid : Payload → Prop
  | created | completed => True
  | failed reasonClass =>
      reasonClass ≠ "" ∧ reasonClass.toList.all (!Python.isSpace ·) ∧ reasonClass.length ≤ 128
  | awaitingReview workflowExecutionId => workflowExecutionId ≠ ""
  | retryScheduled abandoned jobRetryCount _ =>
      abandoned ≠ some "" ∧ 1 ≤ jobRetryCount ∧ jobRetryCount ≤ 2

instance (payload : Payload) : Decidable payload.Valid :=
  match payload with
  | created | completed => .isTrue trivial
  | failed _ => inferInstanceAs (Decidable (_ ∧ _ ∧ _))
  | awaitingReview _ => inferInstanceAs (Decidable (_ ≠ _))
  | retryScheduled _ _ _ => inferInstanceAs (Decidable (_ ∧ _ ∧ _))

end Payload

/-- The envelope of an event. -/
structure DomainEvent where
  eventId : String
  aggregateId : String
  occurredAt : Instant
  payload : Payload
  valid : aggregateId ≠ "" ∧ payload.Valid
  deriving DecidableEq

/-- The type of an event is the type of its payload. -/
def DomainEvent.type (event : DomainEvent) : EventType := event.payload.type

/-- The validation error of the contracts. -/
def validationError : Exc := .other "ValidationError" false

/-- Build an event whose contract holds. -/
def buildEvent (eventId aggregateId : String) (occurredAt : Instant) (payload : Payload) :
    Except Exc DomainEvent :=
  if h : aggregateId ≠ "" ∧ payload.Valid then .ok ⟨eventId, aggregateId, occurredAt, payload, h⟩
  else .error validationError

/-- Build a created event; `occurred_at` equals `created_at`. -/
def buildResearchJobCreated (eventId researchJobId : String) (createdAt : Instant) :
    Except Exc DomainEvent :=
  buildEvent eventId researchJobId createdAt .created

/-- Build a completed event; `occurred_at` equals `completed_at`. -/
def buildResearchJobCompleted (eventId researchJobId : String) (completedAt : Instant) :
    Except Exc DomainEvent :=
  buildEvent eventId researchJobId completedAt .completed

/-- Build a failed event with a sanitized reason class only.  The length is bounded before the
blanks around the text are removed. -/
def buildResearchJobFailed (eventId researchJobId : String) (failedAt : Instant)
    (reasonClass : String) : Except Exc DomainEvent := do
  ensure (1 ≤ reasonClass.length ∧ reasonClass.length ≤ 128) validationError
  buildEvent eventId researchJobId failedAt (.failed (Python.strip reasonClass))

/-- Build an awaiting-review event; `occurred_at` equals `entered_review_at`. -/
def buildResearchJobAwaitingReview (eventId researchJobId workflowExecutionId : String)
    (enteredReviewAt : Instant) : Except Exc DomainEvent :=
  buildEvent eventId researchJobId enteredReviewAt (.awaitingReview workflowExecutionId)

/-- Build a retry-scheduled event using the domain mutation timestamp. -/
def buildResearchJobRetryScheduled (eventId researchJobId : String)
    (abandonedWorkflowExecutionId : Option String) (jobRetryCount : ℕ)
    (nextAttemptAt occurredAt : Instant) : Except Exc DomainEvent :=
  buildEvent eventId researchJobId occurredAt
    (.retryScheduled (abandonedWorkflowExecutionId.map Python.strip) jobRetryCount nextAttemptAt)

/-- A builder returns the event it is asked for, or raises. -/
theorem buildEvent_eq_ok {eventId aggregateId : String} {occurredAt : Instant} {payload : Payload}
    {event : DomainEvent} :
    buildEvent eventId aggregateId occurredAt payload = .ok event ↔
      event.eventId = eventId ∧ event.aggregateId = aggregateId ∧
        event.occurredAt = occurredAt ∧ event.payload = payload := by
  unfold buildEvent
  constructor
  · intro h
    split at h
    · cases h
      exact ⟨rfl, rfl, rfl, rfl⟩
    · cases h
  · rintro ⟨rfl, rfl, rfl, rfl⟩
    rw [dif_pos event.valid]

theorem buildResearchJobFailed_eq_ok {eventId researchJobId reasonClass : String}
    {failedAt : Instant} {event : DomainEvent}
    (h : buildResearchJobFailed eventId researchJobId failedAt reasonClass = .ok event) :
    event.eventId = eventId ∧ event.aggregateId = researchJobId ∧ event.type = .failed := by
  simp only [buildResearchJobFailed, bind_eq_ok, buildEvent_eq_ok] at h
  obtain ⟨_, -, hid, haggregate, -, hpayload⟩ := h
  exact ⟨hid, haggregate, by rw [DomainEvent.type, hpayload]; rfl⟩

/-! ### The outbox -/

/-- A row of `outbox_events`; `position` is the authoritative publish order. -/
structure OutboxRow where
  event : DomainEvent
  position : ℕ
  createdAt : Instant
  publishedAt : Option Instant := none
  publishClaimToken : Option String := none
  publishLeaseExpiresAt : Option Instant := none
  publishAttempts : ℕ := 0
  lastPublishErrorClass : Option String := none
  traceparent : Option String := none
  deriving DecidableEq

/-- The table `outbox_events` with the identity sequence of its positions. -/
structure Outbox where
  rows : List OutboxRow := []
  nextPosition : ℕ := 1
  deriving DecidableEq

/-- Raised when a typed event cannot be durably inserted. -/
def outboxEnqueueError : Exc := .other "OutboxEnqueueError" false

namespace Outbox

/-- Insert a typed domain event at the next position. -/
def enqueue (outbox : Outbox) (event : DomainEvent) (traceparent : Option String) :
    Except Exc Outbox := do
  ensure (∀ row ∈ outbox.rows, row.event.eventId ≠ event.eventId) outboxEnqueueError
  ensure (sqlNonBlank event.aggregateId ∧ event.aggregateId.length ≤ 128 ∧
    traceparent.all traceparentFormat) outboxEnqueueError
  return {
    rows := outbox.rows ++ [
      { event := event, position := outbox.nextPosition, createdAt := event.occurredAt
        traceparent := traceparent }]
    nextPosition := outbox.nextPosition + 1 }

/-- **Enqueueing adds one row, at the position drawn.** -/
theorem enqueue_eq_ok {outbox outbox' : Outbox} {event : DomainEvent}
    {traceparent : Option String} (h : outbox.enqueue event traceparent = .ok outbox') :
    ∃ row : OutboxRow, row.event = event ∧ row.position = outbox.nextPosition ∧
      outbox'.rows = outbox.rows ++ [row] ∧ outbox'.nextPosition = outbox.nextPosition + 1 := by
  simp only [enqueue, bind_eq_ok, pure_eq_ok] at h
  obtain ⟨_, -, _, -, rfl⟩ := h
  exact ⟨_, rfl, rfl, rfl, rfl⟩

/-- The events of one job, in the order they were enqueued. -/
def eventsOf (outbox : Outbox) (jobId : String) : List OutboxRow :=
  outbox.rows.filter (·.event.aggregateId = jobId)

end Outbox

end Atlas
