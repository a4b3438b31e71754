/-
**The consumer's tables.**

The inbox, the lifecycle projection, the dead letters and their replay attempts, as
`persistence/models/consumer.py` declares them, and the statements `ConsumerRunner` and
`DeadLetterReplayService` make on them.  A transaction reads what is committed when each of its
statements runs and writes when it commits: the inbox row and the projection row are looked up
first, without a lock, and what was seen is carried to the write, which is checked against the
tables as they are by then.  The dead-letter row and the attempt of a replay are locked, so its
decisions are about the rows it writes.

Main definitions:

* `Atlas.DbError`, `Atlas.classifyDatabaseError` — the errors of the database, and which of them
  are retried;
* `Atlas.InboxRow`, `Atlas.ProjectionRow`, `Atlas.DeadLetterRow`, `Atlas.ReplayAttemptRow`,
  `Atlas.ConsumerDb` — the tables;
* `Atlas.lookUpInbox`, `Atlas.lookUpProjection`, `Atlas.recordAndApply` — the inbox and the
  projection;
* `Atlas.upsertDeadLetter` — the write path of the dead letters.
-/

import Atlas.EventCodec
import Atlas.JobRow
import Atlas.Program
import Atlas.Table

set_option relaxedAutoImplicit false
set_option autoImplicit false

namespace Atlas

/-! ### Errors -/

/-- An error of the database driver, as SQLAlchemy wraps it. -/
inductive DbError where
  /-- `IntegrityError`. -/
  | integrity
  /-- Any other `DBAPIError`, with its `connection_invalidated` and its SQLSTATE. -/
  | driver (connectionInvalidated : Bool) (sqlstate : Option String)
  deriving DecidableEq, Repr

/-- The errors of a replay command. -/
inductive ReplayError where
  | notFound
  | conflict
  | notEligible
  | alreadyClaimed
  | expiredAttempt
  | ownershipLost
  deriving DecidableEq, Repr

/-- The exceptions of the consumer and of the replay service. -/
inductive ConsumerExc where
  | database (error : DbError)
  | staleData
  | inboxConflict
  | poison (error : PoisonError)
  | domainEvent
  | uncaught
  | consumer (context : String)
  | transientKafka (context : String)
  | retryExhausted (className : String)
  | processingDeadlineExceeded
  | shutdownRequested
  | deadLetterPersistenceExhausted (className : String)
  | offsetCommitFailedAfterDeadLetter (className : String)
  | replay (error : ReplayError)
  deriving DecidableEq, Repr

/-- `exc.__class__.__name__`. -/
def ConsumerExc.className : ConsumerExc → String
  | database .integrity => "IntegrityError"
  | database (.driver _ _) => "DBAPIError"
  | staleData => "StaleDataError"
  | inboxConflict => "ConsumerInboxConflictError"
  | poison _ => "PoisonEventError"
  | domainEvent => "DomainEventValidationError"
  | uncaught => "ValueError"
  | consumer _ => "ConsumerError"
  | transientKafka _ => "TransientKafkaError"
  | retryExhausted _ => "RetryExhaustedError"
  | processingDeadlineExceeded => "ProcessingDeadlineExceededError"
  | shutdownRequested => "ConsumerShutdownRequestedError"
  | deadLetterPersistenceExhausted _ => "DeadLetterPersistenceExhaustedError"
  | offsetCommitFailedAfterDeadLetter _ => "OffsetCommitFailedAfterDeadLetterError"
  | replay _ => "ReplayError"

/-- `DatabaseErrorClass`. -/
inductive DatabaseErrorClass where
  | transient
  | fatal
  deriving DecidableEq, Repr

/-- SQLSTATE codes approved as transient besides class 08: serialization failure and deadlock. -/
def approvedTransientSqlstates : List String := ["40001", "40P01"]

/-- Classify a database-layer exception; what is unknown is fatal. -/
def classifyDatabaseError : ConsumerExc → DatabaseErrorClass
  | .database (.driver connectionInvalidated sqlstate) =>
      if connectionInvalidated then .transient
      else
        match sqlstate with
        | none => .fatal
        | some code =>
            if code.toList.take 2 = ['0', '8'] ∨ code ∈ approvedTransientSqlstates then .transient
            else .fatal
  | _ => .fatal

/-! ### Tables -/

/-- `ck_consumer_inbox_consumer_id`: the one consumer there is. -/
def allowedConsumerId : String := "atlas.research-job-projection.v1"

/-- A row of `consumer_inbox`; the primary key is the consumer with the event. -/
structure InboxRow where
  eventType : EventType
  receivedAt : Instant
  kafkaPartition : ℕ
  kafkaOffset : ℕ
  deriving DecidableEq

/-- A row of `research_job_event_projection`; the primary key is the job. -/
structure ProjectionRow where
  lastEventId : String
  lastEventType : EventType
  lastEventAt : Instant
  updatedAt : Instant
  deriving DecidableEq

/-- `replay_state` of a dead letter. -/
inductive ReplayState where
  | pending
  | replaying
  | replayFailed
  | replayedApplied
  | replayedDuplicate
  deriving DecidableEq, Repr

/-- A row of `consumer_dead_letters`. -/
structure DeadLetterRow where
  consumerId : String
  kafkaPartition : ℕ
  kafkaOffset : ℕ
  failureCode : String
  processingAttemptCount : ℕ
  deadLetterDeliveryCount : ℕ := 1
  firstFailedAt : Instant
  lastFailedAt : Instant
  retention : DeadLetterRetention
  replayState : ReplayState := .pending
  replayClaimToken : Option String := none
  replayLeaseExpiresAt : Option Instant := none
  createdAt : Instant
  updatedAt : Instant
  deriving DecidableEq

/-- `status` of a replay attempt. -/
inductive ReplayAttemptStatus where
  | inProgress
  | applied
  | duplicate
  | failed
  | lostOwnership
  deriving DecidableEq, Repr

/-- `_TERMINAL_ATTEMPT_STATUSES`: all but one. -/
def ReplayAttemptStatus.Terminal (status : ReplayAttemptStatus) : Prop := status ≠ inProgress

/-- A row of `consumer_dead_letter_replay_attempts`. -/
structure ReplayAttemptRow where
  deadLetterId : String
  idempotencyKey : String
  actorId : String
  operatorReason : String
  requestFingerprint : String
  ownershipToken : String
  status : ReplayAttemptStatus := .inProgress
  createdAt : Instant
  finishedAt : Option Instant := none
  deriving DecidableEq

/-- The tables, each by its primary key. -/
structure ConsumerDb where
  inbox : Table (String × String) InboxRow := ∅
  projection : Table String ProjectionRow := ∅
  deadLetters : Table String DeadLetterRow := ∅
  attempts : Table String ReplayAttemptRow := ∅

/-- `^[0-9a-f]{64}$`. -/
def hexDigestFormat (text : String) : Bool := text.length = 64 && text.toList.all isLowerHex

/-- A column value that has to be null or not with another. -/
def samePresence {α β : Type} (a : Option α) (b : Option β) : Bool := a.isSome = b.isSome

/-- The `CHECK` constraints of `consumer_dead_letters`. -/
def deadLetterChecks : List (CheckConstraint DeadLetterRow) :=
  [{ name := "ck_consumer_dead_letters_consumer_id"
     holds := fun r => r.consumerId = allowedConsumerId },
   { name := "ck_consumer_dead_letters_event_type"
     holds := fun r => r.retention.eventType.all fun s => (EventType.parse s).isSome },
   { name := "ck_consumer_dead_letters_processing_attempt_count_positive"
     holds := fun r => 1 ≤ r.processingAttemptCount },
   { name := "ck_consumer_dead_letters_dead_letter_delivery_count_positive"
     holds := fun r => 1 ≤ r.deadLetterDeliveryCount },
   { name := "ck_consumer_dead_letters_payload_sha256_format"
     holds := fun r => hexDigestFormat r.retention.payloadSha256 },
   { name := "ck_consumer_dead_letters_event_fields_pair"
     holds := fun r => samePresence r.retention.eventId r.retention.eventType &&
       samePresence r.retention.eventId r.retention.eventVersion &&
       samePresence r.retention.eventId r.retention.aggregateType &&
       samePresence r.retention.eventId r.retention.aggregateId },
   { name := "ck_consumer_dead_letters_replay_eligible_tier"
     holds := fun r => r.retention.retainedCanonicalValue.isSome = r.retention.replayEligible &&
       r.retention.retainedHeaderEventType.isSome = r.retention.replayEligible &&
       r.retention.retainedHeaderEventVersion.isSome = r.retention.replayEligible &&
       r.retention.retainedHeaderAggregateType.isSome = r.retention.replayEligible &&
       (!r.retention.replayEligible || r.retention.eventId.isSome) },
   { name := "ck_consumer_dead_letters_retained_value_bound"
     holds := fun r => r.retention.retainedCanonicalValue.all (·.utf8ByteSize ≤ 32768) },
   { name := "ck_consumer_dead_letters_replay_claim_pair"
     holds := fun r => samePresence r.replayClaimToken r.replayLeaseExpiresAt },
   { name := "ck_consumer_dead_letters_replay_state_claim_consistency"
     holds := fun r => (r.replayState = .replaying) = r.replayClaimToken.isSome },
   { name := "ck_consumer_dead_letters_replay_claim_token_format"
     holds := fun r => r.replayClaimToken.all hexDigestFormat },
   { name := "ck_consumer_dead_letters_failed_at_order"
     holds := fun r => r.firstFailedAt ≤ r.lastFailedAt },
   { name := "ck_consumer_dead_letters_created_updated_order"
     holds := fun r => r.createdAt ≤ r.updatedAt }]

/-- The `CHECK` constraints of `consumer_dead_letter_replay_attempts`. -/
def replayAttemptChecks : List (CheckConstraint ReplayAttemptRow) :=
  [{ name := "ck_consumer_dead_letter_replay_attempts_status_finished_pair"
     holds := fun r => (r.status = .inProgress) = r.finishedAt.isNone },
   { name := "ck_consumer_dead_letter_replay_attempts_actor_id_nonempty"
     holds := fun r => sqlNonBlank r.actorId },
   { name := "ck_consumer_dead_letter_replay_attempts_operator_reason_bound"
     holds := fun r => sqlNonBlank r.operatorReason && r.operatorReason.length ≤ 512 },
   { name := "ck_consumer_dead_letter_replay_attempts_idempotency_key_bound"
     holds := fun r => sqlNonBlank r.idempotencyKey && r.idempotencyKey.length ≤ 256 },
   { name := "ck_consumer_dead_letter_replay_attempts_fingerprint_format"
     holds := fun r => hexDigestFormat r.requestFingerprint },
   { name := "ck_consumer_dead_letter_replay_attempts_token_format"
     holds := fun r => hexDigestFormat r.ownershipToken },
   { name := "ck_consumer_dead_letter_replay_attempts_created_finished_order"
     holds := fun r => r.finishedAt.all fun finishedAt => decide (r.createdAt ≤ finishedAt) }]

/-! ### Transactions -/

/-- What a poll finds: nothing in time, an error of the broker that is recoverable or not, or the
next record of a partition, whose position the client library gives or not. -/
inductive PollAnswer where
  | nothing
  | brokerError (recoverable : Bool)
  | record (kafkaPartition : ℕ) (givesPartition givesOffset : Bool)
  deriving DecidableEq

/-- What an act meets: the clock, the values drawn, and how the database and the broker answer. -/
structure ConsumerEnv where
  now : Instant
  uuid : String
  tokenHex : String
  polled : PollAnswer := .nothing
  /-- The transaction is rolled back with this error. -/
  rolledBack : Option DbError := none
  /-- The transaction commits, and its answer is lost with this error. -/
  unacknowledged : Option DbError := none
  /-- The broker refuses an offset, with an error that is recoverable or not. -/
  commitRefused : Option Bool := none
  /-- The broker keeps the offset all the same. -/
  commitKept : Bool := false
  shutdown : Bool := false

/-- A transaction of the consumer or of the replay service. -/
abbrev ConsumerTx (α : Type) := Tx ConsumerEnv ConsumerDb ConsumerExc α

namespace ConsumerTx

/-- Raise unless the condition holds. -/
def ensure (p : Prop) [Decidable p] (x : ConsumerExc) : ConsumerTx Unit :=
  if p then pure () else Tx.throw x

end ConsumerTx

open ConsumerTx

/-- SQLSTATE 22021: the database holds no text with the character zero. -/
def untranslatable : ConsumerExc := .database (.driver false (some "22021"))

/-- SQLSTATE 22001: a text longer than its column. -/
def rightTruncation : ConsumerExc := .database (.driver false (some "22001"))

/-! ### Inbox and projection -/

/-- What the lookups of a delivery have seen: that the event is in the inbox, or the projection row of
its job. -/
inductive EventView where
  | duplicate
  | fresh (existing : Option ProjectionRow)
  deriving DecidableEq

/-- The `SELECT` of `record_and_apply`: whether the event is in the inbox. -/
def lookUpInbox (consumerId : String) (event : DomainEvent) : ConsumerTx Bool :=
  Tx.read fun db => (db.inbox.lookup (consumerId, event.eventId)).isSome

/-- The `SELECT` of `apply`: the projection row of the job. -/
def lookUpProjection (event : DomainEvent) : ConsumerTx (Option ProjectionRow) := do
  ensure (storable event.aggregateId = true) untranslatable
  Tx.read fun db => db.projection.lookup event.aggregateId

/-- The projection row an event writes. -/
def projectionOf (event : DomainEvent) (at_ : Instant) : ProjectionRow where
  lastEventId := event.eventId
  lastEventType := event.type
  lastEventAt := event.occurredAt
  updatedAt := at_

/-- A column as an `UPDATE` leaves it: only the columns that differ from what was seen are set. -/
def setColumn {α : Type} [DecidableEq α] (seen new current : α) : α :=
  if new = seen then current else new

/-- The row after an `UPDATE` to `new` of a row that was seen as `seen`. -/
def ProjectionRow.set (seen new current : ProjectionRow) : ProjectionRow where
  lastEventId := setColumn seen.lastEventId new.lastEventId current.lastEventId
  lastEventType := setColumn seen.lastEventType new.lastEventType current.lastEventType
  lastEventAt := setColumn seen.lastEventAt new.lastEventAt current.lastEventAt
  updatedAt := setColumn seen.updatedAt new.updatedAt current.updatedAt

/-- `SqlAlchemyResearchJobProjectionRepository.apply`, for the row its `SELECT` has seen. -/
def applyProjection (existing : Option ProjectionRow) (event : DomainEvent) (at_ : Instant) :
    ConsumerTx Unit :=
  match existing with
  | none => do
      ensure (event.aggregateId.length ≤ 128) rightTruncation
      let current ← Tx.read fun db => db.projection.lookup event.aggregateId
      ensure (current = none) (.database .integrity)
      Tx.modify fun db => { db with
        projection := db.projection.insert event.aggregateId (projectionOf event at_) }
  | some seen => do
      ensure (¬ seen.lastEventType.Terminal) (.poison .lifecycleOrderViolation)
      let current ← Tx.read fun db => db.projection.lookup event.aggregateId
      match current with
      | none => Tx.throw .staleData
      | some row => Tx.modify fun db => { db with
          projection := db.projection.insert event.aggregateId
            (seen.set (projectionOf event at_) row) }

/-- `InboxOutcome`. -/
inductive InboxOutcome where
  | applied
  | duplicate
  deriving DecidableEq, Repr

/-- `SqlAlchemyInboxRepository.record_and_apply`, after its lookups. -/
def recordAndApply (view : EventView) (consumerId : String) (event : DomainEvent)
    (kafkaPartition kafkaOffset : ℕ) (at_ : Instant) : ConsumerTx InboxOutcome :=
  match view with
  | .duplicate => return .duplicate
  | .fresh existing => do
      applyProjection existing event at_
      let current ← Tx.read fun db => db.inbox.lookup (consumerId, event.eventId)
      ensure (current = none ∧ consumerId = allowedConsumerId) .inboxConflict
      Tx.modify fun db => { db with
        inbox := db.inbox.insert (consumerId, event.eventId)
          { eventType := event.type, receivedAt := at_, kafkaPartition := kafkaPartition
            kafkaOffset := kafkaOffset } }
      return .applied

/-! ### Dead letters -/

/-- The row, and that the row is at the position. -/
def DeadLetterRow.isAt (consumerId : String) (kafkaPartition kafkaOffset : ℕ)
    (row : DeadLetterRow) : Bool :=
  row.consumerId = consumerId && row.kafkaPartition = kafkaPartition &&
    row.kafkaOffset = kafkaOffset

/-- The dead letter of a position, with its id. -/
def ConsumerDb.deadLetterAt (db : ConsumerDb) (consumerId : String)
    (kafkaPartition kafkaOffset : ℕ) : Option (Sigma fun _ : String => DeadLetterRow) :=
  db.deadLetters.entries.find? fun entry => entry.2.isAt consumerId kafkaPartition kafkaOffset

/-- Write the row of a dead letter, if it meets the constraints. -/
def writeDeadLetter (id : String) (row : DeadLetterRow) : ConsumerTx Unit := do
  ensure (CheckConstraint.AllHold deadLetterChecks row) (.database .integrity)
  Tx.modify fun db => { db with deadLetters := db.deadLetters.insert id row }

/-- The row the first dead-lettering of a record inserts. -/
def newDeadLetter (consumerId : String) (kafkaPartition kafkaOffset : ℕ) (failureCode : String)
    (processingAttemptCount : ℕ) (at_ : Instant) (retention : DeadLetterRetention) :
    DeadLetterRow where
  consumerId := consumerId
  kafkaPartition := kafkaPartition
  kafkaOffset := kafkaOffset
  failureCode := failureCode
  processingAttemptCount := processingAttemptCount
  firstFailedAt := at_
  lastFailedAt := at_
  retention := retention
  createdAt := at_
  updatedAt := at_

/-- `ON CONFLICT DO UPDATE`: one more delivery of a record that is dead-lettered already. -/
def DeadLetterRow.delivered (row : DeadLetterRow) (at_ : Instant) : DeadLetterRow :=
  { row with deadLetterDeliveryCount := row.deadLetterDeliveryCount + 1, lastFailedAt := at_
             updatedAt := at_ }

/-- `SqlAlchemyDeadLetterRepository.upsert`.  The row to insert is checked before the conflict is
found; of a row there is already only the count of its deliveries and two timestamps change. -/
def upsertDeadLetter (consumerId : String) (kafkaPartition kafkaOffset : ℕ) (failureCode : String)
    (processingAttemptCount : ℕ) (at_ : Instant) (retention : DeadLetterRetention) :
    ConsumerTx String := do
  let newId ← Tx.reading fun e => e.uuid
  let row := newDeadLetter consumerId kafkaPartition kafkaOffset failureCode processingAttemptCount
    at_ retention
  ensure (retention.aggregateId.all storable = true) untranslatable
  ensure (retention.aggregateId.all (·.length ≤ 128) = true) rightTruncation
  ensure (CheckConstraint.AllHold deadLetterChecks row) (.database .integrity)
  let existing ← Tx.read fun db => db.deadLetterAt consumerId kafkaPartition kafkaOffset
  match existing with
  | some ⟨id, old⟩ => do
      writeDeadLetter id (old.delivered at_)
      return id
  | none => do
      let taken ← Tx.read fun db => db.deadLetters.lookup newId
      ensure (taken = none) (.database .integrity)
      writeDeadLetter newId row
      return newId

end Atlas
