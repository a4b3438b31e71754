/-
**The consumer and the replay command.**

`ConsumerRunner.run_once` of `consumer/runner.py` and `DeadLetterReplayService.replay`, as programs
on the consumer's tables and the offsets of its group.  A session either commits or is rolled back;
the database may roll it back with an error of its own, and it may commit and the answer get lost.
The broker may refuse an offset, and it may keep an offset it has refused.  The three retry loops of
the runner are one, and it recurses on the attempts that are left.

A history beside the tables says which events were decided on, in this order: an entry is added by
the act that commits the effect of an event, or that rejects the event because its job has ended.

Main definitions:

* `Atlas.ConsumerWorld`, `Atlas.Decision` — the state, and the entries of its history;
* `Atlas.session` — `session_scope` as one act;
* `Atlas.RunnerOps`, `Atlas.retrying` — what a runner works with, and its bounded retries;
* `Atlas.applyWithRetry`, `Atlas.commitWithRetry`, `Atlas.deadLetterAndCommit`, `Atlas.runOnce` —
  the runner, on any operations;
* `Atlas.lookUpEvent` — the lookups of an event, statement by statement;
* `Atlas.storeOps`, `Atlas.pollLoop` — its operations on the tables, and the loop around it;
* `Atlas.replayProgram` — the replay command.
-/

import Atlas.ReplayService
import Atlas.RetryTiming

set_option relaxedAutoImplicit false
set_option autoImplicit false

namespace Atlas

/-! ### State -/

/-- An event the consumer has decided on: its effect was committed, or it was rejected. -/
structure Decision where
  consumerId : String
  event : DomainEvent
  at_ : Instant
  applied : Bool
  deriving DecidableEq

/-- The tables, the next offset of the group for each partition, and the decisions so far. -/
structure ConsumerWorld where
  db : ConsumerDb := {}
  committed : ℕ → ℕ := fun _ => 0
  history : List Decision := []

/-- A program of the consumer or of an operator. -/
abbrev ConsumerProgram (α : Type) := Program ConsumerEnv ConsumerWorld ConsumerExc α

/-- How a transaction ends: it decides on an event or not. -/
abbrev Judge (α : Type) := ConsumerEnv → ConsumerDb → Except ConsumerExc α → Option Decision

/-- The state after a transaction. -/
def sessionUpdate {α : Type} (judge : Judge α) (t : ConsumerTx α) (e : ConsumerEnv)
    (w : ConsumerWorld) : ConsumerWorld :=
  if e.rolledBack.isSome then w
  else { w with
    db := t.commit e w.db
    history := w.history ++ (judge e w.db ((t e w.db).map Prod.fst)).toList }

/-- What the caller of a transaction sees. -/
def sessionAnswer {α : Type} (t : ConsumerTx α) (e : ConsumerEnv) (w : ConsumerWorld) :
    Except ConsumerExc α :=
  match e.rolledBack with
  | some error => .error (.database error)
  | none =>
      match (t e w.db).map Prod.fst, e.unacknowledged with
      | .ok _, some error => .error (.database error)
      | answer, _ => answer

/-- A transaction under `session_scope`: it commits at the end, and an exception rolls it back. -/
def session {α : Type} (judge : Judge α) (t : ConsumerTx α) : ConsumerProgram α :=
  .act (sessionUpdate judge t) fun e w => .lift (sessionAnswer t e w)

/-- A transaction that decides on no event. -/
def quietly {α : Type} : Judge α := fun _ _ _ => none

/-- A delivery decides on its event when it is applied or rejected. -/
def judgeDelivery (consumerId : String) (event : DomainEvent) (at_ : Instant) :
    Judge InboxOutcome := fun _ _ answer =>
  match answer with
  | .ok .applied => some ⟨consumerId, event, at_, true⟩
  | .error (.poison .lifecycleOrderViolation) => some ⟨consumerId, event, at_, false⟩
  | _ => none

/-- Commit the offset of one record; the group goes on after it. -/
def commitMessage (kafkaPartition kafkaOffset : ℕ) : ConsumerProgram Unit :=
  .act
    (fun e w =>
      if e.commitRefused.isNone || e.commitKept then
        { w with committed := Function.update w.committed kafkaPartition (kafkaOffset + 1) }
      else w)
    fun e _ =>
      match e.commitRefused with
      | none => .ret ()
      | some true => .raise (.transientKafka "CommitFailed")
      | some false => .raise (.consumer "CommitFailed")

/-! ### Timing -/

/-- The instant in seconds. -/
def Instant.seconds (t : Instant) : ℚ := (t : ℚ) / 1000000

/-- What a `ConsumerRunner` is built with. -/
structure ConsumerConfig where
  consumerId : String
  pydantic : Pydantic
  /-- How deep the interpreter follows nested JSON. -/
  recursionLimit : ℕ
  sha256 : ByteArray → String
  timing : RetryTimingParameters
  maxPollIntervalSeconds : ℚ

namespace ConsumerConfig

variable (cfg : ConsumerConfig)

/-- `ProcessingDeadline.deadline_at`, in seconds. -/
def deadlineAt (receivedAt : ℚ) : ℚ :=
  receivedAt + (cfg.maxPollIntervalSeconds - cfg.timing.safetyMarginSeconds)

/-- The whole attempt bound fits before the deadline. -/
def canStartAttempt (deadlineAt now : ℚ) : Prop :=
  now + cfg.timing.worstCaseAttemptSeconds ≤ deadlineAt

/-- The backoff and another attempt bound fit before the deadline. -/
def canAffordBackoff (deadlineAt now backoffSeconds : ℚ) : Prop :=
  now + (backoffSeconds + cfg.timing.worstCaseAttemptSeconds) ≤ deadlineAt

instance (deadlineAt now : ℚ) : Decidable (cfg.canStartAttempt deadlineAt now) :=
  inferInstanceAs (Decidable (_ ≤ _))

instance (deadlineAt now backoffSeconds : ℚ) :
    Decidable (cfg.canAffordBackoff deadlineAt now backoffSeconds) :=
  inferInstanceAs (Decidable (_ ≤ _))

end ConsumerConfig

/-! ### The runner -/

/-- What a runner works with: its clock, its waiter, which says whether a shutdown was requested, and
what it attempts — to apply an event, to dead-letter a record and to commit an offset. -/
structure RunnerOps (ε σ τ : Type) where
  seconds : τ → ℚ
  clock : Program ε σ ConsumerExc τ
  wait : ℚ → Program ε σ ConsumerExc Bool
  recordAndApply : (event : DomainEvent) → (kafkaPartition kafkaOffset : ℕ) → (at_ : τ) →
    Program ε σ ConsumerExc InboxOutcome
  upsert : (kafkaPartition kafkaOffset : ℕ) → (failureCode : String) →
    (processingAttemptCount : ℕ) → (at_ : τ) → (retention : DeadLetterRetention) →
    Program ε σ ConsumerExc String
  commitMessage : (kafkaPartition kafkaOffset : ℕ) → Program ε σ ConsumerExc Unit

/-- `ProcessOutcome`. -/
inductive ProcessOutcome where
  | noMessage
  | applied
  | duplicate
  | deadLettered
  deriving DecidableEq, Repr

/-- What `poll` returns: nothing, an error that is recoverable or not, or a record, whose position
the client library may leave out. -/
inductive Polled where
  | nothing
  | brokerError (recoverable : Bool)
  | record (kafkaPartition kafkaOffset : Option ℕ) (message : KafkaMessage)

/-- `classify_database_error(exc) is TRANSIENT`. -/
def isTransientDatabaseError (x : ConsumerExc) : Bool :=
  classifyDatabaseError x = .transient

/-- `except TransientKafkaError`. -/
def isTransientKafkaError : ConsumerExc → Bool
  | .transientKafka _ => true
  | _ => false

section Runner

variable {ε σ τ : Type} (ops : RunnerOps ε σ τ) (cfg : ConsumerConfig)

/-- Wait before the next attempt, unless the deadline or a shutdown forbids it. -/
def backOff (deadlineAt : ℚ) (attemptIndex : ℕ) : Program ε σ ConsumerExc Unit := do
  let backoff := cfg.timing.backoffDelaySeconds (attemptIndex - 1)
  let now ← ops.clock
  if cfg.canAffordBackoff deadlineAt (ops.seconds now) backoff then do
    let shutdown ← ops.wait backoff
    if shutdown then throw .shutdownRequested else return
  else throw .processingDeadlineExceeded

/-- The bounded retries of an attempt: what is transient is tried again while attempts are left,
and the rest is raised as `permanent` and `exhausted` say. -/
def retrying {α : Type} (deadlineAt : ℚ) (transient : ConsumerExc → Bool)
    (permanent exhausted : ConsumerExc → ConsumerExc)
    (attempt : ℕ → Program ε σ ConsumerExc α) : ℕ → ℕ → Program ε σ ConsumerExc α
  | remaining, attemptIndex => do
      let now ← ops.clock
      if cfg.canStartAttempt deadlineAt (ops.seconds now) then do
        match ← (attempt attemptIndex).attempt with
        | .ok a => return a
        | .error x =>
            if transient x = false then throw (permanent x)
            else
              match remaining with
              | 0 => throw (exhausted x)
              | remaining + 1 => do
                  backOff ops cfg deadlineAt attemptIndex
                  retrying deadlineAt transient permanent exhausted attempt remaining
                    (attemptIndex + 1)
      else throw .processingDeadlineExceeded

/-- One attempt to apply an event.  A poison classification ends the attempts with the number of
this one. -/
def applyOnce (event : DomainEvent) (kafkaPartition kafkaOffset : ℕ) (at_ : τ)
    (attemptIndex : ℕ) : Program ε σ ConsumerExc (InboxOutcome ⊕ (PoisonError × ℕ)) := do
  match ← (ops.recordAndApply event kafkaPartition kafkaOffset at_).attempt with
  | .ok outcome => return .inl outcome
  | .error (.poison error) => return .inr (error, attemptIndex)
  | .error x => throw x

/-- The apply loop of `_apply_with_retry`. -/
def applyWithRetry (event : DomainEvent) (kafkaPartition kafkaOffset : ℕ) (at_ : τ)
    (deadlineAt : ℚ) : Program ε σ ConsumerExc (InboxOutcome ⊕ (PoisonError × ℕ)) :=
  retrying ops cfg deadlineAt isTransientDatabaseError id (fun x => .retryExhausted x.className)
    (applyOnce ops event kafkaPartition kafkaOffset at_) (cfg.timing.maxAttempts - 1) 1

/-- `_commit_with_retry`. -/
def commitWithRetry (kafkaPartition kafkaOffset : ℕ) (deadlineAt : ℚ) :
    Program ε σ ConsumerExc Unit :=
  retrying ops cfg deadlineAt isTransientKafkaError id id
    (fun _ => ops.commitMessage kafkaPartition kafkaOffset) (cfg.timing.maxAttempts - 1) 1

/-- `_dead_letter_and_commit`: the event is retained only for an order violation. -/
def deadLetterAndCommit (error : PoisonError) (message : KafkaMessage) (event : Option DomainEvent)
    (kafkaPartition kafkaOffset : ℕ) (at_ : τ) (processingAttemptCount : ℕ)
    (deadlineAt : ℚ) : Program ε σ ConsumerExc ProcessOutcome := do
  let decoded := if error = .lifecycleOrderViolation then event else none
  let retention := buildRetention cfg.pydantic cfg.sha256 message.value decoded
  let _ ← retrying ops cfg deadlineAt isTransientDatabaseError
    (fun x => .deadLetterPersistenceExhausted x.className)
    (fun x => .deadLetterPersistenceExhausted x.className)
    (fun _ => ops.upsert kafkaPartition kafkaOffset error.failureCode processingAttemptCount at_
      retention)
    (cfg.timing.maxAttempts - 1) 1
  match ← (commitWithRetry ops cfg kafkaPartition kafkaOffset deadlineAt).attempt with
  | .ok _ => return .deadLettered
  | .error .shutdownRequested => throw .shutdownRequested
  | .error .processingDeadlineExceeded => throw .processingDeadlineExceeded
  | .error x => throw (.offsetCommitFailedAfterDeadLetter x.className)

/-- A decoded record: its event is applied, or it is dead-lettered. -/
def processDecoded (message : KafkaMessage) (event : DomainEvent) (kafkaPartition kafkaOffset : ℕ)
    (at_ : τ) : Program ε σ ConsumerExc ProcessOutcome := do
  let deadlineAt := cfg.deadlineAt (ops.seconds at_)
  match ← applyWithRetry ops cfg event kafkaPartition kafkaOffset at_ deadlineAt with
  | .inr (error, attemptIndex) =>
      deadLetterAndCommit ops cfg error message (some event) kafkaPartition kafkaOffset at_
        attemptIndex deadlineAt
  | .inl outcome => do
      commitWithRetry ops cfg kafkaPartition kafkaOffset deadlineAt
      return if outcome = .applied then .applied else .duplicate

/-- One record, from its decoding on. -/
def processRecord (message : KafkaMessage) (kafkaPartition kafkaOffset : ℕ) :
    Program ε σ ConsumerExc ProcessOutcome := do
  let at_ ← ops.clock
  match decodeMessage cfg.pydantic cfg.recursionLimit message with
  | .ok (event, _) => processDecoded ops cfg message event kafkaPartition kafkaOffset at_
  | .error (.poison error) =>
      deadLetterAndCommit ops cfg error message none kafkaPartition kafkaOffset at_ 1
        (cfg.deadlineAt (ops.seconds at_))
  | .error .uncaught => throw .uncaught

/-- `run_once`, on what `poll` returns. -/
def runOnce : Polled → Program ε σ ConsumerExc ProcessOutcome
  | .nothing => return .noMessage
  | .brokerError true => throw (.transientKafka "PollReturnedBrokerError")
  | .brokerError false => throw (.consumer "PollReturnedBrokerError")
  | .record none _ _ => throw (.consumer "MissingPartition")
  | .record (some _) none _ => throw (.consumer "MissingOffset")
  | .record (some kafkaPartition) (some kafkaOffset) message =>
      processRecord ops cfg message kafkaPartition kafkaOffset

end Runner

/-! ### The poll loop -/

/-- The lookups of an event: two `SELECT`s, each of which sees what is committed when it runs.  The
projection is read only for an event that was not in the inbox. -/
def lookUpEvent (consumerId : String) (event : DomainEvent) : ConsumerProgram EventView := do
  let recorded ← session quietly (lookUpInbox consumerId event)
  if recorded then return .duplicate
  else do
    let existing ← session quietly (lookUpProjection event)
    return .fresh existing

/-- The runner on the consumer's tables and the broker. -/
def storeOps (consumerId : String) : RunnerOps ConsumerEnv ConsumerWorld Instant where
  seconds := Instant.seconds
  clock := Program.reading fun e => e.now
  wait _ := Program.reading fun e => e.shutdown
  recordAndApply event kafkaPartition kafkaOffset at_ := do
    let view ← lookUpEvent consumerId event
    session (judgeDelivery consumerId event at_)
      (recordAndApply view consumerId event kafkaPartition kafkaOffset at_)
  upsert kafkaPartition kafkaOffset failureCode processingAttemptCount at_ retention :=
    session quietly (upsertDeadLetter consumerId kafkaPartition kafkaOffset failureCode
      processingAttemptCount at_ retention)
  commitMessage := commitMessage

section PollLoop

variable (cfg : ConsumerConfig)

/-- The runner of a configuration. -/
abbrev ConsumerConfig.ops : RunnerOps ConsumerEnv ConsumerWorld Instant := storeOps cfg.consumerId

/-- What `poll` returns for what it finds, and how the position in each partition goes on. -/
def PollAnswer.fetch (log : ℕ → ℕ → KafkaMessage) (position : ℕ → ℕ) :
    PollAnswer → Polled × (ℕ → ℕ)
  | nothing => (.nothing, position)
  | brokerError recoverable => (.brokerError recoverable, position)
  | record kafkaPartition givesPartition givesOffset =>
      (.record (if givesPartition then some kafkaPartition else none)
          (if givesOffset then some (position kafkaPartition) else none)
          (log kafkaPartition (position kafkaPartition)),
        Function.update position kafkaPartition (position kafkaPartition + 1))

/-- `_run_poll_loop`, for a number of polls: after an error of the broker it goes on where it is, and
every other error ends the process. -/
def pollLoop (log : ℕ → ℕ → KafkaMessage) : ℕ → (ℕ → ℕ) → ConsumerProgram Unit
  | 0, _ => return
  | polls + 1, position => do
      let shutdown ← Program.reading fun e => e.shutdown
      if shutdown then return
      else do
        let answer ← Program.reading fun e => e.polled
        match ← (runOnce cfg.ops cfg (answer.fetch log position).1).attempt with
        | .ok _ => pollLoop log polls (answer.fetch log position).2
        | .error (.transientKafka _) => do
            let shutdown ← Program.reading fun e => e.shutdown
            if shutdown then return else pollLoop log polls (answer.fetch log position).2
        | .error .shutdownRequested => return
        | .error x => throw x

end PollLoop

/-! ### The replay command -/

section Replay

variable (cfg : ConsumerConfig)

/-- A replay decides on the event its dead letter retains when it is applied or rejected. -/
def judgeReplay (claim : ReplayClaim) : Judge (Option ReplayAttemptStatus) := fun e db answer =>
  (db.deadLetters.lookup claim.deadLetterId).bind fun row =>
    match retainedEvent cfg.pydantic cfg.recursionLimit row, answer with
    | .ok event, .ok (some .applied) => some ⟨row.consumerId, event, e.now, true⟩
    | .ok event, .error (.poison .lifecycleOrderViolation) =>
        some ⟨row.consumerId, event, e.now, false⟩
    | _, _ => none

/-- The lookups of the event a dead letter retains. -/
def lookUpRetained (deadLetterId : String) : ConsumerProgram (Option EventView) := do
  match ← session quietly (readRetained cfg.pydantic cfg.recursionLimit deadLetterId) with
  | none => return none
  | some (consumerId, event) => do
      let view ← lookUpEvent consumerId event
      return some view

/-- `_record_failure`. -/
def recordFailureProgram (claim : ReplayClaim) : ConsumerProgram ReplayResult := do
  let recorded ← session quietly (recordFailure claim)
  if recorded then return ⟨claim.deadLetterId, claim.attemptId, .failed⟩
  else throw (.replay .ownershipLost)

/-- `_apply`: an expected failure is recorded, everything else is raised. -/
def applyReplayProgram (claim : ReplayClaim) : ConsumerProgram ReplayResult := do
  let answer ← Program.attempt do
    let view ← lookUpRetained cfg claim.deadLetterId
    session (judgeReplay cfg claim) (applyReplay cfg.pydantic cfg.recursionLimit claim view)
  match answer with
  | .ok (some status) => return ⟨claim.deadLetterId, claim.attemptId, status.outcome⟩
  | .ok none => throw (.replay .ownershipLost)
  | .error x => if x.ExpectedApplyFailure then recordFailureProgram claim else throw x

/-- `replay`: claim, apply, and record a failure.  What the claim found is raised or returned after
its transaction has committed (`_finish_claim`). -/
def replayProgram (leaseSeconds : ℤ) (request : ReplayRequest) : ConsumerProgram ReplayResult := do
  match ← session quietly (claimReplay leaseSeconds request) with
  | .notFound => throw (.replay .notFound)
  | .conflict => throw (.replay .conflict)
  | .notEligible => throw (.replay .notEligible)
  | .alreadyClaimed => throw (.replay .alreadyClaimed)
  | .expiredSameKey => throw (.replay .expiredAttempt)
  | .terminal attemptId status => return ⟨request.deadLetterId, attemptId, status.outcome⟩
  | .inProgress attemptId => return ⟨request.deadLetterId, attemptId, .inProgress⟩
  | .claimed claim => applyReplayProgram cfg claim

end Replay

end Atlas
