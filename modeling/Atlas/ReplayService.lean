/-
**The replay of dead letters.**

`DeadLetterReplayService` of `persistence/repositories/consumer_dead_letter.py`: an operator claims
a dead letter under a fresh token and a lease, applies its retained event while the claim holds, and
records an expected failure in a transaction of its own.  The row of the dead letter is locked in
all three, and the attempt of the claim in the last two, so each of them decides about rows nobody
else changes; the clock is read after the locks are held.  The lookups of the event are not locked
and come first.

Main definitions:

* `Atlas.ReplayRequest`, `Atlas.ReplayClaim`, `Atlas.ClaimOutcome` — requests, claims, and what the
  claiming transaction finds;
* `Atlas.claimReplay` — TX1;
* `Atlas.applyReplay` — TX2;
* `Atlas.recordFailure` — TX3.
-/

import Atlas.ConsumerStore

set_option relaxedAutoImplicit false
set_option autoImplicit false

namespace Atlas

open ConsumerTx
open Python (Json)

/-- The arguments of `replay`. -/
structure ReplayRequest where
  deadLetterId : String
  idempotencyKey : String
  actorId : String
  operatorReason : String
  requestFingerprint : String
  deriving DecidableEq

/-- A claim that was granted. -/
structure ReplayClaim where
  deadLetterId : String
  attemptId : String
  ownershipToken : String
  deriving DecidableEq

/-- `ReplayOutcome`. -/
inductive ReplayOutcome where
  | inProgress
  | applied
  | duplicate
  | failed
  | lostOwnership
  deriving DecidableEq, Repr

/-- `ReplayOutcome(status.lower())`. -/
def ReplayAttemptStatus.outcome : ReplayAttemptStatus → ReplayOutcome
  | inProgress => .inProgress
  | applied => .applied
  | duplicate => .duplicate
  | failed => .failed
  | lostOwnership => .lostOwnership

/-- `ReplayResult`. -/
structure ReplayResult where
  deadLetterId : String
  attemptId : String
  outcome : ReplayOutcome
  deriving DecidableEq

/-- `result["kind"]` of the claiming transaction, with the keys set beside it. -/
inductive ClaimOutcome where
  | notFound
  | conflict
  | terminal (attemptId : String) (status : ReplayAttemptStatus)
  | inProgress (attemptId : String)
  | expiredSameKey
  | alreadyClaimed
  | notEligible
  | claimed (claim : ReplayClaim)
  deriving DecidableEq

/-! ### Rows -/

/-- The attempt of a dead letter under an idempotency key, with its id. -/
def ConsumerDb.attemptOf (db : ConsumerDb) (deadLetterId idempotencyKey : String) :
    Option (Sigma fun _ : String => ReplayAttemptRow) :=
  db.attempts.entries.find? fun entry =>
    entry.2.deadLetterId = deadLetterId && entry.2.idempotencyKey = idempotencyKey

/-- Write the rows of the attempts, if all of them meet the constraints. -/
def writeAttempts (f : Table String ReplayAttemptRow → Table String ReplayAttemptRow) :
    ConsumerTx Unit := do
  let attempts ← Tx.read fun db => f db.attempts
  ensure (∀ entry ∈ attempts.entries, CheckConstraint.AllHold replayAttemptChecks entry.2)
    (.database .integrity)
  Tx.modify fun db => { db with attempts := attempts }

/-- The attempt with another status, finished. -/
def ReplayAttemptRow.finish (row : ReplayAttemptRow) (status : ReplayAttemptStatus)
    (now : Instant) : ReplayAttemptRow :=
  { row with status := status, finishedAt := some now }

/-- Finish one attempt. -/
def finishAttempt (id : String) (row : ReplayAttemptRow) (status : ReplayAttemptStatus)
    (now : Instant) : ConsumerTx Unit :=
  writeAttempts fun attempts => attempts.insert id (row.finish status now)

/-- `row.replay_state == "REPLAYING"` with a lease that has run out. -/
def DeadLetterRow.leaseExpired (row : DeadLetterRow) (now : Instant) : Bool :=
  row.replayState = .replaying && row.replayClaimToken.isSome &&
    row.replayLeaseExpiresAt.any fun lease => decide (lease < now)

/-- `eligible` of the claiming transaction. -/
def DeadLetterRow.eligible (row : DeadLetterRow) (now : Instant) : Bool :=
  row.retention.replayEligible &&
    (row.replayState = .pending || row.replayState = .replayFailed || row.leaseExpired now)

/-- The row and the attempt are the claim's, and its lease has not run out. -/
def ReplayClaim.owns (claim : ReplayClaim) (row : DeadLetterRow) (attempt : ReplayAttemptRow)
    (now : Instant) : Bool :=
  row.replayState = .replaying && row.replayClaimToken = some claim.ownershipToken &&
    row.replayLeaseExpiresAt.any (fun lease => decide (now ≤ lease)) &&
    attempt.status = .inProgress

/-- The row without its claim. -/
def DeadLetterRow.settled (row : DeadLetterRow) (state : ReplayState) (now : Instant) :
    DeadLetterRow :=
  { row with replayState := state, replayClaimToken := none, replayLeaseExpiresAt := none
             updatedAt := now }

/-! ### TX1 -/

/-- The attempts under the token of a former claim have lost it. -/
def loseClaim (deadLetterId : String) (token : Option String) (now : Instant) :
    Table String ReplayAttemptRow → Table String ReplayAttemptRow :=
  Table.mapRows fun _ attempt =>
    if attempt.deadLetterId = deadLetterId ∧ some attempt.ownershipToken = token ∧
        attempt.status = .inProgress then attempt.finish .lostOwnership now
    else attempt

/-- The attempts of a former claim, if there is one, have lost it. -/
def loseFormerClaim (deadLetterId : String) (token : Option String) (now : Instant) :
    ConsumerTx Unit :=
  match token with
  | none => return
  | some _ => writeAttempts (loseClaim deadLetterId token now)

/-- The attempt of a claim, under its token. -/
def ReplayRequest.attempt (request : ReplayRequest) (token : String) (now : Instant) :
    ReplayAttemptRow where
  deadLetterId := request.deadLetterId
  idempotencyKey := request.idempotencyKey
  actorId := request.actorId
  operatorReason := request.operatorReason
  requestFingerprint := request.requestFingerprint
  ownershipToken := token
  createdAt := now

/-- The row under the claim of a token. -/
def DeadLetterRow.claimedBy (row : DeadLetterRow) (token : String) (leaseSeconds : ℤ)
    (now : Instant) : DeadLetterRow :=
  { row with replayClaimToken := some token, replayLeaseExpiresAt := some (now + leaseSeconds)
             replayState := .replaying, updatedAt := now }

/-- The claim of an eligible row under a new key. -/
def takeClaim (leaseSeconds : ℤ) (request : ReplayRequest) (row : DeadLetterRow) (now : Instant) :
    ConsumerTx ClaimOutcome := do
  loseFormerClaim request.deadLetterId row.replayClaimToken now
  let newToken ← Tx.reading fun e => e.tokenHex
  let attemptId ← Tx.reading fun e => e.uuid
  ensure ((storable request.actorId && storable request.operatorReason) = true) untranslatable
  ensure (request.actorId.length ≤ 128) rightTruncation
  let taken ← Tx.read fun db => db.attempts.lookup attemptId
  ensure (taken = none) (.database .integrity)
  writeAttempts fun attempts => attempts.insert attemptId (request.attempt newToken now)
  writeDeadLetter request.deadLetterId (row.claimedBy newToken leaseSeconds now)
  return .claimed ⟨request.deadLetterId, attemptId, newToken⟩

/-- `_claim`: TX1. -/
def claimReplay (leaseSeconds : ℤ) (request : ReplayRequest) : ConsumerTx ClaimOutcome := do
  let row ← Tx.read fun db => db.deadLetters.lookup request.deadLetterId
  let now ← Tx.reading fun e => e.now
  match row with
  | none => return .notFound
  | some row => do
      ensure (storable request.idempotencyKey = true) untranslatable
      let existing ← Tx.read fun db => db.attemptOf request.deadLetterId request.idempotencyKey
      match existing with
      | some ⟨attemptId, attempt⟩ =>
          if attempt.requestFingerprint ≠ request.requestFingerprint then return .conflict
          else if attempt.status ≠ .inProgress then return .terminal attemptId attempt.status
          else if row.eligible now = false then return .inProgress attemptId
          else do
            finishAttempt attemptId attempt .lostOwnership now
            return .expiredSameKey
      | none =>
          if row.eligible now = false then
            return if row.replayState = .replaying then .alreadyClaimed else .notEligible
          else takeClaim leaseSeconds request row now

/-! ### TX2 and TX3 -/

/-- `parse_domain_event(json.loads(row.retained_canonical_value))`. -/
def retainedEvent (p : Pydantic) (limit : ℕ) (row : DeadLetterRow) :
    Except ConsumerExc DomainEvent :=
  match row.retention.retainedCanonicalValue with
  | none => .error .uncaught
  | some text =>
      match Json.loads limit text with
      | .error _ => .error .uncaught
      | .ok v =>
          match parseDomainEventJson p v with
          | none => .error .domainEvent
          | some event => .ok event

/-- The event a dead letter retains, with its consumer. -/
def readRetained (p : Pydantic) (limit : ℕ) (deadLetterId : String) :
    ConsumerTx (Option (String × DomainEvent)) := do
  let row ← Tx.read fun db => db.deadLetters.lookup deadLetterId
  match row with
  | none => return none
  | some row =>
      match retainedEvent p limit row with
      | .error _ => return none
      | .ok event => return some (row.consumerId, event)

/-- The attempt of a claim that is no longer owned: it has lost its ownership, unless it ended. -/
def loseOwnership (claim : ReplayClaim) (attempt : Option ReplayAttemptRow) (now : Instant) :
    ConsumerTx Unit :=
  match attempt with
  | none => return
  | some attempt =>
      if attempt.status = .inProgress then
        finishAttempt claim.attemptId attempt .lostOwnership now
      else return

/-- The locked rows of a claim that still owns them. -/
def ReplayClaim.owned (claim : ReplayClaim) (row : Option DeadLetterRow)
    (attempt : Option ReplayAttemptRow) (now : Instant) :
    Option (DeadLetterRow × ReplayAttemptRow) :=
  match row, attempt with
  | some row, some attempt => if claim.owns row attempt now then some (row, attempt) else none
  | _, _ => none

/-- What the lookups of the retained event have seen.  They are made whenever the dead letter
retains an event; the row of a claim is there since it was granted, and keeps what it retains. -/
def seenView : Option EventView → Except ConsumerExc EventView
  | some view => .ok view
  | none => .error .uncaught

/-- `_apply`: TX2, after the lookups of the event.  The result is the status of the attempt, or
that its ownership is lost. -/
def applyReplay (p : Pydantic) (limit : ℕ) (claim : ReplayClaim) (view : Option EventView) :
    ConsumerTx (Option ReplayAttemptStatus) := do
  let row ← Tx.read fun db => db.deadLetters.lookup claim.deadLetterId
  let attempt ← Tx.read fun db => db.attempts.lookup claim.attemptId
  let now ← Tx.reading fun e => e.now
  match claim.owned row attempt now with
  | none => do
      loseOwnership claim attempt now
      return none
  | some (row, attempt) => do
      let event ← Tx.lift (retainedEvent p limit row)
      let view ← Tx.lift (seenView view)
      let outcome ← recordAndApply view row.consumerId event row.kafkaPartition row.kafkaOffset now
      let status : ReplayAttemptStatus := if outcome = .applied then .applied else .duplicate
      finishAttempt claim.attemptId attempt status now
      writeDeadLetter claim.deadLetterId
        (row.settled (if outcome = .applied then .replayedApplied else .replayedDuplicate) now)
      return some status

/-- `_record_failure`: TX3.  The result says whether the failure was recorded. -/
def recordFailure (claim : ReplayClaim) : ConsumerTx Bool := do
  let row ← Tx.read fun db => db.deadLetters.lookup claim.deadLetterId
  let attempt ← Tx.read fun db => db.attempts.lookup claim.attemptId
  let now ← Tx.reading fun e => e.now
  match claim.owned row attempt now with
  | none => do
      loseOwnership claim attempt now
      return false
  | some (row, attempt) => do
      finishAttempt claim.attemptId attempt .failed now
      writeDeadLetter claim.deadLetterId (row.settled .replayFailed now)
      return true

/-- `_EXPECTED_APPLY_FAILURES`. -/
def ConsumerExc.ExpectedApplyFailure : ConsumerExc → Bool
  | domainEvent | database _ | inboxConflict | poison .lifecycleOrderViolation => true
  | _ => false

end Atlas
