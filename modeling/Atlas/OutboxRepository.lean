/-
**The outbox repository: claims, marks and releases.**

`persistence/repositories/outbox.py` on the rows of `outbox_events`.  `claim_batch` looks for the
head of the unpublished rows without a lock, locks it, and goes on to the rows behind it in the
same way; it is modelled statement by statement, since other transactions commit between its
statements.  The instance of a row stays in the identity map of the session between the look and
the lock.  `mark_published` and `release_failed_claim` are one conditional `UPDATE` each, which
never breaks a constraint: both clear the claim.

Main definitions:

* `Atlas.isClaimable`, `Atlas.firstUnpublished` — `_is_claimable`, and the row a look finds;
* `Atlas.ClaimArgs`, `Atlas.ClaimPoint` — a call of `claim_batch`, and where it stands;
* `Atlas.ClaimPoint.look`, `Atlas.ClaimPoint.lock`, `Atlas.ClaimArgs.flush` — its statements;
* `Atlas.markPublished`, `Atlas.releaseFailedClaim` — the conditional updates.

Main results:

* `Atlas.firstUnpublished_eq_some` — a look finds the first of the unpublished rows;
* `Atlas.ClaimArgs.flush_eq_ok` — what a claim writes;
* `Atlas.ClaimArgs.not_published_of_flush` — **no row a claim assigns is published**;
* `Atlas.ownsPublishLease_eq_true` — the rows the updates write.
-/

import Atlas.Events
import Atlas.IdentityMap
import Mathlib.Data.List.MinMax

set_option relaxedAutoImplicit false
set_option autoImplicit false

namespace Atlas

open Checked

/-! ### The row -/

/-- The constraints of `outbox_events` on the columns of the relay. -/
def outboxEventChecks : List (CheckConstraint OutboxRow) := [
  ⟨"ck_outbox_events_claim_pair", fun row =>
    row.publishClaimToken.isNone && row.publishLeaseExpiresAt.isNone ||
      row.publishClaimToken.isSome && row.publishLeaseExpiresAt.isSome⟩,
  ⟨"ck_outbox_events_published_clears_claim", fun row =>
    row.publishedAt.isNone ||
      row.publishClaimToken.isNone && row.publishLeaseExpiresAt.isNone⟩]

namespace OutboxRow

/-- `flush()`: the row is written, or the first constraint it breaks is reported. -/
def flush (row : OutboxRow) : Except PersistenceError OutboxRow :=
  match CheckConstraint.firstViolated outboxEventChecks row with
  | none => .ok row
  | some check => .error (.integrity check.name)

theorem flush_eq_ok {row row' : OutboxRow} :
    row.flush = .ok row' ↔ CheckConstraint.AllHold outboxEventChecks row ∧ row = row' := by
  rw [← CheckConstraint.firstViolated_eq_none, flush]
  cases CheckConstraint.firstViolated outboxEventChecks row with
  | none => simp
  | some check => simp

/-- A row that is written carries no claim if it is published. -/
theorem not_claimed_of_flush {row row' : OutboxRow} (h : row.flush = .ok row')
    (hpublished : row.publishedAt.isSome = true) : row.publishClaimToken = none := by
  have hcheck := (flush_eq_ok.1 h).1 _ (List.mem_cons_of_mem _ List.mem_cons_self)
  rw [← Option.not_isNone, Bool.not_eq_true'] at hpublished
  simp only [hpublished, Bool.false_or, Bool.and_eq_true, Option.isNone_iff_eq_none] at hcheck
  exact hcheck.1

end OutboxRow

instance : IdentityMap.Columns OutboxRow where
  merge l r c :=
    { event := IdentityMap.column l.event r.event c.event
      position := IdentityMap.column l.position r.position c.position
      createdAt := IdentityMap.column l.createdAt r.createdAt c.createdAt
      publishedAt := IdentityMap.column l.publishedAt r.publishedAt c.publishedAt
      publishClaimToken :=
        IdentityMap.column l.publishClaimToken r.publishClaimToken c.publishClaimToken
      publishLeaseExpiresAt := IdentityMap.column l.publishLeaseExpiresAt
        r.publishLeaseExpiresAt c.publishLeaseExpiresAt
      publishAttempts := IdentityMap.column l.publishAttempts r.publishAttempts c.publishAttempts
      lastPublishErrorClass := IdentityMap.column l.lastPublishErrorClass
        r.lastPublishErrorClass c.lastPublishErrorClass
      traceparent := IdentityMap.column l.traceparent r.traceparent c.traceparent }
  merge_self l c := by simp only [IdentityMap.column_self]
  merge_fresh l r := by simp only [IdentityMap.column_fresh]

/-- `_is_claimable`. -/
def isClaimable (row : OutboxRow) (time : Instant) : Bool :=
  match row.publishedAt, row.publishClaimToken, row.publishLeaseExpiresAt with
  | some _, _, _ => false
  | none, none, _ => true
  | none, some _, none => true
  | none, some _, some lease => lease ≤ time

theorem isClaimable_eq_true {row : OutboxRow} {time : Instant} :
    isClaimable row time = true ↔ row.publishedAt = none ∧
      (row.publishClaimToken = none ∨ ∀ lease ∈ row.publishLeaseExpiresAt, lease ≤ time) := by
  unfold isClaimable
  split <;> simp_all

/-! ### Looking for rows -/

/-- The first unpublished row, behind a position if one is given. -/
def firstUnpublished (rows : List OutboxRow) (after : Option ℕ) : Option OutboxRow :=
  (rows.filter fun row => row.publishedAt.isNone && after.all (· < row.position)).argmin
    (·.position)

/-- **A look finds the first of the unpublished rows**: those before it, and behind the position
the look starts from, are published. -/
theorem firstUnpublished_eq_some {rows : List OutboxRow} {after : Option ℕ} {row : OutboxRow}
    (h : firstUnpublished rows after = some row) :
    row ∈ rows ∧ row.publishedAt = none ∧ (∀ p ∈ after, p < row.position) ∧
      ∀ other ∈ rows, (∀ p ∈ after, p < other.position) → other.position < row.position →
        other.publishedAt ≠ none := by
  have hmem := List.argmin_mem h
  simp only [List.mem_filter, Bool.and_eq_true, Option.isNone_iff_eq_none, Option.all_eq_true,
    decide_eq_true_eq] at hmem
  refine ⟨hmem.1, hmem.2.1, fun p hp => hmem.2.2 p hp, ?_⟩
  intro other hother hafter hlt hnone
  have hother' : other ∈ rows.filter fun row =>
      row.publishedAt.isNone && after.all (· < row.position) := by
    simp only [List.mem_filter, Bool.and_eq_true, Option.isNone_iff_eq_none, Option.all_eq_true,
      decide_eq_true_eq]
    exact ⟨hother, hnone, hafter⟩
  have hle := List.le_of_mem_argmin hother' h
  omega

/-! ### `claim_batch` -/

/-- A claimed outbox row, as the relay gets it. -/
structure ClaimedOutboxRecord where
  event : DomainEvent
  outboxPosition : ℕ
  publishClaimToken : String
  publishLeaseExpiresAt : Instant
  publishAttempts : ℕ
  traceparent : Option String
  deriving DecidableEq

/-- The arguments of `claim_batch`, which raises `ValueError` for others. -/
structure ClaimArgs where
  claimantToken : String
  time : Instant
  leaseExpiresAt : Instant
  batchSize : ℕ
  batchSize_pos : 1 ≤ batchSize
  lease_later : time < leaseExpiresAt
  deriving DecidableEq

/-- The statement of `claim_batch` that comes next, with the rows its session has. -/
inductive ClaimPoint where
  /-- `head_peek`. -/
  | headPeek
  /-- `locked_head`. -/
  | lockHead (headPeek : OutboxRow)
  /-- The test of the loop, and `next_peek`. -/
  | nextPeek (toClaim : List OutboxRow)
  /-- `locked_next`. -/
  | lockNext (toClaim : List OutboxRow) (nextPeek : OutboxRow)
  /-- The rows are assigned and flushed. -/
  | assign (toClaim : List OutboxRow)
  /-- Nothing is claimed. -/
  | returned
  deriving DecidableEq

namespace ClaimPoint

/-- The rows the transaction has locked and will assign. -/
def toClaim : ClaimPoint → List OutboxRow
  | nextPeek rows | lockNext rows _ | assign rows => rows
  | headPeek | lockHead _ | returned => []

/-- The row the transaction has looked at and not locked yet. -/
def pending : ClaimPoint → Option OutboxRow
  | lockHead row | lockNext _ row => some row
  | headPeek | nextPeek _ | assign _ | returned => none

/-- A look without a lock, on the committed rows. -/
def look (batchSize : ℕ) (rows : List OutboxRow) : ClaimPoint → ClaimPoint
  | headPeek =>
      match firstUnpublished rows none with
      | none => returned
      | some row => lockHead row
  | nextPeek toClaim =>
      if toClaim.length < batchSize then
        match firstUnpublished rows (toClaim.getLast?.map (·.position)) with
        | none => assign toClaim
        | some row => lockNext toClaim row
      else assign toClaim
  | point => point

/-- A locking query for the row that was found; `locked` is the committed row, unless another
transaction has locked it. -/
def lock (time : Instant) (locked : Option OutboxRow) : ClaimPoint → ClaimPoint
  | lockHead peeked =>
      match locked with
      | none => returned
      | some committed =>
          let lockedHead := IdentityMap.view (some peeked) committed
          if lockedHead.publishedAt.isSome then returned
          else if !isClaimable lockedHead time then returned
          else nextPeek [lockedHead]
  | lockNext toClaim peeked =>
      match locked with
      | none => assign toClaim
      | some committed =>
          let lockedNext := IdentityMap.view (some peeked) committed
          if lockedNext.publishedAt.isSome then assign toClaim
          else if !isClaimable lockedNext time then assign toClaim
          else nextPeek (toClaim ++ [lockedNext])
  | point => point

end ClaimPoint

namespace ClaimArgs

/-- The claim that is put on an instance. -/
def assign (args : ClaimArgs) (row : OutboxRow) : OutboxRow :=
  { row with
    publishClaimToken := some args.claimantToken
    publishLeaseExpiresAt := some args.leaseExpiresAt
    publishAttempts := row.publishAttempts + 1 }

/-- The record of a claimed row. -/
def record (args : ClaimArgs) (row : OutboxRow) : ClaimedOutboxRecord where
  event := row.event
  outboxPosition := row.position
  publishClaimToken := args.claimantToken
  publishLeaseExpiresAt := args.leaseExpiresAt
  publishAttempts := row.publishAttempts + 1
  traceparent := row.traceparent

/-- The instance the session has of a committed row, among those it assigns. -/
def instanceOf (toClaim : List OutboxRow) (committed : OutboxRow) : Option OutboxRow :=
  toClaim.find? (·.event.eventId = committed.event.eventId)

/-- The row an instance is flushed to: its changed columns, over the committed row. -/
def flushed (args : ClaimArgs) (toClaim : List OutboxRow) (committed : OutboxRow) : OutboxRow :=
  match instanceOf toClaim committed with
  | none => committed
  | some loaded => IdentityMap.Columns.merge loaded (args.assign loaded) committed

/-- The flush of one row: a row without an instance is not written. -/
def flushRow (args : ClaimArgs) (toClaim : List OutboxRow) (committed : OutboxRow) :
    Except PersistenceError OutboxRow :=
  match instanceOf toClaim committed with
  | none => .ok committed
  | some _ => (args.flushed toClaim committed).flush

/-- The flush of the assigned instances, over the committed rows. -/
def flush (args : ClaimArgs) (toClaim rows : List OutboxRow) :
    Except PersistenceError (List OutboxRow) :=
  rows.mapM (args.flushRow toClaim)

variable {args : ClaimArgs} {toClaim rows rows' : List OutboxRow} {committed loaded : OutboxRow}

theorem instanceOf_mem (h : instanceOf toClaim committed = some loaded) :
    loaded ∈ toClaim ∧ loaded.event.eventId = committed.event.eventId := by
  refine ⟨List.mem_of_find?_eq_some h, ?_⟩
  have hsame := List.find?_some h
  exact of_decide_eq_true hsame

theorem instanceOf_eq_none :
    instanceOf toClaim committed = none ↔
      ∀ loaded ∈ toClaim, loaded.event.eventId ≠ committed.event.eventId := by
  simp [instanceOf, List.find?_eq_none]

theorem flushed_of_none (h : instanceOf toClaim committed = none) :
    args.flushed toClaim committed = committed := by
  rw [flushed, h]

/-- The columns a claim changes are those of the claim. -/
theorem flushed_of_some (args : ClaimArgs)
    (h : instanceOf toClaim committed = some loaded) :
    ∃ attempts, args.flushed toClaim committed =
      { committed with
        publishClaimToken := IdentityMap.column loaded.publishClaimToken
          (some args.claimantToken) committed.publishClaimToken
        publishLeaseExpiresAt := IdentityMap.column loaded.publishLeaseExpiresAt
          (some args.leaseExpiresAt) committed.publishLeaseExpiresAt
        publishAttempts := attempts } := by
  refine ⟨IdentityMap.column loaded.publishAttempts (loaded.publishAttempts + 1)
    committed.publishAttempts, ?_⟩
  rw [flushed, h]
  simp only [IdentityMap.Columns.merge, assign, IdentityMap.column_self]

/-- A claim changes neither the event, the position nor the mark of a row. -/
theorem flushed_fixed (args : ClaimArgs) (toClaim : List OutboxRow) (committed : OutboxRow) :
    (args.flushed toClaim committed).event = committed.event ∧
      (args.flushed toClaim committed).position = committed.position ∧
      (args.flushed toClaim committed).publishedAt = committed.publishedAt := by
  cases h : instanceOf toClaim committed with
  | none =>
      rw [flushed_of_none h]
      exact ⟨rfl, rfl, rfl⟩
  | some loaded =>
      obtain ⟨attempts, heq⟩ := flushed_of_some args h
      rw [heq]
      exact ⟨rfl, rfl, rfl⟩

/-- A fresh token ends up on every row that has an instance. -/
theorem flushed_token (h : instanceOf toClaim committed = some loaded)
    (hfresh : loaded.publishClaimToken ≠ some args.claimantToken) :
    (args.flushed toClaim committed).publishClaimToken = some args.claimantToken := by
  obtain ⟨attempts, heq⟩ := flushed_of_some args h
  rw [heq]
  exact IdentityMap.column_of_ne _ _ _ (Ne.symm hfresh)

/-- A flush that succeeds writes every row that has an instance. -/
theorem flush_eq_ok (h : args.flush toClaim rows = .ok rows') :
    rows' = rows.map (args.flushed toClaim) ∧
      ∀ row ∈ rows, ∀ loaded, instanceOf toClaim row = some loaded →
        (args.flushed toClaim row).flush = .ok (args.flushed toClaim row) := by
  have hflushed : ∀ a b, args.flushRow toClaim a = .ok b → b = args.flushed toClaim a := by
    intro a b hab
    unfold flushRow at hab
    cases ha : instanceOf toClaim a with
    | none =>
        rw [ha] at hab
        cases hab
        exact (flushed_of_none ha).symm
    | some loaded =>
        rw [ha] at hab
        exact (OutboxRow.flush_eq_ok.1 hab).2.symm
  obtain ⟨hrows, hall⟩ := mapM_eq_ok hflushed h
  refine ⟨hrows, ?_⟩
  intro row hrow loaded hloaded
  have hwritten := hall row hrow
  rw [flushRow, hloaded] at hwritten
  exact hwritten

/-- On rows that are as the session has them, and unpublished, the flush succeeds. -/
theorem flush_of_current
    (h : ∀ row ∈ rows, ∀ loaded, instanceOf toClaim row = some loaded →
      loaded = row ∧ row.publishedAt = none) :
    args.flush toClaim rows = .ok (rows.map (args.flushed toClaim)) := by
  refine mapM_of_forall ?_
  intro row hrow
  unfold flushRow
  cases hloaded : instanceOf toClaim row with
  | none => simp only [flushed_of_none hloaded]
  | some loaded =>
      obtain ⟨rfl, hunpublished⟩ := h row hrow loaded hloaded
      have hassigned : args.flushed toClaim loaded = args.assign loaded := by
        rw [flushed, hloaded]
        exact IdentityMap.Columns.merge_fresh loaded (args.assign loaded)
      simp only [hassigned]
      refine OutboxRow.flush_eq_ok.2 ⟨?_, rfl⟩
      simp [CheckConstraint.AllHold, outboxEventChecks, assign, hunpublished]

/-- **No row a claim assigns is published**: a fresh token over a published row is refused. -/
theorem not_published_of_flush (h : args.flush toClaim rows = .ok rows')
    (hrow : committed ∈ rows) (hloaded : instanceOf toClaim committed = some loaded)
    (hfresh : loaded.publishClaimToken ≠ some args.claimantToken) :
    committed.publishedAt = none := by
  have hwritten := (flush_eq_ok h).2 committed hrow loaded hloaded
  cases hpublished : committed.publishedAt with
  | none => rfl
  | some time =>
      have hmark := (flushed_fixed args toClaim committed).2.2
      have hclear := OutboxRow.not_claimed_of_flush hwritten (by rw [hmark, hpublished]; rfl)
      rw [flushed_token hloaded hfresh] at hclear
      cases hclear

end ClaimArgs

/-! ### The conditional updates -/

/-- The condition both updates put on a row. -/
def ownsPublishLease (eventId claimantToken : String) (time : Instant) (row : OutboxRow) : Bool :=
  row.event.eventId = eventId && row.publishClaimToken = some claimantToken &&
    row.publishedAt.isNone && row.publishLeaseExpiresAt.any (time < ·)

/-- `mark_published`: the rows, and whether one was updated. -/
def markPublished (rows : List OutboxRow) (eventId claimantToken : String) (time : Instant) :
    List OutboxRow × Bool :=
  (rows.map fun row =>
    if ownsPublishLease eventId claimantToken time row then
      { row with
        publishedAt := some time
        publishClaimToken := none
        publishLeaseExpiresAt := none
        lastPublishErrorClass := none }
    else row,
   rows.countP (ownsPublishLease eventId claimantToken time) = 1)

/-- An error class as it is stored: one word of at most 128 characters. -/
def sanitizeErrorClass (errorClass : String) : String :=
  let sanitized := Python.strip errorClass
  let sanitized :=
    if sanitized = "" ∨ sanitized.toList.any Python.isSpace then "PublishError" else sanitized
  String.ofList (sanitized.toList.take 128)

/-- `release_failed_claim`: the rows, and whether one was updated. -/
def releaseFailedClaim (rows : List OutboxRow) (eventId claimantToken : String) (time : Instant)
    (errorClass : String) : List OutboxRow × Bool :=
  (rows.map fun row =>
    if ownsPublishLease eventId claimantToken time row then
      { row with
        publishClaimToken := none
        publishLeaseExpiresAt := none
        lastPublishErrorClass := some (sanitizeErrorClass errorClass) }
    else row,
   rows.countP (ownsPublishLease eventId claimantToken time) = 1)

theorem ownsPublishLease_eq_true {eventId claimantToken : String} {time : Instant}
    {row : OutboxRow} :
    ownsPublishLease eventId claimantToken time row = true ↔
      row.event.eventId = eventId ∧ row.publishClaimToken = some claimantToken ∧
        row.publishedAt = none ∧ ∃ lease, row.publishLeaseExpiresAt = some lease ∧ time < lease := by
  simp [ownsPublishLease, and_assoc, Option.any_eq_true]

end Atlas
