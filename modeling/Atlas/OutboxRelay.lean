/-
**The relay of the outbox.**

`run_once` of `outbox/relay.py`, as it goes from one call to the next: a batch is claimed in a
transaction of its own, and then each record is published and marked.  A publication that raises
and a mark that updates nothing end the run, after the claims it still owns are released.  Next to
the relay's runs stand the transactions that enqueue events: one draws its position when it
inserts its row, and the row is seen when it commits.

Any number of claims and runs may be under way, each call is a step of its own, and a run can
crash before each of them.

Main definitions:

* `Atlas.RelayPoint`, `Atlas.RelayRun` — where a run stands, and a run;
* `Atlas.RelayRun.afterPublish`, `Atlas.RelayRun.afterMark`, `Atlas.RelayRun.afterRelease` — how
  a run goes on;
* `Atlas.RelayState`, `Atlas.RelayAction`, `Atlas.relay` — the transition system.

Main results:

* `Atlas.OutboxChange`, `Atlas.rows_of_step` — **what a step makes of the committed rows**;
* `Atlas.ClaimChange`, `Atlas.RelayRunChange` — where the claims and the runs under way come from.
-/

import Atlas.OutboxRepository
import Atlas.TransitionSystem

set_option relaxedAutoImplicit false
set_option autoImplicit false

namespace Atlas

open Checked

/-! ### `run_once` -/

/-- Why a batch ended. -/
inductive RelayRunOutcome where
  | empty
  | published
  | recoverableFailure
  | fatalFailure
  | ownershipLost
  | unexpectedFailure
  deriving DecidableEq, Repr

/-- Outcome of one `run_once()` call. -/
structure RelayBatchResult where
  outcome : RelayRunOutcome
  publishedCount : ℕ
  deriving DecidableEq, Repr

/-- What `producer.publish` does: it returns, or raises an error of some class. -/
inductive PublishOutcome where
  | returned
  | fatalEventPublishError (errorClass : String)
  | eventPublishError (errorClass : String)
  | exception (errorClass : String)
  deriving DecidableEq, Repr

/-- The outcome of the run and the class of the error, when the publication raised. -/
def PublishOutcome.failure : PublishOutcome → Option (RelayRunOutcome × String)
  | returned => none
  | fatalEventPublishError errorClass => some (.fatalFailure, errorClass)
  | eventPublishError errorClass => some (.recoverableFailure, errorClass)
  | exception errorClass => some (.unexpectedFailure, errorClass)

def earlierPublishFailure : String := "EarlierEventPublishFailure"

def earlierOwnershipLost : String := "EarlierEventOwnershipLost"

/-- The call of a run that comes next. -/
inductive RelayPoint where
  /-- `producer.publish` of the first of the records. -/
  | publish (todo : List ClaimedOutboxRecord)
  /-- `mark_published` of a record that was published. -/
  | mark (record : ClaimedOutboxRecord) (rest : List ClaimedOutboxRecord)
  /-- `release_failed_claim` of the first of the records, with the class of its error. -/
  | release (todo : List (ClaimedOutboxRecord × String)) (outcome : RelayRunOutcome)
  deriving DecidableEq

/-- A run that has claimed a batch.  `visible` are the positions that were committed when the
claim looked for its head: a history of the run, which no step reads. -/
structure RelayRun where
  claimToken : String
  point : RelayPoint
  published : ℕ := 0
  visible : List ℕ
  deriving DecidableEq

/-- The records a run still has to publish, the one to be marked included. -/
def RelayPoint.todo : RelayPoint → List ClaimedOutboxRecord
  | publish todo => todo
  | mark record rest => record :: rest
  | release _ _ => []

namespace RelayRun

/-- After `producer.publish`. -/
def afterPublish (run : RelayRun) (outcome : PublishOutcome) : RelayRun :=
  match run.point with
  | .publish (record :: rest) =>
      match outcome.failure with
      | none => { run with point := .mark record rest }
      | some (failureOutcome, errorClass) =>
          { run with
            point := .release
              ((record, errorClass) :: rest.map fun record => (record, earlierPublishFailure))
              failureOutcome }
  | .publish [] | .mark _ _ | .release _ _ => run

/-- After `mark_published`. -/
def afterMark (run : RelayRun) (marked : Bool) : RelayRun :=
  match run.point with
  | .mark _ rest =>
      if marked then { run with point := .publish rest, published := run.published + 1 }
      else
        { run with
          point := .release (rest.map fun record => (record, earlierOwnershipLost))
            .ownershipLost }
  | .publish _ | .release _ _ => run

/-- After `release_failed_claim`, whether it released the claim or not. -/
def afterRelease (run : RelayRun) : RelayRun :=
  match run.point with
  | .release (_ :: rest) outcome => { run with point := .release rest outcome }
  | .release [] _ | .publish _ | .mark _ _ => run

/-! A run keeps its token, and what was visible to its claim. -/

theorem afterPublish_fixed (run : RelayRun) (outcome : PublishOutcome) :
    (run.afterPublish outcome).claimToken = run.claimToken ∧
      (run.afterPublish outcome).visible = run.visible := by
  unfold afterPublish
  split
  · split <;> exact ⟨rfl, rfl⟩
  all_goals exact ⟨rfl, rfl⟩

theorem afterMark_fixed (run : RelayRun) (marked : Bool) :
    (run.afterMark marked).claimToken = run.claimToken ∧
      (run.afterMark marked).visible = run.visible := by
  unfold afterMark
  split
  · split <;> exact ⟨rfl, rfl⟩
  all_goals exact ⟨rfl, rfl⟩

/-- A run that releases its claims goes on with that. -/
theorem afterRelease_point {run : RelayRun} {todo : List (ClaimedOutboxRecord × String)}
    {outcome : RelayRunOutcome} (h : run.point = .release todo outcome) :
    ∃ todo', run.afterRelease.point = .release todo' outcome := by
  cases todo with
  | nil => exact ⟨[], by rw [afterRelease, h]; exact h⟩
  | cons first rest => exact ⟨rest, by rw [afterRelease, h]⟩

/-- What the run returns, when no call is left. -/
def result (run : RelayRun) : Option RelayBatchResult :=
  match run.point with
  | .publish [] => some ⟨.published, run.published⟩
  | .release [] outcome => some ⟨outcome, run.published⟩
  | .publish (_ :: _) | .mark _ _ | .release (_ :: _) _ => none

end RelayRun

/-! ### The system -/

/-- A claim transaction under way. -/
structure ClaimTx where
  args : ClaimArgs
  point : ClaimPoint
  visible : List ℕ
  deriving DecidableEq

/-- A message the broker has stored.  It is acknowledged when `producer.publish` returned; one that
raised may have stored its message too. -/
structure Delivery where
  event : DomainEvent
  position : ℕ
  claimToken : String
  acknowledged : Bool
  deriving DecidableEq

/-- A row that a claim has taken: the locking query that took it, by its token and the position of
the row, with the positions that were committed then. -/
structure Taking where
  claimToken : String
  position : ℕ
  visible : List ℕ
  deriving DecidableEq

/-- The committed rows and the sequence, the rows of open transactions, the claims and the runs
under way, the tokens drawn so far, the broker's log, and the rows taken so far: a history, which
no step reads. -/
structure RelayState where
  outbox : Outbox := {}
  inserted : List OutboxRow := []
  claims : List ClaimTx := []
  runs : List RelayRun := []
  issued : List String := []
  log : List Delivery := []
  taken : List Taking := []

inductive RelayAction where
  /-- A transaction inserts an event. -/
  | insert (event : DomainEvent) (traceparent : Option String)
  /-- The transaction of an inserted row commits. -/
  | commit (row : OutboxRow)
  /-- The transaction of an inserted row is rolled back. -/
  | rollback (row : OutboxRow)
  /-- A run begins its claim transaction. -/
  | begin (args : ClaimArgs)
  /-- A look of a claim transaction. -/
  | look (tx : ClaimTx)
  /-- A locking query of a claim transaction: the row, or none if another transaction has it. -/
  | lock (tx : ClaimTx) (locked : Option OutboxRow)
  /-- A claim transaction flushes and commits, or breaks a constraint and is rolled back. -/
  | claim (tx : ClaimTx)
  /-- A claim transaction ends without a claim, or crashes. -/
  | abort (tx : ClaimTx)
  /-- `producer.publish`, and whether the broker stored the message. -/
  | publish (run : RelayRun) (outcome : PublishOutcome) (stored : Bool)
  /-- `mark_published`. -/
  | mark (run : RelayRun) (time : Instant)
  /-- `release_failed_claim`. -/
  | release (run : RelayRun) (time : Instant)
  /-- A run ends, or crashes. -/
  | crash (run : RelayRun)

namespace RelayState

/-- The committed rows and those of open transactions, in the order of the sequence's draws. -/
def drawn (s : RelayState) : Outbox where
  rows := s.outbox.rows ++ s.inserted
  nextPosition := s.outbox.nextPosition

/-- One of the claim transactions has locked the row of an event, to assign it to itself. -/
def Held (claims : List ClaimTx) (eventId : String) : Prop :=
  ∃ tx ∈ claims, ∃ row ∈ tx.point.toClaim, row.event.eventId = eventId

instance (claims : List ClaimTx) (eventId : String) : Decidable (Held claims eventId) :=
  inferInstanceAs (Decidable (∃ tx ∈ claims, ∃ row ∈ tx.point.toClaim, row.event.eventId = eventId))

/-- The claim transaction after its next look; a look for the head sees what is committed. -/
def lookOf (s : RelayState) (tx : ClaimTx) : ClaimTx :=
  { tx with
    point := tx.point.look tx.args.batchSize s.outbox.rows
    visible := if tx.point = .headPeek then s.outbox.rows.map (·.position) else tx.visible }

/-- The takings of a locking query: those of the rows it adds to the batch. -/
def takings (s : RelayState) (tx : ClaimTx) (locked : Option OutboxRow) : List Taking :=
  ((tx.point.lock tx.args.time locked).toClaim.drop tx.point.toClaim.length).map fun row =>
    ⟨tx.args.claimantToken, row.position, s.outbox.rows.map (·.position)⟩

/-- The run of a claim that committed. -/
def runOf (tx : ClaimTx) : RelayRun where
  claimToken := tx.args.claimantToken
  point := .publish (tx.point.toClaim.map tx.args.record)
  visible := tx.visible

/-- The message of a run's next record. -/
def delivery (run : RelayRun) (record : ClaimedOutboxRecord) (acknowledged : Bool) : Delivery where
  event := record.event
  position := record.outboxPosition
  claimToken := run.claimToken
  acknowledged := acknowledged

/-- The state after an action. -/
def apply (s : RelayState) : RelayAction → RelayState
  | .insert event traceparent =>
      match s.drawn.enqueue event traceparent with
      | .ok drawn =>
          { s with
            outbox := { s.outbox with nextPosition := drawn.nextPosition }
            inserted := drawn.rows.drop s.outbox.rows.length }
      | .error _ => s
  | .commit row =>
      { s with
        outbox := { s.outbox with rows := s.outbox.rows ++ [row] }
        inserted := s.inserted.erase row }
  | .rollback row => { s with inserted := s.inserted.erase row }
  | .begin args =>
      { s with
        claims := ⟨args, .headPeek, []⟩ :: s.claims
        issued := args.claimantToken :: s.issued }
  | .look tx => { s with claims := s.lookOf tx :: s.claims.erase tx }
  | .lock tx locked =>
      { s with
        claims := { tx with point := tx.point.lock tx.args.time locked } :: s.claims.erase tx
        taken := s.taken ++ s.takings tx locked }
  | .claim tx =>
      match tx.args.flush tx.point.toClaim s.outbox.rows with
      | .ok rows =>
          { s with
            outbox := { s.outbox with rows := rows }
            claims := s.claims.erase tx
            runs := runOf tx :: s.runs }
      | .error _ => { s with claims := s.claims.erase tx }
  | .abort tx => { s with claims := s.claims.erase tx }
  | .publish run outcome stored =>
      { s with
        runs := run.afterPublish outcome :: s.runs.erase run
        log := s.log ++
          if stored then
            (run.point.todo.take 1).map (delivery run · (outcome = .returned))
          else [] }
  | .mark run time =>
      match run.point with
      | .mark record _ =>
          let (rows, marked) :=
            markPublished s.outbox.rows record.event.eventId run.claimToken time
          { s with
            outbox := { s.outbox with rows := rows }
            runs := run.afterMark marked :: s.runs.erase run }
      | .publish _ | .release _ _ => s
  | .release run time =>
      match run.point with
      | .release ((record, errorClass) :: _) _ =>
          { s with
            outbox := { s.outbox with
              rows := (releaseFailedClaim s.outbox.rows record.event.eventId run.claimToken time
                errorClass).1 }
            runs := run.afterRelease :: s.runs.erase run }
      | .release [] _ | .publish _ | .mark _ _ => s
  | .crash run => { s with runs := s.runs.erase run }

/-- When an action can be taken.  A claim brings a fresh token; an update of a row that a claim
transaction has locked waits for it. -/
def Allows (s : RelayState) : RelayAction → Prop
  | .insert _ _ => True
  | .commit row | .rollback row => row ∈ s.inserted
  | .begin args => args.claimantToken ∉ s.issued
  | .look tx => tx ∈ s.claims ∧ tx.point.pending = none
  | .lock tx locked => tx ∈ s.claims ∧ ∃ peeked ∈ tx.point.pending, ∀ row ∈ locked,
      row ∈ s.outbox.rows ∧ row.event.eventId = peeked.event.eventId ∧
        ¬ Held (s.claims.erase tx) peeked.event.eventId
  | .claim tx => tx ∈ s.claims ∧ tx.point = .assign tx.point.toClaim
  | .abort tx => tx ∈ s.claims
  | .publish run outcome stored => run ∈ s.runs ∧ run.point = .publish run.point.todo ∧
      run.point.todo ≠ [] ∧ (outcome = .returned → stored = true)
  | .mark run _ => run ∈ s.runs ∧ ∃ record rest, run.point = .mark record rest ∧
      ¬ Held s.claims record.event.eventId
  | .release run _ => run ∈ s.runs ∧ ∃ record errorClass rest outcome,
      run.point = .release ((record, errorClass) :: rest) outcome ∧
        ¬ Held s.claims record.event.eventId
  | .crash run => run ∈ s.runs

end RelayState

/-- The transition system of the relay. -/
def relay : Lts RelayState RelayAction where
  init s := s = {}
  step s action s' := s.Allows action ∧ s' = s.apply action

/-! ### What a step changes -/

section Step

variable {s s' : RelayState} {action : RelayAction}

/-- What an action can make of a committed row: leave it, put a claim on it, mark it, or release
its claim. -/
inductive OutboxChange (action : RelayAction) (row : OutboxRow) : OutboxRow → Prop where
  | same : OutboxChange action row row
  | claimed (tx : ClaimTx) (loaded : OutboxRow) (haction : action = .claim tx)
      (hloaded : ClaimArgs.instanceOf tx.point.toClaim row = some loaded) :
      OutboxChange action row (tx.args.flushed tx.point.toClaim row)
  | marked (run : RelayRun) (record : ClaimedOutboxRecord) (rest : List ClaimedOutboxRecord)
      (time : Instant) (haction : action = .mark run time) (hpoint : run.point = .mark record rest)
      (howns : ownsPublishLease record.event.eventId run.claimToken time row = true) :
      OutboxChange action row
        { row with
          publishedAt := some time
          publishClaimToken := none
          publishLeaseExpiresAt := none
          lastPublishErrorClass := none }
  | released (run : RelayRun) (record : ClaimedOutboxRecord) (time : Instant)
      (errorClass : String) (haction : action = .release run time)
      (hpoint : ∃ rest outcome, run.point = .release ((record, errorClass) :: rest) outcome)
      (howns : ownsPublishLease record.event.eventId run.claimToken time row = true) :
      OutboxChange action row
        { row with
          publishClaimToken := none
          publishLeaseExpiresAt := none
          lastPublishErrorClass := some (sanitizeErrorClass errorClass) }

/-- No action changes the event or the position of a row, or takes back its mark. -/
theorem OutboxChange.fixed {row row' : OutboxRow} (h : OutboxChange action row row') :
    row'.event = row.event ∧ row'.position = row.position ∧
      ∀ time, row.publishedAt = some time → row'.publishedAt = some time := by
  cases h with
  | same => exact ⟨rfl, rfl, fun _ h => h⟩
  | claimed tx loaded haction hloaded =>
      obtain ⟨hevent, hposition, hmark⟩ := ClaimArgs.flushed_fixed tx.args tx.point.toClaim row
      exact ⟨hevent, hposition, fun _ h => hmark.trans h⟩
  | marked run record rest time haction hpoint howns =>
      have hunpublished := (ownsPublishLease_eq_true.1 howns).2.2.1
      refine ⟨rfl, rfl, ?_⟩
      intro t ht
      rw [hunpublished] at ht
      cases ht
  | released => exact ⟨rfl, rfl, fun _ h => h⟩

/-- **A step commits an inserted row, or changes the committed rows one by one.** -/
theorem rows_of_step (h : relay.step s action s') :
    (∃ row ∈ s.inserted, action = .commit row ∧ s'.outbox.rows = s.outbox.rows ++ [row]) ∨
      ∃ change : OutboxRow → OutboxRow, s'.outbox.rows = s.outbox.rows.map change ∧
        ∀ row ∈ s.outbox.rows, OutboxChange action row (change row) := by
  have hsame : ∀ t : RelayState, t.outbox.rows = s.outbox.rows →
      ∃ change : OutboxRow → OutboxRow, t.outbox.rows = s.outbox.rows.map change ∧
        ∀ row ∈ s.outbox.rows, OutboxChange action row (change row) :=
    fun t ht => ⟨id, by rw [List.map_id]; exact ht, fun row _ => .same⟩
  obtain ⟨hallows, rfl⟩ := h
  cases action with
  | insert event traceparent =>
      refine .inr (hsame _ ?_)
      simp only [RelayState.apply]
      split <;> rfl
  | commit row => exact .inl ⟨row, hallows, rfl, rfl⟩
  | rollback row => exact .inr (hsame _ rfl)
  | begin args => exact .inr (hsame _ rfl)
  | look tx => exact .inr (hsame _ rfl)
  | lock tx locked => exact .inr (hsame _ rfl)
  | claim tx =>
      right
      simp only [RelayState.apply]
      cases hflush : tx.args.flush tx.point.toClaim s.outbox.rows with
      | error e => exact hsame _ rfl
      | ok rows =>
          refine ⟨tx.args.flushed tx.point.toClaim, (ClaimArgs.flush_eq_ok hflush).1, ?_⟩
          intro row _
          cases hloaded : ClaimArgs.instanceOf tx.point.toClaim row with
          | none =>
              rw [ClaimArgs.flushed_of_none hloaded]
              exact .same
          | some loaded => exact .claimed tx loaded rfl hloaded
  | abort tx => exact .inr (hsame _ rfl)
  | publish run outcome stored => exact .inr (hsame _ rfl)
  | mark run time =>
      obtain ⟨-, record, rest, hpoint, -⟩ := hallows
      simp only [RelayState.apply, hpoint]
      refine .inr ⟨_, rfl, ?_⟩
      intro row _
      by_cases howns : ownsPublishLease record.event.eventId run.claimToken time row = true
      · simp only [howns, if_true]
        exact .marked run record rest time rfl hpoint howns
      · simp only [howns, if_false, Bool.false_eq_true]
        exact .same
  | release run time =>
      obtain ⟨-, record, errorClass, rest, outcome, hpoint, -⟩ := hallows
      simp only [RelayState.apply, hpoint]
      refine .inr ⟨_, rfl, ?_⟩
      intro row _
      by_cases howns : ownsPublishLease record.event.eventId run.claimToken time row = true
      · simp only [howns, if_true]
        exact .released run record time errorClass rfl ⟨rest, outcome, hpoint⟩ howns
      · simp only [howns, if_false, Bool.false_eq_true]
        exact .same
  | crash run => exact .inr (hsame _ rfl)

/-- A committed row stays committed, with its event, its position and its mark. -/
theorem row_of_step (h : relay.step s action s') {row : OutboxRow} (hrow : row ∈ s.outbox.rows) :
    ∃ row' ∈ s'.outbox.rows, OutboxChange action row row' := by
  rcases rows_of_step h with ⟨new, -, -, hrows⟩ | ⟨change, hrows, hchange⟩
  · refine ⟨row, ?_, .same⟩
    rw [hrows]
    exact List.mem_append_left _ hrow
  · refine ⟨change row, ?_, hchange row hrow⟩
    rw [hrows]
    exact List.mem_map_of_mem hrow

/-- A row after a step was one before it, or has just been committed. -/
theorem row_before_step (h : relay.step s action s') {row' : OutboxRow}
    (hrow' : row' ∈ s'.outbox.rows) :
    (row' ∈ s.inserted ∧ action = .commit row') ∨
      ∃ row ∈ s.outbox.rows, OutboxChange action row row' := by
  rcases rows_of_step h with ⟨new, hnew, haction, hrows⟩ | ⟨change, hrows, hchange⟩
  · rw [hrows, List.mem_append, List.mem_singleton] at hrow'
    rcases hrow' with hrow' | rfl
    · exact .inr ⟨row', hrow', .same⟩
    · exact .inl ⟨hnew, haction⟩
  · rw [hrows] at hrow'
    obtain ⟨row, hrow, rfl⟩ := List.mem_map.1 hrow'
    exact .inr ⟨row, hrow, hchange row hrow⟩

/-- Where a claim transaction comes from. -/
inductive ClaimChange (s : RelayState) (action : RelayAction) : ClaimTx → Prop where
  | kept (tx : ClaimTx) (hmem : tx ∈ s.claims)
      (hother : ∀ ended, action = .claim ended ∨ action = .abort ended →
        tx ∈ s.claims.erase ended) : ClaimChange s action tx
  | begun (args : ClaimArgs) (haction : action = .begin args)
      (hfresh : args.claimantToken ∉ s.issued) : ClaimChange s action ⟨args, .headPeek, []⟩
  | looked (tx : ClaimTx) (haction : action = .look tx) (hmem : tx ∈ s.claims)
      (hpending : tx.point.pending = none) : ClaimChange s action (s.lookOf tx)
  | locked (tx : ClaimTx) (row : Option OutboxRow) (peeked : OutboxRow)
      (haction : action = .lock tx row) (hmem : tx ∈ s.claims)
      (hpending : tx.point.pending = some peeked)
      (hrow : ∀ committed ∈ row, committed ∈ s.outbox.rows ∧
        committed.event.eventId = peeked.event.eventId ∧
        ¬ RelayState.Held (s.claims.erase tx) peeked.event.eventId) :
      ClaimChange s action { tx with point := tx.point.lock tx.args.time row }

theorem claims_of_step (h : relay.step s action s') {tx' : ClaimTx} (htx' : tx' ∈ s'.claims) :
    ClaimChange s action tx' := by
  obtain ⟨hallows, rfl⟩ := h
  have hkept : ∀ tx, tx' ∈ s.claims.erase tx →
      (∀ ended, action = .claim ended ∨ action = .abort ended → ended = tx) →
      ClaimChange s action tx' := by
    intro tx hmem honly
    refine .kept tx' (List.mem_of_mem_erase hmem) ?_
    intro ended hended
    rw [honly ended hended]
    exact hmem
  have hunchanged : tx' ∈ s.claims → (∀ ended, action ≠ .claim ended ∧ action ≠ .abort ended) →
      ClaimChange s action tx' := by
    intro hmem hnot
    refine .kept tx' hmem ?_
    rintro ended (hended | hended)
    · exact absurd hended (hnot ended).1
    · exact absurd hended (hnot ended).2
  cases action with
  | insert event traceparent =>
      simp only [RelayState.apply] at htx'
      have hmem : tx' ∈ s.claims := by split at htx' <;> exact htx'
      exact hunchanged hmem (by simp)
  | commit row => exact hunchanged htx' (by simp)
  | rollback row => exact hunchanged htx' (by simp)
  | begin args =>
      rcases List.mem_cons.1 htx' with rfl | hmem
      · exact .begun args rfl hallows
      · exact hunchanged hmem (by simp)
  | look tx =>
      rcases List.mem_cons.1 htx' with rfl | hmem
      · exact .looked tx rfl hallows.1 hallows.2
      · exact hkept tx hmem (by simp)
  | lock tx locked =>
      obtain ⟨hmem, peeked, hpending, hrow⟩ := hallows
      rcases List.mem_cons.1 htx' with rfl | hmem'
      · exact .locked tx locked peeked rfl hmem hpending hrow
      · exact hkept tx hmem' (by simp)
  | claim tx =>
      have hmem : tx' ∈ s.claims.erase tx := by
        simp only [RelayState.apply] at htx'
        split at htx' <;> exact htx'
      refine hkept tx hmem ?_
      rintro ended (hended | hended)
      · exact (RelayAction.claim.inj hended).symm
      · cases hended
  | abort tx =>
      refine hkept tx htx' ?_
      rintro ended (hended | hended)
      · cases hended
      · exact (RelayAction.abort.inj hended).symm
  | publish run outcome stored => exact hunchanged htx' (by simp)
  | mark run time =>
      obtain ⟨-, record, rest, hpoint, -⟩ := hallows
      simp only [RelayState.apply, hpoint] at htx'
      exact hunchanged htx' (by simp)
  | release run time =>
      obtain ⟨-, record, errorClass, rest, outcome, hpoint, -⟩ := hallows
      simp only [RelayState.apply, hpoint] at htx'
      exact hunchanged htx' (by simp)
  | crash run => exact hunchanged htx' (by simp)

/-- Where a run comes from. -/
inductive RelayRunChange (s : RelayState) (action : RelayAction) : RelayRun → Prop where
  | kept (run : RelayRun) (hmem : run ∈ s.runs) : RelayRunChange s action run
  | begun (tx : ClaimTx) (rows : List OutboxRow) (haction : action = .claim tx)
      (hmem : tx ∈ s.claims) (hpoint : tx.point = .assign tx.point.toClaim)
      (hflush : tx.args.flush tx.point.toClaim s.outbox.rows = .ok rows) :
      RelayRunChange s action (RelayState.runOf tx)
  | published (run : RelayRun) (outcome : PublishOutcome) (stored : Bool)
      (record : ClaimedOutboxRecord) (rest : List ClaimedOutboxRecord)
      (haction : action = .publish run outcome stored) (hmem : run ∈ s.runs)
      (hpoint : run.point = .publish (record :: rest))
      (hstored : outcome = .returned → stored = true) :
      RelayRunChange s action (run.afterPublish outcome)
  | marked (run : RelayRun) (time : Instant) (record : ClaimedOutboxRecord)
      (rest : List ClaimedOutboxRecord) (haction : action = .mark run time) (hmem : run ∈ s.runs)
      (hpoint : run.point = .mark record rest) :
      RelayRunChange s action (run.afterMark
        (markPublished s.outbox.rows record.event.eventId run.claimToken time).2)
  | released (run : RelayRun) (time : Instant) (todo : List (ClaimedOutboxRecord × String))
      (outcome : RelayRunOutcome) (haction : action = .release run time) (hmem : run ∈ s.runs)
      (hpoint : run.point = .release todo outcome) : RelayRunChange s action run.afterRelease

theorem runs_of_step (h : relay.step s action s') {run' : RelayRun} (hrun' : run' ∈ s'.runs) :
    RelayRunChange s action run' := by
  obtain ⟨hallows, rfl⟩ := h
  cases action with
  | insert event traceparent =>
      simp only [RelayState.apply] at hrun'
      split at hrun' <;> exact .kept run' hrun'
  | commit row => exact .kept run' hrun'
  | rollback row => exact .kept run' hrun'
  | begin args => exact .kept run' hrun'
  | look tx => exact .kept run' hrun'
  | lock tx locked => exact .kept run' hrun'
  | claim tx =>
      simp only [RelayState.apply] at hrun'
      cases hflush : tx.args.flush tx.point.toClaim s.outbox.rows with
      | error e =>
          rw [hflush] at hrun'
          exact .kept run' hrun'
      | ok rows =>
          rw [hflush] at hrun'
          rcases List.mem_cons.1 hrun' with rfl | hmem
          · exact .begun tx rows rfl hallows.1 hallows.2 hflush
          · exact .kept run' hmem
  | abort tx => exact .kept run' hrun'
  | publish run outcome stored =>
      obtain ⟨hmem, hpoint, hne, hstored⟩ := hallows
      rcases List.mem_cons.1 hrun' with rfl | hmem'
      · cases htodo : run.point.todo with
        | nil => exact absurd htodo hne
        | cons record rest =>
            rw [htodo] at hpoint
            exact .published run outcome stored record rest rfl hmem hpoint hstored
      · exact .kept run' (List.mem_of_mem_erase hmem')
  | mark run time =>
      obtain ⟨hmem, record, rest, hpoint, -⟩ := hallows
      simp only [RelayState.apply, hpoint] at hrun'
      rcases List.mem_cons.1 hrun' with rfl | hmem'
      · exact .marked run time record rest rfl hmem hpoint
      · exact .kept run' (List.mem_of_mem_erase hmem')
  | release run time =>
      obtain ⟨hmem, record, errorClass, rest, outcome, hpoint, -⟩ := hallows
      simp only [RelayState.apply, hpoint] at hrun'
      rcases List.mem_cons.1 hrun' with rfl | hmem'
      · exact .released run time _ outcome rfl hmem hpoint
      · exact .kept run' (List.mem_of_mem_erase hmem')
  | crash run => exact .kept run' (List.mem_of_mem_erase hrun')

/-- Only a publication is written to the broker's log. -/
theorem log_of_step (h : relay.step s action s') :
    s'.log = s.log ∨ ∃ run outcome record rest, action = .publish run outcome true ∧
      run ∈ s.runs ∧ run.point = .publish (record :: rest) ∧
        s'.log = s.log ++ [RelayState.delivery run record (outcome = .returned)] := by
  obtain ⟨hallows, rfl⟩ := h
  cases action with
  | insert event traceparent =>
      simp only [RelayState.apply]
      split <;> exact .inl rfl
  | claim tx =>
      simp only [RelayState.apply]
      split <;> exact .inl rfl
  | publish run outcome stored =>
      obtain ⟨hmem, hpoint, hne, hstored⟩ := hallows
      cases stored with
      | false =>
          left
          simp only [RelayState.apply, Bool.false_eq_true, if_false, List.append_nil]
      | true =>
          cases htodo : run.point.todo with
          | nil => exact absurd htodo hne
          | cons record rest =>
              refine .inr ⟨run, outcome, record, rest, rfl, hmem, ?_, ?_⟩
              · rw [htodo] at hpoint
                exact hpoint
              · simp only [RelayState.apply, htodo, if_true]
                rfl
  | mark run time =>
      obtain ⟨-, record, rest, hpoint, -⟩ := hallows
      left
      simp only [RelayState.apply, hpoint]
  | release run time =>
      obtain ⟨-, record, errorClass, rest, outcome, hpoint, -⟩ := hallows
      left
      simp only [RelayState.apply, hpoint]
  | _ => exact .inl rfl

/-- What is published stays in the log. -/
theorem log_subset (h : relay.step s action s') : s.log ⊆ s'.log := by
  rcases log_of_step h with hlog | ⟨run, outcome, record, rest, -, -, -, hlog⟩
  · rw [hlog]
    exact List.Subset.refl _
  · rw [hlog]
    exact List.subset_append_left _ _

/-- A token that was drawn stays drawn. -/
theorem issued_of_step (h : relay.step s action s') : s.issued ⊆ s'.issued := by
  obtain ⟨hallows, rfl⟩ := h
  cases action with
  | insert event traceparent =>
      simp only [RelayState.apply]
      split <;> exact List.Subset.refl _
  | begin args => exact List.subset_cons_self _ _
  | claim tx =>
      simp only [RelayState.apply]
      split <;> exact List.Subset.refl _
  | mark run time =>
      obtain ⟨-, record, rest, hpoint, -⟩ := hallows
      simp only [RelayState.apply, hpoint]
      exact List.Subset.refl _
  | release run time =>
      obtain ⟨-, record, errorClass, rest, outcome, hpoint, -⟩ := hallows
      simp only [RelayState.apply, hpoint]
      exact List.Subset.refl _
  | _ => exact List.Subset.refl _

end Step

/-! ### Given actions -/

namespace RelayState

instance (s : RelayState) (action : RelayAction) : Decidable (s.Allows action) :=
  match action with
  | .insert _ _ => .isTrue trivial
  | .commit row | .rollback row => inferInstanceAs (Decidable (row ∈ s.inserted))
  | .begin args => inferInstanceAs (Decidable (args.claimantToken ∉ s.issued))
  | .look _ | .lock _ _ | .claim _ => inferInstanceAs (Decidable (_ ∧ _))
  | .abort tx => inferInstanceAs (Decidable (tx ∈ s.claims))
  | .publish _ _ _ => inferInstanceAs (Decidable (_ ∧ _ ∧ _ ∧ _))
  | .mark run _ =>
      match h : run.point with
      | .mark record rest =>
          decidable_of_iff (run ∈ s.runs ∧ ¬ Held s.claims record.event.eventId)
            ⟨fun ⟨hrun, hheld⟩ => ⟨hrun, record, rest, h, hheld⟩, by
              rintro ⟨hrun, record', rest', hpoint, hheld⟩
              rw [h] at hpoint
              cases hpoint
              exact ⟨hrun, hheld⟩⟩
      | .publish _ | .release _ _ => .isFalse (by
          rintro ⟨-, record, rest, hpoint, -⟩
          rw [h] at hpoint
          cases hpoint)
  | .release run _ =>
      match h : run.point with
      | .release ((record, errorClass) :: rest) outcome =>
          decidable_of_iff (run ∈ s.runs ∧ ¬ Held s.claims record.event.eventId)
            ⟨fun ⟨hrun, hheld⟩ => ⟨hrun, record, errorClass, rest, outcome, h, hheld⟩, by
              rintro ⟨hrun, record', errorClass', rest', outcome', hpoint, hheld⟩
              rw [h] at hpoint
              cases hpoint
              exact ⟨hrun, hheld⟩⟩
      | .release [] _ | .publish _ | .mark _ _ => .isFalse (by
          rintro ⟨-, record, errorClass, rest, outcome, hpoint, -⟩
          rw [h] at hpoint
          cases hpoint)
  | .crash run => inferInstanceAs (Decidable (run ∈ s.runs))

/-- The actions can be taken one after the other, each of them where `P` holds. -/
def AllowsAll (P : RelayState → RelayAction → Prop) : RelayState → List RelayAction → Prop
  | _, [] => True
  | s, action :: actions => s.Allows action ∧ P s action ∧ AllowsAll P (s.apply action) actions

instance decidableAllowsAll (P : RelayState → RelayAction → Prop)
    [∀ s action, Decidable (P s action)] :
    (s : RelayState) → (actions : List RelayAction) → Decidable (s.AllowsAll P actions)
  | _, [] => .isTrue trivial
  | s, action :: actions =>
      have := decidableAllowsAll P (s.apply action) actions
      inferInstanceAs
        (Decidable (s.Allows action ∧ P s action ∧ AllowsAll P (s.apply action) actions))

/-- Actions that can be taken lead to a reachable state. -/
theorem reachable_of_allowsAll {P : RelayState → RelayAction → Prop} {actions : List RelayAction}
    {s : RelayState} (h : (relay.restrict fun s action _ => P s action).Reachable s)
    (hactions : s.AllowsAll P actions) :
    (relay.restrict fun s action _ => P s action).Reachable (actions.foldl apply s) := by
  induction actions generalizing s with
  | nil => exact h
  | cons action actions ih =>
      obtain ⟨hallows, hP, hrest⟩ := hactions
      exact ih (h.step ⟨⟨hallows, rfl⟩, hP⟩) hrest

end RelayState

/-- An event of a job. -/
def sampleEvent (eventId : String) : DomainEvent where
  eventId := eventId
  aggregateId := "job-1"
  occurredAt := 0
  payload := .created
  valid := ⟨by decide, trivial⟩

/-- A claim of one row, for 30 units of time. -/
def sampleClaim (claimantToken : String) (time : Instant) : ClaimArgs where
  claimantToken := claimantToken
  time := time
  leaseExpiresAt := time + 30
  batchSize := 1
  batchSize_pos := le_refl 1
  lease_later := Int.lt_add_of_pos_right time (by decide)

/-- The row of an event, as it is enqueued. -/
def sampleOutboxRow (eventId : String) (position : ℕ) : OutboxRow where
  event := sampleEvent eventId
  position := position
  createdAt := 0

/-- Two events are enqueued; the first is claimed, published and marked, and then the second is
about to be claimed. -/
def sequentialClaims : List RelayAction :=
  let row := sampleOutboxRow "event-1" 1
  let next := sampleOutboxRow "event-2" 2
  let first := sampleClaim "first" 10
  let second := sampleClaim "second" 21
  let run : RelayRun :=
    { claimToken := "first", point := .publish [first.record row], visible := [1, 2] }
  [.insert row.event none, .commit row, .insert next.event none, .commit next,
    .begin first, .look ⟨first, .headPeek, []⟩, .lock ⟨first, .lockHead row, [1, 2]⟩ (some row),
    .look ⟨first, .nextPeek [row], [1, 2]⟩, .claim ⟨first, .assign [row], [1, 2]⟩,
    .publish run .returned true, .mark (run.afterPublish .returned) 20,
    .begin second, .look ⟨second, .headPeek, []⟩,
    .lock ⟨second, .lockHead next, [1, 2]⟩ (some next),
    .look ⟨second, .nextPeek [next], [1, 2]⟩]

end Atlas
