/-
**What an act of the consumer changes.**

Every transaction is inverted once: what it finds when it commits, and what it writes.  From this
every act of a delivery and every act of a replay is one of a few changes of the state, whatever the
others have done before, and what later modules prove about runs they prove from these.

Main definitions:

* `Atlas.WritesEffect` — how the effect of an event is written;
* `Atlas.TakesClaim`, `Atlas.LosesOwnership`, `Atlas.EndsClaim` — what happens to a claim;
* `Atlas.DeliveryChange`, `Atlas.ReplayChange` — the ways an act changes the state.

Main results:

* `Atlas.recordAndApply_eq_ok`, `Atlas.upsertDeadLetter_eq_ok`, `Atlas.claimReplay_change`,
  `Atlas.applyReplay_change`, `Atlas.recordFailure_change` — the transactions, one by one;
* `Atlas.acts_runOnce`, `Atlas.acts_replay` — **every act is one of these changes**.
-/

import Atlas.ConsumerRunner

set_option relaxedAutoImplicit false
set_option autoImplicit false

namespace Atlas

/-! ### Guards -/

namespace ConsumerTx

variable {p : Prop} [Decidable p] {x y : ConsumerExc} {e : ConsumerEnv} {db db' : ConsumerDb}
  {u : Unit}

@[simp] theorem ensure_eq_ok : ensure p x e db = .ok (u, db') ↔ p ∧ db = db' := by
  by_cases hp : p
  · simp [ensure, hp]
  · simp [ensure, hp]

theorem ensure_eq_error : ensure p x e db = .error y ↔ ¬ p ∧ x = y := by
  by_cases hp : p
  · constructor
    · intro h
      rw [ensure, if_pos hp] at h
      exact absurd h Tx.pure_ne_error
    · rintro ⟨hnot, -⟩
      exact absurd hp hnot
  · simp [ensure, hp, Tx.throw]

/-- Everything a transaction raises has the property. -/
def Raises {α : Type} (P : ConsumerExc → Prop) (t : ConsumerTx α) : Prop :=
  ∀ e db x, t e db = .error x → P x

namespace Raises

variable {α β : Type} {P : ConsumerExc → Prop} {t : ConsumerTx α}

theorem bind {k : α → ConsumerTx β} (ht : Raises P t) (hk : ∀ a, Raises P (k a)) :
    Raises P (t >>= k) := by
  intro e db x h
  rcases Tx.bind_eq_error.1 h with h | ⟨a, db', -, h⟩
  · exact ht e db x h
  · exact hk a e db' x h

theorem pure (a : α) : Raises P (Pure.pure a : ConsumerTx α) :=
  fun _ _ _ h => absurd h Tx.pure_ne_error

theorem read (f : ConsumerDb → α) : Raises P (Tx.read f) :=
  fun _ _ _ h => absurd h Tx.read_ne_error

theorem modify (f : ConsumerDb → ConsumerDb) : Raises P (Tx.modify f) :=
  fun _ _ _ h => absurd h Tx.modify_ne_error

theorem throw {x : ConsumerExc} (h : P x) : Raises P (Tx.throw x : ConsumerTx α) := by
  rintro e db _ ⟨⟩
  exact h

theorem ensure {q : Prop} [Decidable q] {x : ConsumerExc} (h : P x) :
    Raises P (ConsumerTx.ensure q x) := by
  intro e db y hy
  obtain ⟨-, rfl⟩ := ensure_eq_error.1 hy
  exact h

end Raises

end ConsumerTx

open ConsumerTx

section Transactions

variable {e : ConsumerEnv} {db db' : ConsumerDb}

/-! ### The event -/

/-- The `SELECT` of the inbox answers what there is. -/
@[simp] theorem lookUpInbox_eq_ok {consumerId : String} {event : DomainEvent} {recorded : Bool} :
    lookUpInbox consumerId event e db = .ok (recorded, db') ↔
      (db.inbox.lookup (consumerId, event.eventId)).isSome = recorded ∧ db = db' :=
  Tx.read_eq_ok

/-- The `SELECT` of the projection answers what there is. -/
theorem lookUpProjection_eq_ok {event : DomainEvent} {existing : Option ProjectionRow} :
    lookUpProjection event e db = .ok (existing, db') ↔
      storable event.aggregateId = true ∧ db.projection.lookup event.aggregateId = existing ∧
        db = db' := by
  simp only [lookUpProjection, Tx.bind_eq_ok, ensure_eq_ok, Tx.read_eq_ok]
  constructor
  · rintro ⟨_, _, ⟨hstorable, rfl⟩, rfl, rfl⟩
    exact ⟨hstorable, rfl, rfl⟩
  · rintro ⟨hstorable, rfl, rfl⟩
    exact ⟨(), db, ⟨hstorable, rfl⟩, rfl, rfl⟩

/-- What the `SELECT` of the projection raises is an error of the database. -/
theorem lookUpProjection_eq_error {event : DomainEvent} {x : ConsumerExc}
    (h : lookUpProjection event e db = .error x) : ∃ error, x = .database error := by
  rcases Tx.bind_eq_error.1 h with h | ⟨_, _, -, h⟩
  · obtain ⟨-, rfl⟩ := ensure_eq_error.1 h
    exact ⟨_, rfl⟩
  · exact absurd h Tx.read_ne_error

/-- How the effect of an event is written, for the projection row that was seen. -/
structure WritesEffect (existing : Option ProjectionRow) (d : Decision) (db db' : ConsumerDb) : Prop where
  applied : d.applied = true
  new : db.inbox.lookup (d.consumerId, d.event.eventId) = none
  consumer : d.consumerId = allowedConsumerId
  inbox : ∃ row, db'.inbox = db.inbox.insert (d.consumerId, d.event.eventId) row
  projection : ∃ row, db'.projection = db.projection.insert d.event.aggregateId row ∧
    ((existing = none ∧ db.projection.lookup d.event.aggregateId = none ∧
        d.event.aggregateId.length ≤ 128 ∧ row = projectionOf d.event d.at_) ∨
      ∃ seen current, existing = some seen ∧ ¬ seen.lastEventType.Terminal ∧
        db.projection.lookup d.event.aggregateId = some current ∧
        row = seen.set (projectionOf d.event d.at_) current)

/-- An application commits for a new event only, and then with its effect. -/
theorem recordAndApply_eq_ok {view : EventView} {consumerId : String} {event : DomainEvent}
    {kafkaPartition kafkaOffset : ℕ} {at_ : Instant} {outcome : InboxOutcome}
    (h : recordAndApply view consumerId event kafkaPartition kafkaOffset at_ e db
      = .ok (outcome, db')) :
    (outcome = .duplicate ∧ view = .duplicate ∧ db' = db) ∨
      (outcome = .applied ∧ db'.deadLetters = db.deadLetters ∧ db'.attempts = db.attempts ∧
        ∃ existing, view = .fresh existing ∧
          WritesEffect existing ⟨consumerId, event, at_, true⟩ db db') := by
  cases view with
  | duplicate =>
      obtain ⟨rfl, rfl⟩ := Tx.pure_eq_ok.1 h
      exact .inl ⟨rfl, rfl, rfl⟩
  | fresh existing =>
      simp only [recordAndApply, Tx.bind_eq_ok, Tx.read_eq_ok, ensure_eq_ok, Tx.modify_eq_ok,
        Tx.pure_eq_ok] at h
      obtain ⟨_, db₁, hproj, _, _, ⟨rfl, rfl⟩, _, _, ⟨⟨hnew, hconsumer⟩, rfl⟩, _, _, rfl, rfl,
        rfl⟩ := h
      cases existing with
      | none =>
          simp only [applyProjection, Tx.bind_eq_ok, Tx.read_eq_ok, ensure_eq_ok,
            Tx.modify_eq_ok] at hproj
          obtain ⟨_, _, ⟨hlen, rfl⟩, _, _, ⟨rfl, rfl⟩, _, _, ⟨hnone, rfl⟩, rfl⟩ := hproj
          exact .inr ⟨rfl, rfl, rfl, none, rfl, rfl, hnew, hconsumer, ⟨_, rfl⟩, _, rfl,
            .inl ⟨rfl, hnone, hlen, rfl⟩⟩
      | some seen =>
          simp only [applyProjection, Tx.bind_eq_ok, Tx.read_eq_ok, ensure_eq_ok] at hproj
          obtain ⟨_, _, ⟨hterminal, rfl⟩, current, _, ⟨hcurrent, rfl⟩, hproj⟩ := hproj
          cases current with
          | none => exact absurd hproj Tx.throw_ne_ok
          | some row =>
              obtain rfl := Tx.modify_eq_ok.1 hproj
              exact .inr ⟨rfl, rfl, rfl, some seen, rfl, rfl, hnew, hconsumer, ⟨_, rfl⟩, _, rfl,
                .inr ⟨seen, row, rfl, hterminal, hcurrent, rfl⟩⟩

/-- An event is rejected only for a job that was seen to have ended. -/
theorem recordAndApply_eq_poison {view : EventView} {consumerId : String} {event : DomainEvent}
    {kafkaPartition kafkaOffset : ℕ} {at_ : Instant} {error : PoisonError}
    (h : recordAndApply view consumerId event kafkaPartition kafkaOffset at_ e db
      = .error (.poison error)) :
    error = .lifecycleOrderViolation ∧
      ∃ seen, view = .fresh (some seen) ∧ seen.lastEventType.Terminal := by
  cases view with
  | duplicate => exact absurd h Tx.pure_ne_error
  | fresh existing =>
      simp only [recordAndApply, Tx.bind_eq_error, ensure_eq_error] at h
      rcases h with h | ⟨_, _, -, h | ⟨_, _, -, h | ⟨_, _, -, h | ⟨_, _, -, h⟩⟩⟩⟩
      · cases existing with
        | none =>
            simp only [applyProjection, Tx.bind_eq_error, ensure_eq_error] at h
            rcases h with ⟨-, h⟩ | ⟨_, _, -, h | ⟨_, _, -, ⟨-, h⟩ | ⟨_, _, -, h⟩⟩⟩
            · cases h
            · exact absurd h Tx.read_ne_error
            · cases h
            · exact absurd h Tx.modify_ne_error
        | some seen =>
            simp only [applyProjection, Tx.bind_eq_error, ensure_eq_error] at h
            rcases h with ⟨hterminal, h⟩ | ⟨_, _, -, h | ⟨current, _, -, h⟩⟩
            · cases h
              exact ⟨rfl, seen, rfl, not_not.1 hterminal⟩
            · exact absurd h Tx.read_ne_error
            · cases current with
              | none => cases h
              | some row => exact absurd h Tx.modify_ne_error
      · exact absurd h Tx.read_ne_error
      · cases h.2
      · exact absurd h Tx.modify_ne_error
      · exact absurd h Tx.pure_ne_error

/-- What the transactions of an event raise. -/
inductive EventError : ConsumerExc → Prop
  | database (error : DbError) : EventError (.database error)
  | staleData : EventError .staleData
  | inboxConflict : EventError .inboxConflict
  | lifecycleOrderViolation : EventError (.poison .lifecycleOrderViolation)

theorem raises_recordAndApply (view : EventView) (consumerId : String) (event : DomainEvent)
    (kafkaPartition kafkaOffset : ℕ) (at_ : Instant) :
    Raises EventError (recordAndApply view consumerId event kafkaPartition kafkaOffset at_) := by
  have hprojection : ∀ existing, Raises EventError (applyProjection existing event at_) := by
    intro existing
    cases existing with
    | none =>
        exact .bind (.ensure (.database _)) fun _ => .bind (.read _) fun _ =>
          .bind (.ensure (.database _)) fun _ => .modify _
    | some seen =>
        refine .bind (.ensure .lifecycleOrderViolation) fun _ => .bind (.read _) fun current => ?_
        cases current with
        | none => exact .throw .staleData
        | some row => exact .modify _
  cases view with
  | duplicate => exact .pure _
  | fresh existing =>
      exact .bind (hprojection existing) fun _ => .bind (.read _) fun _ =>
        .bind (.ensure .inboxConflict) fun _ => .bind (.modify _) fun _ => .pure _

/-! ### Dead letters -/

theorem writeDeadLetter_eq_ok {id : String} {row : DeadLetterRow} {u : Unit} :
    writeDeadLetter id row e db = .ok (u, db') ↔ CheckConstraint.AllHold deadLetterChecks row ∧
      db' = { db with deadLetters := db.deadLetters.insert id row } := by
  simp only [writeDeadLetter, Tx.bind_eq_ok, ensure_eq_ok, Tx.modify_eq_ok]
  constructor
  · rintro ⟨_, _, ⟨hchecks, rfl⟩, rfl⟩
    exact ⟨hchecks, rfl⟩
  · rintro ⟨hchecks, rfl⟩
    exact ⟨(), db, ⟨hchecks, rfl⟩, rfl⟩

theorem writeAttempts_eq_ok {f : Table String ReplayAttemptRow → Table String ReplayAttemptRow}
    {u : Unit} (h : writeAttempts f e db = .ok (u, db')) :
    db' = { db with attempts := f db.attempts } := by
  simp only [writeAttempts, Tx.bind_eq_ok, Tx.read_eq_ok, ensure_eq_ok, Tx.modify_eq_ok] at h
  obtain ⟨_, _, ⟨rfl, rfl⟩, _, _, ⟨-, rfl⟩, rfl⟩ := h
  rfl

theorem finishAttempt_eq_ok {id : String} {row : ReplayAttemptRow} {status : ReplayAttemptStatus}
    {now : Instant} {u : Unit} (h : finishAttempt id row status now e db = .ok (u, db')) :
    db' = { db with attempts := db.attempts.insert id (row.finish status now) } :=
  writeAttempts_eq_ok h

theorem mapRows_id (t : Table String ReplayAttemptRow) : t.mapRows (fun _ row => row) = t := by
  apply AList.ext
  exact List.map_id t.entries

theorem loseFormerClaim_eq_ok {deadLetterId : String} {token : Option String} {now : Instant}
    {u : Unit} (h : loseFormerClaim deadLetterId token now e db = .ok (u, db')) :
    db' = { db with attempts := loseClaim deadLetterId token now db.attempts } := by
  cases token with
  | none =>
      obtain ⟨-, rfl⟩ := Tx.pure_eq_ok.1 h
      have hsame : loseClaim deadLetterId none now db.attempts = db.attempts := by
        simp only [loseClaim, reduceCtorEq, false_and, and_false, if_false]
        exact mapRows_id db.attempts
      rw [hsame]
  | some token => exact writeAttempts_eq_ok h

/-- A dead letter is written once for each position; the row keeps all but its counters. -/
theorem upsertDeadLetter_eq_ok {consumerId : String} {kafkaPartition kafkaOffset : ℕ}
    {failureCode : String} {processingAttemptCount : ℕ} {at_ : Instant}
    {retention : DeadLetterRetention} {id : String}
    (h : upsertDeadLetter consumerId kafkaPartition kafkaOffset failureCode processingAttemptCount
      at_ retention e db = .ok (id, db')) :
    (∃ old, db.deadLetterAt consumerId kafkaPartition kafkaOffset = some ⟨id, old⟩ ∧
        db' = { db with deadLetters := db.deadLetters.insert id (old.delivered at_) }) ∨
      (db.deadLetterAt consumerId kafkaPartition kafkaOffset = none ∧
        db.deadLetters.lookup id = none ∧
        db' = { db with deadLetters := db.deadLetters.insert id (newDeadLetter consumerId
          kafkaPartition kafkaOffset failureCode processingAttemptCount at_ retention) }) := by
  simp only [upsertDeadLetter, Tx.bind_eq_ok, Tx.reading_eq_ok, Tx.read_eq_ok, ensure_eq_ok] at h
  obtain ⟨newId, _, ⟨rfl, rfl⟩, _, _, ⟨-, rfl⟩, _, _, ⟨-, rfl⟩, _, _, ⟨-, rfl⟩, existing, _,
    ⟨hexisting, rfl⟩, h⟩ := h
  cases existing with
  | none =>
      simp only [Tx.bind_eq_ok, Tx.read_eq_ok, ensure_eq_ok, Tx.pure_eq_ok,
        writeDeadLetter_eq_ok] at h
      obtain ⟨_, _, ⟨rfl, rfl⟩, _, _, ⟨htaken, rfl⟩, _, _, ⟨-, rfl⟩, rfl, rfl⟩ := h
      exact .inr ⟨hexisting, htaken, rfl⟩
  | some entry =>
      obtain ⟨old, row⟩ := entry
      simp only [Tx.bind_eq_ok, Tx.pure_eq_ok, writeDeadLetter_eq_ok] at h
      obtain ⟨_, _, ⟨-, rfl⟩, rfl, rfl⟩ := h
      exact .inl ⟨row, hexisting, rfl⟩

/-! ### Claims -/

/-- What a granted claim finds and writes. -/
structure TakesClaim (leaseSeconds : ℤ) (request : ReplayRequest) (claim : ReplayClaim) (now : Instant)
    (db db' : ConsumerDb) : Prop where
  deadLetter : claim.deadLetterId = request.deadLetterId
  key : storable request.idempotencyKey = true
  first : db.attemptOf request.deadLetterId request.idempotencyKey = none
  fresh : db.attempts.lookup claim.attemptId = none
  row : ∃ row, db.deadLetters.lookup request.deadLetterId = some row ∧ row.eligible now = true ∧
    db'.deadLetters = db.deadLetters.insert request.deadLetterId
      (row.claimedBy claim.ownershipToken leaseSeconds now) ∧
    db'.attempts = (loseClaim request.deadLetterId row.replayClaimToken now db.attempts).insert
      claim.attemptId (request.attempt claim.ownershipToken now)
  inbox : db'.inbox = db.inbox
  projection : db'.projection = db.projection

/-- An attempt in progress loses its ownership. -/
def LosesOwnership (now : Instant) (db db' : ConsumerDb) : Prop :=
  ∃ id attempt, db.attempts.lookup id = some attempt ∧ attempt.status = .inProgress ∧
    db' = { db with attempts := db.attempts.insert id (attempt.finish .lostOwnership now) }

theorem takeClaim_eq_ok {leaseSeconds : ℤ} {request : ReplayRequest} {row : DeadLetterRow}
    {now : Instant} {outcome : ClaimOutcome}
    (hrow : db.deadLetters.lookup request.deadLetterId = some row) (heligible : row.eligible now)
    (hkey : storable request.idempotencyKey = true)
    (hfirst : db.attemptOf request.deadLetterId request.idempotencyKey = none)
    (h : takeClaim leaseSeconds request row now e db = .ok (outcome, db')) :
    ∃ claim, outcome = .claimed claim ∧ TakesClaim leaseSeconds request claim now db db' := by
  simp only [takeClaim, Tx.bind_eq_ok, Tx.reading_eq_ok, Tx.read_eq_ok, ensure_eq_ok,
    Tx.pure_eq_ok] at h
  obtain ⟨_, db₁, hlose, _, _, ⟨rfl, rfl⟩, _, _, ⟨rfl, rfl⟩, _, _, ⟨-, rfl⟩, _, _, ⟨-, rfl⟩, _, _,
    ⟨rfl, rfl⟩, _, _, ⟨htaken, rfl⟩, _, db₂, hattempt, _, db₃, hwrite, rfl, rfl⟩ := h
  obtain rfl := loseFormerClaim_eq_ok hlose
  obtain rfl := writeAttempts_eq_ok hattempt
  obtain ⟨-, rfl⟩ := writeDeadLetter_eq_ok.1 hwrite
  refine ⟨_, rfl, rfl, hkey, hfirst, ?_, ⟨row, hrow, heligible, rfl, rfl⟩, rfl, rfl⟩
  have hmapped : (db.attempts.lookup e.uuid).map _ = none :=
    (Table.lookup_mapRows _ db.attempts e.uuid).symm.trans htaken
  exact Option.map_eq_none_iff.1 hmapped

/-- **The claiming transaction** grants a claim, takes its ownership from an attempt whose lease has
run out, or changes nothing; what it answers says which. -/
theorem claimReplay_change {leaseSeconds : ℤ} {request : ReplayRequest} {outcome : ClaimOutcome}
    (h : claimReplay leaseSeconds request e db = .ok (outcome, db')) :
    (∃ claim, outcome = .claimed claim ∧ TakesClaim leaseSeconds request claim e.now db db') ∨
      (outcome = .expiredSameKey ∧ LosesOwnership e.now db db') ∨
      ((∀ claim, outcome ≠ .claimed claim) ∧ outcome ≠ .expiredSameKey ∧ db' = db) := by
  simp only [claimReplay, Tx.bind_eq_ok, Tx.reading_eq_ok, Tx.read_eq_ok] at h
  obtain ⟨row, _, ⟨hrow, rfl⟩, now, _, ⟨rfl, rfl⟩, h⟩ := h
  cases row with
  | none =>
      obtain ⟨rfl, rfl⟩ := Tx.pure_eq_ok.1 h
      exact .inr (.inr ⟨by intro claim; simp, by simp, rfl⟩)
  | some row =>
      simp only [Tx.bind_eq_ok, Tx.read_eq_ok, ensure_eq_ok] at h
      obtain ⟨_, _, ⟨hkey, rfl⟩, existing, _, ⟨hexisting, rfl⟩, h⟩ := h
      cases existing with
      | some entry =>
          obtain ⟨attemptId, attempt⟩ := entry
          have hattempt := (Table.lookup_of_find hexisting).1
          simp only [] at h
          split at h
          · obtain ⟨rfl, rfl⟩ := Tx.pure_eq_ok.1 h
            exact .inr (.inr ⟨by simp, by simp, rfl⟩)
          · split at h
            · obtain ⟨rfl, rfl⟩ := Tx.pure_eq_ok.1 h
              exact .inr (.inr ⟨by simp, by simp, rfl⟩)
            · next hprogress =>
              split at h
              · obtain ⟨rfl, rfl⟩ := Tx.pure_eq_ok.1 h
                exact .inr (.inr ⟨by simp, by simp, rfl⟩)
              · simp only [Tx.bind_eq_ok, Tx.pure_eq_ok] at h
                obtain ⟨_, _, hfinish, rfl, rfl⟩ := h
                refine .inr (.inl ⟨rfl, attemptId, attempt, hattempt, not_not.1 hprogress, ?_⟩)
                exact finishAttempt_eq_ok hfinish
      | none =>
          simp only [] at h
          split at h
          · obtain ⟨rfl, rfl⟩ := Tx.pure_eq_ok.1 h
            refine .inr (.inr ⟨?_, ?_, rfl⟩)
            · intro claim
              split <;> simp
            · split <;> simp
          · next heligible =>
            obtain ⟨claim, rfl, hclaims⟩ :=
              takeClaim_eq_ok hrow (by simpa using heligible) hkey hexisting h
            exact .inl ⟨claim, rfl, hclaims⟩

/-! ### The end of a claim -/

/-- A claim that is owned: what the locked rows are. -/
theorem owned_eq_some {claim : ReplayClaim} {row : Option DeadLetterRow}
    {attempt : Option ReplayAttemptRow} {now : Instant} {rows : DeadLetterRow × ReplayAttemptRow} :
    claim.owned row attempt now = some rows ↔
      row = some rows.1 ∧ attempt = some rows.2 ∧ claim.owns rows.1 rows.2 now = true := by
  obtain ⟨row', attempt'⟩ := rows
  cases row with
  | none => simp [ReplayClaim.owned]
  | some row =>
      cases attempt with
      | none => simp [ReplayClaim.owned]
      | some attempt =>
          simp only [ReplayClaim.owned]
          split
          · next howns =>
            simp only [Option.some.injEq, Prod.mk.injEq]
            constructor
            · rintro ⟨rfl, rfl⟩
              exact ⟨rfl, rfl, howns⟩
            · rintro ⟨rfl, rfl, -⟩
              exact ⟨rfl, rfl⟩
          · next hnot =>
            simp only [reduceCtorEq, Option.some.injEq, false_iff]
            rintro ⟨rfl, rfl, howns⟩
            exact hnot howns

theorem loseOwnership_eq_ok {claim : ReplayClaim} {now : Instant} {u : Unit}
    (h : loseOwnership claim (db.attempts.lookup claim.attemptId) now e db = .ok (u, db')) :
    db' = db ∨ LosesOwnership now db db' := by
  cases hattempt : db.attempts.lookup claim.attemptId with
  | none =>
      rw [hattempt] at h
      exact .inl (Tx.pure_eq_ok.1 h).2.symm
  | some attempt =>
      simp only [hattempt, loseOwnership] at h
      split at h
      · next hprogress =>
        exact .inr ⟨claim.attemptId, attempt, hattempt, hprogress, finishAttempt_eq_ok h⟩
      · exact .inl (Tx.pure_eq_ok.1 h).2.symm

/-- How a claim ends: its owner gives the attempt and the row their last statuses. -/
structure EndsClaim (claim : ReplayClaim) (status : ReplayAttemptStatus) (state : ReplayState)
    (now : Instant) (row : DeadLetterRow) (db db' : ConsumerDb) : Prop where
  found : db.deadLetters.lookup claim.deadLetterId = some row
  attempt : ∃ attempt, db.attempts.lookup claim.attemptId = some attempt ∧
    claim.owns row attempt now = true ∧
    db'.attempts = db.attempts.insert claim.attemptId (attempt.finish status now)
  deadLetters : db'.deadLetters
    = db.deadLetters.insert claim.deadLetterId (row.settled state now)

@[simp] theorem seenView_eq_ok {view : Option EventView} {view' : EventView} :
    seenView view = .ok view' ↔ view = some view' := by
  cases view <;> simp [seenView]

/-- **The applying transaction** ends its claim with the effect of the event, or as a duplicate, or
finds its ownership lost. -/
theorem applyReplay_change {p : Pydantic} {limit : ℕ} {claim : ReplayClaim}
    {view : Option EventView} {answer : Option ReplayAttemptStatus}
    (h : applyReplay p limit claim view e db = .ok (answer, db')) :
    (answer = none ∧ (db' = db ∨ LosesOwnership e.now db db')) ∨
      ∃ row event view', db.deadLetters.lookup claim.deadLetterId = some row ∧
        retainedEvent p limit row = .ok event ∧ view = some view' ∧
        ((answer = some .duplicate ∧ view' = .duplicate ∧
            EndsClaim claim .duplicate .replayedDuplicate e.now row db db' ∧ db'.inbox = db.inbox ∧
            db'.projection = db.projection) ∨
          (answer = some .applied ∧ EndsClaim claim .applied .replayedApplied e.now row db db' ∧
            ∃ existing, view' = .fresh existing ∧
              WritesEffect existing ⟨row.consumerId, event, e.now, true⟩ db db')) := by
  simp only [applyReplay, Tx.bind_eq_ok, Tx.reading_eq_ok, Tx.read_eq_ok] at h
  obtain ⟨_, _, ⟨rfl, rfl⟩, _, _, ⟨rfl, rfl⟩, _, _, ⟨rfl, rfl⟩, h⟩ := h
  cases howned : claim.owned (db.deadLetters.lookup claim.deadLetterId)
      (db.attempts.lookup claim.attemptId) e.now with
  | none =>
    simp only [howned, Tx.bind_eq_ok, Tx.pure_eq_ok] at h
    obtain ⟨_, _, hlose, rfl, rfl⟩ := h
    exact .inl ⟨rfl, loseOwnership_eq_ok hlose⟩
  | some rows =>
    obtain ⟨row, attempt⟩ := rows
    obtain ⟨hrow, hattempt, howns⟩ := owned_eq_some.1 howned
    simp only [howned, Tx.bind_eq_ok, Tx.lift_eq_ok, Tx.pure_eq_ok, writeDeadLetter_eq_ok,
      seenView_eq_ok] at h
    obtain ⟨event, _, ⟨hevent, rfl⟩, view', _, ⟨hview, rfl⟩, outcome, db₂, hrecord, _, db₃,
      hfinish, _, _, ⟨-, rfl⟩, rfl, rfl⟩ := h
    obtain rfl := finishAttempt_eq_ok hfinish
    refine .inr ⟨row, event, view', hrow, hevent, hview, ?_⟩
    rcases recordAndApply_eq_ok hrecord with ⟨rfl, rfl, rfl⟩ | ⟨rfl, hletters, hattempts, existing,
      rfl, happlied⟩
    · exact .inl ⟨rfl, rfl, ⟨hrow, ⟨attempt, hattempt, howns, rfl⟩, rfl⟩, rfl, rfl⟩
    · refine .inr ⟨rfl, ⟨hrow, ⟨attempt, hattempt, howns, ?_⟩, ?_⟩, existing, rfl, ?_⟩
      · rw [← hattempts]
        rfl
      · rw [← hletters]
        rfl
      · exact ⟨happlied.applied, happlied.new, happlied.consumer, happlied.inbox,
          happlied.projection⟩

/-- **The transaction that records a failure** ends its claim, or finds its ownership lost. -/
theorem recordFailure_change {claim : ReplayClaim} {recorded : Bool}
    (h : recordFailure claim e db = .ok (recorded, db')) :
    (recorded = false ∧ (db' = db ∨ LosesOwnership e.now db db')) ∨
      (recorded = true ∧ (∃ row, EndsClaim claim .failed .replayFailed e.now row db db') ∧
        db'.inbox = db.inbox ∧ db'.projection = db.projection) := by
  simp only [recordFailure, Tx.bind_eq_ok, Tx.reading_eq_ok, Tx.read_eq_ok] at h
  obtain ⟨_, _, ⟨rfl, rfl⟩, _, _, ⟨rfl, rfl⟩, _, _, ⟨rfl, rfl⟩, h⟩ := h
  cases howned : claim.owned (db.deadLetters.lookup claim.deadLetterId)
      (db.attempts.lookup claim.attemptId) e.now with
  | none =>
    simp only [howned, Tx.bind_eq_ok, Tx.pure_eq_ok] at h
    obtain ⟨_, _, hlose, rfl, rfl⟩ := h
    exact .inl ⟨rfl, loseOwnership_eq_ok hlose⟩
  | some rows =>
    obtain ⟨row, attempt⟩ := rows
    obtain ⟨hrow, hattempt, howns⟩ := owned_eq_some.1 howned
    simp only [howned, Tx.bind_eq_ok, Tx.pure_eq_ok, writeDeadLetter_eq_ok] at h
    obtain ⟨_, _, hfinish, _, _, ⟨-, rfl⟩, rfl, rfl⟩ := h
    obtain rfl := finishAttempt_eq_ok hfinish
    exact .inr ⟨rfl, ⟨row, hrow, ⟨attempt, hattempt, howns, rfl⟩, rfl⟩, rfl, rfl⟩

end Transactions

/-! ### Acts -/

/-- **What an act of a delivery changes.** -/
inductive DeliveryChange (w : ConsumerWorld) : ConsumerWorld → Prop
  | nothing : DeliveryChange w w
  /-- The offset of a record is committed. -/
  | offset (kafkaPartition kafkaOffset : ℕ) : DeliveryChange w
      { w with committed := Function.update w.committed kafkaPartition (kafkaOffset + 1) }
  /-- An event is rejected, and its transaction rolled back. -/
  | rejected (d : Decision) (hrejected : d.applied = false) :
      DeliveryChange w { w with history := w.history ++ [d] }
  /-- The event of a record is applied. -/
  | applied (existing : Option ProjectionRow) (d : Decision) (db' : ConsumerDb)
      (heffect : WritesEffect existing d w.db db') (hletters : db'.deadLetters = w.db.deadLetters)
      (hattempts : db'.attempts = w.db.attempts) :
      DeliveryChange w { w with db := db', history := w.history ++ [d] }
  /-- A record is dead-lettered for the first time. -/
  | deadLettered (id consumerId : String) (kafkaPartition kafkaOffset : ℕ) (failureCode : String)
      (processingAttemptCount : ℕ) (at_ : Instant) (retention : DeadLetterRetention)
      (hfirst : w.db.deadLetterAt consumerId kafkaPartition kafkaOffset = none)
      (hfresh : w.db.deadLetters.lookup id = none) : DeliveryChange w
      { w with db := { w.db with deadLetters := w.db.deadLetters.insert id (newDeadLetter consumerId
        kafkaPartition kafkaOffset failureCode processingAttemptCount at_ retention) } }
  /-- A record is dead-lettered again. -/
  | redelivered (id : String) (old : DeadLetterRow) (at_ : Instant)
      (hold : w.db.deadLetters.lookup id = some old) : DeliveryChange w
      { w with db := { w.db with
        deadLetters := w.db.deadLetters.insert id (old.delivered at_) } }

/-- **What an act of a replay changes**, in its environment.  `p` and `limit` say which event a dead
letter retains. -/
inductive ReplayChange (p : Pydantic) (limit : ℕ) (e : ConsumerEnv) (w : ConsumerWorld) :
    ConsumerWorld → Prop
  | nothing : ReplayChange p limit e w w
  /-- A retained event is rejected, and its transaction rolled back. -/
  | rejected (d : Decision) (hrejected : d.applied = false) : ReplayChange p limit e w
      { w with history := w.history ++ [d] }
  /-- An operator claims a dead letter. -/
  | claimed (leaseSeconds : ℤ) (request : ReplayRequest) (claim : ReplayClaim) (db' : ConsumerDb)
      (htakes : TakesClaim leaseSeconds request claim e.now w.db db') : ReplayChange p limit e w
      { w with db := db' }
  /-- An attempt loses its ownership. -/
  | lost (db' : ConsumerDb) (hloses : LosesOwnership e.now w.db db') : ReplayChange p limit e w
      { w with db := db' }
  /-- A claim ends without an effect. -/
  | ended (claim : ReplayClaim) (status : ReplayAttemptStatus) (state : ReplayState)
      (row : DeadLetterRow) (db' : ConsumerDb)
      (hstatus : (status = .duplicate ∧ state = .replayedDuplicate) ∨
        (status = .failed ∧ state = .replayFailed))
      (hends : EndsClaim claim status state e.now row w.db db') (hinbox : db'.inbox = w.db.inbox)
      (hprojection : db'.projection = w.db.projection) : ReplayChange p limit e w
      { w with db := db' }
  /-- A claim ends with the effect of the event its dead letter retains. -/
  | replayed (claim : ReplayClaim) (row : DeadLetterRow) (existing : Option ProjectionRow)
      (event : DomainEvent) (db' : ConsumerDb) (hevent : retainedEvent p limit row = .ok event)
      (heffect : WritesEffect existing ⟨row.consumerId, event, e.now, true⟩ w.db db')
      (hends : EndsClaim claim .applied .replayedApplied e.now row w.db db') :
      ReplayChange p limit e w
      { w with db := db', history := w.history ++ [⟨row.consumerId, event, e.now, true⟩] }

section Acts

variable {α : Type} {R : ConsumerEnv → ConsumerWorld → ConsumerWorld → Prop} {judge : Judge α}
  {t : ConsumerTx α}

/-- What a session changes, when it commits and when its body raises. -/
structure SessionActs (R : ConsumerEnv → ConsumerWorld → ConsumerWorld → Prop) (judge : Judge α)
    (t : ConsumerTx α) : Prop where
  ok : ∀ e w a db', t e w.db = .ok (a, db') →
    R e w { w with db := db', history := w.history ++ (judge e w.db (.ok a)).toList }
  error : ∀ e w x, t e w.db = .error x →
    R e w { w with history := w.history ++ (judge e w.db (.error x)).toList }

/-- A session that decides on no event changes what its commits do. -/
theorem SessionActs.quietly (hnothing : ∀ e w, R e w w)
    (hok : ∀ e w a db', t e w.db = .ok (a, db') → R e w { w with db := db' }) :
    SessionActs R Atlas.quietly t where
  ok e w a db' h := by simpa [Atlas.quietly] using hok e w a db' h
  error e w x _ := by simpa [Atlas.quietly] using hnothing e w

theorem SessionActs.acts (h : SessionActs R judge t) (hnothing : ∀ e w, R e w w) :
    (session judge t).Acts R := by
  refine Program.acts_act.2 fun e w => ⟨?_, .lift _⟩
  rw [sessionUpdate]
  split
  · exact hnothing e w
  · cases hrun : t e w.db with
    | error x =>
        rw [Tx.commit_of_error hrun]
        exact h.error e w x hrun
    | ok r =>
        rw [Tx.commit_of_ok hrun]
        exact h.ok e w r.1 r.2 hrun

theorem acts_backOff (cfg : ConsumerConfig) {deadlineAt : ℚ} {i : ℕ}
    (hnothing : ∀ e w, R e w w) : (backOff cfg.ops cfg deadlineAt i).Acts R := by
  rw [backOff]
  refine .bind (.reading hnothing) fun now => ?_
  split
  · refine .bind (.reading hnothing) fun shutdown => ?_
    split
    · exact .raise _
    · exact .ret _
  · exact .raise _

/-- A retried program acts as its attempts do. -/
theorem acts_retrying (cfg : ConsumerConfig) {deadlineAt : ℚ} {transient : ConsumerExc → Bool}
    {permanent exhausted : ConsumerExc → ConsumerExc} {attempt : ℕ → ConsumerProgram α}
    (hnothing : ∀ e w, R e w w) (hattempt : ∀ i, (attempt i).Acts R) (remaining i : ℕ) :
    (retrying cfg.ops cfg deadlineAt transient permanent exhausted attempt remaining i).Acts R := by
  induction remaining generalizing i with
  | zero =>
      rw [retrying]
      refine .bind (.reading hnothing) fun now => ?_
      split
      · refine .bind (hattempt i).attempt fun answer => ?_
        cases answer with
        | ok a => exact .ret a
        | error x =>
            simp only []
            split
            · exact .raise _
            · exact .raise _
      · exact .raise _
  | succ remaining ih =>
      rw [retrying]
      refine .bind (.reading hnothing) fun now => ?_
      split
      · refine .bind (hattempt i).attempt fun answer => ?_
        cases answer with
        | ok a => exact .ret a
        | error x =>
            simp only []
            split
            · exact .raise _
            · exact .bind (acts_backOff cfg hnothing) fun _ => ih (i + 1)
      · exact .raise _

end Acts

/-! ### Among others -/

section Among

variable {α : Type} {le G : ConsumerWorld → ConsumerWorld → Prop} {A : ConsumerWorld → Prop}
  {Q : α → ConsumerWorld → Prop} {X X' : ConsumerExc → ConsumerWorld → Prop} {judge : Judge α}
  {t : ConsumerTx α}

/-- The rule for a session: what it does when it commits, whether its answer arrives or not, and
when it is rolled back. -/
theorem triple_session (hA : ∀ w w', le w w' → A w → A w')
    (hrolledBack : ∀ w error, A w → G w w ∧ X (.database error) w)
    (hok : ∀ e w a db', A w → t e w.db = .ok (a, db') → ∀ w',
      w' = { w with db := db', history := w.history ++ (judge e w.db (.ok a)).toList } →
      G w w' ∧ Q a w' ∧ ∀ error, X (.database error) w')
    (herror : ∀ e w x, A w → t e w.db = .error x → ∀ w',
      w' = { w with history := w.history ++ (judge e w.db (.error x)).toList } →
      G w w' ∧ X x w') :
    Program.Triple le G A (session judge t) Q X := by
  refine fun w hw => Program.complies_act.2 fun e w' hle => ?_
  have hw' := hA w w' hle hw
  rw [sessionUpdate, sessionAnswer]
  cases hrolled : e.rolledBack with
  | some error =>
      obtain ⟨hG, hX⟩ := hrolledBack w' error hw'
      exact ⟨hG, Program.complies_raise.2 hX⟩
  | none =>
      simp only [Option.isSome_none, Bool.false_eq_true, if_false]
      cases h : t e w'.db with
      | error x =>
          rw [Tx.commit_of_error h]
          obtain ⟨hG, hX⟩ := herror e w' x hw' h _ rfl
          exact ⟨hG, Program.complies_raise.2 hX⟩
      | ok r =>
          rw [Tx.commit_of_ok h]
          obtain ⟨hG, hQ, hX⟩ := hok e w' r.1 r.2 hw' h _ rfl
          refine ⟨hG, ?_⟩
          cases hlost : e.unacknowledged with
          | none => exact Program.complies_ret.2 hQ
          | some error => exact Program.complies_raise.2 (hX error)

/-- The rule for a statement that only reads: its answer is about the tables as they are when it
runs. -/
theorem triple_read (hA : ∀ w w', le w w' → A w → A w') (hG : ∀ w, A w → G w w)
    (hok : ∀ e w a db', A w → t e w.db = .ok (a, db') → db' = w.db ∧ Q a w)
    (herror : ∀ e w x, A w → t e w.db = .error x → ∃ error, x = .database error)
    (hX : ∀ w error, A w → X (.database error) w) :
    Program.Triple le G A (session quietly t) Q X := by
  refine triple_session hA (fun w error h => ⟨hG w h, hX w error h⟩) ?_ ?_
  · intro e w a db' hw h w' hw'
    obtain ⟨rfl, hQ⟩ := hok e w a db' hw h
    obtain rfl : w' = w := by simpa [quietly] using hw'
    exact ⟨hG w' hw, hQ, fun error => hX w' error hw⟩
  · intro e w x hw h w' hw'
    obtain rfl : w' = w := by simpa [quietly] using hw'
    obtain ⟨error, rfl⟩ := herror e w' x hw h
    exact ⟨hG w' hw, hX w' error hw⟩

/-- **The rule for the lookups of an event.**  The second one sees what there is after the first
found no row, whatever the others did in between. -/
theorem triple_lookUpEvent {B : ConsumerWorld → Prop} {Q : EventView → ConsumerWorld → Prop}
    {consumerId : String} {event : DomainEvent} (hA : ∀ w w', le w w' → A w → A w')
    (hB : ∀ w w', le w w' → B w → B w') (hG : ∀ w, A w → G w w) (hG' : ∀ w, B w → G w w)
    (hduplicate : ∀ w, A w → (w.db.inbox.lookup (consumerId, event.eventId)).isSome →
      Q .duplicate w)
    (hnew : ∀ w, A w → w.db.inbox.lookup (consumerId, event.eventId) = none → B w)
    (hfresh : ∀ w, B w → Q (.fresh (w.db.projection.lookup event.aggregateId)) w)
    (hX : ∀ w error, A w → X (.database error) w) (hX' : ∀ w error, B w → X (.database error) w) :
    Program.Triple le G A (lookUpEvent consumerId event) Q X := by
  have hinbox : Program.Triple le G A (session quietly (lookUpInbox consumerId event))
      (fun recorded w => if recorded then Q .duplicate w else B w) X := by
    refine triple_read hA hG ?_ (fun e w x _ h => absurd h Tx.read_ne_error) hX
    intro e w recorded db' hw h
    obtain ⟨rfl, rfl⟩ := lookUpInbox_eq_ok.1 h
    refine ⟨rfl, ?_⟩
    split
    · next hsome => exact hduplicate w hw hsome
    · next hnone => exact hnew w hw (by simpa using hnone)
  have hprojection : Program.Triple le G B (session quietly (lookUpProjection event))
      (fun existing => Q (.fresh existing)) X := by
    refine triple_read hB hG' ?_ (fun e w x _ h => lookUpProjection_eq_error h) hX'
    intro e w existing db' hw h
    obtain ⟨-, rfl, rfl⟩ := lookUpProjection_eq_ok.1 h
    exact ⟨rfl, hfresh w hw⟩
  refine .bind hinbox fun recorded => ?_
  cases recorded with
  | true => exact .ret fun _ h => h
  | false => exact .bind (.pre hprojection fun _ h => h) fun existing => .ret fun _ h => h

/-- The rule for retries: an attempt starts where the one before has left off. -/
theorem triple_retrying (cfg : ConsumerConfig) {deadlineAt : ℚ}
    {transient : ConsumerExc → Bool} {permanent exhausted : ConsumerExc → ConsumerExc}
    {attempt : ℕ → ConsumerProgram α} (hA : ∀ w w', le w w' → A w → A w') (hG : ∀ w, A w → G w w)
    (hattempt : ∀ i, Program.Triple le G A (attempt i) Q X')
    (hagain : ∀ x w, transient x = true → X' x w → A w)
    (hpermanent : ∀ x w, transient x = false → X' x w → X (permanent x) w)
    (hexhausted : ∀ x w, transient x = true → X' x w → X (exhausted x) w)
    (hdeadline : ∀ w, A w → X .processingDeadlineExceeded w)
    (hshutdown : ∀ w, A w → X .shutdownRequested w) (remaining i : ℕ) :
    Program.Triple le G A
      (retrying cfg.ops cfg deadlineAt transient permanent exhausted attempt remaining i) Q X := by
  have hreading : ∀ {β : Type} {f : ConsumerEnv → β},
      Program.Triple le G A (Program.reading f : ConsumerProgram β) (fun _ => A) X :=
    .reading hA hG fun _ _ h => h
  have hbackOff : ∀ i, Program.Triple le G A (backOff cfg.ops cfg deadlineAt i) (fun _ => A) X := by
    intro i
    rw [backOff]
    refine .bind hreading fun now => ?_
    split
    · refine .bind hreading fun shutdown => ?_
      split
      · exact .raise hshutdown
      · exact .ret fun _ h => h
    · exact .raise hdeadline
  have htry : ∀ i, Program.Triple le G A (attempt i).attempt (Program.Answered Q X') X :=
    fun i => (hattempt i).answered
  induction remaining generalizing i with
  | zero =>
      rw [retrying]
      refine .bind hreading fun now => ?_
      split
      · refine .bind (htry i) fun answer => ?_
        cases answer with
        | ok a => exact .ret fun _ h => h
        | error x =>
            simp only []
            split
            · next hnot => exact .raise fun w h => hpermanent x w hnot h
            · next htransient =>
              exact .raise fun w h => hexhausted x w (by simpa using htransient) h
      · exact .raise hdeadline
  | succ remaining ih =>
      rw [retrying]
      refine .bind hreading fun now => ?_
      split
      · refine .bind (htry i) fun answer => ?_
        cases answer with
        | ok a => exact .ret fun _ h => h
        | error x =>
            simp only []
            split
            · next hnot => exact .raise fun w h => hpermanent x w hnot h
            · next htransient =>
              refine .bind (.pre (hbackOff i) ?_) fun _ => ih (i + 1)
              exact fun w h => hagain x w (by simpa using htransient) h
      · exact .raise hdeadline

end Among

/-! ### The programs -/

section Programs

variable {p : Pydantic} {limit : ℕ} {cfg : ConsumerConfig}

/-- The acts of deliveries, in every environment. -/
abbrev DeliveryActs (_ : ConsumerEnv) (w w' : ConsumerWorld) : Prop := DeliveryChange w w'

/-- The acts of replays. -/
abbrev OperatorActs (cfg : ConsumerConfig) (e : ConsumerEnv) (w w' : ConsumerWorld) : Prop :=
  ReplayChange cfg.pydantic cfg.recursionLimit e w w'

/-- The acts of the lookups change nothing. -/
theorem acts_lookUpEvent {R : ConsumerEnv → ConsumerWorld → ConsumerWorld → Prop}
    (hR : ∀ e w, R e w w) (consumerId : String) (event : DomainEvent) :
    (lookUpEvent consumerId event).Acts R := by
  refine .bind (SessionActs.acts (.quietly hR ?_) hR) fun recorded => ?_
  · intro e w recorded db' h
    obtain ⟨-, rfl⟩ := lookUpInbox_eq_ok.1 h
    exact hR e w
  · split
    · exact .ret _
    · refine .bind (SessionActs.acts (.quietly hR ?_) hR) fun existing => .ret _
      intro e w existing db' h
      obtain ⟨-, -, rfl⟩ := lookUpProjection_eq_ok.1 h
      exact hR e w

theorem changes_recordAndApply (view : EventView) (consumerId : String) (event : DomainEvent)
    (kafkaPartition kafkaOffset : ℕ) (at_ : Instant) :
    SessionActs DeliveryActs (judgeDelivery consumerId event at_)
      (recordAndApply view consumerId event kafkaPartition kafkaOffset at_) := by
  constructor
  · intro e w outcome db' h
    rcases recordAndApply_eq_ok h with ⟨rfl, -, rfl⟩ | ⟨rfl, hletters, hattempts, existing, -,
      happlied⟩
    · simpa [judgeDelivery] using DeliveryChange.nothing
    · exact .applied existing _ db' happlied hletters hattempts
  · intro e w x h
    simp only [judgeDelivery]
    split
    · next heq => cases heq
    · exact .rejected _ rfl
    · simpa using DeliveryChange.nothing

theorem acts_applyOnce (event : DomainEvent) (kafkaPartition kafkaOffset : ℕ) (at_ : Instant)
    (i : ℕ) : (applyOnce cfg.ops event kafkaPartition kafkaOffset at_ i).Acts
      DeliveryActs := by
  refine .bind (.attempt (.bind (acts_lookUpEvent (fun _ _ => .nothing) _ event) fun view =>
    (changes_recordAndApply view _ event kafkaPartition kafkaOffset at_).acts
      fun _ _ => .nothing)) fun answer => ?_
  split
  · exact .ret _
  · exact .ret _
  · exact .raise _

theorem acts_commitMessage (kafkaPartition kafkaOffset : ℕ) :
    (commitMessage kafkaPartition kafkaOffset).Acts DeliveryActs := by
  refine Program.acts_act.2 fun e w => ⟨?_, ?_⟩
  · split
    · exact .offset kafkaPartition kafkaOffset
    · exact .nothing
  · split
    · exact .ret _
    · exact .raise _
    · exact .raise _

theorem changes_upsertDeadLetter (consumerId : String) (kafkaPartition kafkaOffset : ℕ)
    (failureCode : String) (processingAttemptCount : ℕ) (at_ : Instant)
    (retention : DeadLetterRetention) :
    SessionActs DeliveryActs quietly (upsertDeadLetter consumerId kafkaPartition kafkaOffset
      failureCode processingAttemptCount at_ retention) := by
  refine .quietly (fun _ _ => .nothing) ?_
  intro e w id db' h
  rcases upsertDeadLetter_eq_ok h with ⟨old, hold, rfl⟩ | ⟨hfirst, hfresh, rfl⟩
  · exact .redelivered id old at_ (Table.lookup_of_find hold).1
  · exact .deadLettered id consumerId kafkaPartition kafkaOffset failureCode
      processingAttemptCount at_ retention hfirst hfresh

theorem acts_commitWithRetry (kafkaPartition kafkaOffset : ℕ) (deadlineAt : ℚ) :
    (commitWithRetry cfg.ops cfg kafkaPartition kafkaOffset deadlineAt).Acts DeliveryActs :=
  acts_retrying cfg (fun _ _ => .nothing) (fun _ => acts_commitMessage kafkaPartition kafkaOffset)
    _ _

theorem acts_deadLetterAndCommit (error : PoisonError) (message : KafkaMessage)
    (event : Option DomainEvent) (kafkaPartition kafkaOffset : ℕ) (at_ : Instant)
    (processingAttemptCount : ℕ) (deadlineAt : ℚ) :
    (deadLetterAndCommit cfg.ops cfg error message event kafkaPartition kafkaOffset at_
      processingAttemptCount deadlineAt).Acts DeliveryActs := by
  refine .bind (acts_retrying cfg (fun _ _ => .nothing) (fun _ =>
    (changes_upsertDeadLetter _ _ _ _ _ _ _).acts fun _ _ => .nothing) _ _) fun _ => ?_
  refine .bind (acts_commitWithRetry _ _ _).attempt fun answer => ?_
  split
  · exact .ret _
  · exact .raise _
  · exact .raise _
  · exact .raise _

theorem acts_processRecord (message : KafkaMessage) (kafkaPartition kafkaOffset : ℕ) :
    (processRecord cfg.ops cfg message kafkaPartition kafkaOffset).Acts DeliveryActs := by
  refine .bind (.reading fun _ _ => .nothing) fun at_ => ?_
  split
  · refine .bind (acts_retrying cfg (fun _ _ => .nothing) (acts_applyOnce _ _ _ _) _ _)
      fun answer => ?_
    cases answer with
    | inl outcome => exact .bind (acts_commitWithRetry _ _ _) fun _ => .ret _
    | inr poison => exact acts_deadLetterAndCommit _ _ _ _ _ _ _ _
  · exact acts_deadLetterAndCommit _ _ _ _ _ _ _ _
  · exact .raise _

/-- **Every act of a delivery is one of the changes.** -/
theorem acts_runOnce (polled : Polled) : (runOnce cfg.ops cfg polled).Acts DeliveryActs := by
  cases polled with
  | nothing => exact .ret _
  | brokerError recoverable => cases recoverable <;> exact .raise _
  | record kafkaPartition kafkaOffset message =>
      cases kafkaPartition with
      | none => exact .raise _
      | some kafkaPartition =>
          cases kafkaOffset with
          | none => exact .raise _
          | some kafkaOffset => exact acts_processRecord message kafkaPartition kafkaOffset

theorem acts_pollLoop (log : ℕ → ℕ → KafkaMessage) (polls : ℕ) (position : ℕ → ℕ) :
    (pollLoop cfg log polls position).Acts DeliveryActs := by
  induction polls generalizing position with
  | zero => exact .ret _
  | succ polls ih =>
      rw [pollLoop]
      refine .bind (.reading fun _ _ => .nothing) fun shutdown => ?_
      split
      · exact .ret _
      · refine .bind (.reading fun _ _ => .nothing) fun answer => ?_
        refine .bind (acts_runOnce _).attempt fun outcome => ?_
        split
        · exact ih _
        · refine .bind (.reading fun _ _ => .nothing) fun shutdown => ?_
          split
          · exact .ret _
          · exact ih _
        · exact .ret _
        · exact .raise _

theorem changes_recordFailure (claim : ReplayClaim) :
    SessionActs (ReplayChange p limit) quietly (recordFailure claim) := by
  refine .quietly (fun _ _ => .nothing) ?_
  intro e w recorded db' h
  rcases recordFailure_change h with ⟨-, rfl | hloses⟩ | ⟨-, ⟨row, hends⟩, hinbox, hprojection⟩
  · exact .nothing
  · exact .lost db' hloses
  · exact .ended claim .failed .replayFailed row db' (.inr ⟨rfl, rfl⟩) hends hinbox hprojection

/-- A dead letter retains an event exactly if its retained text is parsed as it. -/
theorem retainedEvent_eq_ok {row : DeadLetterRow} {event : DomainEvent} :
    retainedEvent p limit row = .ok event ↔ ∃ text,
      row.retention.retainedCanonicalValue = some text ∧ parseRetained p limit text = some event := by
  rw [retainedEvent]
  cases row.retention.retainedCanonicalValue with
  | none => simp
  | some text =>
      simp only [Option.some.injEq, exists_eq_left', parseRetained]
      cases Python.Json.loads limit text with
      | error x => simp
      | ok v => cases hparse : parseDomainEventJson p v <;> simp [hparse]

/-- Reading a dead letter answers what it retains, if it retains an event. -/
theorem readRetained_eq_ok {deadLetterId : String} {e : ConsumerEnv} {db db' : ConsumerDb}
    {retained : Option (String × DomainEvent)}
    (h : readRetained p limit deadLetterId e db = .ok (retained, db')) :
    db' = db ∧ ∀ consumerId event, retained = some (consumerId, event) → ∃ row,
      db.deadLetters.lookup deadLetterId = some row ∧ row.consumerId = consumerId ∧
        retainedEvent p limit row = .ok event := by
  simp only [readRetained, Tx.bind_eq_ok, Tx.read_eq_ok] at h
  obtain ⟨row, _, ⟨hrow, rfl⟩, h⟩ := h
  cases row with
  | none =>
      obtain ⟨rfl, rfl⟩ := Tx.pure_eq_ok.1 h
      exact ⟨rfl, by simp⟩
  | some row =>
      simp only [] at h
      cases hevent : retainedEvent p limit row with
      | error x =>
          rw [hevent] at h
          obtain ⟨rfl, rfl⟩ := Tx.pure_eq_ok.1 h
          exact ⟨rfl, by simp⟩
      | ok event =>
          rw [hevent] at h
          obtain ⟨rfl, rfl⟩ := Tx.pure_eq_ok.1 h
          refine ⟨rfl, ?_⟩
          rintro consumerId event' ⟨⟩
          exact ⟨row, hrow, rfl, hevent⟩

/-- Reading a dead letter raises nothing of its own. -/
theorem readRetained_ne_error {deadLetterId : String} {e : ConsumerEnv} {db : ConsumerDb}
    {x : ConsumerExc} : readRetained p limit deadLetterId e db ≠ .error x := by
  intro h
  rcases Tx.bind_eq_error.1 h with h | ⟨row, _, -, h⟩
  · exact absurd h Tx.read_ne_error
  · cases row with
    | none => exact absurd h Tx.pure_ne_error
    | some row =>
        simp only [] at h
        cases hevent : retainedEvent p limit row with
        | error x => exact absurd (hevent ▸ h) Tx.pure_ne_error
        | ok event => exact absurd (hevent ▸ h) Tx.pure_ne_error

theorem changes_applyReplay (claim : ReplayClaim) (view : Option EventView) :
    SessionActs (OperatorActs cfg) (judgeReplay cfg claim)
      (applyReplay cfg.pydantic cfg.recursionLimit claim view) := by
  constructor
  · intro e w answer db' h
    rcases applyReplay_change h with ⟨rfl, rfl | hloses⟩ | ⟨row, event, view', hrow, hevent, -,
      ⟨rfl, -, hends, hinbox, hprojection⟩ | ⟨rfl, hends, existing, -, happlied⟩⟩
    · simpa [judgeReplay] using ReplayChange.nothing
    · simpa [judgeReplay] using ReplayChange.lost db' hloses
    · have hjudge : judgeReplay cfg claim e w.db (.ok (some .duplicate)) = none := by
        rw [judgeReplay, hrow, Option.bind_some, hevent]
      rw [hjudge, Option.toList_none, List.append_nil]
      exact .ended claim .duplicate .replayedDuplicate row db' (.inl ⟨rfl, rfl⟩) hends hinbox
        hprojection
    · have hjudge : judgeReplay cfg claim e w.db (.ok (some .applied))
          = some ⟨row.consumerId, event, e.now, true⟩ := by
        rw [judgeReplay, hrow, Option.bind_some, hevent]
      rw [hjudge, Option.toList_some]
      exact .replayed claim row existing event db' hevent happlied hends
  · intro e w x _
    cases hdecision : judgeReplay cfg claim e w.db (.error x) with
    | none => simpa using ReplayChange.nothing
    | some d =>
        rw [Option.toList_some]
        refine .rejected d ?_
        rw [judgeReplay, Option.bind_eq_some_iff] at hdecision
        obtain ⟨row, -, hdecision⟩ := hdecision
        split at hdecision
        · next heq => cases heq
        · cases hdecision
          rfl
        · cases hdecision

theorem changes_claimReplay (leaseSeconds : ℤ) (request : ReplayRequest) :
    SessionActs (ReplayChange p limit) quietly (claimReplay leaseSeconds request) := by
  refine .quietly (fun _ _ => .nothing) ?_
  intro e w outcome db' h
  rcases claimReplay_change h with ⟨claim, -, hclaims⟩ | ⟨-, hloses⟩ | ⟨-, -, rfl⟩
  · exact .claimed leaseSeconds request claim db' hclaims
  · exact .lost db' hloses
  · exact .nothing

/-- The acts of the lookups of a retained event change nothing. -/
theorem acts_lookUpRetained {R : ConsumerEnv → ConsumerWorld → ConsumerWorld → Prop}
    (hR : ∀ e w, R e w w) (deadLetterId : String) :
    (lookUpRetained cfg deadLetterId).Acts R := by
  refine .bind (SessionActs.acts (.quietly hR ?_) hR) fun retained => ?_
  · intro e w retained db' h
    obtain ⟨rfl, -⟩ := readRetained_eq_ok h
    exact hR e w
  · split
    · exact .ret _
    · exact .bind (acts_lookUpEvent hR _ _) fun view => .ret _

/-- **Every act of a replay is one of the changes.** -/
theorem acts_replay (leaseSeconds : ℤ) (request : ReplayRequest) :
    (replayProgram cfg leaseSeconds request).Acts (OperatorActs cfg) := by
  refine .bind ((changes_claimReplay _ _).acts fun _ _ => .nothing) fun outcome => ?_
  split
  · exact .raise _
  · exact .raise _
  · exact .raise _
  · exact .raise _
  · exact .raise _
  · exact .ret _
  · exact .ret _
  · next claim =>
    refine .bind (.attempt (.bind (acts_lookUpRetained (fun _ _ => .nothing) _)
      fun view => (changes_applyReplay claim view).acts fun _ _ => .nothing)) fun answer => ?_
    split
    · exact .ret _
    · exact .raise _
    · split
      · refine .bind ((changes_recordFailure claim).acts fun _ _ => .nothing) fun recorded => ?_
        split
        · exact .ret _
        · exact .raise _
      · exact .raise _

end Programs

end Atlas
