/-
**The consumer and the operators.**

Any number of consumer processes poll the partitions and any number of operators replay dead
letters, each act at any time and in any environment: transactions fail, answers get lost, the
broker refuses offsets or keeps what it refused, leases run out, and processes are stopped anywhere
and start again from any position that is committed.

Main definitions:

* `Atlas.consumerSpec` — the processes there are;
* `Atlas.ConsumerSound` — what holds of every reachable state.

Main results:

* `Atlas.consumer_conduct` — all tasks comply with the guarantees of `Atlas.DeliveryEffects` and
  `Atlas.ReplayFencing`;
* `Atlas.consumer_exactly_once` — **effects are applied once and offsets are committed after them**;
* `Atlas.replay_fencing` — **the attempts of a dead letter are fenced**.
-/

import Atlas.CodecRoundTrip
import Atlas.DeliveryEffects
import Atlas.TaskPool

set_option relaxedAutoImplicit false
set_option autoImplicit false

namespace Atlas

/-- The kinds of tasks. -/
inductive ConsumerTask where
  | consumer
  | operator
  deriving DecidableEq, Repr

/-- The tables before the first record. -/
def ConsumerWorld.empty : ConsumerWorld := {}

/-- Consumer processes that start at committed positions, and operators with their requests. -/
def consumerSpec (cfg : ConsumerConfig) (log : ℕ → ℕ → KafkaMessage) :
    PoolSpec ConsumerEnv ConsumerWorld ConsumerExc Unit ConsumerTask where
  init w := w = .empty
  starts s task program :=
    match task with
    | .consumer => ∃ polls position,
        (∀ kafkaPartition, position kafkaPartition ≤ s.world.committed kafkaPartition) ∧
          program = pollLoop cfg log polls position
    | .operator => ∃ leaseSeconds request,
        program = replayProgram cfg leaseSeconds request >>= fun _ => pure ()
  allows _ _ := True

variable {cfg : ConsumerConfig} {log : ℕ → ℕ → KafkaMessage} {w w' : ConsumerWorld}

/-- What holds of every reachable state. -/
structure ConsumerSound (cfg : ConsumerConfig) (log : ℕ → ℕ → KafkaMessage)
    (w : ConsumerWorld) : Prop where
  effects : EffectsOnce w
  fenced : Fenced w.db
  committed : CoveredBelow cfg log w.committed w.db

/-- What a task guarantees. -/
def TaskGuarantee (cfg : ConsumerConfig) (log : ℕ → ℕ → KafkaMessage) :
    ConsumerTask → ConsumerWorld → ConsumerWorld → Prop
  | .consumer => ConsumerGuarantee cfg log
  | .operator => OperatorGuarantee cfg

theorem ReplayChange.committed {p : Pydantic} {limit : ℕ} {e : ConsumerEnv}
    (h : ReplayChange p limit e w w') : w'.committed = w.committed := by
  cases h <;> rfl

theorem TaskGuarantee.later {task : ConsumerTask} (h : TaskGuarantee cfg log task w w') :
    ConsumerLater w w' := by
  cases task with
  | consumer => exact .delivery h.change
  | operator =>
      obtain ⟨⟨e, hchange⟩, -⟩ := h
      exact .replay hchange

/-- Every guarantee keeps what holds of reachable states. -/
theorem TaskGuarantee.sound {task : ConsumerTask} (h : TaskGuarantee cfg log task w w')
    (hs : ConsumerSound cfg log w) : ConsumerSound cfg log w' := by
  have hlater := h.later
  cases task with
  | consumer =>
      refine ⟨hs.effects.delivery h.change, hs.fenced.delivery h.change, ?_⟩
      intro kafkaPartition kafkaOffset hlt
      rcases h.commits kafkaPartition with hsame | ⟨last, hlast, hcovered⟩
      · rw [hsame] at hlt
        exact (hs.committed _ _ hlt).later hlater
      · rw [hlast] at hlt
        exact (hcovered kafkaOffset (Nat.lt_succ_iff.1 hlt)).later hlater
  | operator =>
      obtain ⟨⟨e, hchange⟩, hends⟩ := h
      refine ⟨hs.effects.replay hchange, hs.fenced.replay hchange hends, ?_⟩
      rw [hchange.committed]
      exact hs.committed.later hlater

/-- **All tasks comply.** -/
theorem consumer_conduct (cfg : ConsumerConfig) (log : ℕ → ℕ → KafkaMessage) :
    PoolSpec.Conduct (consumerSpec cfg log) (ConsumerSound cfg log) (fun _ => ConsumerLater)
      (TaskGuarantee cfg log) (fun _ _ _ => True) (fun _ _ _ => True) fun _ _ => True where
  init := by
    rintro w rfl
    refine ⟨effectsOnce_empty, fenced_empty, ?_⟩
    intro kafkaPartition kafkaOffset hlt
    exact absurd hlt (Nat.not_lt_zero _)
  starts := by
    intro s task program hstart hs
    cases task with
    | consumer =>
        obtain ⟨polls, position, hposition, rfl⟩ := hstart
        refine triple_pollLoop polls s.world ?_
        intro kafkaPartition kafkaOffset hlt
        exact hs.committed _ _ (Nat.lt_of_lt_of_le hlt (hposition kafkaPartition))
    | operator =>
        obtain ⟨leaseSeconds, request, rfl⟩ := hstart
        exact Program.Triple.bind (triple_replay (fun _ _ h => h.attempts) leaseSeconds request)
          (fun _ => .ret fun _ h => h) s.world trivial
  compatible _ _ _ _ _ _ _ _ := ⟨trivial, trivial⟩
  refl task w _ := by
    cases task with
    | consumer => exact ⟨.refl w, .refl w⟩
    | operator => exact ⟨.refl w, .refl w⟩
  trans _ _ _ _ h h' := h.trans h'
  invariant _ _ _ hs h := h.sound hs
  others _ _ _ _ _ _ h := h.later
  returned _ _ _ _ _ h := h
  raised _ _ _ _ _ h := h

/-- What the acts of a task change, in their environments. -/
def TaskActs (cfg : ConsumerConfig) (e : ConsumerEnv) (w w' : ConsumerWorld) : Prop :=
  DeliveryChange w w' ∨ OperatorActs cfg e w w'

theorem acts_of_starts {s : Pool ConsumerEnv ConsumerWorld ConsumerExc Unit ConsumerTask}
    {task : ConsumerTask} {program : ConsumerProgram Unit}
    (h : (consumerSpec cfg log).starts s task program) : program.Acts (TaskActs cfg) := by
  cases task with
  | consumer =>
      obtain ⟨polls, position, -, rfl⟩ := h
      exact (acts_pollLoop log polls position).mono fun _ _ _ h => .inl h
  | operator =>
      obtain ⟨leaseSeconds, request, rfl⟩ := h
      exact .bind ((acts_replay leaseSeconds request).mono fun _ _ _ h => .inr h) fun _ => .ret _

variable {s s' : Pool ConsumerEnv ConsumerWorld ConsumerExc Unit ConsumerTask}
  {action : PoolAction ConsumerEnv ConsumerWorld ConsumerExc Unit ConsumerTask}

theorem consumerSound_of_reachable (h : (consumerSpec cfg log).lts.Reachable s) :
    ConsumerSound cfg log s.world :=
  (PoolSpec.complies_of_reachable (consumer_conduct cfg log) h).world

/-- A step leaves the state, or is an act of a task that keeps its guarantee. -/
theorem act_of_step (h : (consumerSpec cfg log).lts.Reachable s)
    (hstep : (consumerSpec cfg log).lts.step s action s') :
    s'.world = s.world ∨ ∃ place e task, action = .act place e ∧
      TaskActs cfg e s.world s'.world ∧ TaskGuarantee cfg log task s.world s'.world := by
  have hacts := PoolSpec.acts_of_reachable (fun _ _ => .inl .nothing)
    (fun _ _ _ => acts_of_starts) h
  rcases PoolSpec.guarantee_of_step (consumer_conduct cfg log)
      (PoolSpec.complies_of_reachable (consumer_conduct cfg log) h) hstep with
    hsame | ⟨place, e, task, program, rfl, -, hguarantee⟩
  · exact .inl hsame
  · rcases PoolSpec.world_of_step (fun _ _ => .inl .nothing) hacts hstep with
      hsame | ⟨place', e', haction, -, hact⟩
    · exact .inl hsame
    · cases haction
      exact .inr ⟨place, e, task, rfl, hact, hguarantee⟩

/-! ### Effects and offsets -/

/-- A decision is made: the event is rejected and nothing else changes, or its effect is written. -/
def DecidesOn (w w' : ConsumerWorld) : Prop :=
  ∃ d, w'.history = w.history ++ [d] ∧
    ((d.applied = false ∧ w'.db = w.db) ∨ ∃ existing, WritesEffect existing d w.db w'.db)

theorem DeliveryChange.decides (h : DeliveryChange w w') :
    (w'.history = w.history ∧ w'.db.inbox = w.db.inbox ∧ w'.db.projection = w.db.projection) ∨
      DecidesOn w w' := by
  cases h with
  | nothing => exact .inl ⟨rfl, rfl, rfl⟩
  | offset => exact .inl ⟨rfl, rfl, rfl⟩
  | rejected d hrejected => exact .inr ⟨d, rfl, .inl ⟨hrejected, rfl⟩⟩
  | applied existing d db' heffect => exact .inr ⟨d, rfl, .inr ⟨existing, heffect⟩⟩
  | deadLettered => exact .inl ⟨rfl, rfl, rfl⟩
  | redelivered => exact .inl ⟨rfl, rfl, rfl⟩

theorem ReplayChange.decides {p : Pydantic} {limit : ℕ} {e : ConsumerEnv}
    (h : ReplayChange p limit e w w') :
    (w'.history = w.history ∧ w'.db.inbox = w.db.inbox ∧ w'.db.projection = w.db.projection) ∨
      DecidesOn w w' := by
  cases h with
  | nothing => exact .inl ⟨rfl, rfl, rfl⟩
  | rejected d hrejected => exact .inr ⟨d, rfl, .inl ⟨hrejected, rfl⟩⟩
  | claimed leaseSeconds request claim db' htakes =>
      exact .inl ⟨rfl, htakes.inbox, htakes.projection⟩
  | lost db' hloses =>
      obtain ⟨id, a, -, -, rfl⟩ := hloses
      exact .inl ⟨rfl, rfl, rfl⟩
  | ended claim status state row db' hstatus hends hinbox hprojection =>
      exact .inl ⟨rfl, hinbox, hprojection⟩
  | replayed claim row existing event db' hevent heffect =>
      exact .inr ⟨_, rfl, .inr ⟨existing, heffect⟩⟩

/-- **Exactly-once effects, and offsets after them.**  In every reachable state the effect of an
event has been written at most once for a consumer, and once exactly when its inbox row is there; a
position has at most one dead letter; the records below the committed offsets are done.  In every
step inbox and projection change only with a decision, and only the offset of a record is committed
that was done, with all before it, when the step began. -/
theorem consumer_exactly_once (cfg : ConsumerConfig) (log : ℕ → ℕ → KafkaMessage)
    (s : Pool ConsumerEnv ConsumerWorld ConsumerExc Unit ConsumerTask)
    (h : (consumerSpec cfg log).lts.Reachable s) :
    (∀ consumerId eventId, effectCount consumerId eventId s.world.history ≤ 1 ∧
      ((s.world.db.inbox.lookup (consumerId, eventId)).isSome ↔
        effectCount consumerId eventId s.world.history = 1)) ∧
    (∀ id id' row row', s.world.db.deadLetters.lookup id = some row →
      s.world.db.deadLetters.lookup id' = some row' → row.consumerId = row'.consumerId →
      row.kafkaPartition = row'.kafkaPartition → row.kafkaOffset = row'.kafkaOffset → id = id') ∧
    CoveredBelow cfg log s.world.committed s.world.db ∧
    ∀ action s', (consumerSpec cfg log).lts.step s action s' →
      ((s'.world.history = s.world.history ∧ s'.world.db.inbox = s.world.db.inbox ∧
          s'.world.db.projection = s.world.db.projection) ∨ DecidesOn s.world s'.world) ∧
      ∀ kafkaPartition, s'.world.committed kafkaPartition = s.world.committed kafkaPartition ∨
        ∃ kafkaOffset, s'.world.committed kafkaPartition = kafkaOffset + 1 ∧
          ∀ offset ≤ kafkaOffset,
            RecordCovered cfg (log kafkaPartition offset) kafkaPartition offset s.world.db := by
  have hsound := consumerSound_of_reachable h
  refine ⟨?_, hsound.effects.letters, hsound.committed, ?_⟩
  · intro consumerId eventId
    rw [hsound.effects.count]
    split
    · next hsome => simp [hsome]
    · next hnone => simp [hnone]
  · intro action s' hstep
    rcases act_of_step h hstep with hsame | ⟨place, e, task, rfl, hact, hguarantee⟩
    · rw [hsame]
      exact ⟨.inl ⟨rfl, rfl, rfl⟩, fun _ => .inl rfl⟩
    · refine ⟨?_, ?_⟩
      · rcases hact with hdelivery | hreplay
        · exact hdelivery.decides
        · exact hreplay.decides
      · cases task with
        | consumer => exact hguarantee.commits
        | operator =>
            obtain ⟨⟨e', hchange⟩, -⟩ := hguarantee
            exact fun _ => .inl (by rw [hchange.committed])

/-! ### Attempts -/

/-- A run deletes no attempt and changes none that has ended. -/
theorem attemptsLater_of_run {actions : List _}
    (h : (consumerSpec cfg log).lts.Reachable s)
    (hrun : (consumerSpec cfg log).lts.Run s actions s') :
    AttemptsLater s.world.db s'.world.db := by
  induction hrun with
  | nil => exact .of_same rfl
  | snoc hrun hstep ih =>
      rcases act_of_step (h.run hrun) hstep with hsame | ⟨_, _, task, _, -, hguarantee⟩
      · rw [hsame]
        exact ih
      · exact ih.trans hguarantee.later.attempts

/-- The attempt of a key is found under it. -/
theorem Fenced.attemptOf {db : ConsumerDb} (h : Fenced db) {id : String} {a : ReplayAttemptRow}
    (ha : db.attempts.lookup id = some a) :
    db.attemptOf a.deadLetterId a.idempotencyKey = some ⟨id, a⟩ := by
  cases hfound : db.attemptOf a.deadLetterId a.idempotencyKey with
  | none =>
      have hnot := Table.find_eq_none.1 hfound id a ha
      simp at hnot
  | some entry =>
      obtain ⟨id', a'⟩ := entry
      obtain ⟨ha', hsame⟩ := Table.lookup_of_find hfound
      simp only [Bool.and_eq_true, decide_eq_true_eq] at hsame
      obtain rfl := h.unique id' id a' a ha' ha hsame.1 hsame.2
      rw [ha] at ha'
      cases ha'
      rfl

/-- A key that was used for another request is a conflict. -/
theorem claimReplay_conflict {db : ConsumerDb} (h : Fenced db) {id : String} {a : ReplayAttemptRow}
    (ha : db.attempts.lookup id = some a) {request : ReplayRequest}
    (hletter : request.deadLetterId = a.deadLetterId)
    (hkey : request.idempotencyKey = a.idempotencyKey)
    (hother : request.requestFingerprint ≠ a.requestFingerprint) (leaseSeconds : ℤ)
    (e : ConsumerEnv) : claimReplay leaseSeconds request e db = .ok (.conflict, db) := by
  obtain ⟨row, hrow⟩ := Option.isSome_iff_exists.1 (h.letter id a ha)
  have hfound : db.attemptOf request.deadLetterId request.idempotencyKey = some ⟨id, a⟩ := by
    rw [hletter, hkey]
    exact h.attemptOf ha
  have hstorable : storable request.idempotencyKey = true := by
    rw [hkey]
    exact h.key id a ha
  simp only [claimReplay, Tx.bind_eq_ok, Tx.read_eq_ok, Tx.reading_eq_ok]
  refine ⟨_, _, ⟨rfl, rfl⟩, _, _, ⟨rfl, rfl⟩, ?_⟩
  rw [hletter, hrow]
  simp only [Tx.bind_eq_ok, ConsumerTx.ensure_eq_ok, Tx.read_eq_ok]
  refine ⟨(), _, ⟨hstorable, rfl⟩, _, _, ⟨rfl, rfl⟩, ?_⟩
  rw [← hletter, hfound]
  simp only [if_pos (Ne.symm hother)]
  rfl

/-- A program that performs nothing more. -/
def Ended {α : Type} (program : ConsumerProgram α) : Prop :=
  (∃ a, program = .ret a) ∨ ∃ x, program = .raise x

/-- The first act of a replay under a key that was used: it makes no attempt and goes no further. -/
theorem replay_repeated {w : ConsumerWorld} (h : Fenced w.db) {id : String} {a : ReplayAttemptRow}
    (ha : w.db.attempts.lookup id = some a) {request : ReplayRequest}
    (hletter : request.deadLetterId = a.deadLetterId)
    (hkey : request.idempotencyKey = a.idempotencyKey) (leaseSeconds : ℤ) (e : ConsumerEnv) :
    (∀ id', w.db.attempts.lookup id' = none →
      ((replayProgram cfg leaseSeconds request).perform e w).1.db.attempts.lookup id' = none) ∧
    Ended ((replayProgram cfg leaseSeconds request).perform e w).2 := by
  change (∀ id', w.db.attempts.lookup id' = none →
      (sessionUpdate quietly (claimReplay leaseSeconds request) e w).db.attempts.lookup id'
        = none) ∧
    Ended (Program.lift (sessionAnswer (claimReplay leaseSeconds request) e w) >>= _)
  rw [sessionUpdate, sessionAnswer]
  cases e.rolledBack with
  | some error => exact ⟨fun _ hnone => hnone, .inr ⟨_, rfl⟩⟩
  | none =>
      simp only [Option.isSome_none, Bool.false_eq_true, if_false]
      cases hclaim : claimReplay leaseSeconds request e w.db with
      | error x =>
          rw [Tx.commit_of_error hclaim]
          exact ⟨fun _ hnone => hnone, .inr ⟨x, rfl⟩⟩
      | ok r =>
          obtain ⟨outcome, db'⟩ := r
          rw [Tx.commit_of_ok hclaim]
          have hfound : w.db.attemptOf request.deadLetterId request.idempotencyKey
              = some ⟨id, a⟩ := by
            rw [hletter, hkey]
            exact h.attemptOf ha
          have hnone : ∀ id', w.db.attempts.lookup id' = none →
              db'.attempts.lookup id' = none := by
            intro id' hnone
            rcases claimReplay_change hclaim with ⟨claim, -, htakes⟩ | ⟨-, id'', a'', ha'', -, rfl⟩ |
              ⟨-, -, rfl⟩
            · rw [htakes.first] at hfound
              cases hfound
            · have hne : id' ≠ id'' := by
                rintro rfl
                rw [ha''] at hnone
                cases hnone
              rw [Table.lookup_insert_eq, if_neg hne, hnone]
            · exact hnone
          have hnot : ∀ claim, outcome ≠ .claimed claim := by
            rcases claimReplay_change hclaim with ⟨claim, -, htakes⟩ | ⟨rfl, -⟩ | ⟨hnot, -⟩
            · rw [htakes.first] at hfound
              cases hfound
            · simp
            · exact hnot
          refine ⟨hnone, ?_⟩
          cases e.unacknowledged with
          | some error => exact .inr ⟨_, rfl⟩
          | none =>
              cases outcome with
              | notFound => exact .inr ⟨_, rfl⟩
              | conflict => exact .inr ⟨_, rfl⟩
              | terminal attemptId status => exact .inl ⟨_, rfl⟩
              | inProgress attemptId => exact .inl ⟨_, rfl⟩
              | expiredSameKey => exact .inr ⟨_, rfl⟩
              | alreadyClaimed => exact .inr ⟨_, rfl⟩
              | notEligible => exact .inr ⟨_, rfl⟩
              | claimed claim => exact absurd rfl (hnot claim)

/-- The first act of a replay whose key was used for another request: nothing changes, and when its
answer arrives the conflict is raised. -/
theorem replay_conflict {w : ConsumerWorld} (h : Fenced w.db) {id : String} {a : ReplayAttemptRow}
    (ha : w.db.attempts.lookup id = some a) {request : ReplayRequest}
    (hletter : request.deadLetterId = a.deadLetterId)
    (hkey : request.idempotencyKey = a.idempotencyKey)
    (hother : request.requestFingerprint ≠ a.requestFingerprint) (leaseSeconds : ℤ)
    (e : ConsumerEnv) :
    ((replayProgram cfg leaseSeconds request).perform e w).1 = w ∧
      (e.rolledBack = none → e.unacknowledged = none →
        ((replayProgram cfg leaseSeconds request).perform e w).2 = .raise (.replay .conflict)) := by
  have hclaim := claimReplay_conflict h ha hletter hkey hother leaseSeconds e
  change sessionUpdate quietly (claimReplay leaseSeconds request) e w = w ∧
    (e.rolledBack = none → e.unacknowledged = none →
      (Program.lift (sessionAnswer (claimReplay leaseSeconds request) e w) >>= _)
        = .raise (.replay .conflict))
  rw [sessionUpdate, sessionAnswer, Tx.commit_of_ok hclaim, hclaim]
  refine ⟨?_, ?_⟩
  · split
    · rfl
    · simp [quietly]
  · intro hrolled hlost
    rw [hrolled, hlost]
    rfl

/-- The end of an attempt is recorded by an act that owns it. -/
theorem recorded_of_step (h : (consumerSpec cfg log).lts.Reachable s)
    (hstep : (consumerSpec cfg log).lts.step s action s') {id : String} {a' : ReplayAttemptRow}
    (ha' : s'.world.db.attempts.lookup id = some a') (howner : a'.status.ByOwner) :
    (∃ a, s.world.db.attempts.lookup id = some a ∧ a.status = a'.status) ∨
      ∃ place e a row, action = .act place e ∧ s.world.db.attempts.lookup id = some a ∧
        s.world.db.deadLetters.lookup a.deadLetterId = some row ∧
        (ReplayClaim.mk a.deadLetterId id a.ownershipToken).owns row a e.now = true ∧
        (a'.status = .applied → ∃ event existing,
          retainedEvent cfg.pydantic cfg.recursionLimit row = .ok event ∧
            WritesEffect existing ⟨row.consumerId, event, e.now, true⟩ s.world.db
              s'.world.db) := by
  rcases act_of_step h hstep with hsame | ⟨place, e, task, rfl, hact, hguarantee⟩
  · exact .inl ⟨a', by rw [← hsame, ha'], rfl⟩
  · rcases hact with hdelivery | hreplay
    · exact .inl ⟨a', by rw [← hdelivery.attempts, ha'], rfl⟩
    · cases task with
      | consumer => exact .inl ⟨a', by rw [← hguarantee.change.attempts, ha'], rfl⟩
      | operator =>
          obtain ⟨-, hheld⟩ := hguarantee
          rcases hreplay.recorded ha' howner with hold | ⟨claim, state, row, rfl, hend, hends,
            happlied⟩
          · exact .inl hold
          · obtain ⟨a, ha, hletter, htoken⟩ := hheld claim _ _ _ row hend hends
            obtain ⟨b, hb, howns, -⟩ := hends.attempt
            rw [ha] at hb
            cases hb
            refine .inr ⟨place, e, a, row, rfl, ha, ?_, ?_, happlied⟩
            · rw [hletter]
              exact hends.found
            · rw [hletter, htoken]
              exact howns

/-- **Fenced replays.**  In every reachable state a dead letter has at most one attempt in progress,
and its dead letter is claimed under the attempt's token; no two attempts of a dead letter have one
key, and the effect of an event was written at most once.  What has ended stays as it ended, in every
run.  Applied, duplicate and failed are recorded by an act that owns the attempt under an unexpired
lease, and applied with the effect of the event.  A key that was used before makes no attempt, and
with another fingerprint it is a conflict that changes nothing. -/
theorem replay_fencing (cfg : ConsumerConfig) (log : ℕ → ℕ → KafkaMessage)
    (s : Pool ConsumerEnv ConsumerWorld ConsumerExc Unit ConsumerTask)
    (h : (consumerSpec cfg log).lts.Reachable s) :
    (∀ id id' a a', s.world.db.attempts.lookup id = some a →
      s.world.db.attempts.lookup id' = some a' → a.status = .inProgress → a'.status = .inProgress →
      a.deadLetterId = a'.deadLetterId → id = id') ∧
    (∀ id a, s.world.db.attempts.lookup id = some a → a.status = .inProgress →
      ∃ row, s.world.db.deadLetters.lookup a.deadLetterId = some row ∧
        row.replayState = .replaying ∧ row.replayClaimToken = some a.ownershipToken) ∧
    (∀ consumerId eventId, effectCount consumerId eventId s.world.history ≤ 1) ∧
    (∀ id id' a a', s.world.db.attempts.lookup id = some a →
      s.world.db.attempts.lookup id' = some a' → a.deadLetterId = a'.deadLetterId →
      a.idempotencyKey = a'.idempotencyKey → id = id') ∧
    (∀ actions s', (consumerSpec cfg log).lts.Run s actions s' → ∀ id a,
      s.world.db.attempts.lookup id = some a → a.status.Terminal →
      ∃ a', s'.world.db.attempts.lookup id = some a' ∧ a'.status = a.status) ∧
    (∀ action s', (consumerSpec cfg log).lts.step s action s' → ∀ id a',
      s'.world.db.attempts.lookup id = some a' → a'.status.ByOwner →
      (∃ a, s.world.db.attempts.lookup id = some a ∧ a.status = a'.status) ∨
        ∃ place e a row, action = .act place e ∧ s.world.db.attempts.lookup id = some a ∧
          s.world.db.deadLetters.lookup a.deadLetterId = some row ∧
          (ReplayClaim.mk a.deadLetterId id a.ownershipToken).owns row a e.now = true ∧
          (a'.status = .applied → ∃ event existing,
            retainedEvent cfg.pydantic cfg.recursionLimit row = .ok event ∧
              WritesEffect existing ⟨row.consumerId, event, e.now, true⟩ s.world.db
                s'.world.db)) ∧
    (∀ id a request, s.world.db.attempts.lookup id = some a →
      request.deadLetterId = a.deadLetterId → request.idempotencyKey = a.idempotencyKey →
      ∀ leaseSeconds e,
        ((∀ id', s.world.db.attempts.lookup id' = none →
            ((replayProgram cfg leaseSeconds request).perform e s.world).1.db.attempts.lookup id'
              = none) ∧
          Ended ((replayProgram cfg leaseSeconds request).perform e s.world).2) ∧
        (request.requestFingerprint ≠ a.requestFingerprint →
          ((replayProgram cfg leaseSeconds request).perform e s.world).1 = s.world ∧
            (e.rolledBack = none → e.unacknowledged = none →
              ((replayProgram cfg leaseSeconds request).perform e s.world).2
                = .raise (.replay .conflict)))) := by
  have hsound := consumerSound_of_reachable h
  refine ⟨hsound.fenced.single, hsound.fenced.current, ?_, hsound.fenced.unique, ?_, ?_, ?_⟩
  · intro consumerId eventId
    rw [hsound.effects.count]
    split <;> simp
  · intro actions s' hrun id a ha hterminal
    obtain ⟨a', ha', hlater⟩ := attemptsLater_of_run h hrun id a ha
    exact ⟨a', ha', hlater.status hterminal⟩
  · intro action s' hstep id a' ha' howner
    exact recorded_of_step h hstep ha' howner
  · intro id a request ha hletter hkey leaseSeconds e
    exact ⟨replay_repeated hsound.fenced ha hletter hkey leaseSeconds e, fun hother =>
      replay_conflict hsound.fenced ha hletter hkey hother leaseSeconds e⟩

/-! ### Runs of one job -/

/-- A configuration whose hashes have the right form. -/
def pollConfig : ConsumerConfig where
  consumerId := allowedConsumerId
  pydantic := isoPydantic
  recursionLimit := 100
  sha256 _ := String.ofList (List.replicate 64 'a')
  timing := ConsumerSettings.timingParams {}
  maxPollIntervalSeconds := 300

/-- What every act meets. -/
def pollEnv : ConsumerEnv :=
  { now := 0, uuid := "d1", tokenHex := "", polled := .record 0 true true }

/-- The events of the job of `retryEvent` besides it. -/
def jobCreated : DomainEvent where
  eventId := "5a1c0000-0000-4000-8000-00000000000a"
  aggregateId := retryEvent.aggregateId
  occurredAt := 1767319300000000
  payload := .created
  valid := by decide

def jobCompleted : DomainEvent where
  eventId := "5a1c0000-0000-4000-8000-00000000000b"
  aggregateId := retryEvent.aggregateId
  occurredAt := 1767319600000000
  payload := .completed
  valid := by decide

def jobFailed : DomainEvent where
  eventId := "5a1c0000-0000-4000-8000-00000000000c"
  aggregateId := retryEvent.aggregateId
  occurredAt := 1767319700000000
  payload := .failed "Timeout"
  valid := by decide

/-- The events of the job. -/
def jobEvents : List DomainEvent := [jobCreated, retryEvent, jobCompleted, jobFailed]

theorem jobEvents_encodable : ∀ event ∈ jobEvents, Encodable event := by
  have hids : (UuidText jobCreated.eventId ∧ UuidText jobCompleted.eventId) ∧
      UuidText jobFailed.eventId ∧ Python.strip "Timeout" = "Timeout" := by
    decide +kernel
  have hcreated : Encodable jobCreated := ⟨hids.1.1, by decide, by decide, trivial⟩
  have hcompleted : Encodable jobCompleted := ⟨hids.1.2, by decide, by decide, trivial⟩
  have hfailed : Encodable jobFailed := ⟨hids.2.1, by decide, by decide, hids.2.2⟩
  simp [jobEvents, hcreated, retryEvent_built.encodable, hcompleted, hfailed]

theorem jobEvents_short : ∀ event ∈ jobEvents, ShortIdentifiers event := by
  have hjob := retryEvent_short.1
  have hcreated : ShortIdentifiers jobCreated := ⟨hjob, trivial⟩
  have hcompleted : ShortIdentifiers jobCompleted := ⟨hjob, trivial⟩
  have hfailed : ShortIdentifiers jobFailed := ⟨hjob, trivial⟩
  simp [jobEvents, hcreated, retryEvent_short, hcompleted, hfailed]

/-- The records of events; where there is none a record has no value. -/
def recordsOf (events : ℕ → ℕ → Option DomainEvent) : ℕ → ℕ → KafkaMessage :=
  fun kafkaPartition kafkaOffset =>
    match events kafkaPartition kafkaOffset with
    | some event => publishedMessage isoPydantic event none
    | none => ⟨none, headersFor retryEvent none⟩

/-- The records of the job are decoded. -/
theorem decodeMessage_recordsOf {events : ℕ → ℕ → Option DomainEvent}
    {kafkaPartition kafkaOffset : ℕ} {event : DomainEvent}
    (hevent : events kafkaPartition kafkaOffset = some event) (hjob : event ∈ jobEvents) :
    decodeMessage pollConfig.pydantic pollConfig.recursionLimit
      (recordsOf events kafkaPartition kafkaOffset) = .ok (event, none) := by
  have henc := jobEvents_encodable event hjob
  have hsize := serializeDomainEvent_bytes isoPydantic_faithful henc (jobEvents_short event hjob)
  rw [recordsOf, hevent]
  exact decodeMessage_publishedMessage isoPydantic_faithful (by decide) henc hsize none

/-- Processes under way. -/
abbrev ConsumerPool := Pool ConsumerEnv ConsumerWorld ConsumerExc Unit ConsumerTask

/-- The task at a place performs a number of acts. -/
def actsAt (place : ℕ) (e : ConsumerEnv) (acts : ℕ) (s : ConsumerPool) : ConsumerPool :=
  (List.replicate acts e).foldl (fun s e => s.apply (.act place e)) s

/-- A consumer starts at a place, and polls a record of a partition. -/
def pollsAt (log : ℕ → ℕ → KafkaMessage) (place kafkaPartition : ℕ) (position : ℕ → ℕ)
    (s : ConsumerPool) : ConsumerPool :=
  actsAt place { pollEnv with polled := .record kafkaPartition true true } 2
    (s.apply (.start place .consumer (pollLoop pollConfig log 1 position)))

/-- The only poll of a loop, from its record on. -/
def finishRound (log : ℕ → ℕ → KafkaMessage) (position : ℕ → ℕ) (kafkaPartition : ℕ)
    (round : ConsumerProgram ProcessOutcome) : ConsumerProgram Unit := do
  let rest := Function.update position kafkaPartition (position kafkaPartition + 1)
  match ← round.attempt with
  | .ok _ => pollLoop pollConfig log 0 rest
  | .error (.transientKafka _) => do
      let shutdown ← Program.reading fun e => e.shutdown
      if shutdown then return else pollLoop pollConfig log 0 rest
  | .error .shutdownRequested => return
  | .error x => throw x

/-- The round of a record that holds an event. -/
def eventRound (log : ℕ → ℕ → KafkaMessage) (position : ℕ → ℕ) (kafkaPartition : ℕ)
    (event : DomainEvent) : ConsumerProgram Unit :=
  finishRound log position kafkaPartition do
    let at_ ← pollConfig.ops.clock
    processDecoded pollConfig.ops pollConfig (log kafkaPartition (position kafkaPartition)) event
      kafkaPartition (position kafkaPartition) at_

/-- After its poll a consumer has the event of its record. -/
theorem pollsAt_eq {log : ℕ → ℕ → KafkaMessage} {place kafkaPartition : ℕ} {position : ℕ → ℕ}
    {s : ConsumerPool} {event : DomainEvent} {traceparent : Option String}
    (hdecode : decodeMessage pollConfig.pydantic pollConfig.recursionLimit
      (log kafkaPartition (position kafkaPartition)) = .ok (event, traceparent)) :
    pollsAt log place kafkaPartition position s
      = s.apply (.start place .consumer (eventRound log position kafkaPartition event)) := by
  have hround : processRecord pollConfig.ops pollConfig
      (log kafkaPartition (position kafkaPartition)) kafkaPartition (position kafkaPartition)
        = pollConfig.ops.clock >>= fun at_ => processDecoded pollConfig.ops pollConfig
          (log kafkaPartition (position kafkaPartition)) event kafkaPartition
          (position kafkaPartition) at_ := by
    rw [processRecord, hdecode]
  rw [eventRound, ← hround, pollsAt, actsAt, List.replicate_succ, List.replicate_one,
    List.foldl_cons, List.foldl_cons, List.foldl_nil]
  simp only [Pool.apply, Function.update_self, Function.update_idem]
  rfl

section Reachable

variable {spec : PoolSpec ConsumerEnv ConsumerWorld ConsumerExc Unit ConsumerTask}
  {log : ℕ → ℕ → KafkaMessage} {place other kafkaPartition : ℕ} {position : ℕ → ℕ}
  {s : ConsumerPool}

theorem tasks_actsAt (hne : other ≠ place) (e : ConsumerEnv) (acts : ℕ) :
    (actsAt place e acts s).tasks other = s.tasks other := by
  induction acts generalizing s with
  | zero => rfl
  | succ acts ih =>
      rw [actsAt, List.replicate_succ, List.foldl_cons]
      refine ih.trans ?_
      rw [Pool.apply]
      split
      · rfl
      · exact Function.update_of_ne hne _ _

theorem tasks_pollsAt (hne : other ≠ place) :
    (pollsAt log place kafkaPartition position s).tasks other = s.tasks other :=
  (tasks_actsAt hne _ 2).trans (Function.update_of_ne hne _ _)

theorem reachable_actsAt (hallows : ∀ e w, spec.allows e w) (e : ConsumerEnv) (acts : ℕ)
    (h : spec.lts.Reachable s) : spec.lts.Reachable (actsAt place e acts s) :=
  PoolSpec.reachable_run hallows h place _

theorem reachable_pollsAt (hallows : ∀ e w, spec.allows e w) (h : spec.lts.Reachable s)
    (hstart : spec.Allows s (.start place .consumer (pollLoop pollConfig log 1 position))) :
    spec.lts.Reachable (pollsAt log place kafkaPartition position s) := by
  have hstarted : spec.lts.Reachable
      (s.apply (.start place .consumer (pollLoop pollConfig log 1 position))) :=
    h.step ⟨hstart, rfl⟩
  exact reachable_actsAt hallows _ 2 hstarted

theorem reachable_stop (h : spec.lts.Reachable s) :
    spec.lts.Reachable (s.apply (.stop place)) := by
  have hstop : spec.Allows s (.stop place) := trivial
  exact h.step ⟨hstop, rfl⟩

end Reachable

/-! #### A redelivery, and an event after the end -/

/-- Records of one partition: the job ends with the second, and the third has no value. -/
def endedLog : ℕ → ℕ → KafkaMessage := recordsOf fun kafkaPartition kafkaOffset =>
  if kafkaPartition = 0 then
    [some jobCreated, some jobCompleted, none, some retryEvent].getD kafkaOffset none
  else none

/-- The position of a consumer of the first partition. -/
def positionAt (kafkaOffset : ℕ) : ℕ → ℕ := Function.update (fun _ => 0) 0 kafkaOffset

theorem positionAt_le {committed : ℕ → ℕ} {kafkaOffset : ℕ} (h : kafkaOffset ≤ committed 0)
    (kafkaPartition : ℕ) : positionAt kafkaOffset kafkaPartition ≤ committed kafkaPartition := by
  rw [positionAt, Function.update_apply]
  split
  · rename_i heq
    exact heq ▸ h
  · exact Nat.zero_le _

/-- A process takes a record, and is stopped after some acts. -/
def takes (log : ℕ → ℕ → KafkaMessage) (kafkaOffset acts : ℕ) (s : ConsumerPool) : ConsumerPool :=
  (actsAt 0 pollEnv acts (pollsAt log 0 0 (positionAt kafkaOffset) s)).apply (.stop 0)

/-- The same, from the event of the record on. -/
theorem takes_eq {log : ℕ → ℕ → KafkaMessage} {kafkaOffset acts : ℕ} {s : ConsumerPool}
    {event : DomainEvent} {traceparent : Option String}
    (hdecode : decodeMessage pollConfig.pydantic pollConfig.recursionLimit (log 0 kafkaOffset)
      = .ok (event, traceparent)) :
    takes log kafkaOffset acts s
      = (actsAt 0 pollEnv acts (s.apply (.start 0 .consumer
          (eventRound log (positionAt kafkaOffset) 0 event)))).apply (.stop 0) := by
  have hposition : positionAt kafkaOffset 0 = kafkaOffset := Function.update_self _ _ _
  rw [takes, pollsAt_eq (by rw [hposition]; exact hdecode)]

/-- The first event is applied, and its process stops before the offset is committed. -/
def crashedPool : ConsumerPool := takes endedLog 0 5 { world := .empty }

/-- The record is delivered again. -/
def redeliveredPool : ConsumerPool := takes endedLog 0 6 crashedPool

/-- The job has ended. -/
def endedPool : ConsumerPool := takes endedLog 1 7 redeliveredPool

/-- The record without a value is dead-lettered. -/
def malformedPool : ConsumerPool := takes endedLog 2 5 endedPool

/-- The event after the end is rejected, and its process stops before it has written a dead
letter. -/
def rejectedPool : ConsumerPool := takes endedLog 3 5 malformedPool

theorem redeliveredPool_eq : redeliveredPool
    = (actsAt 0 pollEnv 6 (Pool.apply
        ((actsAt 0 pollEnv 5 (({ world := .empty } : ConsumerPool).apply (.start 0 .consumer
          (eventRound endedLog (positionAt 0) 0 jobCreated)))).apply (.stop 0))
        (.start 0 .consumer (eventRound endedLog (positionAt 0) 0 jobCreated)))).apply
          (.stop 0) := by
  have hcreated : ∀ acts s, takes endedLog 0 acts s = _ := fun acts s =>
    takes_eq (decodeMessage_recordsOf rfl (by simp [jobEvents]))
  rw [redeliveredPool, hcreated, crashedPool, hcreated]

theorem endedPool_eq : endedPool = (actsAt 0 pollEnv 7 (redeliveredPool.apply
    (.start 0 .consumer (eventRound endedLog (positionAt 1) 0 jobCompleted)))).apply (.stop 0) :=
  takes_eq (decodeMessage_recordsOf rfl (by simp [jobEvents]))

theorem rejectedPool_eq : rejectedPool = (actsAt 0 pollEnv 5 (malformedPool.apply
    (.start 0 .consumer (eventRound endedLog (positionAt 3) 0 retryEvent)))).apply (.stop 0) :=
  takes_eq (decodeMessage_recordsOf rfl (by simp [jobEvents]))

/-- What the offsets are after each process, and the state after the last. -/
theorem rejectedPool_world : (redeliveredPool.world.committed 0 = 1 ∧
      endedPool.world.committed 0 = 2 ∧ malformedPool.world.committed 0 = 3) ∧
    rejectedPool.world.committed 0 = 3 ∧
    rejectedPool.world.history = [⟨allowedConsumerId, jobCreated, 0, true⟩,
      ⟨allowedConsumerId, jobCompleted, 0, true⟩, ⟨allowedConsumerId, retryEvent, 0, false⟩] ∧
    (rejectedPool.world.db.inbox.lookup (allowedConsumerId, jobCreated.eventId)).isSome ∧
    (rejectedPool.world.db.deadLetters.lookup "d1").map
      (fun row => (row.consumerId, row.kafkaPartition, row.kafkaOffset))
        = some (allowedConsumerId, 0, 2) := by
  rw [rejectedPool_eq, malformedPool, endedPool_eq, redeliveredPool_eq]
  decide +kernel

section Lone

variable {spec : PoolSpec ConsumerEnv ConsumerWorld ConsumerExc Unit ConsumerTask}

/-- The state can be reached, and no process is under way. -/
def Settled (spec : PoolSpec ConsumerEnv ConsumerWorld ConsumerExc Unit ConsumerTask)
    (s : ConsumerPool) : Prop :=
  spec.lts.Reachable s ∧ ∀ place, s.tasks place = none

/-- Where a process may start at a committed position when none is under way, it may take a
record. -/
theorem settled_takes {log : ℕ → ℕ → KafkaMessage} (hallows : ∀ e w, spec.allows e w)
    (hstarts : ∀ s position, (∀ place, s.tasks place = none) →
      (∀ kafkaPartition, position kafkaPartition ≤ s.world.committed kafkaPartition) →
        spec.starts s .consumer (pollLoop pollConfig log 1 position))
    {kafkaOffset : ℕ} {s : ConsumerPool} (hs : Settled spec s)
    (hcommitted : kafkaOffset ≤ s.world.committed 0) (acts : ℕ) :
    Settled spec (takes log kafkaOffset acts s) := by
  have hstart : spec.Allows s (.start 0 .consumer (pollLoop pollConfig log 1
      (positionAt kafkaOffset))) := ⟨hs.2 0, hstarts s _ hs.2 (positionAt_le hcommitted)⟩
  refine ⟨reachable_stop (reachable_actsAt hallows pollEnv acts
    (reachable_pollsAt hallows hs.1 hstart)), fun place => ?_⟩
  by_cases heq : place = 0
  · subst heq
    simp [takes, Pool.apply]
  · refine (Function.update_of_ne heq _ _).trans ?_
    rw [tasks_actsAt heq, tasks_pollsAt heq, hs.2]

theorem settled_rejectedPool (hinit : spec.init .empty) (hallows : ∀ e w, spec.allows e w)
    (hstarts : ∀ s position, (∀ place, s.tasks place = none) →
      (∀ kafkaPartition, position kafkaPartition ≤ s.world.committed kafkaPartition) →
        spec.starts s .consumer (pollLoop pollConfig endedLog 1 position)) :
    Settled spec rejectedPool := by
  have hempty : Settled spec { world := .empty } := ⟨.of_init ⟨hinit, rfl⟩, fun _ => rfl⟩
  have hcrashed : Settled spec crashedPool :=
    settled_takes hallows hstarts hempty (Nat.zero_le _) 5
  have hredelivered : Settled spec redeliveredPool :=
    settled_takes hallows hstarts hcrashed (Nat.zero_le _) 6
  have hended : Settled spec endedPool :=
    settled_takes hallows hstarts hredelivered rejectedPool_world.1.1.ge 7
  have hmalformed : Settled spec malformedPool :=
    settled_takes hallows hstarts hended rejectedPool_world.1.2.1.ge 5
  exact settled_takes hallows hstarts hmalformed rejectedPool_world.1.2.2.ge 5

end Lone

theorem rejectedPool_reachable :
    (consumerSpec pollConfig endedLog).lts.Reachable rejectedPool := by
  refine (settled_rejectedPool rfl (fun _ _ => trivial) ?_).1
  intro s position _ hposition
  exact ⟨1, position, hposition, rfl⟩

/-- A record that is delivered twice has its effect once, and one that has no value one dead letter;
all that were committed are done. -/
theorem consumer_exactly_once_redelivered :
    effectCount allowedConsumerId jobCreated.eventId rejectedPool.world.history = 1 ∧
    (∀ id row, rejectedPool.world.db.deadLetters.lookup id = some row →
      row.consumerId = allowedConsumerId → row.kafkaPartition = 0 → row.kafkaOffset = 2 →
        id = "d1") ∧
    ∀ kafkaOffset < 3,
      RecordCovered pollConfig (endedLog 0 kafkaOffset) 0 kafkaOffset rejectedPool.world.db := by
  obtain ⟨-, hcommitted, -, hinbox, hletter⟩ := rejectedPool_world
  obtain ⟨hcount, hunique, hcovered, -⟩ :=
    consumer_exactly_once pollConfig endedLog rejectedPool rejectedPool_reachable
  obtain ⟨letter, hfound, hat⟩ := Option.map_eq_some_iff.1 hletter
  simp only [Prod.mk.injEq] at hat
  refine ⟨(hcount _ _).2.1 hinbox, ?_, ?_⟩
  · intro id row hrow hconsumer hpartition hoffset
    exact hunique id "d1" row letter hrow hfound (hconsumer.trans hat.1.symm)
      (hpartition.trans hat.2.1.symm) (hoffset.trans hat.2.2.symm)
  · intro kafkaOffset hlt
    exact hcovered 0 kafkaOffset (by rw [hcommitted]; exact hlt)

/-! #### A replay -/

section Operator

variable {cfg : ConsumerConfig} {e : ConsumerEnv} {w : ConsumerWorld} {place : ℕ}
  {tasks : ℕ → Option (ConsumerTask × ConsumerProgram Unit)} {s : ConsumerPool}
  {claim : ReplayClaim} {row : DeadLetterRow} {attempt : ReplayAttemptRow} {event : DomainEvent}
  {existing : Option ProjectionRow}

/-- An operator that is given a claim goes on with it. -/
theorem actsAt_claim {leaseSeconds : ℤ} {request : ReplayRequest}
    (hanswer : sessionAnswer (claimReplay leaseSeconds request) e s.world
      = .ok (.claimed claim)) :
    actsAt place e 1 (s.apply (.start place .operator
        (replayProgram cfg leaseSeconds request >>= fun _ => pure ())))
      = ⟨sessionUpdate quietly (claimReplay leaseSeconds request) e s.world,
          Function.update s.tasks place
            (some (.operator, applyReplayProgram cfg claim >>= fun _ => pure ()))⟩ := by
  have hperform : (replayProgram cfg leaseSeconds request >>= fun _ => pure ()).perform e s.world
      = (sessionUpdate quietly (claimReplay leaseSeconds request) e s.world,
          applyReplayProgram cfg claim >>= fun _ => (pure () : ConsumerProgram Unit)) := by
    change (_, (Program.lift (sessionAnswer (claimReplay leaseSeconds request) e s.world) >>= _)
      >>= _) = _
    rw [hanswer]
    rfl
  rw [actsAt, List.replicate_one, List.foldl_cons, List.foldl_nil]
  simp only [Pool.apply, Function.update_self, Function.update_idem, hperform]

theorem sessionUpdate_db {α : Type} {judge : Judge α} {t : ConsumerTx α}
    (hrolled : e.rolledBack = none) : (sessionUpdate judge t e w).db = t.commit e w.db := by
  simp [sessionUpdate, hrolled]

/-- A transaction that only reads leaves the state, and its caller gets what it has read. -/
theorem session_of_reads {α : Type} {t : ConsumerTx α} {a : α}
    (hrolled : e.rolledBack = none) (hlost : e.unacknowledged = none)
    (h : t e w.db = .ok (a, w.db)) :
    sessionUpdate quietly t e w = w ∧ sessionAnswer t e w = .ok a := by
  constructor
  · simp [sessionUpdate, hrolled, Tx.commit_of_ok h, quietly]
  · simp [sessionAnswer, hrolled, hlost, h, Except.map]

/-- A task whose next transaction only reads. -/
theorem actsAt_read {α β : Type} {tag : ConsumerTask} {t : ConsumerTx α} {a : α}
    {k : α → ConsumerProgram β} {f : Except ConsumerExc β → ConsumerProgram Unit}
    (hrolled : e.rolledBack = none) (hlost : e.unacknowledged = none)
    (h : t e w.db = .ok (a, w.db)) (acts : ℕ) :
    actsAt place e (acts + 1)
        ⟨w, Function.update tasks place (some (tag, (session quietly t >>= k).attempt >>= f))⟩
      = actsAt place e acts
        ⟨w, Function.update tasks place (some (tag, (k a).attempt >>= f))⟩ := by
  obtain ⟨hupdate, hanswer⟩ := session_of_reads hrolled hlost h
  have hperform : ((session quietly t >>= k).attempt >>= f).perform e w
      = (w, (k a).attempt >>= f) := by
    change (sessionUpdate quietly t e w,
      (Program.lift (sessionAnswer t e w) >>= k).attempt >>= f) = _
    rw [hupdate, hanswer]
    rfl
  rw [actsAt, List.replicate_succ, List.foldl_cons, actsAt]
  simp only [Pool.apply, Function.update_self, Function.update_idem, hperform]

/-- **The acts that apply a retained event**: three reads, and the transaction that decides. -/
theorem actsAt_applyReplay (hrolled : e.rolledBack = none) (hlost : e.unacknowledged = none)
    (hrow : w.db.deadLetters.lookup claim.deadLetterId = some row)
    (hevent : retainedEvent cfg.pydantic cfg.recursionLimit row = .ok event)
    (hnew : w.db.inbox.lookup (row.consumerId, event.eventId) = none)
    (hstorable : storable event.aggregateId = true)
    (hexisting : w.db.projection.lookup event.aggregateId = existing) :
    (actsAt place e 4 ⟨w, Function.update tasks place
        (some (.operator, applyReplayProgram cfg claim >>= fun _ => pure ()))⟩).world
      = sessionUpdate (judgeReplay cfg claim)
        (applyReplay cfg.pydantic cfg.recursionLimit claim (some (.fresh existing))) e w := by
  have hread : readRetained cfg.pydantic cfg.recursionLimit claim.deadLetterId e w.db
      = .ok (some (row.consumerId, event), w.db) := by
    have hfound : (Tx.read fun db => db.deadLetters.lookup claim.deadLetterId :
        ConsumerTx (Option DeadLetterRow)) e w.db = .ok (some row, w.db) := by
      rw [Tx.read, hrow]
    rw [readRetained, Tx.bind_of_ok hfound]
    simp only [hevent]
    rfl
  have hinbox : lookUpInbox row.consumerId event e w.db = .ok (false, w.db) := by
    rw [lookUpInbox, Tx.read, hnew]
    rfl
  have hprojection : lookUpProjection event e w.db = .ok (existing, w.db) := by
    rw [lookUpProjection, ConsumerTx.ensure, if_pos hstorable, Tx.bind_of_ok rfl, Tx.read,
      hexisting]
  rw [applyReplayProgram, Program.bind_assoc, lookUpRetained, Program.bind_assoc,
    actsAt_read hrolled hlost hread 3]
  simp only [lookUpEvent, Program.bind_assoc]
  rw [actsAt_read hrolled hlost hinbox 2]
  simp only [Bool.false_eq_true, if_false, Program.bind_assoc]
  rw [actsAt_read hrolled hlost hprojection 1, actsAt, List.replicate_one, List.foldl_cons,
    List.foldl_nil]
  simp only [Pool.apply, Function.update_self]
  rfl

/-- The event of a row is applied, and its attempt ends. -/
def appliesRetained (claim : ReplayClaim) (row : DeadLetterRow) (attempt : ReplayAttemptRow)
    (event : DomainEvent) (view : EventView) (at_ : Instant) :
    ConsumerTx (Option ReplayAttemptStatus) := do
  let outcome ← recordAndApply view row.consumerId event row.kafkaPartition row.kafkaOffset at_
  let status : ReplayAttemptStatus := if outcome = .applied then .applied else .duplicate
  finishAttempt claim.attemptId attempt status at_
  writeDeadLetter claim.deadLetterId
    (row.settled (if outcome = .applied then .replayedApplied else .replayedDuplicate) at_)
  return some status

/-- A claim that still owns its rows applies the event and ends its attempt. -/
theorem applyReplay_of_owned {p : Pydantic} {limit : ℕ} {view : EventView} {db : ConsumerDb}
    (hrow : db.deadLetters.lookup claim.deadLetterId = some row)
    (hattempt : db.attempts.lookup claim.attemptId = some attempt)
    (howns : claim.owns row attempt e.now = true) (hevent : retainedEvent p limit row = .ok event) :
    applyReplay p limit claim (some view) e db
      = appliesRetained claim row attempt event view e.now e db := by
  have howned : claim.owned (some row) (some attempt) e.now = some (row, attempt) := by
    rw [ReplayClaim.owned, if_pos howns]
  have hletter : (Tx.read fun db => db.deadLetters.lookup claim.deadLetterId :
      ConsumerTx (Option DeadLetterRow)) e db = .ok (some row, db) := by
    rw [Tx.read, hrow]
  have hfound : (Tx.read fun db => db.attempts.lookup claim.attemptId :
      ConsumerTx (Option ReplayAttemptRow)) e db = .ok (some attempt, db) := by
    rw [Tx.read, hattempt]
  have hnow : (Tx.reading fun e => e.now : ConsumerTx Instant) e db = .ok (e.now, db) := rfl
  rw [applyReplay, Tx.bind_of_ok hletter, Tx.bind_of_ok hfound, Tx.bind_of_ok hnow, howned]
  simp only [hevent, seenView]
  rfl

end Operator

/-- One record in each of four partitions. -/
def overlappedLog : ℕ → ℕ → KafkaMessage := recordsOf fun kafkaPartition kafkaOffset =>
  if kafkaOffset = 0 then jobEvents[kafkaPartition]? else none

/-- A consumer takes the record of its partition, and performs some acts. -/
def takesFirst (kafkaPartition acts : ℕ) (s : ConsumerPool) : ConsumerPool :=
  actsAt kafkaPartition pollEnv acts
    (pollsAt overlappedLog kafkaPartition kafkaPartition (fun _ => 0) s)

theorem takesFirst_eq {kafkaPartition acts : ℕ} {s : ConsumerPool} (event : DomainEvent)
    (hevent : jobEvents[kafkaPartition]? = some event) :
    takesFirst kafkaPartition acts s
      = actsAt kafkaPartition pollEnv acts (s.apply (.start kafkaPartition .consumer
          (eventRound overlappedLog (fun _ => 0) kafkaPartition event))) := by
  have hdecode : decodeMessage pollConfig.pydantic pollConfig.recursionLimit
      (overlappedLog kafkaPartition 0) = .ok (event, none) :=
    decodeMessage_recordsOf (by simpa using hevent) (List.mem_of_getElem? hevent)
  rw [takesFirst, pollsAt_eq hdecode]

/-- The retry of the job is looked up before the job ends and written after an event of it was
rejected: the row of the job, which had ended, is open again. -/
def overlappedPool : ConsumerPool :=
  actsAt 1 pollEnv 3
    (takesFirst 3 9 (takesFirst 2 7 (takesFirst 1 4 (takesFirst 0 7 { world := .empty }))))

/-- The dead letter of the last event. -/
def failedLetter : DeadLetterRow :=
  newDeadLetter allowedConsumerId 3 0 PoisonError.lifecycleOrderViolation.failureCode 1 0
    (buildRetention isoPydantic pollConfig.sha256
      (publishedMessage isoPydantic jobFailed none).value (some jobFailed))

theorem overlappedPool_eq : overlappedPool = actsAt 1 pollEnv 3
    (actsAt 3 pollEnv 9 (Pool.apply (actsAt 2 pollEnv 7 (Pool.apply (actsAt 1 pollEnv 4
      (Pool.apply (actsAt 0 pollEnv 7 (({ world := .empty } : ConsumerPool).apply
        (.start 0 .consumer (eventRound overlappedLog (fun _ => 0) 0 jobCreated))))
        (.start 1 .consumer (eventRound overlappedLog (fun _ => 0) 1 retryEvent))))
        (.start 2 .consumer (eventRound overlappedLog (fun _ => 0) 2 jobCompleted))))
        (.start 3 .consumer (eventRound overlappedLog (fun _ => 0) 3 jobFailed)))) := by
  rw [overlappedPool, takesFirst_eq jobFailed rfl, takesFirst_eq jobCompleted rfl,
    takesFirst_eq retryEvent rfl, takesFirst_eq jobCreated rfl]

/-- What an act of the operator meets. -/
def operatorEnv : ConsumerEnv :=
  { now := 1, uuid := "a1", tokenHex := String.ofList (List.replicate 64 'f') }

/-- What the operator asks for. -/
def sampleRequest : ReplayRequest where
  deadLetterId := "d1"
  idempotencyKey := "key-1"
  actorId := "operator-1"
  operatorReason := "the job has failed"
  requestFingerprint := String.ofList (List.replicate 64 'c')

def sampleReplayClaim : ReplayClaim := ⟨"d1", "a1", operatorEnv.tokenHex⟩

/-- The operator claims the dead letter. -/
def claimedPool : ConsumerPool :=
  actsAt 4 operatorEnv 1 (overlappedPool.apply (.start 4 .operator
    (replayProgram pollConfig 60 sampleRequest >>= fun _ => pure ())))

/-- It applies the event. -/
def replayedPool : ConsumerPool := actsAt 4 operatorEnv 4 claimedPool

/-- The tables once the dead letter is claimed. -/
def claimedDb : ConsumerDb := (claimReplay 60 sampleRequest).commit operatorEnv
  overlappedPool.world.db

/-- The tables once its event is applied. -/
def replayedDb : ConsumerDb :=
  (appliesRetained sampleReplayClaim (failedLetter.claimedBy operatorEnv.tokenHex 60 1)
    (sampleRequest.attempt operatorEnv.tokenHex 1) jobFailed
    (.fresh (some (projectionOf retryEvent 0))) operatorEnv.now).commit operatorEnv claimedDb

/-- What the tables hold. -/
theorem overlappedPool_replayed :
    (claimReplay 60 sampleRequest operatorEnv overlappedPool.world.db).map Prod.fst
      = .ok (.claimed sampleReplayClaim) ∧
    claimedDb.deadLetters.lookup sampleReplayClaim.deadLetterId
      = some (failedLetter.claimedBy operatorEnv.tokenHex 60 1) ∧
    claimedDb.attempts.lookup sampleReplayClaim.attemptId
      = some (sampleRequest.attempt operatorEnv.tokenHex 1) ∧
    claimedDb.projection.lookup jobFailed.aggregateId = some (projectionOf retryEvent 0) ∧
    claimedDb.inbox.lookup (allowedConsumerId, jobFailed.eventId) = none ∧
    (sampleReplayClaim.owns (failedLetter.claimedBy operatorEnv.tokenHex 60 1)
      (sampleRequest.attempt operatorEnv.tokenHex 1) operatorEnv.now = true ∧
        storable jobFailed.aggregateId = true) ∧
    replayedDb.attempts.lookup "a1"
      = some ((sampleRequest.attempt operatorEnv.tokenHex 1).finish .applied 1) := by
  rw [replayedDb, claimedDb, overlappedPool_eq]
  decide +kernel

theorem claimedPool_eq : claimedPool
    = ⟨sessionUpdate quietly (claimReplay 60 sampleRequest) operatorEnv overlappedPool.world,
        Function.update overlappedPool.tasks 4 (some (.operator,
          applyReplayProgram pollConfig sampleReplayClaim >>= fun _ => pure ()))⟩ := by
  refine actsAt_claim ?_
  rw [sessionAnswer, overlappedPool_replayed.1]
  rfl

theorem claimedPool_db : claimedPool.world.db = claimedDb := by
  have hclaimed : (sessionUpdate quietly (claimReplay 60 sampleRequest) operatorEnv
      overlappedPool.world).db = _ := sessionUpdate_db rfl
  rw [claimedPool_eq, claimedDb, ← hclaimed]

/-- The dead letter retains the event it is about. -/
theorem retainedEvent_failedLetter : retainedEvent pollConfig.pydantic pollConfig.recursionLimit
    (failedLetter.claimedBy operatorEnv.tokenHex 60 1) = .ok jobFailed := by
  have hjob : jobFailed ∈ jobEvents := by simp [jobEvents]
  have henc := jobEvents_encodable jobFailed hjob
  have hretention : (failedLetter.claimedBy operatorEnv.tokenHex 60 1).retention
      = buildRetention isoPydantic pollConfig.sha256
        (publishedMessage isoPydantic jobFailed none).value (some jobFailed) := rfl
  refine retainedEvent_eq_ok.2 ⟨serializeDomainEvent isoPydantic jobFailed, ?_, ?_⟩
  · rw [hretention]
    exact retainedCanonicalValue_of_size
      (serializeDomainEvent_bytes isoPydantic_faithful henc (jobEvents_short jobFailed hjob)) _ _
  · exact parseRetained_serializeDomainEvent isoPydantic_faithful (by decide) henc

theorem replayedPool_db : replayedPool.world.db = replayedDb := by
  obtain ⟨-, hletter, hattempt, hrow, hnew, ⟨howns, hstorable⟩, -⟩ := overlappedPool_replayed
  rw [← claimedPool_db] at hletter hattempt hrow hnew
  have hworld : replayedPool.world = sessionUpdate (judgeReplay pollConfig sampleReplayClaim)
      (applyReplay pollConfig.pydantic pollConfig.recursionLimit sampleReplayClaim
        (some (.fresh (some (projectionOf retryEvent 0))))) operatorEnv claimedPool.world := by
    rw [claimedPool_eq] at hletter hrow hnew
    rw [replayedPool, claimedPool_eq]
    exact actsAt_applyReplay rfl rfl hletter retainedEvent_failedLetter hnew hstorable hrow
  have happly : applyReplay pollConfig.pydantic pollConfig.recursionLimit sampleReplayClaim
      (some (.fresh (some (projectionOf retryEvent 0)))) operatorEnv claimedPool.world.db = _ :=
    applyReplay_of_owned hletter hattempt howns retainedEvent_failedLetter
  rw [hworld, sessionUpdate_db rfl, Tx.commit, happly, claimedPool_db, replayedDb, Tx.commit]

section Overlapped

variable {s : ConsumerPool} {kafkaPartition acts : ℕ}

theorem reachable_takesFirst (kafkaPartition acts : ℕ)
    (h : (consumerSpec pollConfig overlappedLog).lts.Reachable s)
    (hfree : s.tasks kafkaPartition = none) :
    (consumerSpec pollConfig overlappedLog).lts.Reachable (takesFirst kafkaPartition acts s) := by
  have hstart : (consumerSpec pollConfig overlappedLog).Allows s (.start kafkaPartition .consumer
      (pollLoop pollConfig overlappedLog 1 fun _ => 0)) :=
    ⟨hfree, 1, fun _ => 0, fun _ => Nat.zero_le _, rfl⟩
  exact reachable_actsAt (fun _ _ => trivial) _ _
    (reachable_pollsAt (fun _ _ => trivial) h hstart)

theorem tasks_takesFirst {other : ℕ} (hne : other ≠ kafkaPartition) (hfree : s.tasks other = none) :
    (takesFirst kafkaPartition acts s).tasks other = none := by
  rw [takesFirst, tasks_actsAt hne, tasks_pollsAt hne, hfree]

end Overlapped

theorem overlappedPool_reachable :
    (consumerSpec pollConfig overlappedLog).lts.Reachable overlappedPool ∧
      overlappedPool.tasks 4 = none := by
  have hempty : (consumerSpec pollConfig overlappedLog).lts.Reachable { world := .empty } :=
    .of_init ⟨rfl, rfl⟩
  have hcreated := reachable_takesFirst 0 7 hempty rfl
  have hretried := reachable_takesFirst 1 4 hcreated (tasks_takesFirst (by decide) rfl)
  have hcompleted := reachable_takesFirst 2 7 hretried
    (tasks_takesFirst (by decide) (tasks_takesFirst (by decide) rfl))
  have hfailed := reachable_takesFirst 3 9 hcompleted
    (tasks_takesFirst (by decide) (tasks_takesFirst (by decide) (tasks_takesFirst (by decide) rfl)))
  refine ⟨reachable_actsAt (fun _ _ => trivial) pollEnv 3 hfailed, ?_⟩
  rw [overlappedPool, tasks_actsAt (by decide)]
  exact tasks_takesFirst (by decide) (tasks_takesFirst (by decide)
    (tasks_takesFirst (by decide) (tasks_takesFirst (by decide) rfl)))

theorem claimedPool_reachable :
    (consumerSpec pollConfig overlappedLog).lts.Reachable claimedPool := by
  obtain ⟨hreachable, hfree⟩ := overlappedPool_reachable
  have hstart : (consumerSpec pollConfig overlappedLog).Allows overlappedPool (.start 4 .operator
      (replayProgram pollConfig 60 sampleRequest >>= fun _ => pure ())) :=
    ⟨hfree, 60, sampleRequest, rfl⟩
  exact reachable_actsAt (fun _ _ => trivial) operatorEnv 1 (hreachable.step ⟨hstart, rfl⟩)

theorem replayedPool_reachable :
    (consumerSpec pollConfig overlappedLog).lts.Reachable replayedPool :=
  reachable_actsAt (fun _ _ => trivial) operatorEnv 4 claimedPool_reachable

/-- A dead letter is claimed and applied: while its attempt is in progress the dead letter is under
its token, and in every later run the attempt stays applied.  The same key makes no second attempt,
and with another fingerprint it is a conflict. -/
theorem replay_fencing_applied :
    (∃ row, claimedPool.world.db.deadLetters.lookup "d1" = some row ∧
      row.replayState = .replaying ∧ row.replayClaimToken = some operatorEnv.tokenHex) ∧
    effectCount allowedConsumerId jobFailed.eventId replayedPool.world.history ≤ 1 ∧
    (∀ actions s', (consumerSpec pollConfig overlappedLog).lts.Run replayedPool actions s' →
      ∃ a, s'.world.db.attempts.lookup "a1" = some a ∧ a.status = .applied) ∧
    (∀ leaseSeconds e,
      (∀ id, replayedPool.world.db.attempts.lookup id = none →
        ((replayProgram pollConfig leaseSeconds sampleRequest).perform e
          replayedPool.world).1.db.attempts.lookup id = none) ∧
      Ended ((replayProgram pollConfig leaseSeconds sampleRequest).perform e
        replayedPool.world).2) ∧
    ∀ leaseSeconds e,
      ((replayProgram pollConfig leaseSeconds { sampleRequest with
        requestFingerprint := "another" }).perform e replayedPool.world).1
          = replayedPool.world := by
  obtain ⟨-, -, hattempt, -, -, -, hreplayed⟩ := overlappedPool_replayed
  obtain ⟨-, hcurrent, -⟩ :=
    replay_fencing pollConfig overlappedLog claimedPool claimedPool_reachable
  obtain ⟨-, -, honce, -, hends, -, hrepeated⟩ :=
    replay_fencing pollConfig overlappedLog replayedPool replayedPool_reachable
  obtain ⟨a, happlied, hstatus, hletter, hkey, hfingerprint⟩ : ∃ a,
      replayedPool.world.db.attempts.lookup "a1" = some a ∧ a.status = .applied ∧
        sampleRequest.deadLetterId = a.deadLetterId ∧
        sampleRequest.idempotencyKey = a.idempotencyKey ∧
        sampleRequest.requestFingerprint = a.requestFingerprint :=
    ⟨_, replayedPool_db ▸ hreplayed, rfl, rfl, rfl, rfl⟩
  obtain ⟨b, hclaimed, hprogress, hsame, htoken⟩ : ∃ b,
      claimedPool.world.db.attempts.lookup "a1" = some b ∧ b.status = .inProgress ∧
        b.deadLetterId = "d1" ∧ b.ownershipToken = operatorEnv.tokenHex :=
    ⟨_, claimedPool_db ▸ hattempt, rfl, rfl, rfl⟩
  obtain ⟨row, hrow, hreplaying, hclaim⟩ := hcurrent "a1" b hclaimed hprogress
  refine ⟨⟨row, hsame ▸ hrow, hreplaying, htoken ▸ hclaim⟩, honce _ _, ?_, ?_, ?_⟩
  · intro actions s' hrun
    have hterminal : a.status.Terminal := by
      rw [hstatus]
      intro hsame
      cases hsame
    obtain ⟨a', ha', hsame⟩ := hends actions s' hrun "a1" a happlied hterminal
    exact ⟨a', ha', hsame.trans hstatus⟩
  · intro leaseSeconds e
    exact (hrepeated "a1" a sampleRequest happlied hletter hkey leaseSeconds e).1
  · intro leaseSeconds e
    refine ((hrepeated "a1" a { sampleRequest with requestFingerprint := "another" } happlied
      hletter hkey leaseSeconds e).2 ?_).1
    intro hsame
    have hsame : "another" = String.ofList (List.replicate 64 'c') :=
      hsame.trans hfingerprint.symm
    have hlength := congrArg String.length hsame
    simp only [String.length_ofList, List.length_replicate] at hlength
    exact absurd hlength (by decide)

end Atlas
