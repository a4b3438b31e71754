/-
**The lifecycle projection.**

One process at a time, a consumer or an operator, works on the tables of the consumer, as the inbox
expects of the consumer group; it may be stopped anywhere, and the next one starts from any position
that is committed.  Then what an event's lookups have seen is still there when its effect is
written.  So the projection is the read model of the decisions: an event that is new writes the row
of its job, unless the row holds a terminal event, and then it is rejected and leaves nothing.

Main definitions:

* `Atlas.loneSpec` — the processes, one at a time;
* `Atlas.lifecycleModel` — the projection as a read model;
* `Atlas.LoneChange` — what an act of the only process changes;
* `Atlas.Reflected` — decisions, inbox and projection tell the same.

Main results:

* `Atlas.lone_conduct` — every act of a lone process is such a change;
* `Atlas.lifecycle_projection` — **the projection is the fold of the distinct events of each job up
  to its first terminal one**.
-/

import Atlas.ConsumerSystem
import Atlas.DeliveryRounds
import Atlas.ReadModel
import Atlas.RecordTiming

set_option relaxedAutoImplicit false
set_option autoImplicit false

namespace Atlas

/-- The projection as a read model: an event writes the row of its job, and a terminal one closes
it. -/
def lifecycleModel : ReadModel Decision String ProjectionRow where
  key d := d.event.aggregateId
  row d := projectionOf d.event d.at_
  closed row := row.lastEventType.Terminal

/-- The consumers and the operators, one at a time. -/
def loneSpec (cfg : ConsumerConfig) (log : ℕ → ℕ → KafkaMessage) :
    PoolSpec ConsumerEnv ConsumerWorld ConsumerExc Unit ConsumerTask :=
  { consumerSpec cfg log with
    starts := fun s task program =>
      (∀ place, s.tasks place = none) ∧ (consumerSpec cfg log).starts s task program }

/-- A lone process is one of any number. -/
theorem reachable_of_lone {cfg : ConsumerConfig} {log : ℕ → ℕ → KafkaMessage}
    {s : Pool ConsumerEnv ConsumerWorld ConsumerExc Unit ConsumerTask}
    (h : (loneSpec cfg log).lts.Reachable s) : (consumerSpec cfg log).lts.Reachable s := by
  refine h.invariant (M := (loneSpec cfg log).lts) (I := (consumerSpec cfg log).lts.Reachable)
    (fun s hs => .of_init hs) ?_
  rintro s action s' hs ⟨hallows, happly⟩
  refine hs.step ⟨?_, happly⟩
  cases action with
  | start place task program => exact ⟨hallows.1, hallows.2.2⟩
  | act place e => exact hallows
  | stop place => exact hallows

/-! ### Changes -/

/-- **What an act of the only process changes.** -/
inductive LoneChange (w w' : ConsumerWorld) : Prop
  /-- Nothing is decided. -/
  | quiet (hhistory : w'.history = w.history) (hinbox : w'.db.inbox = w.db.inbox)
      (hprojection : w'.db.projection = w.db.projection)
  /-- An event is applied to the row of its job. -/
  | applied (d : Decision) (hhistory : w'.history = w.history ++ [d])
      (heffect : WritesEffect (w.db.projection.lookup d.event.aggregateId) d w.db w'.db)
  /-- A new event is rejected, since the row of its job holds a terminal one. -/
  | rejected (d : Decision) (row : ProjectionRow) (hrejected : d.applied = false)
      (hhistory : w'.history = w.history ++ [d]) (hdb : w'.db = w.db)
      (hnew : w.db.inbox.lookup (d.consumerId, d.event.eventId) = none)
      (hrow : w.db.projection.lookup d.event.aggregateId = some row)
      (hterminal : row.lastEventType.Terminal)

section Changes

variable {w w' : ConsumerWorld} {e : ConsumerEnv} {db db' : ConsumerDb} {d : Decision}

theorem LoneChange.refl (w : ConsumerWorld) : LoneChange w w := .quiet rfl rfl rfl

theorem LoneChange.of_quiet {Letter : DeadLetterRow → Prop} (h : NoDecision Letter w w') :
    LoneChange w w' :=
  .quiet h.history h.inbox h.projection

theorem LoneChange.history (h : LoneChange w w') : ∃ more, w'.history = w.history ++ more := by
  cases h with
  | quiet hhistory => exact ⟨[], by rw [hhistory, List.append_nil]⟩
  | applied d hhistory => exact ⟨[d], hhistory⟩
  | rejected d row hrejected hhistory => exact ⟨[d], hhistory⟩

theorem setColumn_self {α : Type} [DecidableEq α] (seen new : α) :
    setColumn seen new seen = new := by
  rw [setColumn]
  split
  · rename_i heq
    exact heq.symm
  · rfl

/-- A row that is what was seen becomes the new one. -/
theorem ProjectionRow.set_self (seen new : ProjectionRow) : seen.set new seen = new := by
  cases new
  simp only [ProjectionRow.set, setColumn_self]

/-- An effect written on the row there is writes the row of its event. -/
theorem WritesEffect.current
    (h : WritesEffect (db.projection.lookup d.event.aggregateId) d db db') :
    db'.projection
        = db.projection.insert d.event.aggregateId (projectionOf d.event d.at_) ∧
      ∀ row, db.projection.lookup d.event.aggregateId = some row →
        ¬ row.lastEventType.Terminal := by
  obtain ⟨row, hprojection, ⟨hnone, -, -, rfl⟩ | ⟨seen, current, hseen, hopen, hcurrent, rfl⟩⟩ :=
    h.projection
  · refine ⟨hprojection, fun row hrow => ?_⟩
    rw [hnone] at hrow
    cases hrow
  · rw [hseen] at hcurrent
    cases hcurrent
    refine ⟨by rw [hprojection, ProjectionRow.set_self], fun row hrow => ?_⟩
    rw [hseen] at hrow
    cases hrow
    exact hopen

/-! ### What is recorded -/

/-- **Decisions, inbox and projection tell the same**: the projection is the read model of the
decisions, each decision has the verdict the rows before it give and is about an event that was not
applied before, and the inbox has the events that were applied. -/
structure Reflected (w : ConsumerWorld) : Prop where
  rows : ∀ jobId, w.db.projection.lookup jobId = lifecycleModel.replay w.history jobId
  verdicts : lifecycleModel.Judged Decision.applied w.history
  fresh : ∀ before d after, w.history = before ++ d :: after → ∀ earlier ∈ before,
    earlier.applied = true →
      ¬ (earlier.consumerId = d.consumerId ∧ earlier.event.eventId = d.event.eventId)
  inbox : ∀ consumerId eventId, (w.db.inbox.lookup (consumerId, eventId)).isSome ↔
    ∃ d ∈ w.history, d.applied = true ∧ d.consumerId = consumerId ∧ d.event.eventId = eventId

theorem reflected_empty : Reflected .empty where
  rows _ := rfl
  verdicts := .nil
  fresh before d after h := by simp [ConsumerWorld.empty] at h
  inbox consumerId eventId := by simp [ConsumerWorld.empty]

/-- What is decided of an event that is not in the inbox is decided for the first time. -/
theorem Reflected.fresh_snoc (h : Reflected w)
    (hnew : w.db.inbox.lookup (d.consumerId, d.event.eventId) = none) :
    ∀ before other after, w.history ++ [d] = before ++ other :: after → ∀ earlier ∈ before,
      earlier.applied = true →
        ¬ (earlier.consumerId = other.consumerId ∧
          earlier.event.eventId = other.event.eventId) := by
  intro before other after hsplit earlier hearlier happlied hsame
  rcases HeadOfLine.eq_or_mem_of_snoc hsplit with ⟨rfl, rfl⟩ | ⟨after', hsplit'⟩
  · have hsome := (h.inbox _ _).2 ⟨earlier, hearlier, happlied, hsame⟩
    rw [hnew] at hsome
    cases hsome
  · exact h.fresh before other after' hsplit' earlier hearlier happlied hsame

/-- **Every act of the only process keeps what is recorded.** -/
theorem Reflected.change (h : Reflected w) (hchange : LoneChange w w') : Reflected w' := by
  cases hchange with
  | quiet hhistory hinbox hprojection =>
      constructor
      · simpa only [hprojection, hhistory] using h.rows
      · simpa only [hhistory] using h.verdicts
      · simpa only [hhistory] using h.fresh
      · simpa only [hinbox, hhistory] using h.inbox
  | applied d hhistory heffect =>
      obtain ⟨hprojection, hopen⟩ := heffect.current
      obtain ⟨row, hinbox⟩ := heffect.inbox
      have haccepts : lifecycleModel.accepts (lifecycleModel.replay w.history) d = true := by
        rw [ReadModel.accepts, ← h.rows]
        cases hrow : w.db.projection.lookup (lifecycleModel.key d) with
        | none => rfl
        | some row =>
            have hclosed : lifecycleModel.closed row = false := decide_eq_false (hopen row hrow)
            rw [Option.any_some, hclosed]
            rfl
      constructor
      · intro jobId
        rw [hprojection, hhistory, ReadModel.replay_snoc, ReadModel.apply_of_accepts haccepts,
          Table.lookup_insert_eq, Function.update_apply, h.rows]
        rfl
      · rw [hhistory]
        exact h.verdicts.snoc (heffect.applied.trans haccepts.symm)
      · rw [hhistory]
        exact h.fresh_snoc heffect.new
      · intro consumerId eventId
        rw [hinbox, hhistory, Table.lookup_insert_eq]
        simp only [List.mem_append, List.mem_singleton, or_and_right, exists_or, exists_eq_left,
          ← h.inbox, heffect.applied, true_and]
        split
        · rename_i heq
          cases heq
          simp
        · rename_i hne
          have hother : ¬ (d.consumerId = consumerId ∧ d.event.eventId = eventId) := by
            rintro ⟨rfl, rfl⟩
            exact hne rfl
          simp [hother]
  | rejected d row hrejected hhistory hdb hnew hrow hterminal =>
      have hrefused : lifecycleModel.accepts (lifecycleModel.replay w.history) d = false := by
        have hclosed : lifecycleModel.closed row = true := decide_eq_true hterminal
        have hrow' : w.db.projection.lookup (lifecycleModel.key d) = some row := hrow
        rw [ReadModel.accepts, ← h.rows, hrow', Option.any_some, hclosed]
        rfl
      constructor
      · intro jobId
        rw [hdb, hhistory, ReadModel.replay_snoc, ReadModel.apply_of_refused hrefused, h.rows]
      · rw [hhistory]
        exact h.verdicts.snoc (hrejected.trans hrefused.symm)
      · rw [hhistory]
        exact h.fresh_snoc hnew
      · intro consumerId eventId
        rw [hdb, hhistory]
        simp only [List.mem_append, List.mem_singleton, or_and_right, exists_or, exists_eq_left,
          ← h.inbox, hrejected, Bool.false_eq_true, false_and, or_false]

end Changes

/-! ### Programs -/

/-- What the lookups of an event have seen is what there is. -/
inductive Current (consumerId : String) (event : DomainEvent) (db : ConsumerDb) : EventView → Prop
  | duplicate (h : (db.inbox.lookup (consumerId, event.eventId)).isSome) :
      Current consumerId event db .duplicate
  | fresh (h : db.inbox.lookup (consumerId, event.eventId) = none) :
      Current consumerId event db (.fresh (db.projection.lookup event.aggregateId))

section Programs

variable {cfg : ConsumerConfig} {log : ℕ → ℕ → KafkaMessage} {e : ConsumerEnv}
  {db db' : ConsumerDb} {w w' : ConsumerWorld} {consumerId : String} {event : DomainEvent}
  {view : EventView}

/-- The lookups of the only process see what there is, and leave what holds. -/
theorem lone_lookUpEvent (A : ConsumerWorld → Prop) (consumerId : String) (event : DomainEvent) :
    Program.Triple Eq LoneChange A (lookUpEvent consumerId event)
      (fun view w => A w ∧ Current consumerId event w.db view) (fun x _ => EventError x) := by
  refine triple_lookUpEvent
    (B := fun w => A w ∧ w.db.inbox.lookup (consumerId, event.eventId) = none)
    (fun w w' heq h => heq ▸ h) (fun w w' heq h => heq ▸ h) (fun w _ => .refl w)
    (fun w _ => .refl w) (fun w h hsome => ⟨h, .duplicate hsome⟩) (fun w h hnone => ⟨h, hnone⟩)
    (fun w h => ⟨h.1, .fresh h.2⟩) (fun w error _ => .database error)
    fun w error _ => .database error

/-- A rejection of an event whose lookups are current. -/
theorem LoneChange.of_rejected {d : Decision} (hcurrent : Current d.consumerId d.event w.db view)
    (hseen : ∃ seen, view = .fresh (some seen) ∧ seen.lastEventType.Terminal)
    (hrejected : d.applied = false) :
    LoneChange w { w with history := w.history ++ [d] } := by
  obtain ⟨seen, rfl, hterminal⟩ := hseen
  cases hrow : w.db.projection.lookup d.event.aggregateId with
  | none =>
      generalize hview : EventView.fresh (some seen) = view at hcurrent
      cases hcurrent with
      | duplicate => cases hview
      | fresh => simp [hrow] at hview
  | some row =>
      generalize hview : EventView.fresh (some seen) = view at hcurrent
      cases hcurrent with
      | duplicate => cases hview
      | fresh hnew =>
          have hsame : seen = row := by simpa [hrow] using hview
          exact .rejected d row hrejected rfl rfl hnew hrow (hsame ▸ hterminal)

/-- The attempt to apply an event writes on what its lookups have seen. -/
theorem lone_applyOnce (event : DomainEvent) (kafkaPartition kafkaOffset : ℕ) (at_ : Instant)
    (i : ℕ) : Program.Triple Eq LoneChange (fun _ => True)
      (applyOnce cfg.ops event kafkaPartition kafkaOffset at_ i) (fun _ _ => True)
      (fun x _ => isTransientKafkaError x = false) := by
  have hrecord : ∀ view, Program.Triple Eq LoneChange
      (fun w => Current cfg.consumerId event w.db view)
      (session (judgeDelivery cfg.consumerId event at_)
        (recordAndApply view cfg.consumerId event kafkaPartition kafkaOffset at_))
      (fun _ _ => True) (fun x _ => EventError x) := by
    intro view
    refine triple_session (fun w w' heq h => heq ▸ h)
      (fun w error _ => ⟨.refl w, .database error⟩) ?_ ?_
    · rintro e w outcome db' hcurrent h _ rfl
      refine ⟨?_, trivial, fun error => .database error⟩
      rcases recordAndApply_eq_ok h with ⟨rfl, -, rfl⟩ | ⟨rfl, -, -, existing, rfl, heffect⟩
      · exact .quiet (by simp [judgeDelivery]) rfl rfl
      · refine .applied _ rfl ?_
        cases hcurrent
        exact heffect
    · rintro e w x hcurrent h _ rfl
      refine ⟨?_, raises_recordAndApply _ _ _ _ _ _ _ _ _ h⟩
      cases hdecision : judgeDelivery cfg.consumerId event at_ e w.db (.error x) with
      | none => exact .quiet (by simp) rfl rfl
      | some d =>
          simp only [judgeDelivery] at hdecision
          split at hdecision
          · rename_i heq
            cases heq
          · rename_i heq
            cases heq
            cases hdecision
            exact .of_rejected hcurrent (recordAndApply_eq_poison h).2 rfl
          · cases hdecision
  refine .bind (.attempt (.bind (lone_lookUpEvent (fun _ => True) cfg.consumerId event)
    fun view => .pre (hrecord view) fun w h => h.2) (R := fun answer _ =>
    ∀ x, answer = .error x → EventError x) ?_ ?_) fun answer => ?_
  · intro outcome _ _ x h
    cases h
  · intro x _ hx y h
    cases h
    exact hx
  · split
    · exact .ret fun _ _ => trivial
    · exact .ret fun _ _ => trivial
    · exact .raise fun _ h => isTransientKafkaError_of_eventError (h _ rfl)

/-- **A lone consumer.** -/
theorem lone_rounds (cfg : ConsumerConfig) (log : ℕ → ℕ → KafkaMessage) :
    Rounds cfg log (fun _ _ => True) Eq LoneChange fun _ _ => True where
  stable _ _ _ _ _ := trivial
  quiet _ _ _ _ h := ⟨.of_quiet h, trivial⟩
  undecoded _ _ _ _ := ⟨fun _ _ => trivial, fun _ _ => trivial⟩
  decoded _ _ _ _ _ _ _ := trivial
  apply position kafkaPartition event _ _ at_ i :=
    (lone_applyOnce event kafkaPartition (position kafkaPartition) at_ i).consequence
      (fun _ h => h) (fun _ _ _ => trivial) fun _ _ h => ⟨trivial, h⟩

/-! #### Replays -/

/-- No poison event. -/
def NoPoison (x : ConsumerExc) : Prop := ∀ error, x ≠ .poison error

theorem noPoison_database (error : DbError) : NoPoison (.database error) := by
  intro _ h
  cases h

theorem noPoison_finishAttempt (id : String) (row : ReplayAttemptRow) (status : ReplayAttemptStatus)
    (now : Instant) : ConsumerTx.Raises NoPoison (finishAttempt id row status now) :=
  .bind (.read _) fun _ => .bind (.ensure (noPoison_database _)) fun _ => .modify _

theorem noPoison_writeDeadLetter (id : String) (row : DeadLetterRow) :
    ConsumerTx.Raises NoPoison (writeDeadLetter id row) :=
  .bind (.ensure (noPoison_database _)) fun _ => .modify _

theorem noPoison_loseOwnership (claim : ReplayClaim) (attempt : Option ReplayAttemptRow)
    (now : Instant) : ConsumerTx.Raises NoPoison (loseOwnership claim attempt now) := by
  cases attempt with
  | none => exact .pure _
  | some attempt =>
      rw [loseOwnership]
      split
      · exact noPoison_finishAttempt _ _ _ _
      · exact .pure _

theorem noPoison_retainedEvent {p : Pydantic} {limit : ℕ} {row : DeadLetterRow} {x : ConsumerExc}
    (h : retainedEvent p limit row = .error x) : NoPoison x := by
  intro error heq
  subst heq
  unfold retainedEvent at h
  split at h
  · cases h
  · split at h
    · cases h
    · split at h <;> cases h

/-- A replay that is rejected has seen a terminal event. -/
theorem applyReplay_eq_poison {claim : ReplayClaim} {view : Option EventView} {error : PoisonError}
    (h : applyReplay cfg.pydantic cfg.recursionLimit claim view e db = .error (.poison error)) :
    ∃ row event view', db.deadLetters.lookup claim.deadLetterId = some row ∧
      retainedEvent cfg.pydantic cfg.recursionLimit row = .ok event ∧ view = some view' ∧
      ∃ seen, view' = .fresh (some seen) ∧ seen.lastEventType.Terminal := by
  rcases Tx.bind_eq_error.1 h with h | ⟨_, _, h₀, h⟩
  · exact absurd h Tx.read_ne_error
  obtain ⟨rfl, rfl⟩ := Tx.read_eq_ok.1 h₀
  rcases Tx.bind_eq_error.1 h with h | ⟨_, _, h₀, h⟩
  · exact absurd h Tx.read_ne_error
  obtain ⟨rfl, rfl⟩ := Tx.read_eq_ok.1 h₀
  rcases Tx.bind_eq_error.1 h with h | ⟨_, _, h₀, h⟩
  · exact absurd h Tx.reading_ne_error
  obtain ⟨rfl, rfl⟩ := Tx.reading_eq_ok.1 h₀
  cases howned : claim.owned (db.deadLetters.lookup claim.deadLetterId)
      (db.attempts.lookup claim.attemptId) e.now with
  | none =>
      simp only [howned] at h
      rcases Tx.bind_eq_error.1 h with h | ⟨_, _, -, h⟩
      · exact absurd rfl (noPoison_loseOwnership _ _ _ _ _ _ h error)
      · exact absurd h Tx.pure_ne_error
  | some rows =>
      obtain ⟨row, attempt⟩ := rows
      obtain ⟨hrow, -, -⟩ := owned_eq_some.1 howned
      simp only [howned] at h
      rcases Tx.bind_eq_error.1 h with h | ⟨event, _, h₀, hview⟩
      · exact absurd rfl (noPoison_retainedEvent (Tx.lift_eq_error.1 h) error)
      obtain ⟨hevent, rfl⟩ := Tx.lift_eq_ok.1 h₀
      rcases Tx.bind_eq_error.1 hview with hview | ⟨view', _, hview, hrecord⟩
      · have hseen := Tx.lift_eq_error.1 hview
        cases view <;> cases hseen
      obtain ⟨hview', rfl⟩ := Tx.lift_eq_ok.1 hview
      rw [seenView_eq_ok] at hview'
      rcases Tx.bind_eq_error.1 hrecord with hrecord | ⟨outcome, _, -, hfinish⟩
      · exact ⟨row, event, view', hrow, hevent, hview', (recordAndApply_eq_poison hrecord).2⟩
      rcases Tx.bind_eq_error.1 hfinish with hfinish | ⟨_, _, -, hsettle⟩
      · exact absurd rfl (noPoison_finishAttempt _ _ _ _ _ _ _ hfinish error)
      rcases Tx.bind_eq_error.1 hsettle with hsettle | ⟨_, _, -, hreturn⟩
      · exact absurd rfl (noPoison_writeDeadLetter _ _ _ _ _ hsettle error)
      · exact absurd hreturn Tx.pure_ne_error

/-- What the lookups of a retained event have seen is what there is, where they have seen it. -/
def CurrentRetained (cfg : ConsumerConfig) (deadLetterId : String) (view : Option EventView)
    (w : ConsumerWorld) : Prop :=
  ∀ row event view', w.db.deadLetters.lookup deadLetterId = some row →
    retainedEvent cfg.pydantic cfg.recursionLimit row = .ok event → view = some view' →
      Current row.consumerId event w.db view'

/-- The lookups of a retained event see what there is. -/
theorem lone_lookUpRetained (deadLetterId : String) : Program.Triple Eq LoneChange (fun _ => True)
    (lookUpRetained cfg deadLetterId) (fun view w => CurrentRetained cfg deadLetterId view w)
    (fun _ _ => True) := by
  -- the dead letter is what was read, since nobody else is there
  refine .bind (Q := fun retained w => ∀ row event, w.db.deadLetters.lookup deadLetterId = some row →
      retainedEvent cfg.pydantic cfg.recursionLimit row = .ok event →
      ∀ consumerId event', retained = some (consumerId, event') →
        row.consumerId = consumerId ∧ event = event')
    (triple_read (fun _ _ _ h => h) (fun w _ => .refl w) ?_
      (fun e w x _ h => absurd h readRetained_ne_error) fun _ _ _ => trivial) fun retained => ?_
  · rintro e w retained db' - h
    obtain ⟨rfl, hretained⟩ := readRetained_eq_ok h
    refine ⟨rfl, fun row event hrow hevent consumerId event' heq => ?_⟩
    obtain ⟨row', hrow', hconsumer, hevent'⟩ := hretained consumerId event' heq
    rw [hrow] at hrow'
    cases hrow'
    exact ⟨hconsumer, Except.ok.inj (hevent.symm.trans hevent')⟩
  · split
    · refine .ret ?_
      intro w _ row event view' _ _ hnone
      cases hnone
    · rename_i consumerId event'
      refine .bind ((lone_lookUpEvent _ consumerId event').consequence (fun _ h => h)
        (fun _ _ h => h) fun _ _ _ => trivial) fun view => .ret ?_
      intro w hretained row event view' hrow hevent heq
      cases heq
      obtain ⟨hsame, hcurrent⟩ := hretained
      obtain ⟨rfl, rfl⟩ := hsame row event hrow hevent consumerId event' rfl
      exact hcurrent

/-- The transaction that applies a retained event writes on what is there. -/
theorem lone_applyReplay (claim : ReplayClaim) (view : Option EventView) :
    Program.Triple Eq LoneChange (CurrentRetained cfg claim.deadLetterId view)
      (session (judgeReplay cfg claim) (applyReplay cfg.pydantic cfg.recursionLimit claim view))
      (fun _ _ => True) (fun _ _ => True) := by
  refine triple_session (fun w w' heq h => heq ▸ h) (fun w _ _ => ⟨.refl w, trivial⟩) ?_ ?_
  · rintro e w answer db' hcurrent h _ rfl
    refine ⟨?_, trivial, fun _ => trivial⟩
    rcases applyReplay_change h with ⟨rfl, rfl | ⟨id, a, -, -, rfl⟩⟩ | ⟨row, event, view', hrow,
      hevent, hview, ⟨rfl, rfl, hends, hinbox, hprojection⟩ | ⟨rfl, hends, existing, rfl, heffect⟩⟩
    · exact .quiet (by simp [judgeReplay]) rfl rfl
    · exact .quiet (by simp [judgeReplay]) rfl rfl
    · refine .quiet ?_ hinbox hprojection
      rw [judgeReplay, hrow, Option.bind_some, hevent]
      exact List.append_nil _
    · have hjudge : judgeReplay cfg claim e w.db (.ok (some .applied))
          = some ⟨row.consumerId, event, e.now, true⟩ := by
        rw [judgeReplay, hrow, Option.bind_some, hevent]
      refine .applied _ (by rw [hjudge, Option.toList_some]) ?_
      generalize hfresh : EventView.fresh existing = view' at hview
      cases hcurrent row event view' hrow hevent hview with
      | duplicate => cases hfresh
      | fresh =>
          cases hfresh
          exact heffect
  · rintro e w x hcurrent h _ rfl
    refine ⟨?_, trivial⟩
    cases hdecision : judgeReplay cfg claim e w.db (.error x) with
    | none => exact .quiet (by simp) rfl rfl
    | some d =>
        rw [judgeReplay, Option.bind_eq_some_iff] at hdecision
        obtain ⟨row, hrow, hdecision⟩ := hdecision
        split at hdecision
        · rename_i heq
          cases heq
        · rename_i event hevent heq
          cases heq
          cases hdecision
          obtain ⟨row', event', view', hrow', hevent', hview, hseen⟩ := applyReplay_eq_poison h
          have hsame : row' = row := Option.some.inj (hrow'.symm.trans hrow)
          subst hsame
          cases hevent'.symm.trans hevent
          exact .of_rejected (hcurrent row' _ view' hrow hevent hview) hseen rfl
        · cases hdecision

theorem quiet_of_loses {Letter : DeadLetterRow → Prop} {now : Instant}
    (h : LosesOwnership now w.db db') : NoDecision Letter w { w with db := db' } := by
  obtain ⟨id, attempt, -, -, rfl⟩ := h
  exact ⟨rfl, rfl, rfl, newLetters_of_eq rfl⟩

/-- The claim of a dead letter writes it in its place. -/
theorem quiet_claimReplay {Letter : DeadLetterRow → Prop} (leaseSeconds : ℤ)
    (request : ReplayRequest) :
    (session quietly (claimReplay leaseSeconds request)).Acts (NoDecisionActs Letter) := by
  refine SessionActs.acts (.quietly (fun _ w => .refl w) ?_) fun _ w => .refl w
  intro e w outcome db' h
  rcases claimReplay_change h with ⟨claim, -, htakes⟩ | ⟨-, hloses⟩ | ⟨-, -, rfl⟩
  · obtain ⟨row, hrow, -, hletters, -⟩ := htakes.row
    have halike : row.Alike (row.claimedBy claim.ownershipToken leaseSeconds e.now) :=
      ⟨rfl, rfl, rfl, rfl⟩
    exact ⟨rfl, htakes.inbox, htakes.projection, newLetters_of_alike hrow halike hletters⟩
  · exact quiet_of_loses hloses
  · exact .refl w

/-- A failure that is recorded decides on nothing. -/
theorem quiet_recordFailure {Letter : DeadLetterRow → Prop} (claim : ReplayClaim) :
    (recordFailureProgram claim).Acts (NoDecisionActs Letter) := by
  refine .bind (SessionActs.acts (.quietly (fun _ w => .refl w) ?_) fun _ w => .refl w)
    fun recorded => ?_
  · intro e w recorded db' h
    rcases recordFailure_change h with ⟨-, rfl | hloses⟩ | ⟨-, ⟨row, hends⟩, hinbox, hprojection⟩
    · exact .refl w
    · exact quiet_of_loses hloses
    · have halike : row.Alike (row.settled .replayFailed e.now) := ⟨rfl, rfl, rfl, rfl⟩
      exact ⟨rfl, hinbox, hprojection, newLetters_of_alike hends.found halike hends.deadLetters⟩
  · split
    · exact .ret _
    · exact .raise _

/-- A program that decides on nothing. -/
theorem lone_of_quiet {α : Type} {program : ConsumerProgram α}
    (h : program.Acts (NoDecisionActs fun _ => True)) : Program.Triple Eq LoneChange (fun _ => True)
      program (fun _ _ => True) (fun _ _ => True) :=
  h.triple (fun _ _ _ hw => hw) fun _ _ _ _ hact => ⟨.of_quiet hact, trivial⟩

/-- **A lone operator.** -/
theorem lone_replay (cfg : ConsumerConfig) (leaseSeconds : ℤ) (request : ReplayRequest) :
    Program.Triple Eq LoneChange (fun _ => True) (replayProgram cfg leaseSeconds request)
      (fun _ _ => True) (fun _ _ => True) := by
  refine .bind (lone_of_quiet (quiet_claimReplay leaseSeconds request)) fun outcome => ?_
  split
  · exact .raise fun _ h => h
  · exact .raise fun _ h => h
  · exact .raise fun _ h => h
  · exact .raise fun _ h => h
  · exact .raise fun _ h => h
  · exact .ret fun _ h => h
  · exact .ret fun _ h => h
  · rename_i claim
    refine .bind (.attempt (.bind (lone_lookUpRetained claim.deadLetterId) fun view =>
      lone_applyReplay claim view) (R := fun _ _ => True) (fun _ _ h => h) fun _ _ h => h)
      fun answer => ?_
    split
    · exact .ret fun _ h => h
    · exact .raise fun _ h => h
    · split
      · exact lone_of_quiet (quiet_recordFailure claim)
      · exact .raise fun _ h => h

/-! ### Runs -/

/-- **Every act of the only process is one of the changes.** -/
theorem lone_conduct (cfg : ConsumerConfig) (log : ℕ → ℕ → KafkaMessage) :
    PoolSpec.Conduct (loneSpec cfg log) Reflected (fun _ => Eq) (fun _ => LoneChange)
      (fun _ _ _ => True) (fun _ _ _ => True) fun _ _ => False where
  init := by
    rintro w rfl
    exact reflected_empty
  starts := by
    rintro s task program ⟨-, hstart⟩ -
    cases task with
    | consumer =>
        obtain ⟨polls, position, -, rfl⟩ := hstart
        exact (lone_rounds cfg log).pollLoop polls s.world trivial
    | operator =>
        obtain ⟨leaseSeconds, request, rfl⟩ := hstart
        exact Program.Triple.bind (lone_replay cfg leaseSeconds request)
          (fun _ => .ret fun _ h => h) s.world trivial
  compatible := by
    rintro s task program ⟨hnone, -⟩ place other program' htask
    rw [hnone] at htask
    cases htask
  refl _ w _ := ⟨rfl, .refl w⟩
  trans _ _ _ _ h h' := h.trans h'
  invariant _ _ _ h hchange := h.change hchange
  others _ _ _ _ h := h.elim
  returned _ _ _ _ _ h := h
  raised _ _ _ _ _ h := h

variable {s s' : Pool ConsumerEnv ConsumerWorld ConsumerExc Unit ConsumerTask}

theorem reflected_of_reachable (h : (loneSpec cfg log).lts.Reachable s) : Reflected s.world :=
  (PoolSpec.complies_of_reachable (lone_conduct cfg log) h).world

/-- In a run decisions are only added. -/
theorem history_of_run {actions : List _} (h : (loneSpec cfg log).lts.Reachable s)
    (hrun : (loneSpec cfg log).lts.Run s actions s') :
    ∃ more, s'.world.history = s.world.history ++ more := by
  induction hrun with
  | nil => exact ⟨[], (List.append_nil _).symm⟩
  | snoc hrun hstep ih =>
      obtain ⟨more, hmore⟩ := ih
      have horderly := PoolSpec.complies_of_reachable (lone_conduct cfg log) (h.run hrun)
      rcases PoolSpec.guarantee_of_step (lone_conduct cfg log) horderly hstep with
        hsame | ⟨_, _, _, _, -, -, hchange⟩
      · exact ⟨more, by rw [hsame, hmore]⟩
      · obtain ⟨last, hlast⟩ := hchange.history
        exact ⟨more ++ last, by rw [hlast, hmore, List.append_assoc]⟩

/-- **The projection is the fold of the distinct events of each job up to its first terminal one.**
In every state one process at a time reaches, the row of a job is that of the last event applied for
it; an event is decided on only if it was not applied before, is applied unless the row of its job
holds a terminal event, and is in the inbox exactly if it was applied; after a terminal event was
applied every other of its job is rejected; and a row that holds a terminal event is never written
again. -/
theorem lifecycle_projection (cfg : ConsumerConfig) (log : ℕ → ℕ → KafkaMessage)
    (s : Pool ConsumerEnv ConsumerWorld ConsumerExc Unit ConsumerTask)
    (h : (loneSpec cfg log).lts.Reachable s) :
    (∀ jobId, s.world.db.projection.lookup jobId = lifecycleModel.replay s.world.history jobId) ∧
    (∀ jobId, s.world.db.projection.lookup jobId
      = ((s.world.history.filter fun d => d.applied && d.event.aggregateId = jobId).getLast?).map
          fun d => projectionOf d.event d.at_) ∧
    lifecycleModel.Judged Decision.applied s.world.history ∧
    (∀ before d after, s.world.history = before ++ d :: after → ∀ earlier ∈ before,
      earlier.applied = true →
        ¬ (earlier.consumerId = d.consumerId ∧ earlier.event.eventId = d.event.eventId)) ∧
    (∀ consumerId eventId, (s.world.db.inbox.lookup (consumerId, eventId)).isSome ↔
      ∃ d ∈ s.world.history, d.applied = true ∧ d.consumerId = consumerId ∧
        d.event.eventId = eventId) ∧
    (∀ before d after, s.world.history = before ++ d :: after → d.applied = true →
      d.event.type.Terminal → ∀ later ∈ after, later.event.aggregateId = d.event.aggregateId →
        later.applied = false) ∧
    ∀ actions s', (loneSpec cfg log).lts.Run s actions s' → ∀ jobId row,
      s.world.db.projection.lookup jobId = some row → row.lastEventType.Terminal →
        s'.world.db.projection.lookup jobId = some row := by
  have hreflected := reflected_of_reachable h
  refine ⟨hreflected.rows, ?_, hreflected.verdicts, hreflected.fresh, hreflected.inbox, ?_, ?_⟩
  · intro jobId
    rw [hreflected.rows]
    exact hreflected.verdicts.replay_eq jobId
  · intro before d after hsplit happlied hterminal later hlater hjob
    have hverdicts := hreflected.verdicts
    rw [hsplit] at hverdicts
    have hcloses : lifecycleModel.closed (lifecycleModel.row d) = true := decide_eq_true hterminal
    exact hverdicts.closes happlied hcloses hlater hjob
  · intro actions s' hrun jobId row hrow hterminal
    obtain ⟨more, hmore⟩ := history_of_run h hrun
    have hclosed : lifecycleModel.closed row = true := decide_eq_true hterminal
    rw [hreflected.rows] at hrow
    rw [(reflected_of_reachable (h.run hrun)).rows, hmore]
    exact ReadModel.replay_closed hrow hclosed

end Programs

/-! ### A run -/

/-- The processes of the run were there one at a time. -/
theorem rejectedPool_lone : (loneSpec pollConfig endedLog).lts.Reachable rejectedPool := by
  refine (settled_rejectedPool rfl (fun _ _ => trivial) ?_).1
  intro s position htasks hposition
  exact ⟨htasks, 1, position, hposition, rfl⟩

/-- The row of the job is that of its end, and stays so; the event that followed is not in the
inbox. -/
theorem lifecycle_projection_ended :
    rejectedPool.world.db.projection.lookup retryEvent.aggregateId
      = some (projectionOf jobCompleted 0) ∧
    rejectedPool.world.db.inbox.lookup (allowedConsumerId, retryEvent.eventId) = none ∧
    ∀ actions s', (loneSpec pollConfig endedLog).lts.Run rejectedPool actions s' →
      s'.world.db.projection.lookup retryEvent.aggregateId
        = some (projectionOf jobCompleted 0) := by
  obtain ⟨-, -, hhistory, -, -⟩ := rejectedPool_world
  obtain ⟨-, hrow, -, -, hinbox, -, hkept⟩ :=
    lifecycle_projection pollConfig endedLog rejectedPool rejectedPool_lone
  have hended : rejectedPool.world.db.projection.lookup retryEvent.aggregateId
      = some (projectionOf jobCompleted 0) := by
    rw [hrow, hhistory]
    rfl
  refine ⟨hended, ?_, fun actions s' hrun => hkept actions s' hrun _ _ hended (by decide)⟩
  rw [← Option.not_isSome_iff_eq_none, hinbox, hhistory]
  decide +kernel

end Atlas
