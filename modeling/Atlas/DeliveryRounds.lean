/-
**The rounds of a consumer.**

A round of the poll loop takes the next record of a partition.  Most of its acts decide on nothing:
they read the clock, dead-letter a record or commit an offset.  The one that decides is the attempt
to apply an event.  So a property of the positions holds along the loop when the others keep it,
when acts that decide on nothing keep it, and when the attempt leads from a position to the next
one; a record that does not decode leads there by itself.

Main definitions:

* `Atlas.NoDecision` — what an act that decides on nothing changes;
* `Atlas.Rounds` — what a round asks of a property of the positions.

Main results:

* `Atlas.quiet_commitWithRetry`, `Atlas.quiet_deadLetterAndCommit` — what decides on nothing;
* `Atlas.Rounds.pollLoop` — **the rule of the poll loop**.
-/

import Atlas.DeliveryEffects

set_option relaxedAutoImplicit false
set_option autoImplicit false

namespace Atlas

/-! ### Acts that decide on nothing -/

/-- The dead letter lies at the same position and retains the same. -/
structure DeadLetterRow.Alike (row row' : DeadLetterRow) : Prop where
  retention : row'.retention = row.retention
  consumerId : row'.consumerId = row.consumerId
  kafkaPartition : row'.kafkaPartition = row.kafkaPartition
  kafkaOffset : row'.kafkaOffset = row.kafkaOffset

theorem DeadLetterRow.Alike.refl (row : DeadLetterRow) : row.Alike row := ⟨rfl, rfl, rfl, rfl⟩

/-- The dead letters that are new have the property. -/
def NewLetters (Letter : DeadLetterRow → Prop) (db db' : ConsumerDb) : Prop :=
  ∀ id row', db'.deadLetters.lookup id = some row' →
    Letter row' ∨ ∃ row, db.deadLetters.lookup id = some row ∧ row.Alike row'

/-- **What an act that decides on nothing changes**: neither the decisions nor the inbox nor the
projection; dead letters that are new have the property. -/
structure NoDecision (Letter : DeadLetterRow → Prop) (w w' : ConsumerWorld) : Prop where
  history : w'.history = w.history
  inbox : w'.db.inbox = w.db.inbox
  projection : w'.db.projection = w.db.projection
  letters : NewLetters Letter w.db w'.db

section Letters

variable {Letter Letter' : DeadLetterRow → Prop} {db db' : ConsumerDb} {w w' : ConsumerWorld}

theorem newLetters_of_eq (h : db'.deadLetters = db.deadLetters) : NewLetters Letter db db' := by
  intro id row' hrow'
  rw [h] at hrow'
  exact .inr ⟨row', hrow', .refl row'⟩

/-- A dead letter is written over with one like it. -/
theorem newLetters_of_alike {id : String} {row new : DeadLetterRow}
    (hrow : db.deadLetters.lookup id = some row) (halike : row.Alike new)
    (h : db'.deadLetters = db.deadLetters.insert id new) : NewLetters Letter db db' := by
  intro id' row' hrow'
  rw [h, Table.lookup_insert_eq] at hrow'
  split at hrow'
  · rename_i heq
    subst heq
    cases hrow'
    exact .inr ⟨row, hrow, halike⟩
  · exact .inr ⟨row', hrow', .refl row'⟩

theorem newLetters_of_new {id : String} {new : DeadLetterRow} (hnew : Letter new)
    (h : db'.deadLetters = db.deadLetters.insert id new) : NewLetters Letter db db' := by
  intro id' row' hrow'
  rw [h, Table.lookup_insert_eq] at hrow'
  split at hrow'
  · cases hrow'
    exact .inl hnew
  · exact .inr ⟨row', hrow', .refl row'⟩

theorem NoDecision.refl (w : ConsumerWorld) : NoDecision Letter w w :=
  ⟨rfl, rfl, rfl, newLetters_of_eq rfl⟩

/-- A transaction that leaves the tables and decides on nothing. -/
theorem NoDecision.of_undecided {decision : Option Decision} (hnone : decision = none)
    (h : w' = { w with history := w.history ++ decision.toList }) : NoDecision Letter w w' := by
  subst hnone
  rw [h, Option.toList_none, List.append_nil]
  exact .refl w

end Letters

section Acts

variable {cfg : ConsumerConfig} {Letter : DeadLetterRow → Prop}

/-- The acts that decide on nothing, in every environment. -/
abbrev NoDecisionActs (Letter : DeadLetterRow → Prop) (_ : ConsumerEnv) (w w' : ConsumerWorld) :
    Prop :=
  NoDecision Letter w w'

theorem quiet_commitMessage (kafkaPartition kafkaOffset : ℕ) :
    (commitMessage kafkaPartition kafkaOffset).Acts (NoDecisionActs Letter) := by
  refine Program.acts_act.2 fun e w => ⟨?_, ?_⟩
  · split
    · exact ⟨rfl, rfl, rfl, newLetters_of_eq rfl⟩
    · exact .refl w
  · split
    · exact .ret _
    · exact .raise _
    · exact .raise _

theorem quiet_commitWithRetry (kafkaPartition kafkaOffset : ℕ) (deadlineAt : ℚ) :
    (commitWithRetry cfg.ops cfg kafkaPartition kafkaOffset deadlineAt).Acts
      (NoDecisionActs Letter) :=
  acts_retrying cfg (fun _ w => .refl w) (fun _ => quiet_commitMessage kafkaPartition kafkaOffset)
    _ _

/-- Of a dead letter that is there already only the deliveries are counted. -/
theorem quiet_upsertDeadLetter (consumerId : String) (kafkaPartition kafkaOffset : ℕ)
    (failureCode : String) (processingAttemptCount : ℕ) (at_ : Instant)
    (retention : DeadLetterRetention)
    (hletter : Letter (newDeadLetter consumerId kafkaPartition kafkaOffset failureCode
      processingAttemptCount at_ retention)) :
    SessionActs (NoDecisionActs Letter) quietly (upsertDeadLetter consumerId kafkaPartition
      kafkaOffset failureCode processingAttemptCount at_ retention) := by
  refine .quietly (fun _ w => .refl w) ?_
  intro e w id db' h
  rcases upsertDeadLetter_eq_ok h with ⟨old, hold, rfl⟩ | ⟨-, -, rfl⟩
  · have halike : old.Alike (old.delivered at_) := ⟨rfl, rfl, rfl, rfl⟩
    exact ⟨rfl, rfl, rfl, newLetters_of_alike (Table.lookup_of_find hold).1 halike rfl⟩
  · exact ⟨rfl, rfl, rfl, newLetters_of_new hletter rfl⟩

theorem quiet_deadLetterAndCommit (error : PoisonError) (message : KafkaMessage)
    (event : Option DomainEvent) (kafkaPartition kafkaOffset : ℕ) (at_ : Instant)
    (processingAttemptCount : ℕ) (deadlineAt : ℚ)
    (hletter : Letter (newDeadLetter cfg.consumerId kafkaPartition kafkaOffset error.failureCode
      processingAttemptCount at_ (buildRetention cfg.pydantic cfg.sha256 message.value
        (if error = .lifecycleOrderViolation then event else none)))) :
    (deadLetterAndCommit cfg.ops cfg error message event kafkaPartition kafkaOffset at_
      processingAttemptCount deadlineAt).Acts (NoDecisionActs Letter) := by
  refine .bind (acts_retrying cfg (fun _ w => .refl w) (fun _ =>
    (quiet_upsertDeadLetter _ _ _ _ _ _ _ hletter).acts fun _ w => .refl w) _ _) fun _ => ?_
  refine .bind (quiet_commitWithRetry _ _ _).attempt fun answer => ?_
  split
  · exact .ret _
  · exact .raise _
  · exact .raise _
  · exact .raise _

end Acts

/-! ### The rule -/

/-- A dead letter of a record, which retains the event or nothing. -/
structure DeadLetterRow.LetterOf (cfg : ConsumerConfig) (message : KafkaMessage)
    (kafkaPartition kafkaOffset : ℕ) (event : Option DomainEvent) (row : DeadLetterRow) : Prop where
  consumerId : row.consumerId = cfg.consumerId
  kafkaPartition : row.kafkaPartition = kafkaPartition
  kafkaOffset : row.kafkaOffset = kafkaOffset
  retention : row.retention = buildRetention cfg.pydantic cfg.sha256 message.value none ∨
    row.retention = buildRetention cfg.pydantic cfg.sha256 message.value event

/-- The positions after the next record of a partition. -/
abbrev advance (position : ℕ → ℕ) (kafkaPartition : ℕ) : ℕ → ℕ :=
  Function.update position kafkaPartition (position kafkaPartition + 1)

/-- **What a round asks of a property of the positions**: the others keep it, acts that decide on
nothing keep it, and a record leads to the next position, by itself if it does not decode, and else
with the attempt to apply its event.  Behind a position its record may be dead-lettered. -/
structure Rounds (cfg : ConsumerConfig) (log : ℕ → ℕ → KafkaMessage)
    (Letter : (ℕ → ℕ) → DeadLetterRow → Prop) (le G : ConsumerWorld → ConsumerWorld → Prop)
    (A : (ℕ → ℕ) → ConsumerWorld → Prop) : Prop where
  stable : ∀ position w w', le w w' → A position w → A position w'
  quiet : ∀ position w w', A position w → NoDecision (Letter position) w w' →
    G w w' ∧ A position w'
  undecoded : ∀ position kafkaPartition x,
    decodeMessage cfg.pydantic cfg.recursionLimit (log kafkaPartition (position kafkaPartition))
        = .error x →
      (∀ w, A position w → A (advance position kafkaPartition) w) ∧
      ∀ row, row.LetterOf cfg (log kafkaPartition (position kafkaPartition)) kafkaPartition
        (position kafkaPartition) none → Letter (advance position kafkaPartition) row
  decoded : ∀ position kafkaPartition event traceparent,
    decodeMessage cfg.pydantic cfg.recursionLimit (log kafkaPartition (position kafkaPartition))
        = .ok (event, traceparent) →
      ∀ row, row.LetterOf cfg (log kafkaPartition (position kafkaPartition)) kafkaPartition
        (position kafkaPartition) (some event) → Letter (advance position kafkaPartition) row
  apply : ∀ position kafkaPartition event traceparent,
    decodeMessage cfg.pydantic cfg.recursionLimit (log kafkaPartition (position kafkaPartition))
        = .ok (event, traceparent) →
      ∀ at_ i, Program.Triple le G (A position)
        (applyOnce cfg.ops event kafkaPartition (position kafkaPartition) at_ i)
        (fun _ => A (advance position kafkaPartition))
        (fun x w => A position w ∧ isTransientKafkaError x = false)

namespace Rounds

variable {cfg : ConsumerConfig} {log : ℕ → ℕ → KafkaMessage}
  {Letter : (ℕ → ℕ) → DeadLetterRow → Prop} {le G : ConsumerWorld → ConsumerWorld → Prop} {A : (ℕ → ℕ) → ConsumerWorld → Prop}
  {position : ℕ → ℕ}

/-- A program that decides on nothing keeps the property. -/
theorem of_quiet (h : Rounds cfg log Letter le G A) {α : Type} {program : ConsumerProgram α}
    (hquiet : program.Acts (NoDecisionActs (Letter position))) :
    Program.Triple le G (A position) program (fun _ => A position) (fun _ => A position) :=
  hquiet.triple (h.stable position) fun _ w w' hw hact => h.quiet position w w' hw hact

theorem reading (h : Rounds cfg log Letter le G A) {β : Type} {f : ConsumerEnv → β}
    {X : ConsumerExc → ConsumerWorld → Prop} :
    Program.Triple le G (A position) (Program.reading f : ConsumerProgram β) (fun _ => A position)
      X :=
  .reading (h.stable position) (fun w hw => (h.quiet position w w hw (.refl w)).1) fun _ _ hw => hw

/-- **A record leads to the next position**, and an error of the broker is raised only there. -/
theorem processRecord (h : Rounds cfg log Letter le G A) (kafkaPartition : ℕ) :
    Program.Triple le G (A position)
      (processRecord cfg.ops cfg (log kafkaPartition (position kafkaPartition)) kafkaPartition
        (position kafkaPartition))
      (fun _ => A (advance position kafkaPartition))
      (fun x w => isTransientKafkaError x = true → A (advance position kafkaPartition) w) := by
  have hno : ∀ {x : ConsumerExc} {P : Prop}, isTransientKafkaError x = false →
      isTransientKafkaError x = true → P := by
    intro x P hfalse htrue
    rw [hfalse] at htrue
    cases htrue
  refine .bind h.reading fun at_ => ?_
  cases hdecode : decodeMessage cfg.pydantic cfg.recursionLimit
      (log kafkaPartition (position kafkaPartition)) with
  | error x =>
      cases x with
      | uncaught => exact .raise fun _ _ => hno rfl
      | poison error =>
          obtain ⟨hnext, hletter⟩ := h.undecoded position kafkaPartition _ hdecode
          refine (h.of_quiet (quiet_deadLetterAndCommit error _ none kafkaPartition
            (position kafkaPartition) at_ 1 _ (hletter _ ⟨rfl, rfl, rfl, ?_⟩))).consequence hnext
            (fun _ _ hw => hw) fun _ _ hw _ => hw
          simp [newDeadLetter]
  | ok decoded =>
      obtain ⟨event, traceparent⟩ := decoded
      refine .bind (Q := fun _ => A (advance position kafkaPartition)) ?_ fun answer => ?_
      · exact triple_retrying cfg (h.stable position)
          (fun w hw => (h.quiet position w w hw (.refl w)).1)
          (h.apply position kafkaPartition event traceparent hdecode at_)
          (fun _ _ _ hw => hw.1) (fun _ _ _ hw => hno hw.2) (fun _ _ _ _ => hno rfl)
          (fun _ _ => hno rfl) (fun _ _ => hno rfl) _ _
      · cases answer with
        | inl outcome =>
            refine .bind (Q := fun _ => A (advance position kafkaPartition)) ?_
              fun _ => .ret fun _ hw => hw
            exact (h.of_quiet (quiet_commitWithRetry _ _ _)).consequence (fun _ hw => hw)
              (fun _ _ hw => hw) fun _ _ hw _ => hw
        | inr rejection =>
            refine (h.of_quiet (quiet_deadLetterAndCommit _ _ _ _ _ _ _ _
              (h.decoded position kafkaPartition event traceparent hdecode _
                ⟨rfl, rfl, rfl, ?_⟩))).consequence (fun _ hw => hw) (fun _ _ hw => hw)
              fun _ _ hw _ => hw
            -- the event is retained for an order violation only
            simp only [newDeadLetter]
            split
            · exact .inr rfl
            · exact .inl rfl

theorem runOnce (h : Rounds cfg log Letter le G A) (answer : PollAnswer) :
    Program.Triple le G (A position) (runOnce cfg.ops cfg (answer.fetch log position).1)
      (fun _ => A (answer.fetch log position).2)
      (fun x w => isTransientKafkaError x = true → A (answer.fetch log position).2 w) := by
  have hno : ∀ {context : String} {w : ConsumerWorld} {P : Prop}, A position w →
      isTransientKafkaError (.consumer context) = true → P := fun _ hx => by cases hx
  cases answer with
  | nothing => exact .ret fun _ hw => hw
  | brokerError recoverable =>
      cases recoverable with
      | true => exact .raise fun _ hw _ => hw
      | false => exact .raise fun _ hw => hno hw
  | record kafkaPartition givesPartition givesOffset =>
      cases givesPartition with
      | false => exact .raise fun _ hw => hno hw
      | true =>
          cases givesOffset with
          | false => exact .raise fun _ hw => hno hw
          | true => exact h.processRecord kafkaPartition

/-- **The rule of the poll loop**: a property that rounds keep holds along it. -/
theorem pollLoop (h : Rounds cfg log Letter le G A) (polls : ℕ) :
    Program.Triple le G (A position) (pollLoop cfg log polls position) (fun _ _ => True)
      (fun _ _ => True) := by
  induction polls generalizing position with
  | zero => exact .ret fun _ _ => trivial
  | succ polls ih =>
      rw [Atlas.pollLoop]
      refine .bind h.reading fun shutdown => ?_
      split
      · exact .ret fun _ _ => trivial
      · refine .bind h.reading fun answer => ?_
        refine .bind (Program.Triple.attempt (h.runOnce answer) (R := fun outcome w =>
          (∀ x, outcome = .error x → isTransientKafkaError x = true) →
            A (answer.fetch log position).2 w) ?_ ?_) fun outcome => ?_
        · exact fun _ _ hw _ => hw
        · exact fun x _ hw hall => hw (hall x rfl)
        · cases outcome with
          | ok outcome => exact .pre ih fun w hw => hw (by simp)
          | error x =>
              split
              · next heq => cases heq
              · next heq =>
                cases heq
                refine .pre (.bind h.reading fun shutdown => ?_) fun w hw => hw ?_
                · split
                  · exact .ret fun _ _ => trivial
                  · exact ih
                · rintro _ ⟨⟩
                  rfl
              · exact .ret fun _ _ => trivial
              · exact .raise fun _ _ => trivial

end Rounds

end Atlas
