/-
**What is durable before an offset is committed.**

The inbox has a row for an event exactly when its effect was committed, once, and the dead letters
have at most one row for a position.  Rows of both stay.  A record is *covered* when one of the two
is there for it; the program of a consumer commits the offset of a record when it and all records
before it are covered, and polls the next one only then.  The one exception that does not end the
poll loop is an error of the broker, and when a record is in hand it is raised for a commit, after
the record is covered.

Main definitions:

* `Atlas.EffectsOnce` — inbox, effects and dead letters;
* `Atlas.ConsumerLater` — what stays;
* `Atlas.RecordCovered`, `Atlas.CoveredBelow` — the records that are done;
* `Atlas.ConsumerGuarantee` — what a consumer guarantees the others.

Main results:

* `Atlas.EffectsOnce.delivery`, `Atlas.EffectsOnce.replay` — **effects are applied once**;
* `Atlas.triple_pollLoop` — **offsets are committed for covered records only**.
-/

import Atlas.ReplayFencing

set_option relaxedAutoImplicit false
set_option autoImplicit false

namespace Atlas

variable {p : Pydantic} {limit : ℕ} {e : ConsumerEnv} {db db' : ConsumerDb}
  {w w' : ConsumerWorld}

/-! ### Effects -/

/-- The decision applied the event for the consumer. -/
def isEffectOf (consumerId eventId : String) (d : Decision) : Bool :=
  d.applied && d.consumerId = consumerId && d.event.eventId = eventId

/-- How often the effect of an event was committed for a consumer. -/
def effectCount (consumerId eventId : String) (history : List Decision) : ℕ :=
  history.countP (isEffectOf consumerId eventId)

/-- Every effect has its row in the inbox, and every position at most one dead letter. -/
structure EffectsOnce (w : ConsumerWorld) : Prop where
  count : ∀ consumerId eventId, effectCount consumerId eventId w.history
    = if (w.db.inbox.lookup (consumerId, eventId)).isSome then 1 else 0
  letters : ∀ id id' row row', w.db.deadLetters.lookup id = some row →
    w.db.deadLetters.lookup id' = some row' → row.consumerId = row'.consumerId →
    row.kafkaPartition = row'.kafkaPartition → row.kafkaOffset = row'.kafkaOffset → id = id'

theorem effectsOnce_empty : EffectsOnce {} := by
  constructor <;> intros <;> simp_all [effectCount]

namespace EffectsOnce

/-- Dead letters may be written in their place. -/
theorem of_letters (h : EffectsOnce w) (hinbox : w'.db.inbox = w.db.inbox)
    (hhistory : w'.history = w.history)
    (hletters : ∀ id row', w'.db.deadLetters.lookup id = some row' → ∃ row,
      w.db.deadLetters.lookup id = some row ∧ row'.consumerId = row.consumerId ∧
        row'.kafkaPartition = row.kafkaPartition ∧ row'.kafkaOffset = row.kafkaOffset) :
    EffectsOnce w' where
  count consumerId eventId := by rw [hinbox, hhistory, h.count]
  letters id id' row row' hrow hrow' hconsumer hpartition hoffset := by
    obtain ⟨old, hold, h₁, h₂, h₃⟩ := hletters id row hrow
    obtain ⟨old', hold', h₁', h₂', h₃'⟩ := hletters id' row' hrow'
    exact h.letters id id' old old' hold hold' (by rw [← h₁, ← h₁', hconsumer])
      (by rw [← h₂, ← h₂', hpartition]) (by rw [← h₃, ← h₃', hoffset])

/-- A rejection applies nothing. -/
theorem reject (h : EffectsOnce w) {d : Decision} (hrejected : d.applied = false) :
    EffectsOnce { w with history := w.history ++ [d] } where
  count consumerId eventId := by
    simp only [effectCount, List.countP_append, List.countP_singleton, isEffectOf, hrejected,
      Bool.false_and, Bool.false_eq_true, if_false, Nat.add_zero]
    exact h.count consumerId eventId
  letters := h.letters

/-- An effect is new, and written with its row. -/
theorem effect (h : EffectsOnce w) {existing : Option ProjectionRow} {d : Decision}
    (heffect : WritesEffect existing d w.db db')
    (hletters : ∀ id row', db'.deadLetters.lookup id = some row' → ∃ row,
      w.db.deadLetters.lookup id = some row ∧ row'.consumerId = row.consumerId ∧
        row'.kafkaPartition = row.kafkaPartition ∧ row'.kafkaOffset = row.kafkaOffset) :
    EffectsOnce { w with db := db', history := w.history ++ [d] } where
  count consumerId eventId := by
    obtain ⟨row, hinbox⟩ := heffect.inbox
    have hcount := h.count consumerId eventId
    rw [effectCount] at hcount
    simp only [effectCount, List.countP_append, List.countP_singleton, isEffectOf, hinbox,
      Table.lookup_insert_eq, heffect.applied, Bool.true_and, hcount]
    by_cases hkey : (consumerId, eventId) = (d.consumerId, d.event.eventId)
    · cases hkey
      simp [heffect.new]
    · have hnot : ¬ (d.consumerId = consumerId ∧ d.event.eventId = eventId) := by
        rintro ⟨rfl, rfl⟩
        exact hkey rfl
      simp [hkey, hnot]
  letters := by
    have hwritten : EffectsOnce { w with db := { w.db with deadLetters := db'.deadLetters } } :=
      of_letters h rfl rfl hletters
    exact hwritten.letters

/-- **A delivery keeps effects and dead letters single.** -/
theorem delivery (h : EffectsOnce w) (hchange : DeliveryChange w w') : EffectsOnce w' := by
  cases hchange with
  | nothing => exact h
  | offset => exact ⟨h.count, h.letters⟩
  | rejected d hrejected => exact h.reject hrejected
  | applied existing d db' heffect hletters hattempts =>
      refine h.effect heffect ?_
      intro id row' hrow'
      exact ⟨row', by rw [← hletters, hrow'], rfl, rfl, rfl⟩
  | deadLettered id consumerId kafkaPartition kafkaOffset failureCode processingAttemptCount at_
      retention hfirst hfresh =>
      have hnone := Table.find_eq_none.1 hfirst
      have hother : ∀ id' row, w.db.deadLetters.lookup id' = some row →
          ¬ (row.consumerId = consumerId ∧ row.kafkaPartition = kafkaPartition ∧
            row.kafkaOffset = kafkaOffset) := by
        rintro id' row hrow ⟨rfl, rfl, rfl⟩
        simpa [DeadLetterRow.isAt] using hnone id' row hrow
      refine ⟨h.count, ?_⟩
      intro id₁ id₂ row₁ row₂ hrow₁ hrow₂ hconsumer hpartition hoffset
      rw [Table.lookup_insert_eq] at hrow₁ hrow₂
      split at hrow₁
      · split at hrow₂
        · next h₁ h₂ => rw [h₁, h₂]
        · cases hrow₁
          exact absurd ⟨hconsumer.symm, hpartition.symm, hoffset.symm⟩ (hother id₂ row₂ hrow₂)
      · split at hrow₂
        · cases hrow₂
          exact absurd ⟨hconsumer, hpartition, hoffset⟩ (hother id₁ row₁ hrow₁)
        · exact h.letters id₁ id₂ row₁ row₂ hrow₁ hrow₂ hconsumer hpartition hoffset
  | redelivered id old at_ hold =>
      refine h.of_letters rfl rfl ?_
      intro id' row' hrow'
      rw [Table.lookup_insert_eq] at hrow'
      split at hrow'
      · next heq =>
        subst heq
        cases hrow'
        exact ⟨old, hold, rfl, rfl, rfl⟩
      · exact ⟨row', hrow', rfl, rfl, rfl⟩

end EffectsOnce

/-- A claim or its end writes the dead letter in its place. -/
theorem lookup_insert_same {id : String} {row new : DeadLetterRow}
    (hrow : db.deadLetters.lookup id = some row)
    (h : db'.deadLetters = db.deadLetters.insert id new) (hconsumer : new.consumerId = row.consumerId)
    (hpartition : new.kafkaPartition = row.kafkaPartition)
    (hoffset : new.kafkaOffset = row.kafkaOffset) {id' : String} {row' : DeadLetterRow}
    (hrow' : db'.deadLetters.lookup id' = some row') : ∃ row,
      db.deadLetters.lookup id' = some row ∧ row'.consumerId = row.consumerId ∧
        row'.kafkaPartition = row.kafkaPartition ∧ row'.kafkaOffset = row.kafkaOffset := by
  rw [h, Table.lookup_insert_eq] at hrow'
  split at hrow'
  · next heq =>
    subst heq
    cases hrow'
    exact ⟨row, hrow, hconsumer, hpartition, hoffset⟩
  · exact ⟨row', hrow', rfl, rfl, rfl⟩

/-- **A replay keeps effects and dead letters single.** -/
theorem EffectsOnce.replay (h : EffectsOnce w) (hchange : ReplayChange p limit e w w') :
    EffectsOnce w' := by
  cases hchange with
  | nothing => exact h
  | rejected d hrejected => exact h.reject hrejected
  | claimed leaseSeconds request claim db' htakes =>
      obtain ⟨row, hrow, -, hletters, -⟩ := htakes.row
      refine h.of_letters htakes.inbox rfl ?_
      intro id row' hrow'
      exact lookup_insert_same hrow hletters rfl rfl rfl hrow'
  | lost db' hloses =>
      obtain ⟨id, a, -, -, rfl⟩ := hloses
      refine h.of_letters rfl rfl ?_
      intro id row' hrow'
      exact ⟨row', hrow', rfl, rfl, rfl⟩
  | ended claim status state row db' hstatus hends hinbox hprojection =>
      refine h.of_letters hinbox rfl ?_
      intro id row' hrow'
      exact lookup_insert_same hends.found hends.deadLetters rfl rfl rfl hrow'
  | replayed claim row existing event db' hevent heffect hends =>
      refine h.effect heffect ?_
      intro id row' hrow'
      exact lookup_insert_same hends.found hends.deadLetters rfl rfl rfl hrow'

/-! ### What stays -/

/-- The inbox, the positions of the dead letters and the attempts stay. -/
structure ConsumerLater (w w' : ConsumerWorld) : Prop where
  inbox : ∀ key, (w.db.inbox.lookup key).isSome → (w'.db.inbox.lookup key).isSome
  letters : ∀ consumerId kafkaPartition kafkaOffset,
    (w.db.deadLetterAt consumerId kafkaPartition kafkaOffset).isSome →
      (w'.db.deadLetterAt consumerId kafkaPartition kafkaOffset).isSome
  attempts : AttemptsLater w.db w'.db

/-- A dead letter is at a position. -/
theorem isSome_deadLetterAt {consumerId : String} {kafkaPartition kafkaOffset : ℕ} :
    (db.deadLetterAt consumerId kafkaPartition kafkaOffset).isSome ↔
      ∃ id row, db.deadLetters.lookup id = some row ∧
        row.isAt consumerId kafkaPartition kafkaOffset = true := by
  constructor
  · intro h
    obtain ⟨⟨id, row⟩, hfound⟩ := Option.isSome_iff_exists.1 h
    exact ⟨id, row, Table.lookup_of_find hfound⟩
  · rintro ⟨id, row, hrow, hat⟩
    by_contra hnone
    have hnot := Table.find_eq_none.1 (Option.not_isSome_iff_eq_none.1 hnone) id row hrow
    simp only [hat, Bool.true_eq_false] at hnot

namespace ConsumerLater

theorem refl (w : ConsumerWorld) : ConsumerLater w w :=
  ⟨fun _ h => h, fun _ _ _ h => h, .of_same rfl⟩

theorem trans {w'' : ConsumerWorld} (h : ConsumerLater w w') (h' : ConsumerLater w' w'') :
    ConsumerLater w w'' :=
  ⟨fun key hkey => h'.inbox key (h.inbox key hkey),
    fun c p o hat => h'.letters c p o (h.letters c p o hat), h.attempts.trans h'.attempts⟩

/-- Dead letters may be written in their place, and new ones added. -/
theorem of_letters (hinbox : ∀ key, (w.db.inbox.lookup key).isSome →
      (w'.db.inbox.lookup key).isSome)
    (hattempts : AttemptsLater w.db w'.db)
    (hletters : ∀ id row, w.db.deadLetters.lookup id = some row → ∃ row',
      w'.db.deadLetters.lookup id = some row' ∧ row'.consumerId = row.consumerId ∧
        row'.kafkaPartition = row.kafkaPartition ∧ row'.kafkaOffset = row.kafkaOffset) :
    ConsumerLater w w' where
  inbox := hinbox
  attempts := hattempts
  letters consumerId kafkaPartition kafkaOffset h := by
    obtain ⟨id, row, hrow, hat⟩ := isSome_deadLetterAt.1 h
    obtain ⟨row', hrow', hconsumer, hpartition, hoffset⟩ := hletters id row hrow
    refine isSome_deadLetterAt.2 ⟨id, row', hrow', ?_⟩
    rw [DeadLetterRow.isAt, hconsumer, hpartition, hoffset]
    exact hat

/-- The row of a key stays in place when it is rewritten. -/
theorem lookup_written {id : String} {row : DeadLetterRow} (new : DeadLetterRow)
    (hrow : db.deadLetters.lookup id = some row)
    (h : db'.deadLetters = db.deadLetters.insert id new) (hconsumer : new.consumerId = row.consumerId)
    (hpartition : new.kafkaPartition = row.kafkaPartition)
    (hoffset : new.kafkaOffset = row.kafkaOffset) {id' : String} {row' : DeadLetterRow}
    (hrow' : db.deadLetters.lookup id' = some row') : ∃ row,
      db'.deadLetters.lookup id' = some row ∧ row.consumerId = row'.consumerId ∧
        row.kafkaPartition = row'.kafkaPartition ∧ row.kafkaOffset = row'.kafkaOffset := by
  rw [h, Table.lookup_insert_eq]
  split
  · next heq =>
    subst heq
    rw [hrow] at hrow'
    cases hrow'
    exact ⟨new, rfl, hconsumer, hpartition, hoffset⟩
  · exact ⟨row', hrow', rfl, rfl, rfl⟩

theorem inbox_effect {existing : Option ProjectionRow} {d : Decision} (h : WritesEffect existing d db db')
    (key : String × String) (hkey : (db.inbox.lookup key).isSome) :
    (db'.inbox.lookup key).isSome := by
  obtain ⟨row, hinbox⟩ := h.inbox
  rw [hinbox, Table.lookup_insert_eq]
  split
  · rfl
  · exact hkey

theorem delivery (h : DeliveryChange w w') : ConsumerLater w w' := by
  cases h with
  | nothing => exact .refl w
  | offset => exact ⟨fun _ h => h, fun _ _ _ h => h, .of_same rfl⟩
  | rejected => exact ⟨fun _ h => h, fun _ _ _ h => h, .of_same rfl⟩
  | applied existing d db' heffect hletters hattempts =>
      refine .of_letters (inbox_effect heffect) (.of_same hattempts) ?_
      intro id row hrow
      exact ⟨row, by rw [hletters, hrow], rfl, rfl, rfl⟩
  | deadLettered id _ _ _ _ _ _ _ _ hfresh =>
      refine .of_letters (fun _ h => h) (.of_same rfl) ?_
      intro id' row hrow
      have hne : id' ≠ id := by
        rintro rfl
        rw [hfresh] at hrow
        cases hrow
      exact ⟨row, by rw [Table.lookup_insert_eq, if_neg hne, hrow], rfl, rfl, rfl⟩
  | redelivered id old at_ hold =>
      refine .of_letters (fun _ h => h) (.of_same rfl) ?_
      intro id' row hrow
      exact lookup_written (old.delivered at_) hold rfl rfl rfl rfl hrow

theorem replay (h : ReplayChange p limit e w w') : ConsumerLater w w' := by
  have hattempts := h.attemptsLater
  cases h with
  | nothing => exact .refl w
  | rejected => exact ⟨fun _ h => h, fun _ _ _ h => h, hattempts⟩
  | claimed leaseSeconds request claim db' htakes =>
      obtain ⟨row, hrow, -, hletters, -⟩ := htakes.row
      refine .of_letters ?_ hattempts ?_
      · intro key hkey
        rw [htakes.inbox]
        exact hkey
      · intro id row' hrow'
        exact lookup_written _ hrow hletters rfl rfl rfl hrow'
  | lost db' hloses =>
      obtain ⟨id, a, -, -, rfl⟩ := hloses
      exact ⟨fun _ h => h, fun _ _ _ h => h, hattempts⟩
  | ended claim status state row db' hstatus hends hinbox hprojection =>
      refine .of_letters ?_ hattempts ?_
      · intro key hkey
        rw [hinbox]
        exact hkey
      · intro id row' hrow'
        exact lookup_written _ hends.found hends.deadLetters rfl rfl rfl hrow'
  | replayed claim row existing event db' hevent heffect hends =>
      refine .of_letters (inbox_effect heffect) hattempts ?_
      intro id row' hrow'
      exact lookup_written _ hends.found hends.deadLetters rfl rfl rfl hrow'

end ConsumerLater

/-! ### Covered records -/

section Covered

variable (cfg : ConsumerConfig)

/-- A record is done: its event is in the inbox, or it is dead-lettered. -/
def RecordCovered (message : KafkaMessage) (kafkaPartition kafkaOffset : ℕ) (db : ConsumerDb) : Prop :=
  (∃ event traceparent,
      decodeMessage cfg.pydantic cfg.recursionLimit message = .ok (event, traceparent) ∧
        (db.inbox.lookup (cfg.consumerId, event.eventId)).isSome) ∨
    (db.deadLetterAt cfg.consumerId kafkaPartition kafkaOffset).isSome

/-- The records before the position of each partition are done. -/
def CoveredBelow (log : ℕ → ℕ → KafkaMessage) (position : ℕ → ℕ) (db : ConsumerDb) : Prop :=
  ∀ kafkaPartition, ∀ kafkaOffset < position kafkaPartition,
    RecordCovered cfg (log kafkaPartition kafkaOffset) kafkaPartition kafkaOffset db

end Covered

variable {cfg : ConsumerConfig} {log : ℕ → ℕ → KafkaMessage} {position : ℕ → ℕ}

theorem RecordCovered.later {message : KafkaMessage} {kafkaPartition kafkaOffset : ℕ}
    (hle : ConsumerLater w w') (h : RecordCovered cfg message kafkaPartition kafkaOffset w.db) :
    RecordCovered cfg message kafkaPartition kafkaOffset w'.db := by
  obtain ⟨event, traceparent, hdecode, hinbox⟩ | hletter := h
  · exact .inl ⟨event, traceparent, hdecode, hle.inbox _ hinbox⟩
  · exact .inr (hle.letters _ _ _ hletter)

theorem CoveredBelow.later (hle : ConsumerLater w w') (h : CoveredBelow cfg log position w.db) :
    CoveredBelow cfg log position w'.db :=
  fun kafkaPartition kafkaOffset hlt => (h kafkaPartition kafkaOffset hlt).later hle

/-- When the next record of a partition is done too, the position goes on. -/
theorem CoveredBelow.next {kafkaPartition : ℕ} (h : CoveredBelow cfg log position db)
    (hcovered : RecordCovered cfg (log kafkaPartition (position kafkaPartition)) kafkaPartition
      (position kafkaPartition) db) :
    CoveredBelow cfg log
      (Function.update position kafkaPartition (position kafkaPartition + 1)) db := by
  intro kafkaPartition' kafkaOffset hlt
  rw [Function.update_apply] at hlt
  split at hlt
  · next heq =>
    subst heq
    rcases Nat.lt_succ_iff_lt_or_eq.1 hlt with hlt | rfl
    · exact h _ _ hlt
    · exact hcovered
  · exact h _ _ hlt

/-! ### The program of a consumer -/

/-- What a consumer guarantees: its acts are acts of deliveries, and the offsets it commits are those
of records that are done, with all before them. -/
structure ConsumerGuarantee (cfg : ConsumerConfig) (log : ℕ → ℕ → KafkaMessage)
    (w w' : ConsumerWorld) : Prop where
  change : DeliveryChange w w'
  commits : ∀ kafkaPartition, w'.committed kafkaPartition = w.committed kafkaPartition ∨
    ∃ kafkaOffset, w'.committed kafkaPartition = kafkaOffset + 1 ∧
      ∀ offset ≤ kafkaOffset, RecordCovered cfg (log kafkaPartition offset) kafkaPartition offset w.db

theorem ConsumerGuarantee.of_same (h : DeliveryChange w w') (hsame : w'.committed = w.committed) :
    ConsumerGuarantee cfg log w w' :=
  ⟨h, fun kafkaPartition => .inl (by rw [hsame])⟩

theorem ConsumerGuarantee.refl (w : ConsumerWorld) : ConsumerGuarantee cfg log w w :=
  .of_same .nothing rfl

/-- The records before are done. -/
abbrev Below (cfg : ConsumerConfig) (log : ℕ → ℕ → KafkaMessage) (position : ℕ → ℕ)
    (w : ConsumerWorld) : Prop :=
  CoveredBelow cfg log position w.db

theorem below_later (w w' : ConsumerWorld) (hle : ConsumerLater w w')
    (h : Below cfg log position w) : Below cfg log position w' :=
  CoveredBelow.later hle h

theorem isTransientKafkaError_of_eventError {x : ConsumerExc} (h : EventError x) :
    isTransientKafkaError x = false := by
  cases h <;> rfl

/-- An attempt that ends without a rejection has the event in the inbox. -/
theorem triple_applyOnce (event : DomainEvent) (kafkaPartition kafkaOffset : ℕ) (at_ : Instant)
    (i : ℕ) : Program.Triple ConsumerLater (ConsumerGuarantee cfg log) (Below cfg log position)
      (applyOnce cfg.ops event kafkaPartition kafkaOffset at_ i)
      (fun answer w => Below cfg log position w ∧ ∀ outcome, answer = .inl outcome →
        (w.db.inbox.lookup (cfg.consumerId, event.eventId)).isSome)
      (fun x w => Below cfg log position w ∧ isTransientKafkaError x = false) := by
  have hlookUp : Program.Triple ConsumerLater (ConsumerGuarantee cfg log) (Below cfg log position)
      (lookUpEvent cfg.consumerId event)
      (fun view w => Below cfg log position w ∧ (view = .duplicate →
        (w.db.inbox.lookup (cfg.consumerId, event.eventId)).isSome))
      (fun x w => Below cfg log position w ∧ EventError x) := by
    refine triple_lookUpEvent below_later below_later (fun w _ => .refl w) (fun w _ => .refl w)
      (fun w hbelow hsome => ⟨hbelow, fun _ => hsome⟩) (fun w hbelow _ => hbelow) ?_
      (fun w error hbelow => ⟨hbelow, .database error⟩)
      (fun w error hbelow => ⟨hbelow, .database error⟩)
    intro w hbelow
    refine ⟨hbelow, ?_⟩
    intro hfresh
    cases hfresh
  have hrecord : ∀ view, Program.Triple ConsumerLater (ConsumerGuarantee cfg log)
      (fun w => Below cfg log position w ∧ (view = .duplicate →
        (w.db.inbox.lookup (cfg.consumerId, event.eventId)).isSome))
      (session (judgeDelivery cfg.consumerId event at_)
        (recordAndApply view cfg.consumerId event kafkaPartition kafkaOffset at_))
      (fun _ w => Below cfg log position w ∧
        (w.db.inbox.lookup (cfg.consumerId, event.eventId)).isSome)
      (fun x w => Below cfg log position w ∧ EventError x) := by
    intro view
    refine triple_session ?_ (fun w error h => ⟨.refl w, h.1, .database error⟩) ?_ ?_
    · rintro w w' hle ⟨hbelow, hview⟩
      exact ⟨below_later w w' hle hbelow, fun hdup => hle.inbox _ (hview hdup)⟩
    · rintro e w outcome db' ⟨hbelow, hview⟩ h _ rfl
      have hchange := (changes_recordAndApply view cfg.consumerId event kafkaPartition kafkaOffset
        at_).ok e w outcome db' h
      have hbelow' := below_later _ _ (.delivery hchange) hbelow
      refine ⟨.of_same hchange rfl, ⟨hbelow', ?_⟩, fun error => ⟨hbelow', .database error⟩⟩
      rcases recordAndApply_eq_ok h with ⟨rfl, hduplicate, rfl⟩ | ⟨rfl, -, -, existing, rfl,
        heffect⟩
      · exact hview hduplicate
      · obtain ⟨row, hinbox⟩ := heffect.inbox
        simp only [hinbox, AList.lookup_insert, Option.isSome_some]
    · rintro e w x ⟨hbelow, -⟩ h _ rfl
      exact ⟨.of_same ((changes_recordAndApply view cfg.consumerId event kafkaPartition kafkaOffset
        at_).error e w x h) rfl, hbelow, raises_recordAndApply _ _ _ _ _ _ _ _ _ h⟩
  refine .bind (.attempt (.bind hlookUp hrecord)
    (R := fun answer w => Below cfg log position w ∧ match answer with
      | .ok (_ : InboxOutcome) => (w.db.inbox.lookup (cfg.consumerId, event.eventId)).isSome = true
      | .error x => EventError x)
    (fun _ _ h => h) fun _ _ h => h) fun answer => ?_
  cases answer with
  | ok outcome => exact .ret fun w h => ⟨h.1, fun _ _ => h.2⟩
  | error x =>
      simp only []
      split
      · next heq => cases heq
      · exact .ret fun w h => ⟨h.1, by simp⟩
      · next heq =>
        cases heq
        exact .raise fun w h => ⟨h.1, isTransientKafkaError_of_eventError h.2⟩

/-! ### Commits -/

/-- The next record of a partition is done too. -/
abbrev NextDone (cfg : ConsumerConfig) (log : ℕ → ℕ → KafkaMessage) (position : ℕ → ℕ)
    (kafkaPartition : ℕ) (w : ConsumerWorld) : Prop :=
  Below cfg log position w ∧ RecordCovered cfg (log kafkaPartition (position kafkaPartition))
    kafkaPartition (position kafkaPartition) w.db

/-- The offset of a record is committed once it is done. -/
theorem triple_commitWithRetry (kafkaPartition : ℕ) (deadlineAt : ℚ) :
    Program.Triple ConsumerLater (ConsumerGuarantee cfg log)
      (NextDone cfg log position kafkaPartition)
      (commitWithRetry cfg.ops cfg kafkaPartition (position kafkaPartition) deadlineAt)
      (fun _ => NextDone cfg log position kafkaPartition)
      (fun _ => NextDone cfg log position kafkaPartition) := by
  have hstable : ∀ w w', ConsumerLater w w' → NextDone cfg log position kafkaPartition w →
      NextDone cfg log position kafkaPartition w' :=
    fun w w' hle h => ⟨below_later w w' hle h.1, h.2.later hle⟩
  refine triple_retrying cfg hstable (fun w _ => .refl w) (fun i => ?_) (fun _ _ _ h => h)
    (fun _ _ _ h => h) (fun _ _ _ h => h) (fun _ h => h) (fun _ h => h) _ _
  refine fun w hw => Program.complies_act.2 fun e w' hle => ?_
  obtain ⟨hbelow, hcovered⟩ := hstable w w' hle hw
  constructor
  · split
    · refine ⟨.offset _ _, ?_⟩
      intro kafkaPartition'
      by_cases heq : kafkaPartition' = kafkaPartition
      · subst heq
        refine .inr ⟨position kafkaPartition', Function.update_self _ _ _, ?_⟩
        intro offset hoffset
        rcases Nat.lt_or_eq_of_le hoffset with hlt | rfl
        · exact hbelow _ _ hlt
        · exact hcovered
      · exact .inl (Function.update_of_ne heq _ _)
    · exact .refl w'
  · refine (?_ : ∀ w'', w''.db = w'.db → Program.Complies _ _ _ _ w'' _) _ (by split <;> rfl)
    intro w'' hdb
    have hdone : NextDone cfg log position kafkaPartition w'' := by
      rw [NextDone, Below, hdb]
      exact ⟨hbelow, hcovered⟩
    split
    · exact Program.complies_ret.2 hdone
    · exact Program.complies_raise.2 hdone
    · exact Program.complies_raise.2 hdone

/-! ### One record -/

/-- Whoever dead-letters a record has it done before its offset is committed, and raises no error of
the broker. -/
theorem triple_deadLetterAndCommit (error : PoisonError) (event : Option DomainEvent)
    (kafkaPartition : ℕ) (at_ : Instant) (processingAttemptCount : ℕ) (deadlineAt : ℚ) :
    Program.Triple ConsumerLater (ConsumerGuarantee cfg log) (Below cfg log position)
      (deadLetterAndCommit cfg.ops cfg error (log kafkaPartition (position kafkaPartition)) event
        kafkaPartition (position kafkaPartition) at_ processingAttemptCount deadlineAt)
      (fun _ => NextDone cfg log position kafkaPartition)
      (fun x _ => isTransientKafkaError x = false) := by
  refine .bind (Q := fun _ => NextDone cfg log position kafkaPartition) ?_ fun id => ?_
  · refine triple_retrying cfg below_later (fun w _ => .refl w) (fun i => ?_)
      (fun _ w _ (h : Below cfg log position w) => h) (fun _ _ _ _ => rfl)
      (fun _ _ _ _ => rfl) (fun _ _ => rfl) (fun _ _ => rfl) _ _
    refine triple_session below_later (fun w error h => ⟨.refl w, h⟩) ?_ ?_
    · rintro e w id db' hbelow h _ rfl
      have hchange := (changes_upsertDeadLetter _ _ _ _ _ _ _).ok e w id db' h
      have hbelow' := below_later _ _ (.delivery hchange) hbelow
      refine ⟨.of_same hchange rfl, ⟨hbelow', .inr (isSome_deadLetterAt.2 ?_)⟩, fun _ => hbelow'⟩
      rcases upsertDeadLetter_eq_ok h with ⟨old, hold, rfl⟩ | ⟨-, -, rfl⟩
      · exact ⟨id, old.delivered at_, AList.lookup_insert _, (Table.lookup_of_find hold).2⟩
      · refine ⟨id, _, AList.lookup_insert _, ?_⟩
        simp [DeadLetterRow.isAt, newDeadLetter]
    · rintro e w x hbelow h _ rfl
      exact ⟨.of_same ((changes_upsertDeadLetter _ _ _ _ _ _ _).error e w x h) rfl, hbelow⟩
  · refine .bind (Program.Triple.attempt (triple_commitWithRetry kafkaPartition deadlineAt)
      (R := fun _ => NextDone cfg log position kafkaPartition) (fun _ _ h => h)
      fun _ _ h => h) fun answer => ?_
    split
    · exact .ret fun _ h => h
    · exact .raise fun _ _ => rfl
    · exact .raise fun _ _ => rfl
    · exact .raise fun _ _ => rfl

/-- **A record that is processed is done**, and an error of the broker is raised only when it is. -/
theorem triple_processRecord (kafkaPartition : ℕ) :
    Program.Triple ConsumerLater (ConsumerGuarantee cfg log) (Below cfg log position)
      (processRecord cfg.ops cfg (log kafkaPartition (position kafkaPartition)) kafkaPartition
        (position kafkaPartition))
      (fun _ => NextDone cfg log position kafkaPartition)
      (fun x w => isTransientKafkaError x = true → NextDone cfg log position kafkaPartition w) := by
  have hno : ∀ {x : ConsumerExc} {P : Prop}, isTransientKafkaError x = false →
      isTransientKafkaError x = true → P := by
    intro x P hfalse htrue
    rw [hfalse] at htrue
    cases htrue
  refine .bind (Q := fun _ => Below cfg log position)
    (.reading below_later (fun w _ => .refl w) fun _ _ h => h) fun at_ => ?_
  cases hdecode : decodeMessage cfg.pydantic cfg.recursionLimit
      (log kafkaPartition (position kafkaPartition)) with
  | error x =>
      cases x with
      | poison error =>
          exact (triple_deadLetterAndCommit error none kafkaPartition at_ 1 _).consequence
            (fun _ h => h) (fun _ _ h => h) fun _ _ h => hno h
      | uncaught => exact .raise fun _ _ => hno rfl
  | ok decoded =>
      obtain ⟨event, traceparent⟩ := decoded
      refine .bind (Q := fun answer w => Below cfg log position w ∧ ∀ outcome,
        answer = .inl outcome → (w.db.inbox.lookup (cfg.consumerId, event.eventId)).isSome) ?_
        fun answer => ?_
      · refine triple_retrying cfg below_later (fun w _ => .refl w)
          (triple_applyOnce event kafkaPartition (position kafkaPartition) at_)
          (fun _ _ _ h => h.1) (fun _ _ _ h => hno h.2) (fun _ _ _ _ => hno rfl)
          (fun _ _ => hno rfl) (fun _ _ => hno rfl) _ _
      · cases answer with
        | inr poison =>
            refine (triple_deadLetterAndCommit poison.1 (some event) kafkaPartition at_ poison.2
              _).consequence (fun _ h => h.1) (fun _ _ h => h) fun _ _ h => hno h
        | inl outcome =>
            refine .bind (Q := fun _ => NextDone cfg log position kafkaPartition) ?_
              fun _ => .ret fun _ h => h
            refine (triple_commitWithRetry kafkaPartition _).consequence ?_ (fun _ _ h => h)
              fun _ _ h _ => h
            rintro w ⟨hbelow, hinbox⟩
            exact ⟨hbelow, .inl ⟨event, traceparent, hdecode, hinbox outcome rfl⟩⟩

/-! ### The poll loop -/

/-- One round of the loop: the position goes on past records that are done. -/
theorem triple_runOnce (answer : PollAnswer) :
    Program.Triple ConsumerLater (ConsumerGuarantee cfg log) (Below cfg log position)
      (runOnce cfg.ops cfg (answer.fetch log position).1)
      (fun _ => Below cfg log (answer.fetch log position).2)
      (fun x w => isTransientKafkaError x = true →
        Below cfg log (answer.fetch log position).2 w) := by
  have hno : ∀ {context : String} {w : ConsumerWorld} {P : Prop}, Below cfg log position w →
      isTransientKafkaError (.consumer context) = true → P := fun _ h => by cases h
  cases answer with
  | nothing => exact .ret fun _ h => h
  | brokerError recoverable =>
      cases recoverable with
      | true => exact .raise fun _ h _ => h
      | false => exact .raise fun _ h => hno h
  | record kafkaPartition givesPartition givesOffset =>
      cases givesPartition with
      | false => exact .raise fun _ h => hno h
      | true =>
          cases givesOffset with
          | false => exact .raise fun _ h => hno h
          | true =>
              exact (triple_processRecord kafkaPartition).consequence (fun _ h => h)
                (fun _ _ h => h.1.next h.2) fun _ _ h htransient =>
                  (h htransient).1.next (h htransient).2

/-- **The poll loop commits the offsets of records that are done, with all before them.** -/
theorem triple_pollLoop (polls : ℕ) :
    Program.Triple ConsumerLater (ConsumerGuarantee cfg log) (Below cfg log position)
      (pollLoop cfg log polls position) (fun _ _ => True) (fun _ _ => True) := by
  induction polls generalizing position with
  | zero => exact .ret fun _ _ => trivial
  | succ polls ih =>
      have hreading : ∀ {β : Type} {f : ConsumerEnv → β} {position : ℕ → ℕ},
          Program.Triple ConsumerLater (ConsumerGuarantee cfg log) (Below cfg log position)
            (Program.reading f : ConsumerProgram β) (fun _ => Below cfg log position)
            (fun _ _ => True) :=
        .reading below_later (fun w _ => .refl w) fun _ _ h => h
      rw [pollLoop]
      refine .bind hreading fun shutdown => ?_
      split
      · exact .ret fun _ _ => trivial
      · refine .bind hreading fun answer => ?_
        refine .bind (Program.Triple.attempt (triple_runOnce answer) (R := fun outcome w =>
          (∀ x, outcome = .error x → isTransientKafkaError x = true) →
            Below cfg log (answer.fetch log position).2 w) ?_ ?_) fun outcome => ?_
        · exact fun _ _ h _ => h
        · exact fun x _ h hall => h (hall x rfl)
        · cases outcome with
          | ok outcome => exact .pre ih fun w h => h (by simp)
          | error x =>
              split
              · next heq => cases heq
              · next heq =>
                cases heq
                refine .pre (.bind hreading fun shutdown => ?_) fun w h => h ?_
                · split
                  · exact .ret fun _ _ => trivial
                  · exact ih
                · rintro _ ⟨⟩
                  rfl
              · exact .ret fun _ _ => trivial
              · exact .raise fun _ _ => trivial

end Atlas
