/-
**Lifecycles in order.**

The records of a topic are in lifecycle order when before each terminal event of a job, in its
partition, every other event of the job is found.  A consumer takes the records of a partition one
after the other, and when it stops it starts again at or before the record it was at; so whenever it
applies a terminal event all other events of the job are in the inbox.  A consumer that overlaps with
another may still find the terminal event's row after it has not found its own event, and then it
rejects the event and dead-letters its record; but the event was applied by then, and a replay of the
dead letter finds it a duplicate.

Main definitions:

* `Atlas.HoldsEvent` — the event a record holds;
* `Atlas.LifecycleLog` — records in lifecycle order;
* `Atlas.RetainsEvents`, `Atlas.RecordLetter` — what dead letters retain;
* `Atlas.InTurn`, `Atlas.LatestRow` — decisions in the order of the records, and the rows of the
  last ones;
* `Atlas.DeliveredInOrder` — what holds of every reachable state.

Main results:

* `Atlas.ordered_rounds`, `Atlas.ordered_replay` — consumers and operators keep it;
* `Atlas.ordered_delivery` — **of records in lifecycle order every event is applied once, in order,
  and only what was applied is rejected**.
-/

import Atlas.LifecycleProjection

set_option relaxedAutoImplicit false
set_option autoImplicit false

namespace Atlas

/-! ### Records in order -/

section Logs

variable (cfg : ConsumerConfig) (log : ℕ → ℕ → KafkaMessage)

/-- The record at a position holds the event. -/
def HoldsEvent (kafkaPartition kafkaOffset : ℕ) (event : DomainEvent) : Prop :=
  ∃ traceparent, decodeMessage cfg.pydantic cfg.recursionLimit (log kafkaPartition kafkaOffset)
    = .ok (event, traceparent)

/-- **Records in lifecycle order**: before a terminal event of a job, in its partition, every other
event of the job is found. -/
def LifecycleLog : Prop :=
  ∀ kafkaPartition kafkaOffset event, HoldsEvent cfg log kafkaPartition kafkaOffset event →
    event.type.Terminal → ∀ kafkaPartition' kafkaOffset' other,
      HoldsEvent cfg log kafkaPartition' kafkaOffset' other →
      other.aggregateId = event.aggregateId → other.eventId ≠ event.eventId →
        ∃ earlier < kafkaOffset, ∃ again, HoldsEvent cfg log kafkaPartition earlier again ∧
          again.eventId = other.eventId

/-- Events are in the first partition only. -/
def OnePartition : Prop :=
  ∀ kafkaPartition kafkaOffset event, HoldsEvent cfg log kafkaPartition kafkaOffset event →
    kafkaPartition = 0

/-- The events of the records of a partition before the offset are in the inbox. -/
def AbsorbedBefore (kafkaPartition kafkaOffset : ℕ) (db : ConsumerDb) : Prop :=
  ∀ offset < kafkaOffset, ∀ event, HoldsEvent cfg log kafkaPartition offset event →
    (db.inbox.lookup (cfg.consumerId, event.eventId)).isSome

/-- The canonical text of an event that a record holds is parsed as the event, or not at all. -/
def RetainsEvents : Prop :=
  ∀ kafkaPartition kafkaOffset event parsed, HoldsEvent cfg log kafkaPartition kafkaOffset event →
    parseRetained cfg.pydantic cfg.recursionLimit (serializeDomainEvent cfg.pydantic event)
      = some parsed → parsed = event

/-- A dead letter of a record, which retains the event that it holds or nothing. -/
def RecordLetter (row : DeadLetterRow) : Prop :=
  row.consumerId = cfg.consumerId ∧
    (row.retention.retainedCanonicalValue = none ∨
      ∃ event, HoldsEvent cfg log row.kafkaPartition row.kafkaOffset event ∧
        row.retention.retainedCanonicalValue = some (serializeDomainEvent cfg.pydantic event))

/-- A dead letter of a record before the position. -/
def LetterBefore (position : ℕ → ℕ) (row : DeadLetterRow) : Prop :=
  RecordLetter cfg log row ∧ row.kafkaOffset < position row.kafkaPartition

/-- The event of the dead letter's record is in the inbox, if it holds one. -/
def LetterAbsorbed (db : ConsumerDb) (row : DeadLetterRow) : Prop :=
  ∀ event, HoldsEvent cfg log row.kafkaPartition row.kafkaOffset event →
    (db.inbox.lookup (cfg.consumerId, event.eventId)).isSome

/-- The decisions are about different events, and each is about the event of a record before which
all were decided on before it. -/
def InTurn (history : List Decision) : Prop :=
  ∀ before d after, history = before ++ d :: after →
    (∀ earlier ∈ before, earlier.event.eventId ≠ d.event.eventId) ∧
      ∃ kafkaPartition kafkaOffset, HoldsEvent cfg log kafkaPartition kafkaOffset d.event ∧
        ∀ offset < kafkaOffset, ∀ event, HoldsEvent cfg log kafkaPartition offset event →
          ∃ earlier ∈ before, earlier.event.eventId = event.eventId

/-- The decisions that applied their events. -/
def ConsumerWorld.applied (w : ConsumerWorld) : List Decision := w.history.filter (·.applied)

/-- The row of a job is that of the last event of it that was applied. -/
def LatestRow (w : ConsumerWorld) (jobId : String) : Prop :=
  w.db.projection.lookup jobId
    = ((w.applied.filter fun d => d.event.aggregateId = jobId).getLast?).map fun d =>
        projectionOf d.event d.at_

/-- **What holds of every reachable state**: a row of the projection holds the type of an event that
was applied; an event that was decided on is in the inbox, and is that of a record before which all
are absorbed; the inbox holds the events that were applied, each in its turn, and one that is
rejected was applied before; where the events are in one partition, the rows are the latest; and the
dead letters retain nothing but events that were applied. -/
structure DeliveredInOrder (w : ConsumerWorld) : Prop where
  rows : ∀ jobId row, w.db.projection.lookup jobId = some row →
    ∃ d ∈ w.applied, d.event.aggregateId = jobId ∧ d.event.type = row.lastEventType
  decided : ∀ d ∈ w.history, (w.db.inbox.lookup (cfg.consumerId, d.event.eventId)).isSome ∧
    ∃ kafkaPartition kafkaOffset, HoldsEvent cfg log kafkaPartition kafkaOffset d.event ∧
      AbsorbedBefore cfg log kafkaPartition kafkaOffset w.db
  inbox : ∀ eventId, (w.db.inbox.lookup (cfg.consumerId, eventId)).isSome →
    ∃ d ∈ w.applied, d.event.eventId = eventId
  turns : InTurn cfg log w.applied
  rejected : ∀ before d after, w.history = before ++ d :: after → d.applied = false →
    ∃ earlier ∈ before, earlier.applied = true ∧ earlier.event.eventId = d.event.eventId
  latest : OnePartition cfg log → ∀ jobId, LatestRow w jobId
  letters : ∀ id row, w.db.deadLetters.lookup id = some row →
    RecordLetter cfg log row ∧ LetterAbsorbed cfg log w.db row

/-- What stays: the inbox keeps its events, the projection is written when an event is applied, and
what is in order stays in order. -/
structure OrderLater (w w' : ConsumerWorld) : Prop where
  applied : w.applied <+: w'.applied
  projection : w'.applied = w.applied → w'.db.projection = w.db.projection
  inbox : ∀ key, (w.db.inbox.lookup key).isSome → (w'.db.inbox.lookup key).isSome
  order : DeliveredInOrder cfg log w → DeliveredInOrder cfg log w'

/-- Before the positions all is absorbed. -/
structure Absorbed (position : ℕ → ℕ) (w : ConsumerWorld) : Prop where
  order : DeliveredInOrder cfg log w
  before : ∀ kafkaPartition,
    AbsorbedBefore cfg log kafkaPartition (position kafkaPartition) w.db

end Logs

section Order

variable {cfg : ConsumerConfig} {log : ℕ → ℕ → KafkaMessage} {w w' w'' : ConsumerWorld}
  {db db' : ConsumerDb} {e : ConsumerEnv} {position : ℕ → ℕ} {kafkaPartition kafkaOffset : ℕ}
  {event : DomainEvent}

theorem HoldsEvent.unique {other : DomainEvent}
    (h : HoldsEvent cfg log kafkaPartition kafkaOffset event)
    (h' : HoldsEvent cfg log kafkaPartition kafkaOffset other) : event = other := by
  obtain ⟨traceparent, hevent⟩ := h
  obtain ⟨traceparent', hother⟩ := h'
  cases hevent.symm.trans hother
  rfl

theorem AbsorbedBefore.later
    (hinbox : ∀ key, (db.inbox.lookup key).isSome → (db'.inbox.lookup key).isSome)
    (h : AbsorbedBefore cfg log kafkaPartition kafkaOffset db) :
    AbsorbedBefore cfg log kafkaPartition kafkaOffset db' :=
  fun offset hlt event hholds => hinbox _ (h offset hlt event hholds)

theorem OrderLater.refl (w : ConsumerWorld) : OrderLater cfg log w w :=
  ⟨List.prefix_refl _, fun _ => rfl, fun _ h => h, fun h => h⟩

theorem OrderLater.trans (h : OrderLater cfg log w w') (h' : OrderLater cfg log w' w'') :
    OrderLater cfg log w w'' where
  applied := h.applied.trans h'.applied
  projection heq := by
    -- nothing was applied in between either
    have hmiddle : w'.applied = w.applied := by
      refine (h.applied.eq_of_length_le ?_).symm
      rw [← heq]
      exact h'.applied.length_le
    rw [h'.projection (heq.trans hmiddle.symm), h.projection hmiddle]
  inbox key hkey := h'.inbox key (h.inbox key hkey)
  order hw := h'.order (h.order hw)

theorem Absorbed.later (hle : OrderLater cfg log w w') (h : Absorbed cfg log position w) :
    Absorbed cfg log position w' :=
  ⟨hle.order h.order, fun kafkaPartition => (h.before kafkaPartition).later hle.inbox⟩

/-- When the event of the next record is in the inbox too, the positions go on. -/
theorem Absorbed.next (h : Absorbed cfg log position w)
    (hnext : ∀ event, HoldsEvent cfg log kafkaPartition (position kafkaPartition) event →
      (w.db.inbox.lookup (cfg.consumerId, event.eventId)).isSome) :
    Absorbed cfg log (advance position kafkaPartition) w := by
  refine ⟨h.order, fun other offset hlt event hholds => ?_⟩
  rw [advance, Function.update_apply] at hlt
  split at hlt
  · rename_i heq
    subst heq
    rcases Nat.lt_succ_iff_lt_or_eq.1 hlt with hlt | rfl
    · exact h.before other offset hlt event hholds
    · exact hnext event hholds
  · exact h.before other offset hlt event hholds

theorem deliveredInOrder_empty : DeliveredInOrder cfg log .empty where
  rows jobId row h := by simp [ConsumerWorld.empty] at h
  decided d h := by simp [ConsumerWorld.empty] at h
  inbox eventId h := by simp [ConsumerWorld.empty] at h
  turns before d after h := by simp [ConsumerWorld.empty, ConsumerWorld.applied] at h
  rejected before d after h := by simp [ConsumerWorld.empty] at h
  latest _ jobId := by simp [ConsumerWorld.empty, ConsumerWorld.applied, LatestRow]
  letters id row h := by simp [ConsumerWorld.empty] at h

theorem LetterAbsorbed.later {row : DeadLetterRow}
    (hinbox : ∀ key, (db.inbox.lookup key).isSome → (db'.inbox.lookup key).isSome)
    (h : LetterAbsorbed cfg log db row) : LetterAbsorbed cfg log db' row :=
  fun event hholds => hinbox _ (h event hholds)

/-- An act that decides on nothing keeps the order, when the records it dead-letters are
absorbed. -/
theorem DeliveredInOrder.quiet {Letter : DeadLetterRow → Prop} (h : DeliveredInOrder cfg log w)
    (hletter : ∀ row, Letter row → RecordLetter cfg log row ∧ LetterAbsorbed cfg log w.db row)
    (hquiet : NoDecision Letter w w') : DeliveredInOrder cfg log w' where
  rows := by simpa only [hquiet.projection, ConsumerWorld.applied, hquiet.history] using h.rows
  decided := by
    simpa only [hquiet.history, hquiet.inbox, AbsorbedBefore] using h.decided
  inbox := by simpa only [ConsumerWorld.applied, hquiet.history, hquiet.inbox] using h.inbox
  turns := by simpa only [ConsumerWorld.applied, hquiet.history] using h.turns
  rejected := by simpa only [hquiet.history] using h.rejected
  latest := by
    simpa only [LatestRow, ConsumerWorld.applied, hquiet.history, hquiet.projection] using h.latest
  letters id row' hrow' := by
    simp only [LetterAbsorbed, hquiet.inbox]
    rcases hquiet.letters id row' hrow' with hnew | ⟨row, hrow, halike⟩
    · exact hletter row' hnew
    · obtain ⟨hrecord, habsorbed⟩ := h.letters id row hrow
      simp only [RecordLetter, halike.consumerId, halike.retention, halike.kafkaPartition,
        halike.kafkaOffset]
      exact ⟨hrecord, habsorbed⟩

theorem OrderLater.quiet {Letter : DeadLetterRow → Prop}
    (hletter : ∀ row, Letter row → RecordLetter cfg log row ∧ LetterAbsorbed cfg log w.db row)
    (hquiet : NoDecision Letter w w') : OrderLater cfg log w w' where
  applied := by rw [ConsumerWorld.applied, ConsumerWorld.applied, hquiet.history]
  projection _ := hquiet.projection
  inbox key hkey := by rwa [hquiet.inbox]
  order h := h.quiet hletter hquiet

/-- Behind its positions a consumer dead-letters only what is absorbed. -/
theorem Absorbed.letter (h : Absorbed cfg log position w) (row : DeadLetterRow)
    (hrow : LetterBefore cfg log position row) :
    RecordLetter cfg log row ∧ LetterAbsorbed cfg log w.db row :=
  ⟨hrow.1, fun event hholds => h.before row.kafkaPartition row.kafkaOffset hrow.2 event hholds⟩

/-- **While the next record is not absorbed, nothing is applied**, where the events are in one
partition: a later record has it before it, and the earlier ones were applied. -/
theorem Absorbed.unapplied (hone : OnePartition cfg log) (h : Absorbed cfg log position w)
    (hle : OrderLater cfg log w w')
    (hholds : HoldsEvent cfg log kafkaPartition (position kafkaPartition) event)
    (hnew : w'.db.inbox.lookup (cfg.consumerId, event.eventId) = none) :
    w'.applied = w.applied := by
  obtain ⟨more, hmore⟩ := hle.applied
  cases more with
  | nil => rw [← hmore, List.append_nil]
  | cons d rest =>
      have horder := hle.order h.order
      obtain ⟨hfresh, p, o, hd, hbefore⟩ := horder.turns w.applied d rest hmore.symm
      have hdecided : ∀ d' ∈ w'.applied, d'.event.eventId ≠ event.eventId := by
        intro d' hd' heq
        have hsome := (horder.decided d' (List.mem_of_mem_filter hd')).1
        rw [heq, hnew] at hsome
        cases hsome
      have hmem : d ∈ w'.applied := by simp [← hmore]
      obtain rfl := hone _ _ _ hholds
      obtain rfl := hone _ _ _ hd
      rcases Nat.lt_trichotomy o (position 0) with hlt | rfl | hlt
      · obtain ⟨d', hd', hsame⟩ := h.order.inbox _ (h.before 0 o hlt d.event hd)
        exact absurd hsame (hfresh d' hd')
      · exact absurd (congrArg DomainEvent.eventId (hd.unique hholds)) (hdecided d hmem)
      · obtain ⟨d', hd', hsame⟩ := hbefore (position 0) hlt event hholds
        exact absurd hsame (hdecided d' (by rw [← hmore]; exact List.mem_append_left _ hd'))

/-- A written row holds the type of the event, or keeps its type. -/
theorem lastEventType_set (seen new current : ProjectionRow) :
    (seen.set new current).lastEventType = new.lastEventType ∨
      (seen.set new current).lastEventType = current.lastEventType := by
  simp only [ProjectionRow.set, setColumn]
  split
  · exact .inr rfl
  · exact .inl rfl

/-- A new event of a record before which all are absorbed is applied in its turn. -/
theorem DeliveredInOrder.inTurn_snoc (h : DeliveredInOrder cfg log w) {d : Decision}
    (hnew : w.db.inbox.lookup (cfg.consumerId, d.event.eventId) = none)
    (hholds : HoldsEvent cfg log kafkaPartition kafkaOffset d.event)
    (hbefore : AbsorbedBefore cfg log kafkaPartition kafkaOffset w.db) :
    InTurn cfg log (w.applied ++ [d]) := by
  intro before d' after hsplit
  rcases HeadOfLine.eq_or_mem_of_snoc hsplit with ⟨rfl, rfl⟩ | ⟨rest, hrest⟩
  · refine ⟨fun earlier hearlier heq => ?_, kafkaPartition, kafkaOffset, hholds, ?_⟩
    · have hsome := (h.decided earlier (List.mem_of_mem_filter hearlier)).1
      rw [heq, hnew] at hsome
      cases hsome
    · intro offset hlt event hevent
      exact h.inbox _ (hbefore offset hlt event hevent)
  · exact h.turns before d' rest hrest

/-- A decision that is added keeps what holds of the rejections before it. -/
theorem DeliveredInOrder.rejected_snoc (h : DeliveredInOrder cfg log w) {d : Decision}
    (hd : d.applied = false →
      ∃ earlier ∈ w.history, earlier.applied = true ∧ earlier.event.eventId = d.event.eventId) :
    ∀ before other after, w.history ++ [d] = before ++ other :: after → other.applied = false →
      ∃ earlier ∈ before,
        earlier.applied = true ∧ earlier.event.eventId = other.event.eventId := by
  intro before other after hsplit hrejected
  rcases HeadOfLine.eq_or_mem_of_snoc hsplit with ⟨rfl, rfl⟩ | ⟨rest, hrest⟩
  · exact hd hrejected
  · exact h.rejected before other rest hrest hrejected

/-- **The event of a record before which all are absorbed is applied in order.** -/
theorem DeliveredInOrder.effect (h : DeliveredInOrder cfg log w)
    {existing : Option ProjectionRow} {d : Decision}
    (heffect : WritesEffect existing d w.db w'.db) (hconsumer : d.consumerId = cfg.consumerId)
    (hhistory : w'.history = w.history ++ [d]) (hletters : w'.db.deadLetters = w.db.deadLetters)
    (hholds : HoldsEvent cfg log kafkaPartition kafkaOffset d.event)
    (hbefore : AbsorbedBefore cfg log kafkaPartition kafkaOffset w.db)
    (hseen : OnePartition cfg log → w.db.projection.lookup d.event.aggregateId = existing) :
    DeliveredInOrder cfg log w' := by
  have hinbox := ConsumerLater.inbox_effect heffect
  have happlied : w'.applied = w.applied ++ [d] := by
    simp [ConsumerWorld.applied, hhistory, heffect.applied]
  obtain ⟨inboxRow, hinserted⟩ := heffect.inbox
  obtain ⟨row, hprojection, hrow⟩ := heffect.projection
  -- the type the row gets is that of an event that was applied
  have htype : ∃ d' ∈ w'.applied, d'.event.aggregateId = d.event.aggregateId ∧
      d'.event.type = row.lastEventType := by
    rcases hrow with ⟨-, -, -, rfl⟩ | ⟨seen, current, -, -, hcurrent, rfl⟩
    · exact ⟨d, by simp [happlied], rfl, rfl⟩
    · rcases lastEventType_set seen (projectionOf d.event d.at_) current with hnew | hkept
      · exact ⟨d, by simp [happlied], rfl, by rw [hnew, projectionOf]⟩
      · obtain ⟨d', hd', hjob, htype⟩ := h.rows _ _ hcurrent
        exact ⟨d', by simp [happlied, hd'], hjob, by rw [hkept, htype]⟩
  constructor
  · intro jobId row' hrow'
    rw [hprojection, Table.lookup_insert_eq] at hrow'
    split at hrow'
    · rename_i heq
      subst heq
      cases hrow'
      exact htype
    · obtain ⟨d', hd', hsame⟩ := h.rows jobId row' hrow'
      exact ⟨d', by simp [happlied, hd'], hsame⟩
  · intro d' hd'
    rw [hhistory, List.mem_append, List.mem_singleton] at hd'
    rcases hd' with hd' | rfl
    · obtain ⟨hsome, p, o, hholds', hbefore'⟩ := h.decided d' hd'
      exact ⟨hinbox _ hsome, p, o, hholds', hbefore'.later hinbox⟩
    · refine ⟨?_, kafkaPartition, kafkaOffset, hholds, hbefore.later hinbox⟩
      rw [hinserted, ← hconsumer, AList.lookup_insert]
      rfl
  · intro eventId hsome
    rw [hinserted, Table.lookup_insert_eq] at hsome
    split at hsome
    · rename_i heq
      exact ⟨d, by simp [happlied], (congrArg Prod.snd heq).symm⟩
    · obtain ⟨d', hd', hid⟩ := h.inbox eventId hsome
      exact ⟨d', by simp [happlied, hd'], hid⟩
  · rw [happlied]
    exact h.inTurn_snoc (hconsumer ▸ heffect.new) hholds hbefore
  · rw [hhistory]
    refine h.rejected_snoc ?_
    rw [heffect.applied]
    intro hrejected
    cases hrejected
  · intro hone jobId
    rw [LatestRow, hprojection, Table.lookup_insert_eq, happlied, List.filter_append]
    by_cases heq : d.event.aggregateId = jobId
    · -- the row that was seen is the one that is written over
      have hnew : row = projectionOf d.event d.at_ := by
        rcases hrow with ⟨-, -, -, rfl⟩ | ⟨seen, current, hsome, -, hcurrent, rfl⟩
        · rfl
        · rw [hseen hone, hsome] at hcurrent
          rw [← Option.some.inj hcurrent, ProjectionRow.set_self]
      simp [heq, hnew]
    · have hne : jobId ≠ d.event.aggregateId := fun h => heq h.symm
      simpa [heq, hne, LatestRow] using h.latest hone jobId
  · intro id row' hrow'
    rw [hletters] at hrow'
    obtain ⟨hrecord, habsorbed⟩ := h.letters id row' hrow'
    exact ⟨hrecord, habsorbed.later hinbox⟩

/-- **An event that was applied before may be rejected.** -/
theorem DeliveredInOrder.reject (h : DeliveredInOrder cfg log w) {d : Decision}
    (hrejected : d.applied = false)
    (hsome : (w.db.inbox.lookup (cfg.consumerId, d.event.eventId)).isSome)
    (hholds : HoldsEvent cfg log kafkaPartition kafkaOffset d.event)
    (hbefore : AbsorbedBefore cfg log kafkaPartition kafkaOffset w.db) :
    DeliveredInOrder cfg log { w with history := w.history ++ [d] } := by
  have happlied : ConsumerWorld.applied { w with history := w.history ++ [d] } = w.applied := by
    simp [ConsumerWorld.applied, hrejected]
  constructor
  · rw [happlied]
    exact h.rows
  · intro d' hd'
    rcases List.mem_append.1 hd' with hd' | hd'
    · exact h.decided d' hd'
    · obtain rfl := List.mem_singleton.1 hd'
      exact ⟨hsome, kafkaPartition, kafkaOffset, hholds, hbefore⟩
  · rw [happlied]
    exact h.inbox
  · rw [happlied]
    exact h.turns
  · refine h.rejected_snoc fun _ => ?_
    obtain ⟨earlier, hearlier, hid⟩ := h.inbox _ hsome
    obtain ⟨hmem, hearlierApplied⟩ := List.mem_filter.1 hearlier
    exact ⟨earlier, hmem, hearlierApplied, hid⟩
  · intro hone jobId
    rw [LatestRow, happlied]
    exact h.latest hone jobId
  · exact h.letters

theorem OrderLater.reject {d : Decision} (hrejected : d.applied = false)
    (hsome : (w.db.inbox.lookup (cfg.consumerId, d.event.eventId)).isSome)
    (hholds : HoldsEvent cfg log kafkaPartition kafkaOffset d.event)
    (hbefore : AbsorbedBefore cfg log kafkaPartition kafkaOffset w.db) :
    OrderLater cfg log w { w with history := w.history ++ [d] } where
  applied := by simp [ConsumerWorld.applied, hrejected]
  projection _ := rfl
  inbox _ hkey := hkey
  order h := h.reject hrejected hsome hholds hbefore

/-- **When the row of a job holds a terminal event, every event of the job is in the inbox**: it was
found before the terminal one. -/
theorem DeliveredInOrder.absorbed_of_terminal (hlog : LifecycleLog cfg log)
    (h : DeliveredInOrder cfg log w)
    (hholds : HoldsEvent cfg log kafkaPartition kafkaOffset event) {seen : ProjectionRow}
    (hseen : w.db.projection.lookup event.aggregateId = some seen)
    (hterminal : seen.lastEventType.Terminal) :
    (w.db.inbox.lookup (cfg.consumerId, event.eventId)).isSome := by
  obtain ⟨d, hd, hjob, htype⟩ := h.rows _ _ hseen
  obtain ⟨hsome, p, o, hd', hbefore⟩ := h.decided d (List.mem_of_mem_filter hd)
  by_cases hsame : event.eventId = d.event.eventId
  · rw [hsame]
    exact hsome
  · obtain ⟨earlier, hlt, again, hagain, hid⟩ :=
      hlog p o d.event hd' (htype ▸ hterminal) _ _ event hholds hjob.symm hsame
    rw [← hid]
    exact hbefore earlier hlt again hagain

/-! ### Programs -/

/-- The row that was seen is the row of the job, unless the event is in the inbox by now. -/
def SeesLatest (cfg : ConsumerConfig) (log : ℕ → ℕ → KafkaMessage) (event : DomainEvent)
    (view : EventView) (w : ConsumerWorld) : Prop :=
  OnePartition cfg log → ∀ existing, view = .fresh existing →
    w.db.inbox.lookup (cfg.consumerId, event.eventId) = none →
      w.db.projection.lookup event.aggregateId = existing

theorem SeesLatest.later {view : EventView} (h : SeesLatest cfg log event view w)
    (habsorbed : Absorbed cfg log position w) (hle : OrderLater cfg log w w')
    (hholds : HoldsEvent cfg log kafkaPartition (position kafkaPartition) event) :
    SeesLatest cfg log event view w' := by
  intro hone existing hview hnew
  have hsame := habsorbed.unapplied hone hle hholds hnew
  rw [hle.projection hsame]
  refine h hone existing hview ?_
  cases hinbox : w.db.inbox.lookup (cfg.consumerId, event.eventId) with
  | none => rfl
  | some row =>
      have hsome := hle.inbox (cfg.consumerId, event.eventId) (by rw [hinbox]; rfl)
      rw [hnew] at hsome
      cases hsome

/-- What the lookups of the next record's event have seen: a duplicate is absorbed, and so is an event
whose job was seen to have ended. -/
structure Sees (cfg : ConsumerConfig) (log : ℕ → ℕ → KafkaMessage) (event : DomainEvent)
    (view : EventView) (w : ConsumerWorld) : Prop where
  duplicate : view = .duplicate → (w.db.inbox.lookup (cfg.consumerId, event.eventId)).isSome
  terminal : ∀ seen, view = .fresh (some seen) → seen.lastEventType.Terminal →
    (w.db.inbox.lookup (cfg.consumerId, event.eventId)).isSome
  latest : SeesLatest cfg log event view w

theorem Sees.later {view : EventView} (h : Sees cfg log event view w)
    (habsorbed : Absorbed cfg log position w) (hle : OrderLater cfg log w w')
    (hholds : HoldsEvent cfg log kafkaPartition (position kafkaPartition) event) :
    Sees cfg log event view w' where
  duplicate hview := hle.inbox _ (h.duplicate hview)
  terminal seen hview hterminal := hle.inbox _ (h.terminal seen hview hterminal)
  latest := h.latest.later habsorbed hle hholds

/-- The two lookups of the next record's event. -/
theorem ordered_lookUpEvent (hlog : LifecycleLog cfg log)
    (hholds : HoldsEvent cfg log kafkaPartition (position kafkaPartition) event) :
    Program.Triple (OrderLater cfg log) (OrderLater cfg log) (Absorbed cfg log position)
      (lookUpEvent cfg.consumerId event)
      (fun view w => Absorbed cfg log position w ∧ Sees cfg log event view w)
      (fun x w => Absorbed cfg log position w ∧ EventError x ∧ NoPoison x) := by
  refine triple_lookUpEvent (B := Absorbed cfg log position) (fun _ _ hle h => h.later hle)
    (fun _ _ hle h => h.later hle) (fun w _ => .refl w) (fun w _ => .refl w) ?_ (fun w h _ => h) ?_
    (fun w error h => ⟨h, .database error, noPoison_database error⟩)
    fun w error h => ⟨h, .database error, noPoison_database error⟩
  · intro w habsorbed hsome
    refine ⟨habsorbed, fun _ => hsome, ?_, ?_⟩
    · intro seen hview
      cases hview
    · intro _ existing hview
      cases hview
  · intro w habsorbed
    refine ⟨habsorbed, ?_, ?_, ?_⟩
    · intro hview
      cases hview
    · intro seen hview hterminal
      exact habsorbed.order.absorbed_of_terminal hlog hholds (EventView.fresh.inj hview) hterminal
    · intro _ existing hview _
      exact EventView.fresh.inj hview

/-- The write of the next record's event: it is absorbed then, also when it is rejected. -/
theorem ordered_recordAndApply
    (hholds : HoldsEvent cfg log kafkaPartition (position kafkaPartition) event) (at_ : Instant)
    (view : EventView) :
    Program.Triple (OrderLater cfg log) (OrderLater cfg log)
      (fun w => Absorbed cfg log position w ∧ Sees cfg log event view w)
      (session (judgeDelivery cfg.consumerId event at_)
        (recordAndApply view cfg.consumerId event kafkaPartition (position kafkaPartition) at_))
      (fun _ => Absorbed cfg log (advance position kafkaPartition))
      (fun x w => Absorbed cfg log position w ∧ EventError x ∧
        ∀ error, x = .poison error → Absorbed cfg log (advance position kafkaPartition) w) := by
  -- the event of the record is the one the attempt is about
  have hnext : ∀ {w : ConsumerWorld}, Absorbed cfg log position w →
      (w.db.inbox.lookup (cfg.consumerId, event.eventId)).isSome →
        Absorbed cfg log (advance position kafkaPartition) w := by
    intro w habsorbed hsome
    refine habsorbed.next fun other hother => ?_
    rwa [← hholds.unique hother]
  have hdatabase : ∀ {w : ConsumerWorld} (error : DbError), Absorbed cfg log position w →
      Absorbed cfg log position w ∧ EventError (.database error) ∧
        ∀ poison, ConsumerExc.database error = .poison poison →
          Absorbed cfg log (advance position kafkaPartition) w :=
    fun error h => ⟨h, .database error, fun poison heq => absurd heq (noPoison_database error _)⟩
  refine triple_session (fun _ _ hle h => ⟨h.1.later hle, h.2.later h.1 hle hholds⟩)
    (fun w error h => ⟨.refl w, hdatabase error h.1⟩) ?_ ?_
  · rintro e w outcome db' ⟨habsorbed, hsees⟩ h w' hw'
    rcases recordAndApply_eq_ok h with
      ⟨rfl, hview, rfl⟩ | ⟨rfl, hletters, -, existing, hview, heffect⟩
    · have hquiet : NoDecision (LetterBefore cfg log position) w w' := .of_undecided rfl hw'
      have hlater := OrderLater.quiet habsorbed.letter hquiet
      refine ⟨hlater, hnext (habsorbed.later hlater) (hlater.inbox _ (hsees.duplicate hview)),
        fun error => hdatabase error (habsorbed.later hlater)⟩
    · have hlater : OrderLater cfg log w w' := by
        subst hw'
        refine ⟨⟨[⟨cfg.consumerId, event, at_, true⟩], ?_⟩, ?_, ConsumerLater.inbox_effect heffect,
          fun horder => ?_⟩
        · simp [ConsumerWorld.applied, judgeDelivery]
        · intro heq
          simp [ConsumerWorld.applied, judgeDelivery] at heq
        · exact horder.effect heffect rfl rfl hletters hholds (habsorbed.before kafkaPartition)
            fun hone => hsees.latest hone existing hview heffect.new
      refine ⟨hlater, hnext (habsorbed.later hlater) ?_,
        fun error => hdatabase error (habsorbed.later hlater)⟩
      obtain ⟨row, hinbox⟩ := heffect.inbox
      rw [hw', hinbox, AList.lookup_insert]
      rfl
  · rintro e w x ⟨habsorbed, hsees⟩ h w' hw'
    have herror := raises_recordAndApply _ _ _ _ _ _ _ _ _ h
    cases hdecision : judgeDelivery cfg.consumerId event at_ e w.db (.error x) with
    | none =>
        have hquiet : NoDecision (LetterBefore cfg log position) w w' :=
          .of_undecided hdecision hw'
        have hlater := OrderLater.quiet habsorbed.letter hquiet
        refine ⟨hlater, habsorbed.later hlater, herror, ?_⟩
        rintro error rfl
        obtain ⟨rfl, -⟩ := recordAndApply_eq_poison h
        cases hdecision
    | some d =>
        have hd : x = .poison .lifecycleOrderViolation ∧
            d = ⟨cfg.consumerId, event, at_, false⟩ := by
          simp only [judgeDelivery] at hdecision
          split at hdecision
          · rename_i heq
            cases heq
          · rename_i heq
            cases heq
            exact ⟨rfl, (Option.some.inj hdecision).symm⟩
          · cases hdecision
        obtain ⟨rfl, rfl⟩ := hd
        obtain ⟨-, seen, hview, hterminal⟩ := recordAndApply_eq_poison h
        have hsome := hsees.terminal seen hview hterminal
        have hlater : OrderLater cfg log w w' := by
          rw [hw', hdecision, Option.toList_some]
          exact .reject rfl hsome hholds (habsorbed.before kafkaPartition)
        exact ⟨hlater, habsorbed.later hlater, herror, fun _ _ =>
          hnext (habsorbed.later hlater) (hlater.inbox _ hsome)⟩

/-- **The attempt to apply the event of the next record** leaves it absorbed, unless it fails. -/
theorem ordered_applyOnce (hlog : LifecycleLog cfg log)
    (hholds : HoldsEvent cfg log kafkaPartition (position kafkaPartition) event) (at_ : Instant)
    (i : ℕ) : Program.Triple (OrderLater cfg log) (OrderLater cfg log) (Absorbed cfg log position)
      (applyOnce cfg.ops event kafkaPartition (position kafkaPartition) at_ i)
      (fun _ => Absorbed cfg log (advance position kafkaPartition))
      (fun x w => Absorbed cfg log position w ∧ isTransientKafkaError x = false) := by
  refine .bind (.attempt (.bind ((ordered_lookUpEvent hlog hholds).consequence (fun _ h => h)
      (fun _ _ h => h) ?_) (ordered_recordAndApply hholds at_)) (R := fun answer w =>
      (∀ outcome : InboxOutcome, answer = .ok outcome →
        Absorbed cfg log (advance position kafkaPartition) w) ∧
      ∀ x, answer = .error x → Absorbed cfg log position w ∧ EventError x ∧
        ∀ error, x = .poison error → Absorbed cfg log (advance position kafkaPartition) w)
    ?_ ?_) fun answer => ?_
  · intro x w h
    exact ⟨h.1, h.2.1, fun error heq => absurd heq (h.2.2 error)⟩
  · intro outcome w h
    refine ⟨fun _ _ => h, ?_⟩
    intro x heq
    cases heq
  · intro x w h
    constructor
    · intro outcome heq
      cases heq
    · intro y heq
      cases heq
      exact h
  cases answer with
  | ok outcome => exact .ret fun w h => h.1 outcome rfl
  | error x =>
      split
      · rename_i heq
        cases heq
      · rename_i error heq
        cases heq
        exact .ret fun w h => (h.2 _ rfl).2.2 error rfl
      · rename_i heq
        cases heq
        exact .raise fun w h =>
          ⟨(h.2 _ rfl).1, isTransientKafkaError_of_eventError (h.2 _ rfl).2.1⟩

/-- A dead letter of a record retains what the record holds. -/
theorem DeadLetterRow.LetterOf.record {row : DeadLetterRow} {decoded : Option DomainEvent}
    (h : row.LetterOf cfg (log kafkaPartition kafkaOffset) kafkaPartition kafkaOffset decoded)
    (hdecoded : ∀ event, decoded = some event →
      HoldsEvent cfg log kafkaPartition kafkaOffset event) : RecordLetter cfg log row := by
  refine ⟨h.consumerId, ?_⟩
  rw [h.kafkaPartition, h.kafkaOffset]
  rcases h.retention with hretention | hretention
  · exact .inl (by rw [hretention]; rfl)
  · cases decoded with
    | none => exact .inl (by rw [hretention]; rfl)
    | some event =>
        rw [hretention]
        simp only [buildRetention]
        split
        · exact .inr ⟨event, hdecoded event rfl, rfl⟩
        · exact .inl rfl

theorem letterBefore_advance {row : DeadLetterRow} (hrecord : RecordLetter cfg log row)
    (hpartition : row.kafkaPartition = kafkaPartition)
    (hoffset : row.kafkaOffset = position kafkaPartition) :
    LetterBefore cfg log (advance position kafkaPartition) row := by
  refine ⟨hrecord, ?_⟩
  rw [hpartition, hoffset, advance, Function.update_self]
  exact Nat.lt_succ_self _

/-- **A consumer of records in lifecycle order.** -/
theorem ordered_rounds (hlog : LifecycleLog cfg log) :
    Rounds cfg log (LetterBefore cfg log) (OrderLater cfg log) (OrderLater cfg log)
      (Absorbed cfg log) where
  stable _ _ _ hle h := h.later hle
  quiet _ _ _ h hquiet :=
    ⟨.quiet h.letter hquiet, h.later (.quiet h.letter hquiet)⟩
  undecoded position kafkaPartition x hdecode := by
    have hno : ∀ event, ¬ HoldsEvent cfg log kafkaPartition (position kafkaPartition) event := by
      rintro event ⟨traceparent, hevent⟩
      cases hevent.symm.trans hdecode
    refine ⟨fun w h => h.next fun event hholds => absurd hholds (hno event), fun row hrow => ?_⟩
    refine letterBefore_advance (hrow.record ?_) hrow.kafkaPartition hrow.kafkaOffset
    intro event hevent
    cases hevent
  decoded position kafkaPartition event traceparent hdecode row hrow := by
    refine letterBefore_advance (hrow.record ?_) hrow.kafkaPartition hrow.kafkaOffset
    intro other hother
    cases hother
    exact ⟨traceparent, hdecode⟩
  apply position kafkaPartition event traceparent hdecode at_ i :=
    ordered_applyOnce hlog ⟨traceparent, hdecode⟩ at_ i

/-! #### Replays -/

/-- What a dead letter retains is in the inbox. -/
theorem DeliveredInOrder.retained (hretains : RetainsEvents cfg log)
    (h : DeliveredInOrder cfg log w) {id : String} {row : DeadLetterRow}
    (hrow : w.db.deadLetters.lookup id = some row)
    (hevent : retainedEvent cfg.pydantic cfg.recursionLimit row = .ok event) :
    (w.db.inbox.lookup (row.consumerId, event.eventId)).isSome := by
  obtain ⟨text, htext, hparse⟩ := retainedEvent_eq_ok.1 hevent
  obtain ⟨⟨hconsumer, hnone | ⟨held, hholds, hheld⟩⟩, habsorbed⟩ := h.letters id row hrow
  · rw [htext] at hnone
    cases hnone
  · rw [htext, Option.some.injEq] at hheld
    rw [hheld] at hparse
    rw [hretains _ _ held event hholds hparse, hconsumer]
    exact habsorbed held hholds

/-- An act of an operator that decides on nothing. -/
theorem OrderLater.idle (hquiet : NoDecision (fun _ => False) w w') : OrderLater cfg log w w' :=
  .quiet (fun _ h => h.elim) hquiet

/-- A program that decides on nothing. -/
theorem ordered_of_quiet {α : Type} {program : ConsumerProgram α}
    (h : program.Acts (NoDecisionActs fun _ => False)) :
    Program.Triple (OrderLater cfg log) (OrderLater cfg log) (DeliveredInOrder cfg log) program
      (fun _ => DeliveredInOrder cfg log) (fun _ => DeliveredInOrder cfg log) :=
  h.triple (fun _ _ hle hw => hle.order hw) fun _ _ _ hw hact =>
    ⟨.idle hact, (OrderLater.idle hact).order hw⟩

/-- The lookups of a retained event find a duplicate. -/
theorem ordered_lookUpRetained (hretains : RetainsEvents cfg log) (deadLetterId : String) :
    Program.Triple (OrderLater cfg log) (OrderLater cfg log) (DeliveredInOrder cfg log)
      (lookUpRetained cfg deadLetterId)
      (fun view w => DeliveredInOrder cfg log w ∧ ∀ existing, view ≠ some (.fresh existing))
      (fun _ => DeliveredInOrder cfg log) := by
  refine .bind (Q := fun retained w => DeliveredInOrder cfg log w ∧ ∀ consumerId event,
      retained = some (consumerId, event) → (w.db.inbox.lookup (consumerId, event.eventId)).isSome)
    (triple_read (fun _ _ hle h => hle.order h) (fun w _ => .refl w) ?_
      (fun e w x _ h => absurd h readRetained_ne_error) fun _ _ h => h) fun retained => ?_
  · intro e w retained db' horder h
    obtain ⟨hdb, hretained⟩ := readRetained_eq_ok h
    refine ⟨hdb, horder, fun consumerId event heq => ?_⟩
    obtain ⟨row, hrow, rfl, hevent⟩ := hretained consumerId event heq
    exact horder.retained hretains hrow hevent
  · split
    · refine .ret ?_
      rintro w ⟨horder, -⟩
      refine ⟨horder, ?_⟩
      intro existing hview
      cases hview
    · rename_i consumerId event
      refine .bind (Q := fun view w => DeliveredInOrder cfg log w ∧ view = .duplicate)
        (.pre (triple_lookUpEvent (A := fun w => DeliveredInOrder cfg log w ∧
            (w.db.inbox.lookup (consumerId, event.eventId)).isSome) (B := fun _ => False)
          (fun _ _ hle h => ⟨hle.order h.1, hle.inbox _ h.2⟩) (fun _ _ _ h => h)
          (fun w _ => .refl w) (fun w _ => .refl w) (fun w h _ => ⟨h.1, rfl⟩) ?_
          (fun _ h => h.elim) (fun _ _ h => h.1) fun _ _ h => h.elim) ?_) fun view => .ret ?_
      · rintro w ⟨-, hsome⟩ hnone
        rw [hnone] at hsome
        cases hsome
      · rintro w ⟨horder, hretained⟩
        exact ⟨horder, hretained consumerId event rfl⟩
      · rintro w ⟨horder, rfl⟩
        refine ⟨horder, ?_⟩
        intro existing hview
        cases hview

/-- What is a duplicate is not applied again. -/
theorem ordered_applyReplay (claim : ReplayClaim) (view : Option EventView) :
    Program.Triple (OrderLater cfg log) (OrderLater cfg log)
      (fun w => DeliveredInOrder cfg log w ∧ ∀ existing, view ≠ some (.fresh existing))
      (session (judgeReplay cfg claim) (applyReplay cfg.pydantic cfg.recursionLimit claim view))
      (fun _ => DeliveredInOrder cfg log) (fun _ => DeliveredInOrder cfg log) := by
  refine triple_session (fun _ _ hle h => ⟨hle.order h.1, h.2⟩) (fun w _ h => ⟨.refl w, h.1⟩) ?_ ?_
  · rintro e w answer db' ⟨horder, hview⟩ h w' hw'
    have hquiet : NoDecision (fun _ => False) w w' := by
      rcases applyReplay_change h with ⟨rfl, rfl | hloses⟩ | ⟨row, event, view', hrow, hevent, rfl,
        ⟨rfl, -, hends, hinbox, hprojection⟩ | ⟨-, -, existing, rfl, -⟩⟩
      · have hsame : w' = w := by simpa [judgeReplay] using hw'
        rw [hsame]
        exact .refl w
      · have hw' : w' = { w with db := db' } := by simpa [judgeReplay] using hw'
        rw [hw']
        exact quiet_of_loses hloses
      · have hjudge : judgeReplay cfg claim e w.db (.ok (some .duplicate)) = none := by
          rw [judgeReplay, hrow, Option.bind_some, hevent]
        rw [hjudge, Option.toList_none, List.append_nil] at hw'
        have halike : row.Alike (row.settled .replayedDuplicate e.now) := ⟨rfl, rfl, rfl, rfl⟩
        rw [hw']
        exact ⟨rfl, hinbox, hprojection, newLetters_of_alike hrow halike hends.deadLetters⟩
      · exact absurd rfl (hview existing)
    exact ⟨.idle hquiet, (OrderLater.idle hquiet).order horder,
      fun _ => (OrderLater.idle hquiet).order horder⟩
  · rintro e w x ⟨horder, hview⟩ h w' hw'
    have hjudge : judgeReplay cfg claim e w.db (.error x) = none := by
      cases hdecision : judgeReplay cfg claim e w.db (.error x) with
      | none => rfl
      | some d =>
          rw [judgeReplay, Option.bind_eq_some_iff] at hdecision
          obtain ⟨row, -, hdecision⟩ := hdecision
          split at hdecision
          · rename_i heq
            cases heq
          · rename_i heq
            cases heq
            obtain ⟨_, _, view', -, -, hseen, seen, rfl, -⟩ := applyReplay_eq_poison h
            exact absurd hseen (hview (some seen))
          · cases hdecision
    have hquiet : NoDecision (fun _ => False) w w' := .of_undecided hjudge hw'
    exact ⟨.idle hquiet, (OrderLater.idle hquiet).order horder⟩

/-- **An operator, where the dead letters retain what was applied.** -/
theorem ordered_replay (hretains : RetainsEvents cfg log) (leaseSeconds : ℤ)
    (request : ReplayRequest) :
    Program.Triple (OrderLater cfg log) (OrderLater cfg log) (DeliveredInOrder cfg log)
      (replayProgram cfg leaseSeconds request) (fun _ _ => True) (fun _ _ => True) := by
  refine .bind ((ordered_of_quiet (quiet_claimReplay leaseSeconds request)).consequence
    (fun _ h => h) (fun _ _ h => h) fun _ _ _ => trivial) fun outcome => ?_
  split
  · exact .raise fun _ _ => trivial
  · exact .raise fun _ _ => trivial
  · exact .raise fun _ _ => trivial
  · exact .raise fun _ _ => trivial
  · exact .raise fun _ _ => trivial
  · exact .ret fun _ _ => trivial
  · exact .ret fun _ _ => trivial
  · rename_i claim
    refine .bind (.attempt (.bind (ordered_lookUpRetained hretains claim.deadLetterId)
      fun view => ordered_applyReplay claim view) (R := fun _ => DeliveredInOrder cfg log)
      (fun _ _ h => h) fun _ _ h => h) fun answer => ?_
    split
    · exact .ret fun _ _ => trivial
    · exact .raise fun _ _ => trivial
    · split
      · exact (ordered_of_quiet (quiet_recordFailure claim)).consequence (fun _ h => h)
          (fun _ _ _ => trivial) fun _ _ _ => trivial
      · exact .raise fun _ _ => trivial

/-! ### Runs -/

/-- A record that is done and holds an event has it in the inbox. -/
theorem DeliveredInOrder.absorbed (h : DeliveredInOrder cfg log w)
    (hcovered : RecordCovered cfg (log kafkaPartition kafkaOffset) kafkaPartition kafkaOffset w.db)
    (hholds : HoldsEvent cfg log kafkaPartition kafkaOffset event) :
    (w.db.inbox.lookup (cfg.consumerId, event.eventId)).isSome := by
  rcases hcovered with ⟨other, traceparent, hdecode, hinbox⟩ | hletter
  · rwa [hholds.unique ⟨traceparent, hdecode⟩]
  · obtain ⟨id, row, hrow, hat⟩ := isSome_deadLetterAt.1 hletter
    simp only [DeadLetterRow.isAt, Bool.and_eq_true, decide_eq_true_eq] at hat
    obtain ⟨⟨-, rfl⟩, rfl⟩ := hat
    exact (h.letters id row hrow).2 event hholds

/-- **Consumers and operators keep the order**, and all they guarantee besides. -/
theorem ordered_conduct (hlog : LifecycleLog cfg log) (hretains : RetainsEvents cfg log) :
    PoolSpec.Conduct (consumerSpec cfg log)
      (fun w => ConsumerSound cfg log w ∧ DeliveredInOrder cfg log w)
      (fun _ w w' => ConsumerLater w w' ∧ OrderLater cfg log w w')
      (fun task w w' => TaskGuarantee cfg log task w w' ∧ OrderLater cfg log w w')
      (fun _ _ _ => True ∧ True) (fun _ _ _ => True ∧ True) fun _ _ => True where
  init := by
    rintro w rfl
    exact ⟨(consumer_conduct cfg log).init .empty rfl, deliveredInOrder_empty⟩
  starts := by
    rintro s task program hstart ⟨hsound, horder⟩
    refine Program.Complies.and ((consumer_conduct cfg log).starts s task program hstart hsound) ?_
    cases task with
    | consumer =>
        obtain ⟨polls, position, hposition, rfl⟩ := hstart
        refine (ordered_rounds hlog).pollLoop polls s.world ⟨horder, ?_⟩
        intro kafkaPartition offset hlt event hholds
        have hcommitted := Nat.lt_of_lt_of_le hlt (hposition kafkaPartition)
        exact horder.absorbed (hsound.committed kafkaPartition offset hcommitted) hholds
    | operator =>
        obtain ⟨leaseSeconds, request, rfl⟩ := hstart
        exact Program.Triple.bind (ordered_replay hretains leaseSeconds request)
          (fun _ => .ret fun _ h => h) s.world horder
  compatible _ _ _ _ _ _ _ _ := ⟨trivial, trivial⟩
  refl task w hw := by
    obtain ⟨hlater, hguarantee⟩ := (consumer_conduct cfg log).refl task w hw.1
    exact ⟨⟨hlater, .refl w⟩, hguarantee, .refl w⟩
  trans _ _ _ _ h h' := ⟨h.1.trans h'.1, h.2.trans h'.2⟩
  invariant _ _ _ hw h := ⟨h.1.sound hw.1, h.2.order hw.2⟩
  others _ _ _ _ _ _ h := ⟨h.1.later, h.2⟩
  returned _ _ _ _ _ h := h
  raised _ _ _ _ _ h := h

/-- An event is in the inbox exactly if it was applied once. -/
theorem EffectsOnce.applied (h : EffectsOnce w) {consumerId eventId : String}
    (hsome : (w.db.inbox.lookup (consumerId, eventId)).isSome) :
    effectCount consumerId eventId w.history = 1 := by
  rw [h.count, if_pos hsome]

/-- **Of records in lifecycle order every event is applied once, and only what was applied is
rejected.**  Whatever consumers and operators do, and wherever they are stopped: every decision is
about the event of a record, and an event that is rejected was applied before; a dead letter is that
of a record that holds no event, or whose event was applied exactly once, and so were the events of
the records below the committed offsets; when a terminal event was decided on, every other event of
its job was applied; the events are applied in the order of the records; and in a topic of one
partition the row of a job is that of the last event applied. -/
theorem ordered_delivery (cfg : ConsumerConfig) (log : ℕ → ℕ → KafkaMessage)
    (hlog : LifecycleLog cfg log) (hretains : RetainsEvents cfg log)
    (s : Pool ConsumerEnv ConsumerWorld ConsumerExc Unit ConsumerTask)
    (h : (consumerSpec cfg log).lts.Reachable s) :
    (∀ d ∈ s.world.history,
      ∃ kafkaPartition kafkaOffset, HoldsEvent cfg log kafkaPartition kafkaOffset d.event) ∧
    (∀ before d after, s.world.history = before ++ d :: after → d.applied = false →
      ∃ earlier ∈ before, earlier.applied = true ∧ earlier.event.eventId = d.event.eventId) ∧
    (∀ id row, s.world.db.deadLetters.lookup id = some row → ∀ event,
      HoldsEvent cfg log row.kafkaPartition row.kafkaOffset event →
        effectCount cfg.consumerId event.eventId s.world.history = 1) ∧
    (∀ kafkaPartition kafkaOffset event, kafkaOffset < s.world.committed kafkaPartition →
      HoldsEvent cfg log kafkaPartition kafkaOffset event →
        effectCount cfg.consumerId event.eventId s.world.history = 1) ∧
    (∀ d ∈ s.world.history, d.event.type.Terminal → ∀ kafkaPartition kafkaOffset other,
      HoldsEvent cfg log kafkaPartition kafkaOffset other →
      other.aggregateId = d.event.aggregateId →
        effectCount cfg.consumerId other.eventId s.world.history = 1) ∧
    InTurn cfg log s.world.applied ∧
    (OnePartition cfg log → ∀ jobId, LatestRow s.world jobId) := by
  obtain ⟨hsound, horder⟩ :=
    (PoolSpec.complies_of_reachable (ordered_conduct hlog hretains) h).world
  refine ⟨fun d hd => ?_, horder.rejected, fun id row hrow event hholds => ?_,
    fun p o event hlt hholds => ?_, ?_, horder.turns, horder.latest⟩
  · obtain ⟨-, p, o, hholds, -⟩ := horder.decided d hd
    exact ⟨p, o, hholds⟩
  · exact hsound.effects.applied ((horder.letters id row hrow).2 event hholds)
  · exact hsound.effects.applied (horder.absorbed (hsound.committed p o hlt) hholds)
  · intro d hd hterminal p o other hother hjob
    obtain ⟨hsome, p', o', hholds, hbefore⟩ := horder.decided d hd
    by_cases hsame : other.eventId = d.event.eventId
    · rw [hsame]
      exact hsound.effects.applied hsome
    · obtain ⟨earlier, hlt, again, hagain, hid⟩ :=
        hlog p' o' d.event hholds hterminal p o other hother hjob hsame
      rw [← hid]
      exact hsound.effects.applied (hbefore earlier hlt again hagain)

end Order

/-- Where validation follows the declared types, dead letters retain what their records hold. -/
theorem retainsEvents_of_faithful {cfg : ConsumerConfig} {log : ℕ → ℕ → KafkaMessage}
    (hp : cfg.pydantic.Faithful) (hlimit : 2 ≤ cfg.recursionLimit)
    (hencodable : ∀ kafkaPartition kafkaOffset event,
      HoldsEvent cfg log kafkaPartition kafkaOffset event → Encodable event) :
    RetainsEvents cfg log := by
  intro kafkaPartition kafkaOffset event parsed hholds hparse
  rw [parseRetained_serializeDomainEvent hp hlimit (hencodable _ _ event hholds)] at hparse
  exact (Option.some.inj hparse).symm

/-! ### A run -/

/-- The records of a job that ends. -/
def completedLog : ℕ → ℕ → KafkaMessage := recordsOf fun kafkaPartition kafkaOffset =>
  if kafkaPartition = 0 then [jobCreated, jobCompleted][kafkaOffset]? else none

/-- The events of the job that lie in records are those the records are of. -/
theorem holdsEvent_recordsOf {events : ℕ → ℕ → Option DomainEvent}
    (hjob : ∀ kafkaPartition kafkaOffset, ∀ event ∈ events kafkaPartition kafkaOffset,
      event ∈ jobEvents) {kafkaPartition kafkaOffset : ℕ} {event : DomainEvent} :
    HoldsEvent pollConfig (recordsOf events) kafkaPartition kafkaOffset event ↔
      events kafkaPartition kafkaOffset = some event := by
  constructor
  · rintro ⟨traceparent, hdecode⟩
    cases hevent : events kafkaPartition kafkaOffset with
    | none =>
        rw [recordsOf, hevent] at hdecode
        simp [decodeMessage, headersAsMapping_headersFor, valueText, Except.mapError, bind,
          Except.bind] at hdecode
    | some other =>
        rw [decodeMessage_recordsOf hevent (hjob _ _ other hevent)] at hdecode
        cases hdecode
        rfl
  · intro hevent
    exact ⟨none, decodeMessage_recordsOf hevent (hjob _ _ event hevent)⟩

theorem holdsEvent_completedLog {kafkaPartition kafkaOffset : ℕ} {event : DomainEvent} :
    HoldsEvent pollConfig completedLog kafkaPartition kafkaOffset event ↔
      kafkaPartition = 0 ∧
        (kafkaOffset = 0 ∧ event = jobCreated ∨ kafkaOffset = 1 ∧ event = jobCompleted) := by
  have hevents : ∀ kafkaPartition kafkaOffset event,
      (if kafkaPartition = 0 then [jobCreated, jobCompleted][kafkaOffset]? else none) = some event
        ↔ kafkaPartition = 0 ∧
          (kafkaOffset = 0 ∧ event = jobCreated ∨ kafkaOffset = 1 ∧ event = jobCompleted) := by
    intro kafkaPartition kafkaOffset event
    split
    · rcases kafkaOffset with - | - | kafkaOffset <;> simp [eq_comm, *]
    · simp [*]
  refine (holdsEvent_recordsOf ?_).trans (hevents _ _ _)
  intro kafkaPartition kafkaOffset event hevent
  rcases (hevents _ _ _).1 hevent with ⟨-, ⟨-, rfl⟩ | ⟨-, rfl⟩⟩ <;> simp [jobEvents]

/-- The job ends with the last record. -/
theorem completedLog_ordered : LifecycleLog pollConfig completedLog := by
  intro kafkaPartition kafkaOffset event hholds hterminal kafkaPartition' kafkaOffset' other hother
    _ hne
  obtain ⟨rfl, ⟨rfl, rfl⟩ | ⟨rfl, rfl⟩⟩ := holdsEvent_completedLog.1 hholds
  · exact absurd hterminal (by decide)
  · obtain ⟨rfl, ⟨rfl, rfl⟩ | ⟨rfl, rfl⟩⟩ := holdsEvent_completedLog.1 hother
    · exact ⟨0, Nat.one_pos, jobCreated, hother, rfl⟩
    · exact absurd rfl hne

theorem completedLog_retains : RetainsEvents pollConfig completedLog := by
  refine retainsEvents_of_faithful isoPydantic_faithful (by decide) ?_
  intro kafkaPartition kafkaOffset event hholds
  obtain ⟨-, ⟨-, rfl⟩ | ⟨-, rfl⟩⟩ := holdsEvent_completedLog.1 hholds
  · exact jobEvents_encodable _ (by simp [jobEvents])
  · exact jobEvents_encodable _ (by simp [jobEvents])

/-- A consumer at a place takes a record, and performs some acts. -/
def takesRecord (place kafkaOffset acts : ℕ) (s : ConsumerPool) : ConsumerPool :=
  actsAt place pollEnv acts (pollsAt completedLog place 0 (positionAt kafkaOffset) s)

/-- The first record is taken. -/
def startedPool : ConsumerPool := takesRecord 0 0 7 { world := .empty }

/-- A consumer has not found the last event in the inbox. -/
def lookedPool : ConsumerPool := takesRecord 1 1 3 startedPool

/-- Another one applies it, and the first finds the job ended. -/
def twicePool : ConsumerPool := actsAt 1 pollEnv 2 (takesRecord 2 1 7 lookedPool)

theorem startedPool_eq : startedPool
    = actsAt 0 pollEnv 7 (({ world := .empty } : ConsumerPool).apply (.start 0 .consumer
        (eventRound completedLog (positionAt 0) 0 jobCreated))) := by
  have hdecode : decodeMessage pollConfig.pydantic pollConfig.recursionLimit
      (completedLog 0 (positionAt 0 0)) = .ok (jobCreated, none) :=
    decodeMessage_recordsOf rfl (by simp [jobEvents])
  rw [startedPool, takesRecord, pollsAt_eq hdecode]

theorem takesRecord_last (place acts : ℕ) (s : ConsumerPool) : takesRecord place 1 acts s
    = actsAt place pollEnv acts (s.apply (.start place .consumer
        (eventRound completedLog (positionAt 1) 0 jobCompleted))) := by
  have hdecode : decodeMessage pollConfig.pydantic pollConfig.recursionLimit
      (completedLog 0 (positionAt 1 0)) = .ok (jobCompleted, none) :=
    decodeMessage_recordsOf rfl (by simp [jobEvents])
  rw [takesRecord, pollsAt_eq hdecode]

theorem twicePool_world : (startedPool.world.committed 0 = 1 ∧
      lookedPool.world.committed 0 = 1) ∧ twicePool.world.committed 0 = 2 ∧
    twicePool.world.history = [⟨allowedConsumerId, jobCreated, 0, true⟩,
      ⟨allowedConsumerId, jobCompleted, 0, true⟩, ⟨allowedConsumerId, jobCompleted, 0, false⟩] := by
  rw [twicePool, takesRecord_last, lookedPool, takesRecord_last, startedPool_eq]
  decide +kernel

theorem reachable_takesRecord {s : ConsumerPool} {kafkaOffset : ℕ} (place acts : ℕ)
    (h : (consumerSpec pollConfig completedLog).lts.Reachable s) (hfree : s.tasks place = none)
    (hcommitted : kafkaOffset ≤ s.world.committed 0) :
    (consumerSpec pollConfig completedLog).lts.Reachable (takesRecord place kafkaOffset acts s) := by
  have hstart : (consumerSpec pollConfig completedLog).Allows s (.start place .consumer
      (pollLoop pollConfig completedLog 1 (positionAt kafkaOffset))) :=
    ⟨hfree, 1, positionAt kafkaOffset, positionAt_le hcommitted, rfl⟩
  exact reachable_actsAt (fun _ _ => trivial) pollEnv acts
    (reachable_pollsAt (fun _ _ => trivial) h hstart)

theorem twicePool_reachable : (consumerSpec pollConfig completedLog).lts.Reachable twicePool := by
  have hempty : (consumerSpec pollConfig completedLog).lts.Reachable { world := .empty } :=
    .of_init ⟨rfl, rfl⟩
  have hstarted : (consumerSpec pollConfig completedLog).lts.Reachable startedPool :=
    reachable_takesRecord 0 7 hempty rfl (Nat.zero_le _)
  have hfree : ∀ place, place ≠ 0 → startedPool.tasks place = none := by
    intro place hne
    rw [startedPool, takesRecord, tasks_actsAt hne, tasks_pollsAt hne]
  have hlooked : (consumerSpec pollConfig completedLog).lts.Reachable lookedPool :=
    reachable_takesRecord 1 3 hstarted (hfree 1 (by decide)) twicePool_world.1.1.ge
  have hlookedFree : lookedPool.tasks 2 = none := by
    rw [lookedPool, takesRecord, tasks_actsAt (by decide), tasks_pollsAt (by decide)]
    exact hfree 2 (by decide)
  exact reachable_actsAt (fun _ _ => trivial) pollEnv 2
    (reachable_takesRecord 2 7 hlooked hlookedFree twicePool_world.1.2.ge)

/-- The event is applied once, though it is rejected too; the rejection was of an event that was
applied, and the row of the job is that of its end. -/
theorem ordered_delivery_overlapped :
    effectCount allowedConsumerId jobCompleted.eventId twicePool.world.history = 1 ∧
    (∃ earlier ∈ [⟨allowedConsumerId, jobCreated, 0, true⟩,
        (⟨allowedConsumerId, jobCompleted, 0, true⟩ : Decision)],
      earlier.applied = true ∧ earlier.event.eventId = jobCompleted.eventId) ∧
    effectCount allowedConsumerId jobCreated.eventId twicePool.world.history = 1 ∧
    LatestRow twicePool.world retryEvent.aggregateId := by
  obtain ⟨-, hcommitted, hhistory⟩ := twicePool_world
  obtain ⟨-, hrejected, -, hdone, -, -, hlatest⟩ := ordered_delivery pollConfig completedLog
    completedLog_ordered completedLog_retains twicePool twicePool_reachable
  have honly : OnePartition pollConfig completedLog := fun _ _ _ hholds =>
    (holdsEvent_completedLog.1 hholds).1
  refine ⟨?_, ?_, ?_, hlatest honly _⟩
  · exact hdone 0 1 jobCompleted (by rw [hcommitted]; decide)
      (holdsEvent_completedLog.2 ⟨rfl, .inr ⟨rfl, rfl⟩⟩)
  · exact hrejected _ ⟨allowedConsumerId, jobCompleted, 0, false⟩ [] (by rw [hhistory]; rfl) rfl
  · exact hdone 0 0 jobCreated (by rw [hcommitted]; decide)
      (holdsEvent_completedLog.2 ⟨rfl, .inl ⟨rfl, rfl⟩⟩)

end Atlas
