/-
**From the jobs to the projection.**

The whole way of an event: a transaction of the system enqueues it under the lock on its job's row
and draws a position, the row appears when the transaction commits, the relay publishes the row, and
the consumers apply the record.  The system and the relay share the table of events; in the pipeline
they run side by side, and a transaction that writes an event commits in both.  The relay claims one
row at a time, as its executable has it do.

No part keeps the order of all events: positions are seen out of order, messages are stored again,
and records are delivered again.  But the events of one job reach the projection in the order their
transactions committed in, each of them once, and no terminal event of a job is ever in the way of
another event.

Main definitions:

* `Atlas.PipelineState`, `Atlas.pipeline` — the system and the relay, side by side;
* `Atlas.Carries` — a topic that carries the log of the relay;
* `Atlas.PipelineSound` — what holds of every reachable state;
* `Atlas.EndAnnounced` — the events of a job say how it ended.

Main results:

* `Atlas.lifecycleLog_of_carries` — **the relay's log is in lifecycle order**;
* `Atlas.prefix_of_inTurn` — decisions that are in turn follow the commits of a job;
* `Atlas.end_to_end` — **what consumers apply of a job is a prefix of its events**, and all of them
  when all are delivered;
* `Atlas.ends_announced` — the end of a job is announced by its last event, unless an operator
  rejected it.
-/

import Atlas.JobHistory
import Atlas.JobOrder
import Atlas.LifecycleDelivery

set_option relaxedAutoImplicit false
set_option autoImplicit false

namespace Atlas

/-! ### The pipeline -/

/-- The events of the outbox, in the order of their commits. -/
def World.events (w : World) : List DomainEvent := w.outbox.rows.map (·.event)

/-- The events of a job, in the order of their commits. -/
def World.jobEvents (w : World) (jobId : String) : List DomainEvent :=
  (w.outbox.eventsOf jobId).map (·.event)

/-- The system, and the relay with the rows of open transactions. -/
structure PipelineState where
  system : SystemState := {}
  relay : RelayState := {}

inductive PipelineAction where
  /-- An action of the system that commits no event. -/
  | quiet (action : SystemAction)
  /-- An action of the system that commits an event, with the row that was inserted for it. -/
  | commit (action : SystemAction) (row : OutboxRow)
  /-- An action of the relay, or of a transaction that is open. -/
  | relay (action : RelayAction)

/-- What is inserted is an event that was built, of identifiers that fit their columns. -/
def DrawsBuilt (action : RelayAction) : Prop :=
  ∀ event traceparent, action = .insert event traceparent →
    BuiltEvent event ∧ ShortIdentifiers event

namespace PipelineState

def apply (s : PipelineState) : PipelineAction → PipelineState
  | .quiet action => { s with system := s.system.apply action }
  | .commit action row => ⟨s.system.apply action, s.relay.apply (.commit row)⟩
  | .relay action => { s with relay := s.relay.apply action }

/-- When an action can be taken.  The row of an event appears with the transaction that wrote it;
inserts hold the lock on their job's row, and a claim is of one row. -/
def Allows (s : PipelineState) : PipelineAction → Prop
  | .quiet action => s.system.Allows action ∧
      (s.system.apply action).world.events = s.system.world.events
  | .commit action row => s.system.Allows action ∧ s.relay.Allows (.commit row) ∧
      (s.system.apply action).world.events = s.system.world.events ++ [row.event]
  | .relay action => s.relay.Allows action ∧ (∀ row, action ≠ .commit row) ∧
      RowLocked s.relay action ∧ SingleRow s.relay action ∧ DrawsBuilt action

end PipelineState

/-- The transition system of the pipeline. -/
def pipeline : Lts PipelineState PipelineAction where
  init s := s = {}
  step s action s' := s.Allows action ∧ s' = s.apply action

/-! ### Reachable states -/

/-- **What holds of every reachable state**: the system and the relay are in states they can reach,
they have the same events in the same order, and these were built. -/
structure PipelineSound (s : PipelineState) : Prop where
  reachable : system.Reachable s.system
  relayed : (relay.restrict fun s action _ => RowLocked s action ∧ SingleRow s action).Reachable
    s.relay
  mirror : s.relay.outbox.rows.map (·.event) = s.system.world.events
  built : ∀ row ∈ s.relay.drawn.rows, BuiltEvent row.event ∧ ShortIdentifiers row.event

section Pipeline

variable {s s' : PipelineState} {action : PipelineAction} {jobId : String}

/-- A step of the relay that commits nothing leaves the events of the committed rows. -/
theorem events_of_step {r r' : RelayState} {action : RelayAction} (h : relay.step r action r')
    (hcommit : ∀ row, action ≠ .commit row) :
    r'.outbox.rows.map (·.event) = r.outbox.rows.map (·.event) := by
  rcases rows_of_step h with ⟨row, -, haction, -⟩ | ⟨change, hrows, hchange⟩
  · exact absurd haction (hcommit row)
  · rw [hrows, List.map_map]
    exact List.map_congr_left fun row hrow => (hchange row hrow).fixed.1

/-- What is drawn was built. -/
theorem built_of_step {r r' : RelayState} {action : RelayAction} (h : relay.step r action r')
    (hbuilt : ∀ row ∈ r.drawn.rows, BuiltEvent row.event ∧ ShortIdentifiers row.event)
    (hdraws : DrawsBuilt action) :
    ∀ row ∈ r'.drawn.rows, BuiltEvent row.event ∧ ShortIdentifiers row.event := by
  intro row hrow
  rcases drawn_of_step h with ⟨new, ⟨traceparent, haction⟩, hrows, hinserted, -⟩ | ⟨-, -, hkeys⟩
  · simp only [RelayState.drawn, hrows, hinserted, ← List.append_assoc, List.mem_append,
      List.mem_singleton] at hrow
    rcases hrow with hrow | rfl
    · exact hbuilt row (List.mem_append.2 hrow)
    · exact hdraws row.event traceparent haction
  · obtain ⟨known, hknown, hkey⟩ := List.mem_map.1 (hkeys.subset (List.mem_map_of_mem hrow))
    rw [← show known.event = row.event from congrArg Prod.fst hkey]
    exact hbuilt known hknown

theorem pipelineSound_of_step (hs : PipelineSound s) (h : pipeline.step s action s') :
    PipelineSound s' := by
  obtain ⟨hallows, rfl⟩ := h
  cases action with
  | quiet action =>
      exact ⟨hs.reachable.step ⟨hallows.1, rfl⟩, hs.relayed, hs.mirror.trans hallows.2.symm,
        hs.built⟩
  | commit action row =>
      obtain ⟨hsystem, hcommit, hevents⟩ := hallows
      have hstep : relay.step s.relay (.commit row) (s.relay.apply (.commit row)) := ⟨hcommit, rfl⟩
      have hlocked : RowLocked s.relay (.commit row) := by
        intro event traceparent haction
        cases haction
      have hsingle : SingleRow s.relay (.commit row) := by
        intro args haction
        cases haction
      have hdraws : DrawsBuilt (.commit row) := by
        intro event traceparent haction
        cases haction
      refine ⟨hs.reachable.step ⟨hsystem, rfl⟩, hs.relayed.step ⟨hstep, hlocked, hsingle⟩, ?_,
        built_of_step hstep hs.built hdraws⟩
      have hrows : (s.relay.outbox.rows ++ [row]).map (·.event)
          = s.system.world.events ++ [row.event] := by
        rw [List.map_append, hs.mirror, List.map_singleton]
      exact hrows.trans hevents.symm
  | relay action =>
      obtain ⟨hrelay, hcommit, hlocked, hsingle, hdraws⟩ := hallows
      have hstep : relay.step s.relay action (s.relay.apply action) := ⟨hrelay, rfl⟩
      exact ⟨hs.reachable, hs.relayed.step ⟨hstep, hlocked, hsingle⟩,
        (events_of_step hstep hcommit).trans hs.mirror, built_of_step hstep hs.built hdraws⟩

theorem sound_of_pipeline (h : pipeline.Reachable s) : PipelineSound s := by
  refine h.invariant (I := PipelineSound) ?_ fun _ _ _ => pipelineSound_of_step
  rintro s₀ rfl
  exact ⟨.of_init rfl, .of_init rfl, rfl, by simp [RelayState.drawn]⟩

/-- The rows of a job are those of its events. -/
theorem PipelineSound.jobEvents (hs : PipelineSound s) (jobId : String) :
    s.system.world.jobEvents jobId
      = (s.relay.outbox.rows.filter (·.event.aggregateId = jobId)).map (·.event) := by
  have hfilter (rows : List OutboxRow) : (rows.filter (·.event.aggregateId = jobId)).map (·.event)
      = (rows.map (·.event)).filter (·.aggregateId = jobId) := by
    rw [List.filter_map]
    rfl
  rw [World.jobEvents, Outbox.eventsOf, hfilter, hfilter, hs.mirror, World.events]

/-- **A terminal event of a job comes after its other events.** -/
theorem PipelineSound.before_terminal (hs : PipelineSound s) {row other : OutboxRow}
    (hrow : row ∈ s.relay.outbox.rows) (hother : other ∈ s.relay.outbox.rows)
    (hterminal : row.event.type.Terminal)
    (hjob : other.event.aggregateId = row.event.aggregateId)
    (hne : other.event.eventId ≠ row.event.eventId) : Before other.key row.key := by
  have hordered := (jobOrdered_of_single hs.relayed).2
  obtain ⟨before, after, hrows⟩ := List.append_of_mem hrow
  have hpairs := hordered.rows
  rw [hrows] at hother hpairs
  rcases List.mem_append.1 hother with hbefore | hafter
  · exact ⟨hjob, (List.pairwise_append.1 hpairs).2.2 other hbefore row List.mem_cons_self hjob⟩
  · rcases List.mem_cons.1 hafter with rfl | hafter
    · exact absurd rfl hne
    · -- nothing of the job follows its terminal event
      have htold := told_of_journal (journal_of_reachable hs.reachable row.event.aggregateId)
      have hjournal : s.system.world.journalOf row.event.aggregateId
          = (s.system.world.jobEvents row.event.aggregateId).map DomainEvent.type := by
        rw [World.journalOf, World.jobEvents, List.map_map]
        rfl
      rw [hs.jobEvents, hrows, List.filter_append, List.filter_cons_of_pos (by simp),
        List.map_append, List.map_append, List.map_cons, List.map_cons] at hjournal
      have hnothing := htold.nothing_after hjournal hterminal
      have hfound : other.event.type ∈ ((after.filter
          (·.event.aggregateId = row.event.aggregateId)).map (·.event)).map DomainEvent.type := by
        refine List.mem_map_of_mem (List.mem_map_of_mem (List.mem_filter.2 ⟨hafter, ?_⟩))
        exact decide_eq_true hjob
      rw [hnothing] at hfound
      cases hfound

/-! ### The topic -/

/-- A topic that carries the deliveries in its only partition: where nothing was stored, no event is
found. -/
structure Carries (cfg : ConsumerConfig) (deliveries : List Delivery)
    (log : ℕ → ℕ → KafkaMessage) : Prop where
  stored : ∀ offset delivery, deliveries[offset]? = some delivery →
    ∃ traceparent, log 0 offset = publishedMessage cfg.pydantic delivery.event traceparent
  nothing : ∀ kafkaPartition kafkaOffset, kafkaPartition ≠ 0 ∨ deliveries.length ≤ kafkaOffset →
    ∀ event, ¬ HoldsEvent cfg log kafkaPartition kafkaOffset event

variable {cfg : ConsumerConfig} {log : ℕ → ℕ → KafkaMessage} {kafkaPartition kafkaOffset : ℕ}
  {event : DomainEvent} {history : List Decision}

/-- The row of a message. -/
theorem PipelineSound.row_of_delivery (hs : PipelineSound s) {delivery : Delivery}
    (hdelivery : delivery ∈ s.relay.log) :
    ∃ row ∈ s.relay.outbox.rows, row.key = delivery.key :=
  (jobOrdered_of_single hs.relayed).1.logged.known delivery hdelivery

/-- An event has one row. -/
theorem PipelineSound.eq_of_event (hs : PipelineSound s) {row other : OutboxRow}
    (hrow : row ∈ s.relay.outbox.rows) (hother : other ∈ s.relay.outbox.rows)
    (hid : row.event.eventId = other.event.eventId) : row = other :=
  (jobOrdered_of_single hs.relayed).1.sound.1.eq_of_event hrow hother hid

/-- **What the consumers find in the topic are the events of the log**: every message is decoded. -/
theorem Carries.holdsEvent_iff (h : Carries cfg s.relay.log log) (hp : cfg.pydantic.Faithful)
    (hlimit : 2 ≤ cfg.recursionLimit) (hs : PipelineSound s) :
    HoldsEvent cfg log kafkaPartition kafkaOffset event ↔
      kafkaPartition = 0 ∧ ∃ delivery, s.relay.log[kafkaOffset]? = some delivery ∧
        delivery.event = event := by
  have hdecoded : ∀ delivery, s.relay.log[kafkaOffset]? = some delivery →
      HoldsEvent cfg log 0 kafkaOffset delivery.event := by
    intro delivery hdelivery
    obtain ⟨row, hrow, hkey⟩ := hs.row_of_delivery (List.mem_of_getElem? hdelivery)
    obtain ⟨hbuilt, hshort⟩ := hs.built row (mem_drawn hrow)
    have hevent : row.event = delivery.event := congrArg Prod.fst hkey
    rw [hevent] at hbuilt hshort
    obtain ⟨traceparent, hmessage⟩ := h.stored kafkaOffset delivery hdelivery
    refine ⟨traceparent, ?_⟩
    rw [hmessage]
    exact decodeMessage_publishedMessage hp hlimit hbuilt.encodable
      (serializeDomainEvent_bytes hp hbuilt.encodable hshort) traceparent
  constructor
  · intro hholds
    have hin : ¬ (kafkaPartition ≠ 0 ∨ s.relay.log.length ≤ kafkaOffset) :=
      fun hno => h.nothing _ _ hno event hholds
    rw [not_or, not_not, not_le] at hin
    obtain ⟨rfl, hlt⟩ := hin
    have hdelivery := List.getElem?_eq_getElem hlt
    exact ⟨rfl, _, hdelivery, (hdecoded _ hdelivery).unique hholds⟩
  · rintro ⟨rfl, delivery, hdelivery, rfl⟩
    exact hdecoded delivery hdelivery

/-- The message and the row of an event that is found. -/
theorem Carries.row_of_holdsEvent (h : Carries cfg s.relay.log log) (hp : cfg.pydantic.Faithful)
    (hlimit : 2 ≤ cfg.recursionLimit) (hs : PipelineSound s)
    (hholds : HoldsEvent cfg log kafkaPartition kafkaOffset event) :
    kafkaPartition = 0 ∧ ∃ delivery row, s.relay.log[kafkaOffset]? = some delivery ∧
      row ∈ s.relay.outbox.rows ∧ row.key = delivery.key ∧ row.event = event := by
  obtain ⟨hpartition, delivery, hdelivery, rfl⟩ := (h.holdsEvent_iff hp hlimit hs).1 hholds
  obtain ⟨row, hrow, hkey⟩ := hs.row_of_delivery (List.mem_of_getElem? hdelivery)
  exact ⟨hpartition, delivery, row, hdelivery, hrow, hkey, congrArg Prod.fst hkey⟩

/-- The earlier events of a job are found before its later ones. -/
theorem Carries.earlier (h : Carries cfg s.relay.log log) (hp : cfg.pydantic.Faithful)
    (hlimit : 2 ≤ cfg.recursionLimit) (hs : PipelineSound s) {delivery : Delivery} {row : OutboxRow}
    (hdelivery : s.relay.log[kafkaOffset]? = some delivery) (hrow : row ∈ s.relay.outbox.rows)
    (hbefore : Before row.key delivery.key) :
    ∃ earlier < kafkaOffset, HoldsEvent cfg log 0 earlier row.event := by
  obtain ⟨earlier, hlt, other, hother, hkey⟩ :=
    (jobOrdered_of_single hs.relayed).2.log_earlier hdelivery hrow hbefore
  refine ⟨earlier, hlt, (h.holdsEvent_iff hp hlimit hs).2 ⟨rfl, other, hother, ?_⟩⟩
  exact congrArg Prod.fst hkey

theorem Carries.onePartition (h : Carries cfg s.relay.log log) : OnePartition cfg log := by
  intro kafkaPartition kafkaOffset event hholds
  by_contra hne
  exact h.nothing kafkaPartition kafkaOffset (.inl hne) event hholds

/-- **The log of the relay is in lifecycle order.** -/
theorem lifecycleLog_of_carries (h : Carries cfg s.relay.log log) (hp : cfg.pydantic.Faithful)
    (hlimit : 2 ≤ cfg.recursionLimit) (hs : PipelineSound s) : LifecycleLog cfg log := by
  intro kafkaPartition kafkaOffset event hholds hterminal kafkaPartition' kafkaOffset' other hother
    hjob hne
  obtain ⟨rfl, delivery, row, hdelivery, hrow, hkey, rfl⟩ :=
    h.row_of_holdsEvent hp hlimit hs hholds
  obtain ⟨rfl, -, row', -, hrow', -, rfl⟩ := h.row_of_holdsEvent hp hlimit hs hother
  have hbefore := hs.before_terminal hrow hrow' hterminal hjob hne
  rw [hkey] at hbefore
  obtain ⟨earlier, hlt, hfound⟩ := h.earlier hp hlimit hs hdelivery hrow' hbefore
  exact ⟨earlier, hlt, row'.event, hfound, rfl⟩

/-- What is dead-lettered of the log is retained as it is. -/
theorem Carries.retainsEvents (h : Carries cfg s.relay.log log) (hp : cfg.pydantic.Faithful)
    (hlimit : 2 ≤ cfg.recursionLimit) (hs : PipelineSound s) : RetainsEvents cfg log := by
  refine retainsEvents_of_faithful hp hlimit ?_
  intro kafkaPartition kafkaOffset event hholds
  obtain ⟨-, -, row, -, hrow, -, rfl⟩ := h.row_of_holdsEvent hp hlimit hs hholds
  exact (hs.built row (mem_drawn hrow)).1.encodable

/-! ### The events of a job -/

theorem InTurn.of_append {more : List Decision} (h : InTurn cfg log (history ++ more)) :
    InTurn cfg log history := by
  intro before d after hsplit
  refine h before d (after ++ more) ?_
  rw [hsplit, List.append_assoc, List.cons_append]

/-- The events of a job, among decisions. -/
def decidedEvents (history : List Decision) (jobId : String) : List DomainEvent :=
  (history.filter (·.event.aggregateId = jobId)).map (·.event)

theorem mem_decidedEvents :
    event ∈ decidedEvents history jobId ↔
      event.aggregateId = jobId ∧ ∃ d ∈ history, d.event = event := by
  simp only [decidedEvents, List.mem_map, List.mem_filter, decide_eq_true_eq]
  constructor
  · rintro ⟨d, ⟨hd, hjob⟩, rfl⟩
    exact ⟨hjob, d, hd, rfl⟩
  · rintro ⟨hjob, d, hd, rfl⟩
    exact ⟨d, ⟨hd, hjob⟩, rfl⟩

/-- An event that was decided on has a row. -/
theorem InTurn.row (hturn : InTurn cfg log history) (h : Carries cfg s.relay.log log)
    (hp : cfg.pydantic.Faithful) (hlimit : 2 ≤ cfg.recursionLimit) (hs : PipelineSound s)
    {d : Decision} (hd : d ∈ history) : ∃ row ∈ s.relay.outbox.rows, row.event = d.event := by
  obtain ⟨before, after, hsplit⟩ := List.append_of_mem hd
  obtain ⟨-, kafkaPartition, kafkaOffset, hholds, -⟩ := hturn before d after hsplit
  obtain ⟨-, -, row, -, hrow, -, hevent⟩ := h.row_of_holdsEvent hp hlimit hs hholds
  exact ⟨row, hrow, hevent⟩

theorem PipelineSound.jobEvents_nodup (hs : PipelineSound s) (jobId : String) :
    (s.system.world.jobEvents jobId).Nodup := by
  have hseq := (jobOrdered_of_single hs.relayed).1.sound.1
  have hrows : (s.relay.outbox.rows.map (·.event.eventId)).Nodup := by
    have hevents := hseq.events
    rw [RelayState.drawn, List.map_append] at hevents
    exact hevents.of_append_left
  rw [hs.jobEvents]
  refine List.Nodup.of_map DomainEvent.eventId ?_
  rw [List.map_map]
  exact hrows.sublist (List.filter_sublist.map _)

/-- **What is decided on in turn of a job is a prefix of its events.** -/
theorem prefix_of_inTurn (h : Carries cfg s.relay.log log) (hp : cfg.pydantic.Faithful)
    (hlimit : 2 ≤ cfg.recursionLimit) (hs : PipelineSound s) (hturn : InTurn cfg log history)
    (jobId : String) : decidedEvents history jobId <+: s.system.world.jobEvents jobId := by
  induction history using List.reverseRecOn with
  | nil => exact List.nil_prefix
  | append_singleton history d ih =>
      have hprefix := ih hturn.of_append
      by_cases hjob : d.event.aggregateId = jobId
      · obtain ⟨hfresh, kafkaPartition, kafkaOffset, hholds, hbefore⟩ := hturn history d [] rfl
        obtain ⟨rfl, delivery, row, hdelivery, hrow, hkey, hevent⟩ :=
          h.row_of_holdsEvent hp hlimit hs hholds
        obtain ⟨front, rest, hrows⟩ := List.append_of_mem hrow
        have hsplit : s.system.world.jobEvents jobId
            = (front.filter (·.event.aggregateId = jobId)).map (·.event) ++ d.event ::
                (rest.filter (·.event.aggregateId = jobId)).map (·.event) := by
          rw [hs.jobEvents, hrows, List.filter_append,
            List.filter_cons_of_pos (by simp [hevent, hjob]), List.map_append, List.map_cons,
            hevent]
        have hnodup := hs.jobEvents_nodup jobId
        rw [hsplit] at hprefix hnodup ⊢
        have hsnoc : decidedEvents (history ++ [d]) jobId
            = decidedEvents history jobId ++ [d.event] := by
          simp [decidedEvents, List.filter_append, hjob]
        rw [hsnoc]
        refine HeadOfLine.prefix_snoc hnodup hprefix ?_ ?_
        · intro hmem
          obtain ⟨-, d', hd', hsame⟩ := mem_decidedEvents.1 hmem
          exact hfresh d' hd' (congrArg DomainEvent.eventId hsame)
        · -- an earlier event of the job was found before, and decided on
          intro event hmem
          obtain ⟨other, hother, rfl⟩ := List.mem_map.1 hmem
          obtain ⟨hfront, hotherJob⟩ := List.mem_filter.1 hother
          have hotherJob : other.event.aggregateId = jobId := of_decide_eq_true hotherJob
          have hpairs := (jobOrdered_of_single hs.relayed).2.rows
          rw [hrows] at hpairs
          have hin : other ∈ s.relay.outbox.rows := by
            rw [hrows]
            exact List.mem_append_left _ hfront
          have hsame : other.event.aggregateId = row.event.aggregateId := by
            rw [hotherJob, hevent, hjob]
          have hlt := (List.pairwise_append.1 hpairs).2.2 other hfront row List.mem_cons_self hsame
          have hless : Before other.key delivery.key := hkey ▸ ⟨hsame, hlt⟩
          obtain ⟨earlier, hearlier, hfound⟩ := h.earlier hp hlimit hs hdelivery hin hless
          obtain ⟨d', hd', hid⟩ := hbefore earlier hearlier other.event hfound
          obtain ⟨known, hknown, hknownEvent⟩ := hturn.of_append.row h hp hlimit hs hd'
          have hknownRow : known = other :=
            hs.eq_of_event hknown hin (by rw [hknownEvent, hid])
          refine mem_decidedEvents.2 ⟨hotherJob, d', hd', ?_⟩
          rw [← hknownEvent, hknownRow]
      · have hsnoc : decidedEvents (history ++ [d]) jobId = decidedEvents history jobId := by
          simp [decidedEvents, List.filter_append, hjob]
        rw [hsnoc]
        exact hprefix

/-! ### The whole way -/

/-- **When all events of a job are delivered, all were applied.** -/
theorem decidedEvents_eq (h : Carries cfg s.relay.log log) (hp : cfg.pydantic.Faithful)
    (hlimit : 2 ≤ cfg.recursionLimit) (hs : PipelineSound s) {w : ConsumerWorld}
    (hsound : ConsumerSound cfg log w) (horder : DeliveredInOrder cfg log w)
    (hpublished : ∀ row ∈ s.relay.outbox.rows, row.event.aggregateId = jobId →
      row.publishedAt ≠ none)
    (hcommitted : s.relay.log.length ≤ w.committed 0) :
    decidedEvents w.applied jobId = s.system.world.jobEvents jobId := by
  have hprefix := prefix_of_inTurn h hp hlimit hs horder.turns jobId
  refine hprefix.eq_of_length_le (List.Nodup.subperm (hs.jobEvents_nodup jobId) ?_).length_le
  intro event hevent
  rw [hs.jobEvents] at hevent
  obtain ⟨row, hrow, rfl⟩ := List.mem_map.1 hevent
  obtain ⟨hrow, hjob⟩ := List.mem_filter.1 hrow
  have hjob : row.event.aggregateId = jobId := of_decide_eq_true hjob
  -- the row was marked, so the broker has its message
  obtain ⟨delivery, hdelivery, hkey, -⟩ :=
    (jobOrdered_of_single hs.relayed).1.logged.marked row hrow (hpublished row hrow hjob)
  obtain ⟨offset, hoffset⟩ := List.mem_iff_getElem?.1 hdelivery
  obtain ⟨hlt, -⟩ := List.getElem?_eq_some_iff.1 hoffset
  have hholds : HoldsEvent cfg log 0 offset row.event :=
    (h.holdsEvent_iff hp hlimit hs).2 ⟨rfl, delivery, hoffset, congrArg Prod.fst hkey⟩
  have hcovered := hsound.committed 0 offset (Nat.lt_of_lt_of_le hlt hcommitted)
  have hinbox := horder.absorbed hcovered hholds
  obtain ⟨d, hd, hid⟩ := horder.inbox _ hinbox
  obtain ⟨known, hknown, hknownEvent⟩ := horder.turns.row h hp hlimit hs hd
  have hsame : known = row := hs.eq_of_event hknown hrow (by rw [hknownEvent, hid])
  exact mem_decidedEvents.2 ⟨hjob, d, hd, by rw [← hknownEvent, hsame]⟩

/-- The latest row of a job is that of the last event that was applied. -/
theorem LatestRow.of_getLast {w : ConsumerWorld} (h : LatestRow w jobId)
    (hlast : (decidedEvents w.applied jobId).getLast? = some event) :
    ∃ at_, w.db.projection.lookup jobId = some (projectionOf event at_) := by
  rw [decidedEvents, List.getLast?_map, Option.map_eq_some_iff] at hlast
  obtain ⟨d, hd, rfl⟩ := hlast
  refine ⟨d.at_, ?_⟩
  rw [h, hd, Option.map_some]

/-- **From the jobs to the projection.**  However the transactions of the system, the relays, the
consumers and the operators interleave, and wherever they are stopped: an event is rejected, and its
record dead-lettered, only when it was applied before; what was applied of a job is a prefix of its
events, in the order of their commits, and the row of the job is that of the last one applied; and
once the rows of a job are marked and the consumers' group has committed the log, all its events were
applied, and its row is that of the last one. -/
theorem end_to_end (hp : cfg.pydantic.Faithful) (hlimit : 2 ≤ cfg.recursionLimit)
    (h : pipeline.Reachable s) (hlog : Carries cfg s.relay.log log)
    {p : Pool ConsumerEnv ConsumerWorld ConsumerExc Unit ConsumerTask}
    (hpool : (consumerSpec cfg log).lts.Reachable p) :
    (∀ before d after, p.world.history = before ++ d :: after → d.applied = false →
      ∃ earlier ∈ before, earlier.applied = true ∧ earlier.event.eventId = d.event.eventId) ∧
    (∀ id row delivery, p.world.db.deadLetters.lookup id = some row → row.kafkaPartition = 0 →
      s.relay.log[row.kafkaOffset]? = some delivery →
        effectCount cfg.consumerId delivery.event.eventId p.world.history = 1) ∧
    (∀ jobId, decidedEvents p.world.applied jobId <+: s.system.world.jobEvents jobId ∧
      LatestRow p.world jobId) ∧
    ∀ jobId, (∀ row ∈ s.relay.outbox.rows, row.event.aggregateId = jobId →
        row.publishedAt ≠ none) →
      s.relay.log.length ≤ p.world.committed 0 →
        decidedEvents p.world.applied jobId = s.system.world.jobEvents jobId ∧
          ∀ event ∈ (s.system.world.jobEvents jobId).getLast?, ∃ at_,
            p.world.db.projection.lookup jobId = some (projectionOf event at_) := by
  have hs := sound_of_pipeline h
  have hlifecycle := lifecycleLog_of_carries hlog hp hlimit hs
  have hretains := hlog.retainsEvents hp hlimit hs
  obtain ⟨hsound, horder⟩ :=
    (PoolSpec.complies_of_reachable (ordered_conduct hlifecycle hretains) hpool).world
  refine ⟨horder.rejected, ?_, fun jobId => ⟨?_, ?_⟩, ?_⟩
  · intro id row delivery hrow hpartition hdelivery
    refine hsound.effects.applied ((horder.letters id row hrow).2 delivery.event ?_)
    exact (hlog.holdsEvent_iff hp hlimit hs).2 ⟨hpartition, delivery, hdelivery, rfl⟩
  · exact prefix_of_inTurn hlog hp hlimit hs horder.turns jobId
  · exact horder.latest hlog.onePartition jobId
  · intro jobId hpublished hcommitted
    have hall := decidedEvents_eq hlog hp hlimit hs hsound horder hpublished hcommitted
    refine ⟨hall, fun event hevent => ?_⟩
    rw [← hall] at hevent
    exact (horder.latest hlog.onePartition jobId).of_getLast hevent

end Pipeline

/-! ### How a job ended -/

section Ends

variable {w : World} {jobId : String} {row row' : ResearchJobRow} {s s' : SystemState}
  {action : SystemAction}

/-- The events of a job say how it ended: it has the one terminal event of its status and no other,
and none while it has not ended, and no event of it was enqueued after a terminal one. -/
structure EndAnnounced (w : World) (jobId : String) (row : ResearchJobRow) : Prop where
  completed : (w.journalOf jobId).count .completed = if row.status = .completed then 1 else 0
  failed : (w.journalOf jobId).count .failed = if row.status = .failed then 1 else 0
  last : ∀ before type after, w.journalOf jobId = before ++ type :: after → type.Terminal →
    after = []

/-- A job has ended. -/
def ResearchJobStatus.Ended (status : ResearchJobStatus) : Prop :=
  status = .completed ∨ status = .failed

/-- Only an operator ends a job without an event. -/
theorem endAnnounced_iff (h : system.Reachable s) (hrow : s.world.jobs.lookup jobId = some row) :
    EndAnnounced s.world jobId row ↔ s.world.rejected jobId = false := by
  have htold := told_of_journal (journal_of_reachable h jobId)
  rw [stageOf_of_row hrow] at htold
  constructor
  · intro hannounced
    by_contra hrejected
    rw [Bool.not_eq_false] at hrejected
    -- a rejected job is FAILED, and has no event that says so
    have hstatus : row.status = .failed := by
      by_contra hopen
      rw [(rejections_of_reachable h).not_rejected hrow hopen] at hrejected
      cases hrejected
    have hcount := htold.failed.symm.trans hannounced.failed
    simp [ResearchJobRow.phase, hstatus, hrejected] at hcount
  · intro hrejected
    refine ⟨?_, ?_, fun before type after hsplit hterminal => htold.nothing_after hsplit hterminal⟩
    · simpa [row.phase_eq_completed] using htold.completed
    · simpa [row.phase_eq_failed, hrejected] using htold.failed

/-- The step that ends a job appends the event of its end, or is an operator's. -/
theorem appends_iff_of_step (h : system.Reachable s) (hstep : system.step s action s')
    (hrow : s.world.jobs.lookup jobId = some row) (hrow' : s'.world.jobs.lookup jobId = some row')
    (hopen : ¬ row.status.Ended) (hended : row'.status.Ended) :
    (∃ type : EventType, type.Terminal ∧ type.status = row'.status ∧
        s'.world.journalOf jobId = s.world.journalOf jobId ++ [type]) ↔
      s'.world.rejected jobId = false := by
  have hrejections := rejections_of_reachable (h.step hstep)
  have hnone (type : EventType) : s.world.journalOf jobId ≠ s.world.journalOf jobId ++ [type] := by
    simp
  -- the phases before and after the step
  have hphase : (s.world.stageOf jobId).phase = .underway ∨
      (s.world.stageOf jobId).phase = .inReview := by
    rw [stageOf_of_row hrow, ResearchJobRow.phase]
    cases hstatus : row.status with
    | pending | running => exact .inl rfl
    | awaitingReview => exact .inr rfl
    | completed => exact absurd (.inl hstatus) hopen
    | failed => exact absurd (.inr hstatus) hopen
  have hphase' : (s'.world.stageOf jobId).phase = row'.phase (s'.world.rejected jobId) := by
    rw [stageOf_of_row hrow']
  have hnot : row'.phase (s'.world.rejected jobId) ≠ .underway ∧
      row'.phase (s'.world.rejected jobId) ≠ .inReview := by
    rw [ResearchJobRow.phase]
    rcases hended with hstatus | hstatus <;>
      cases s'.world.rejected jobId <;> simp [hstatus]
  have hobserves : jobLife.Observes (s.world.stageOf jobId) (s.world.journalOf jobId)
      (s'.world.stageOf jobId) (s'.world.journalOf jobId) := observes_of_step h hstep
  cases hobserves with
  | same hs hes =>
      rw [← hphase', hs] at hnot
      exact absurd hphase (not_or.2 hnot)
  | silent hmove hes =>
      generalize hbefore : s.world.stageOf jobId = before at hmove
      generalize hafter : s'.world.stageOf jobId = after at hmove
      rw [hafter] at hphase'
      cases hmove with
      | approve => exact absurd hphase'.symm hnot.1
      | reject =>
          rw [hes]
          have hrejected : s'.world.rejected jobId = true := by
            by_contra hfalse
            rw [Bool.not_eq_true] at hfalse
            rw [hfalse, ResearchJobRow.phase] at hphase'
            rcases hended with hstatus | hstatus <;> simp [hstatus] at hphase'
          rw [hrejected]
          constructor
          · rintro ⟨type, -, -, hsame⟩
            exact absurd hsame (hnone type)
          · exact fun hfalse => Bool.noConfusion hfalse
  | entry type hmove hes =>
      generalize hbefore : s.world.stageOf jobId = before at hmove
      generalize hafter : s'.world.stageOf jobId = after at hmove
      rw [hbefore] at hphase
      rw [hafter] at hphase'
      cases hmove with
      | submit => simp at hphase
      | retry => exact absurd hphase'.symm hnot.1
      | pause => exact absurd hphase'.symm hnot.2
      | complete =>
          have hstatus := (row'.phase_eq_completed _).1 hphase'.symm
          have hfree := hrejections.not_rejected hrow' (by rw [hstatus]; decide)
          exact ⟨fun _ => hfree, fun _ => ⟨.completed, .inl rfl, hstatus.symm, hes⟩⟩
      | fail =>
          obtain ⟨hstatus, hfree⟩ := (row'.phase_eq_failed _).1 hphase'.symm
          exact ⟨fun _ => hfree, fun _ => ⟨.failed, .inr rfl, hstatus.symm, hes⟩⟩

/-- **The end of a job is announced unless an operator rejected it.**  In every reachable state the
events of a job say how it ended exactly if no review rejected it; the step that ends it appends the
event exactly if it is no rejection; and a terminal event has the highest position of its job's. -/
theorem ends_announced {s : SystemState} {jobId : String} {row : ResearchJobRow}
    (h : system.Reachable s) (hrow : s.world.jobs.lookup jobId = some row) :
    (EndAnnounced s.world jobId row ↔ s.world.rejected jobId = false) ∧
    (∀ action s' row', system.step s action s' → s'.world.jobs.lookup jobId = some row' →
      ¬ row.status.Ended → row'.status.Ended →
        ((∃ type : EventType, type.Terminal ∧ type.status = row'.status ∧
            s'.world.journalOf jobId = s.world.journalOf jobId ++ [type]) ↔
          s'.world.rejected jobId = false)) ∧
    ∀ p : PipelineState, pipeline.Reachable p → p.system = s →
      p.relay.outbox.rows.map (·.event) = s.world.events ∧
      ∀ row ∈ p.relay.outbox.rows, row.event.type.Terminal → ∀ other ∈ p.relay.outbox.rows,
        other.event.aggregateId = row.event.aggregateId →
        other.event.eventId ≠ row.event.eventId → other.position < row.position := by
  refine ⟨endAnnounced_iff h hrow, ?_, ?_⟩
  · intro action s' row' hstep hrow' hopen hended
    exact appends_iff_of_step h hstep hrow hrow' hopen hended
  · rintro p hp rfl
    have hs := sound_of_pipeline hp
    refine ⟨hs.mirror, fun row hrow hterminal other hother hjob hne => ?_⟩
    exact (hs.before_terminal hrow hother hterminal hjob hne).2

/-- **The end of a rejected job is not announced.** -/
theorem rejection_unannounced : ¬ ∀ s jobId row, system.Reachable s →
    s.world.jobs.lookup jobId = some row → EndAnnounced s.world jobId row := by
  obtain ⟨s, hreplay, hs⟩ := (Option.any_eq_true _ _).1 rejectActions_replay
  obtain ⟨hfailed, hrejected⟩ := Bool.and_eq_true_iff.1 hs
  obtain ⟨row, hrow, hstatus⟩ := (Option.any_eq_true _ _).1 hfailed
  have hreach := awaitingSystem_reachable.run (run_of_replay hreplay)
  intro hall
  have hfree := (endAnnounced_iff hreach hrow).1 (hall s _ row hreach hrow)
  rw [hrejected] at hfree
  cases hfree

/-- The job that was approved is completed, and its events say so. -/
theorem ends_announced_approved : ∃ s row, system.Reachable s ∧
    s.world.jobs.lookup overlapRequest.jobId = some row ∧ row.status = .completed ∧
    (s.world.journalOf overlapRequest.jobId).count .completed = 1 := by
  obtain ⟨s, hreplay, hs⟩ := (Option.any_eq_true _ _).1 repeatedActions_replay
  rw [Bool.and_eq_true] at hs
  obtain ⟨row, hrow, hstatus⟩ := (Option.any_eq_true _ _).1 hs.1
  have hcompleted : row.status = .completed := of_decide_eq_true hstatus
  have hreach := awaitingSystem_reachable.run (run_of_replay hreplay)
  have hfree := (rejections_of_reachable hreach).not_rejected hrow (by rw [hcompleted]; decide)
  have hannounced := (ends_announced hreach hrow).1.2 hfree
  refine ⟨s, row, hreach, hrow, hcompleted, ?_⟩
  rw [hannounced.completed, if_pos hcompleted]

end Ends

/-! ### A run -/

theorem PipelineState.reachable_apply {s : PipelineState} {action : PipelineAction}
    (h : pipeline.Reachable s) (hallows : s.Allows action) : pipeline.Reachable (s.apply action) :=
  h.step ⟨hallows, rfl⟩

/-- A transaction of a job that has none open may insert its event. -/
theorem PipelineState.allows_insert {s : PipelineState} {event : DomainEvent}
    {traceparent : Option String}
    (hfree : ∀ row ∈ s.relay.inserted, row.event.aggregateId ≠ event.aggregateId)
    (hbuilt : BuiltEvent event) (hshort : ShortIdentifiers event) :
    s.Allows (.relay (.insert event traceparent)) := by
  refine ⟨trivial, ?_, ?_, ?_, ?_⟩
  · intro row haction
    cases haction
  · rintro event traceparent ⟨⟩
    exact hfree
  · intro args haction
    cases haction
  · rintro event traceparent ⟨⟩
    exact ⟨hbuilt, hshort⟩

/-- Actions of the relay alone. -/
theorem PipelineState.reachable_of_relay {s : PipelineState} (h : pipeline.Reachable s)
    (actions : List RelayAction) (hdraws : ∀ action ∈ actions,
      (∀ row, action ≠ .commit row) ∧ DrawsBuilt action)
    (hactions : s.relay.AllowsAll (fun r action => RowLocked r action ∧ SingleRow r action)
      actions) :
    pipeline.Reachable { s with relay := actions.foldl RelayState.apply s.relay } := by
  induction actions generalizing s with
  | nil => exact h
  | cons action actions ih =>
      obtain ⟨hallows, ⟨hlocked, hsingle⟩, hrest⟩ := hactions
      obtain ⟨hcommit, hbuilt⟩ := hdraws action List.mem_cons_self
      have hnext : s.Allows (.relay action) := ⟨hallows, hcommit, hlocked, hsingle, hbuilt⟩
      exact ih (s.reachable_apply h hnext) (fun a ha => hdraws a (List.mem_cons_of_mem _ ha)) hrest

/-- The event of the job that is submitted. -/
def createdEvent : DomainEvent where
  eventId := "5a1c0000-0000-4000-8000-000000000002"
  aggregateId := "5a1c0000-0000-4000-8000-000000000001"
  occurredAt := 20
  payload := .created
  valid := by decide

theorem createdEvent_built : BuiltEvent createdEvent := by
  have h : buildResearchJobCreated createdEvent.eventId createdEvent.aggregateId 20
      = .ok createdEvent := by
    decide
  exact .created (by decide) (by decide) h

theorem createdEvent_short : ShortIdentifiers createdEvent := ⟨by decide, trivial⟩

def createdRow : OutboxRow := { event := createdEvent, position := 1, createdAt := 20 }

/-- A job is submitted: its event is inserted, and committed with it. -/
def submittedPipeline : PipelineState :=
  ((({} : PipelineState).apply
    (.quiet (.submit "request-1" (fun _ => repeatedToken 'f') "why?" "key-1"))).apply
      (.relay (.insert createdEvent none))).apply
        (.commit (.act "request-1" submissionEnv) createdRow)

theorem submissionEnv_drawsNew {w : World} (h : w.policyDecisions = []) :
    submissionEnv.DrawsNew w := by
  refine ⟨by decide, ?_⟩
  rw [h]
  exact List.forall_mem_nil _

theorem submittedPipeline_reachable : pipeline.Reachable submittedPipeline := by
  refine PipelineState.reachable_apply
    (PipelineState.reachable_apply (PipelineState.reachable_apply (.of_init rfl) ?_) ?_) ?_
  · exact ⟨List.not_mem_nil, rfl⟩
  · refine PipelineState.allows_insert ?_ createdEvent_built createdEvent_short
    have hnone : (({} : PipelineState).apply (.quiet (.submit "request-1"
        (fun _ => repeatedToken 'f') "why?" "key-1"))).relay.inserted = [] := rfl
    rw [hnone]
    exact List.forall_mem_nil _
  · exact ⟨submissionEnv_drawsNew rfl, by decide, by decide⟩

/-- The event is published, and its row is marked. -/
def publishedPipeline : PipelineState :=
  { submittedPipeline with
    relay := (publishOne (sampleClaim "first" 10) createdRow [1] 11).foldl RelayState.apply
      submittedPipeline.relay }

/-- A run of the relay inserts and commits nothing. -/
theorem publishOne_draws (args : ClaimArgs) (row : OutboxRow) (visible : List ℕ) (time : Instant) :
    ∀ action ∈ publishOne args row visible time,
      (∀ row, action ≠ .commit row) ∧ DrawsBuilt action := by
  intro action haction
  constructor
  · rintro row rfl
    simp [publishOne] at haction
  · rintro event traceparent rfl
    simp [publishOne] at haction

theorem publishedPipeline_reachable : pipeline.Reachable publishedPipeline :=
  PipelineState.reachable_of_relay submittedPipeline_reachable
    (publishOne (sampleClaim "first" 10) createdRow [1] 11) (publishOne_draws _ _ _ _)
    (by decide)

/-- The topic with its record. -/
def createdLog : ℕ → ℕ → KafkaMessage
  | 0, 0 => publishedMessage isoPydantic createdEvent none
  | _, _ => ⟨none, headersFor createdEvent none⟩

theorem createdLog_carries : Carries pollConfig publishedPipeline.relay.log createdLog := by
  have hlog : publishedPipeline.relay.log = [⟨createdEvent, 1, "first", true⟩] := by decide
  rw [hlog]
  constructor
  · intro offset delivery hdelivery
    cases offset with
    | zero =>
        obtain rfl := Option.some.inj hdelivery
        exact ⟨none, rfl⟩
    | succ offset => cases hdelivery
  · rintro kafkaPartition kafkaOffset hno event ⟨traceparent, hdecode⟩
    have hnone : createdLog kafkaPartition kafkaOffset = ⟨none, headersFor createdEvent none⟩ := by
      cases kafkaPartition with
      | zero =>
          cases kafkaOffset with
          | zero => simp at hno
          | succ kafkaOffset => rfl
      | succ kafkaPartition => rfl
    rw [hnone] at hdecode
    simp [decodeMessage, headersAsMapping_headersFor, valueText, Except.mapError, bind, Except.bind]
      at hdecode

theorem decodeMessage_created : decodeMessage pollConfig.pydantic pollConfig.recursionLimit
    (createdLog 0 0) = .ok (createdEvent, none) := by
  have hencodable := createdEvent_built.encodable
  exact decodeMessage_publishedMessage isoPydantic_faithful (by decide) hencodable
    (serializeDomainEvent_bytes isoPydantic_faithful hencodable createdEvent_short) none

/-- A consumer has taken the record, and committed its offset. -/
def createdPool : ConsumerPool :=
  actsAt 0 pollEnv 7 (pollsAt createdLog 0 0 (fun _ => 0) { world := .empty })

theorem createdPool_reachable : (consumerSpec pollConfig createdLog).lts.Reachable createdPool := by
  have hempty : (consumerSpec pollConfig createdLog).lts.Reachable { world := .empty } :=
    .of_init ⟨rfl, rfl⟩
  have hstart : (consumerSpec pollConfig createdLog).Allows { world := .empty }
      (.start 0 .consumer (pollLoop pollConfig createdLog 1 fun _ => 0)) :=
    ⟨rfl, 1, fun _ => 0, fun _ => Nat.zero_le _, rfl⟩
  exact reachable_actsAt (fun _ _ => trivial) pollEnv 7
    (reachable_pollsAt (fun _ _ => trivial) hempty hstart)

theorem createdPool_committed : createdPool.world.committed 0 = 1 := by
  rw [createdPool, @pollsAt_eq createdLog 0 0 (fun _ => 0) _ _ _ decodeMessage_created]
  decide +kernel

/-- The row of the submitted job is that of its event. -/
theorem end_to_end_created : ∃ at_,
    createdPool.world.db.projection.lookup createdEvent.aggregateId
      = some (projectionOf createdEvent at_) := by
  have hfaithful : pollConfig.pydantic.Faithful := isoPydantic_faithful
  have h := (end_to_end hfaithful (by decide) publishedPipeline_reachable createdLog_carries
    createdPool_reachable).2.2.2 createdEvent.aggregateId (by decide)
      (by rw [createdPool_committed]; decide)
  exact h.2 createdEvent (by decide)

end Atlas
