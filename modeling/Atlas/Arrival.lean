/-
**The events of a job arrive in order.**

`Atlas.Pipeline` says what any number of consumers apply of a job.  A lone consumer, as its
executable runs it, rejects nothing: where the row of a job holds a terminal event, the log had all
events of the job before that one, and each of them has been decided on.  So an event that comes
again finds itself in the inbox, and the projection never looks at it.

Main results:

* `Atlas.inbox_of_terminal` — behind a terminal row, all events of the job are in the inbox;
* `Atlas.lone_rejects_nothing` — a lone consumer rejects no event;
* `Atlas.events_arrive_in_order` — **from the commits to the projection, the events of each job keep
  their order**.
-/

import Atlas.Pipeline

set_option relaxedAutoImplicit false
set_option autoImplicit false

namespace Atlas

open HeadOfLine

/-! ### A lone consumer -/

section Lone

variable {cfg : ConsumerConfig} {log : ℕ → ℕ → KafkaMessage} {s : PipelineState}
  {p p' : Pool ConsumerEnv ConsumerWorld ConsumerExc Unit ConsumerTask}

/-- Where the row of a job holds a terminal event, all events of the job are in the inbox. -/
theorem inbox_of_terminal (hlog : LifecycleLog cfg log) (hretains : RetainsEvents cfg log)
    (hpool : (consumerSpec cfg log).lts.Reachable p) {kafkaPartition kafkaOffset : ℕ}
    {event : DomainEvent} (hholds : HoldsEvent cfg log kafkaPartition kafkaOffset event)
    {row : ProjectionRow} (hrow : p.world.db.projection.lookup event.aggregateId = some row)
    (hterminal : row.lastEventType.Terminal) :
    (p.world.db.inbox.lookup (cfg.consumerId, event.eventId)).isSome := by
  obtain ⟨hsound, horder⟩ :=
    (PoolSpec.complies_of_reachable (ordered_conduct hlog hretains) hpool).world
  obtain ⟨d, hd, hjob, htype⟩ := horder.rows _ row hrow
  rw [← htype] at hterminal
  obtain ⟨hsome, lastPartition, lastOffset, hlast, hbefore⟩ :=
    horder.decided d (List.mem_filter.1 hd).1
  by_cases hsame : event.eventId = d.event.eventId
  · rw [hsame]
    exact hsome
  · -- the log has the event before the terminal one
    obtain ⟨earlier, hlt, again, hagain, hid⟩ :=
      hlog lastPartition lastOffset d.event hlast hterminal kafkaPartition kafkaOffset event hholds
        hjob.symm hsame
    rw [← hid]
    exact hbefore earlier hlt again hagain

/-- A lone consumer rejects nothing. -/
theorem lone_rejects_nothing (hlog : LifecycleLog cfg log) (hretains : RetainsEvents cfg log)
    (hpool : (loneSpec cfg log).lts.Reachable p) :
    ∀ d ∈ p.world.history, d.consumerId = cfg.consumerId → d.applied = true := by
  have hpreserved : (loneSpec cfg log).lts.Preserved fun p =>
      (loneSpec cfg log).lts.Reachable p ∧
        ∀ d ∈ p.world.history, d.consumerId = cfg.consumerId → d.applied = true := by
    rintro p action p' ⟨hreach, happlied⟩ hstep
    refine ⟨hreach.step hstep, ?_⟩
    obtain ⟨-, horder⟩ := (PoolSpec.complies_of_reachable (ordered_conduct hlog hretains)
      (reachable_of_lone (hreach.step hstep))).world
    have horderly := PoolSpec.complies_of_reachable (lone_conduct cfg log) hreach
    rcases PoolSpec.guarantee_of_step (lone_conduct cfg log) horderly hstep with
      hsame | ⟨_, _, _, _, -, -, hchange⟩
    · rw [hsame]
      exact happlied
    · cases hchange with
      | quiet hhistory =>
          rw [hhistory]
          exact happlied
      | applied d hhistory heffect =>
          intro other hother
          rw [hhistory, List.mem_append, List.mem_singleton] at hother
          rcases hother with hother | rfl
          · exact happlied other hother
          · exact fun _ => heffect.applied
      | rejected d row hrejected hhistory hdb hnew hrow hterminal =>
          intro other hother hconsumer
          have hdecided := horder.decided other hother
          rw [hhistory, List.mem_append, List.mem_singleton] at hother
          rcases hother with hother | rfl
          · exact happlied other hother hconsumer
          · -- what is decided on is in the inbox, and what is rejected is not
            rw [hdb, ← hconsumer, hnew] at hdecided
            cases hdecided.1
  refine (hpool.invariant ?_ hpreserved).2
  rintro p ⟨hworld, htasks⟩
  refine ⟨.of_init ⟨hworld, htasks⟩, ?_⟩
  have hempty : p.world = .empty := hworld
  rw [hempty]
  exact List.forall_mem_nil _

/-! ### The whole way -/

/-- No event of a job is committed after its terminal one. -/
theorem PipelineSound.nothing_after (hs : PipelineSound s) {before after : List OutboxRow}
    {row : OutboxRow} (hrows : s.relay.outbox.rows = before ++ row :: after)
    (hterminal : row.event.type.Terminal) :
    ∀ other ∈ after, other.event.aggregateId ≠ row.event.aggregateId := by
  intro other hother hjob
  have hpairs := (jobOrdered_of_single hs.relayed).2.rows
  rw [hrows] at hpairs
  have hlt := (List.pairwise_cons.1 (List.pairwise_append.1 hpairs).2.1).1 other hother hjob.symm
  have hrow : row ∈ s.relay.outbox.rows := by simp [hrows]
  have hmem : other ∈ s.relay.outbox.rows := by simp [hrows, hother]
  by_cases hid : other.event.eventId = row.event.eventId
  · obtain rfl := hs.eq_of_event hmem hrow hid
    exact lt_irrefl _ hlt
  · exact lt_asymm hlt (hs.before_terminal hrow hmem hterminal hjob hid).2

/-- **The events of a job arrive in order.**  Where one relay claims a row at a time and one
consumer works at a time, whatever crashes and is delivered again: the events of each job have their
first publications in the order of their commits, none of them is committed after its terminal
event, no event is rejected or could be, and once the rows of a job are published and the log is
consumed, the row of the job is that of its last event. -/
theorem events_arrive_in_order (hp : cfg.pydantic.Faithful) (hlimit : 2 ≤ cfg.recursionLimit)
    (h : pipeline.Reachable s) (hlog : Carries cfg s.relay.log log)
    (hpool : (loneSpec cfg log).lts.Reachable p) :
    (s.relay.outbox.rows.map (·.event) = s.system.world.events ∧
      (s.relay.outbox.rows.Pairwise fun row later =>
        row.event.aggregateId = later.event.aggregateId → row.position < later.position) ∧
      InOrder Before (s.relay.log.map (·.key))) ∧
    (∀ before row after, s.relay.outbox.rows = before ++ row :: after → row.event.type.Terminal →
      ∀ other ∈ after, other.event.aggregateId ≠ row.event.aggregateId) ∧
    ((∀ d ∈ p.world.history, d.consumerId = cfg.consumerId → d.applied = true) ∧
      ∀ kafkaPartition kafkaOffset event, HoldsEvent cfg log kafkaPartition kafkaOffset event →
        ∀ e view at_, Current cfg.consumerId event p.world.db view →
          recordAndApply view cfg.consumerId event kafkaPartition kafkaOffset at_ e p.world.db
            ≠ .error (.poison .lifecycleOrderViolation)) ∧
    ∀ jobId, (∀ row ∈ s.relay.outbox.rows, row.event.aggregateId = jobId →
        row.publishedAt ≠ none) →
      s.relay.log.length ≤ p.world.committed 0 →
        ∀ event ∈ (s.system.world.jobEvents jobId).getLast?, ∃ at_,
          p.world.db.projection.lookup jobId = some (projectionOf event at_) := by
  have hs := sound_of_pipeline h
  have hlifecycle := lifecycleLog_of_carries hlog hp hlimit hs
  have hretains := hlog.retainsEvents hp hlimit hs
  have hany := reachable_of_lone hpool
  have hordered := (jobOrdered_of_single hs.relayed).2
  refine ⟨⟨hs.mirror, hordered.rows, hordered.ordered⟩, fun before row after hrows hterminal =>
    hs.nothing_after hrows hterminal, ⟨lone_rejects_nothing hlifecycle hretains hpool, ?_⟩, ?_⟩
  · intro kafkaPartition kafkaOffset event hholds e view at_ hcurrent hraises
    obtain ⟨-, seen, rfl, hterminal⟩ := recordAndApply_eq_poison hraises
    generalize hview : EventView.fresh (some seen) = view at hcurrent
    cases hcurrent with
    | duplicate => cases hview
    | fresh hnew =>
        have hrow : p.world.db.projection.lookup event.aggregateId = some seen := by
          simpa using hview.symm
        have hsome := inbox_of_terminal hlifecycle hretains hany hholds hrow hterminal
        rw [hnew] at hsome
        cases hsome
  · intro jobId hpublished hcommitted event hevent
    obtain ⟨hsound, horder⟩ :=
      (PoolSpec.complies_of_reachable (ordered_conduct hlifecycle hretains) hany).world
    rw [← decidedEvents_eq hlog hp hlimit hs hsound horder hpublished hcommitted] at hevent
    exact (horder.latest hlog.onePartition jobId).of_getLast hevent

end Lone

/-! ### A run with a pause -/

/-- The state after actions that write no event, if the system allows them all. -/
def SystemState.replayQuiet : SystemState → List SystemAction → Option SystemState
  | s, [] => some s
  | s, action :: actions =>
      if s.Allows action ∧ (s.apply action).world.events = s.world.events then
        (s.apply action).replayQuiet actions
      else none

/-- In the pipeline they are quiet. -/
theorem PipelineState.reachable_of_quiet {s : PipelineState} {actions : List SystemAction}
    {system' : SystemState} (h : pipeline.Reachable s)
    (hreplay : s.system.replayQuiet actions = some system') :
    pipeline.Reachable { s with system := system' } := by
  induction actions generalizing s with
  | nil =>
      cases hreplay
      exact h
  | cons action actions ih =>
      rw [SystemState.replayQuiet] at hreplay
      split at hreplay
      · rename_i hquiet
        have hnext : s.Allows (.quiet action) := hquiet
        exact ih (s := s.apply (.quiet action)) (s.reachable_apply h hnext) hreplay
      · cases hreplay

/-- The event of a step is inserted, and committed with it. -/
theorem PipelineState.reachable_of_event {s : PipelineState} {event : DomainEvent}
    {row : OutboxRow} {action : SystemAction} (h : pipeline.Reachable s)
    (hfree : s.relay.inserted = []) (hbuilt : BuiltEvent event) (hshort : ShortIdentifiers event)
    (hinserted : row ∈ (s.relay.apply (.insert event none)).inserted) (hrow : row.event = event)
    (hallows : s.system.Allows action)
    (hevents : (s.system.apply action).world.events = s.system.world.events ++ [event]) :
    pipeline.Reachable ((s.apply (.relay (.insert event none))).apply (.commit action row)) := by
  have hinsert : s.Allows (.relay (.insert event none)) := by
    refine s.allows_insert ?_ hbuilt hshort
    rw [hfree]
    exact List.forall_mem_nil _
  refine PipelineState.reachable_apply (s.reachable_apply h hinsert) ⟨hallows, hinserted, ?_⟩
  rw [hrow]
  exact hevents

/-- The event of its pause. -/
def awaitingEvent : DomainEvent where
  eventId := "5a1c0000-0000-4000-8000-100001100001"
  aggregateId := createdEvent.aggregateId
  occurredAt := 101
  payload := .awaitingReview overlapExecution
  valid := by decide

theorem awaitingEvent_built : BuiltEvent awaitingEvent := by
  have h : buildResearchJobAwaitingReview awaitingEvent.eventId awaitingEvent.aggregateId
      overlapExecution 101 = .ok awaitingEvent := by
    decide
  exact .awaitingReview (by decide) (by decide) h

theorem awaitingEvent_short : ShortIdentifiers awaitingEvent := by
  have hexecution : overlapExecution.length ≤ 128 := by decide
  exact ⟨by decide, hexecution⟩

def awaitingRow : OutboxRow := { event := awaitingEvent, position := 2, createdAt := 101 }

/-- The job is processed up to its pause, and the act that pauses it. -/
def workedActions : List SystemAction :=
  .claim overlapSettings [] 30 1000 (repeatedToken 'a') (some overlapRequest.jobId) ::
    (List.replicate 39 (.act (repeatedToken 'a') (overlapEnv 0)) ++
      List.replicate 6 (.act (repeatedToken 'a') (overlapEnv 1)))

def pauseAction : SystemAction := .act (repeatedToken 'a') (overlapEnv 1)

set_option maxRecDepth 4000 in
theorem workedActions_replay :
    ((submittedPipeline.system.replayQuiet workedActions).any fun s =>
      decide (s.Allows pauseAction ∧
        (s.apply pauseAction).world.events = s.world.events ++ [awaitingEvent])) = true := by
  decide +kernel

/-- The created event is stored, and its relay crashes before it marks the row. -/
def lostMark : List RelayAction :=
  let args := sampleClaim "first" 10
  let run : RelayRun :=
    { claimToken := "first", point := .publish [args.record createdRow], visible := [1] }
  (publishOne args createdRow [1] 11).take 6 ++ [.crash (run.afterPublish .returned)]

/-- The row with the claim that was left. -/
def claimedRow : OutboxRow :=
  { createdRow with
    publishClaimToken := some "first", publishLeaseExpiresAt := some 40, publishAttempts := 1 }

/-- The pause is committed; then the event is stored again, and that of the pause after it. -/
def arrivingRun : List RelayAction :=
  publishOne (sampleClaim "second" 50) claimedRow [1, 2] 51 ++
    publishOne (sampleClaim "third" 60) awaitingRow [1, 2] 61

/-- The relay when the job waits, and when all is published. -/
def pausedRelay : RelayState :=
  ((lostMark.foldl RelayState.apply submittedPipeline.relay).apply
    (.insert awaitingEvent none)).apply (.commit awaitingRow)

def arrivedRelay : RelayState := arrivingRun.foldl RelayState.apply pausedRelay

/-- Runs that insert and commit nothing. -/
theorem lostMark_draws :
    ∀ action ∈ lostMark, (∀ row, action ≠ .commit row) ∧ DrawsBuilt action := by
  intro action haction
  rcases List.mem_append.1 haction with haction | haction
  · exact publishOne_draws _ _ _ _ action (List.mem_of_mem_take haction)
  · obtain rfl := List.mem_singleton.1 haction
    constructor
    · intro row heq
      cases heq
    · intro event traceparent heq
      cases heq

theorem arrivingRun_draws : ∀ action ∈ arrivingRun,
    (∀ row, action ≠ .commit row) ∧ DrawsBuilt action :=
  List.forall_mem_append.2 ⟨publishOne_draws _ _ _ _, publishOne_draws _ _ _ _⟩

theorem arrived_reachable :
    ∃ s, pipeline.Reachable s ∧ s.relay = arrivedRelay ∧
      s.system.world.jobEvents overlapRequest.jobId = [createdEvent, awaitingEvent] := by
  obtain ⟨system', hreplay, hpauses⟩ := (Option.any_eq_true _ _).1 workedActions_replay
  obtain ⟨hallows, hevents⟩ := of_decide_eq_true hpauses
  have hlost := PipelineState.reachable_of_relay submittedPipeline_reachable lostMark
    lostMark_draws (by decide)
  have hworked := PipelineState.reachable_of_quiet hlost hreplay
  have hfree : (lostMark.foldl RelayState.apply submittedPipeline.relay).inserted = [] := by decide
  have hinserted : awaitingRow ∈ ((lostMark.foldl RelayState.apply submittedPipeline.relay).apply
      (.insert awaitingEvent none)).inserted := by decide
  have hpaused := PipelineState.reachable_of_event hworked hfree awaitingEvent_built
    awaitingEvent_short hinserted rfl hallows hevents
  have hruns : pausedRelay.AllowsAll (fun r action => RowLocked r action ∧ SingleRow r action)
      arrivingRun := by decide
  have harrived := PipelineState.reachable_of_relay hpaused arrivingRun arrivingRun_draws hruns
  refine ⟨_, harrived, rfl, ?_⟩
  have hrows : (arrivedRelay.outbox.rows.filter (·.event.aggregateId = overlapRequest.jobId)).map
      (·.event) = [createdEvent, awaitingEvent] := by decide
  rw [(sound_of_pipeline harrived).jobEvents]
  exact hrows

/-! #### The consumer -/

/-- The records of deliveries, in one partition. -/
def topicOf (deliveries : List Delivery) : ℕ → ℕ → KafkaMessage :=
  recordsOf fun kafkaPartition kafkaOffset =>
    if kafkaPartition = 0 then (deliveries[kafkaOffset]?).map (·.event) else none

theorem topicOf_stored {deliveries : List Delivery} {kafkaOffset : ℕ} {delivery : Delivery}
    (h : deliveries[kafkaOffset]? = some delivery) :
    topicOf deliveries 0 kafkaOffset = publishedMessage isoPydantic delivery.event none := by
  simp [topicOf, recordsOf, h]

theorem carries_topicOf (deliveries : List Delivery) :
    Carries pollConfig deliveries (topicOf deliveries) where
  stored _ _ hdelivery := ⟨none, topicOf_stored hdelivery⟩
  nothing := by
    rintro kafkaPartition kafkaOffset hno event ⟨traceparent, hdecode⟩
    have hnone : topicOf deliveries kafkaPartition kafkaOffset
        = ⟨none, headersFor retryEvent none⟩ := by
      rw [topicOf, recordsOf]
      split
      · rename_i hsome
        split at hsome
        · rename_i hzero
          obtain ⟨delivery, hdelivery, -⟩ := Option.map_eq_some_iff.1 hsome
          obtain ⟨hlt, -⟩ := List.getElem?_eq_some_iff.1 hdelivery
          omega
        · cases hsome
      · rfl
    rw [hnone] at hdecode
    simp [decodeMessage, headersAsMapping_headersFor, valueText, Except.mapError, bind, Except.bind]
      at hdecode

theorem decodeMessage_topicOf {deliveries : List Delivery} {kafkaOffset : ℕ} {delivery : Delivery}
    (h : deliveries[kafkaOffset]? = some delivery) (hbuilt : BuiltEvent delivery.event)
    (hshort : ShortIdentifiers delivery.event) :
    decodeMessage pollConfig.pydantic pollConfig.recursionLimit (topicOf deliveries 0 kafkaOffset)
      = .ok (delivery.event, none) := by
  rw [topicOf_stored h]
  exact decodeMessage_publishedMessage isoPydantic_faithful (by decide) hbuilt.encodable
    (serializeDomainEvent_bytes isoPydantic_faithful hbuilt.encodable hshort) none

theorem arrivedRelay_log : arrivedRelay.log = [⟨createdEvent, 1, "first", true⟩,
    ⟨createdEvent, 1, "second", true⟩, ⟨awaitingEvent, 2, "third", true⟩] := by
  decide

def arrivedLog : ℕ → ℕ → KafkaMessage := topicOf arrivedRelay.log

/-- The first record is taken, it is delivered again, and the last one is taken. -/
def onePool : ConsumerPool := takes arrivedLog 0 7 { world := .empty }

def againPool : ConsumerPool := takes arrivedLog 1 6 onePool

def arrivedPool : ConsumerPool := takes arrivedLog 2 7 againPool

theorem takes_created {kafkaOffset : ℕ} (h : kafkaOffset < 2) (acts : ℕ) (s : ConsumerPool) :
    takes arrivedLog kafkaOffset acts s
      = (actsAt 0 pollEnv acts (s.apply (.start 0 .consumer
          (eventRound arrivedLog (positionAt kafkaOffset) 0 createdEvent)))).apply (.stop 0) := by
  obtain ⟨delivery, hdelivery, hevent⟩ :
      ∃ delivery, arrivedRelay.log[kafkaOffset]? = some delivery ∧
        delivery.event = createdEvent := by
    rw [arrivedRelay_log]
    rcases kafkaOffset with - | - | kafkaOffset
    · exact ⟨_, rfl, rfl⟩
    · exact ⟨_, rfl, rfl⟩
    · omega
  have hdecode := decodeMessage_topicOf hdelivery (hevent ▸ createdEvent_built)
    (hevent ▸ createdEvent_short)
  rw [hevent] at hdecode
  exact takes_eq hdecode

theorem arrivedPool_eq : arrivedPool = (actsAt 0 pollEnv 7 (againPool.apply
    (.start 0 .consumer (eventRound arrivedLog (positionAt 2) 0 awaitingEvent)))).apply
      (.stop 0) := by
  have hdelivery : arrivedRelay.log[2]? = some ⟨awaitingEvent, 2, "third", true⟩ := by
    rw [arrivedRelay_log]
    rfl
  exact takes_eq (decodeMessage_topicOf hdelivery awaitingEvent_built awaitingEvent_short)

theorem arrivedPool_world : onePool.world.committed 0 = 1 ∧ againPool.world.committed 0 = 2 ∧
    arrivedPool.world.committed 0 = 3 ∧
    arrivedPool.world.history = [⟨allowedConsumerId, createdEvent, 0, true⟩,
      ⟨allowedConsumerId, awaitingEvent, 0, true⟩] := by
  rw [arrivedPool_eq, againPool, takes_created (by decide), onePool, takes_created (by decide)]
  decide +kernel

theorem arrivedPool_lone : (loneSpec pollConfig arrivedLog).lts.Reachable arrivedPool := by
  have hstarts : ∀ (s : ConsumerPool) position, (∀ place, s.tasks place = none) →
      (∀ kafkaPartition, position kafkaPartition ≤ s.world.committed kafkaPartition) →
        (loneSpec pollConfig arrivedLog).starts s .consumer
          (pollLoop pollConfig arrivedLog 1 position) :=
    fun s position htasks hposition => ⟨htasks, 1, position, hposition, rfl⟩
  have hempty : Settled (loneSpec pollConfig arrivedLog) { world := .empty } :=
    ⟨.of_init ⟨rfl, rfl⟩, fun _ => rfl⟩
  have hone : Settled (loneSpec pollConfig arrivedLog) onePool :=
    settled_takes (fun _ _ => trivial) hstarts hempty (Nat.zero_le _) 7
  have hagain : Settled (loneSpec pollConfig arrivedLog) againPool :=
    settled_takes (fun _ _ => trivial) hstarts hone arrivedPool_world.1.ge 6
  exact (settled_takes (fun _ _ => trivial) hstarts hagain arrivedPool_world.2.1.ge 7).1

/-- A relay that crashed before its mark, another that stored the event again, and a consumer that
took all: the events of the job have arrived in order, each once, and its row is that of its
pause. -/
theorem events_arrive_in_order_awaiting : ∃ s, pipeline.Reachable s ∧
    s.system.world.jobEvents overlapRequest.jobId = [createdEvent, awaitingEvent] ∧
    s.relay.log.map (·.position) = [1, 1, 2] ∧ InOrder Before (s.relay.log.map (·.key)) ∧
    (∀ d ∈ arrivedPool.world.history, d.consumerId = allowedConsumerId → d.applied = true) ∧
    ∃ at_, arrivedPool.world.db.projection.lookup overlapRequest.jobId
      = some (projectionOf awaitingEvent at_) := by
  obtain ⟨s, hreach, hrelay, hevents⟩ := arrived_reachable
  have hcarries : Carries pollConfig s.relay.log arrivedLog := by
    rw [hrelay]
    exact carries_topicOf _
  obtain ⟨⟨-, -, hordered⟩, -, ⟨happlied, -⟩, hlast⟩ :=
    events_arrive_in_order isoPydantic_faithful (by decide) hreach hcarries arrivedPool_lone
  refine ⟨s, hreach, hevents, ?_, hordered, happlied, ?_⟩
  · rw [hrelay, arrivedRelay_log]
    rfl
  · refine hlast overlapRequest.jobId ?_ ?_ awaitingEvent ?_
    · rw [hrelay]
      decide
    · rw [hrelay, arrivedRelay_log, arrivedPool_world.2.2.1]
      decide
    · rw [hevents]
      rfl

end Atlas
