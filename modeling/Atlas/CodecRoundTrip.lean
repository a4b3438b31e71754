/-
**An event survives its codec.**

A mapping describes an event when every field of it validates to the event's own, whatever the order
of its keys.  The columns of an outbox row, the text of a Kafka record and the canonical text of a
dead letter all describe the event they were made of, and what describes an event is parsed as it.
The two things that have to be checked for that are the size of the texts, which the application
bounds, and that a text the validators strip was stripped when the event was built.

Main definitions:

* `Atlas.BuiltEvent` — the events the builders return;
* `Atlas.ShortIdentifiers` — identifiers of at most 128 characters;
* `Atlas.Describes` — the mappings that describe an event;
* `Atlas.DatabaseTakes` — the events whose row the database takes.

Main results:

* `Atlas.parseDomainEvent_of_describes` — what describes an event is parsed as it;
* `Atlas.decodeMessage_publishedMessage` — what is published is decoded;
* `Atlas.event_round_trip` — **an event survives its row, its record and its dead letter**.
-/

import Atlas.EventCodec

set_option relaxedAutoImplicit false
set_option autoImplicit false

namespace Atlas

open Checked
open Python (Json Representable)

/-! ### Built events -/

/-- An event one of the builders returns, for a UUID and datetimes. -/
inductive BuiltEvent (event : DomainEvent) : Prop
  | created {eventId researchJobId : String} {createdAt : Instant}
      (hid : UuidText eventId) (ht : Representable createdAt)
      (h : buildResearchJobCreated eventId researchJobId createdAt = .ok event)
  | completed {eventId researchJobId : String} {completedAt : Instant}
      (hid : UuidText eventId) (ht : Representable completedAt)
      (h : buildResearchJobCompleted eventId researchJobId completedAt = .ok event)
  | failed {eventId researchJobId reasonClass : String} {failedAt : Instant}
      (hid : UuidText eventId) (ht : Representable failedAt)
      (h : buildResearchJobFailed eventId researchJobId failedAt reasonClass = .ok event)
  | awaitingReview {eventId researchJobId workflowExecutionId : String} {enteredReviewAt : Instant}
      (hid : UuidText eventId) (ht : Representable enteredReviewAt)
      (h : buildResearchJobAwaitingReview eventId researchJobId workflowExecutionId enteredReviewAt
        = .ok event)
  | retryScheduled {eventId researchJobId : String} {abandoned : Option String}
      {jobRetryCount : ℕ} {nextAttemptAt occurredAt : Instant}
      (hid : UuidText eventId) (ht : Representable occurredAt) (hnext : Representable nextAttemptAt)
      (h : buildResearchJobRetryScheduled eventId researchJobId abandoned jobRetryCount
        nextAttemptAt occurredAt = .ok event)

/-- The texts of a payload that validation strips are stripped. -/
def Payload.Stripped : Payload → Prop
  | .failed reasonClass => Python.strip reasonClass = reasonClass
  | .retryScheduled abandoned _ _ => abandoned.map Python.strip = abandoned
  | _ => True

/-- What the codec needs to know of an event. -/
structure Encodable (event : DomainEvent) : Prop where
  eventId : UuidText event.eventId
  occurredAt : Representable event.occurredAt
  timestamp : Representable (payloadTimestamp event)
  stripped : event.payload.Stripped

theorem BuiltEvent.encodable {event : DomainEvent} (h : BuiltEvent event) : Encodable event := by
  cases h with
  | created hid ht h =>
      obtain ⟨rfl, -, rfl, hpayload⟩ := buildEvent_eq_ok.1 h
      exact ⟨hid, ht, by rw [payloadTimestamp, hpayload]; exact ht, by rw [hpayload]; trivial⟩
  | completed hid ht h =>
      obtain ⟨rfl, -, rfl, hpayload⟩ := buildEvent_eq_ok.1 h
      exact ⟨hid, ht, by rw [payloadTimestamp, hpayload]; exact ht, by rw [hpayload]; trivial⟩
  | failed hid ht h =>
      simp only [buildResearchJobFailed, bind_eq_ok, buildEvent_eq_ok] at h
      obtain ⟨_, -, rfl, -, rfl, hpayload⟩ := h
      refine ⟨hid, ht, by rw [payloadTimestamp, hpayload]; exact ht, ?_⟩
      rw [hpayload]
      exact Python.strip_strip _
  | awaitingReview hid ht h =>
      obtain ⟨rfl, -, rfl, hpayload⟩ := buildEvent_eq_ok.1 h
      exact ⟨hid, ht, by rw [payloadTimestamp, hpayload]; exact ht, by rw [hpayload]; trivial⟩
  | @retryScheduled _ _ abandoned _ _ _ hid ht hnext h =>
      obtain ⟨rfl, -, rfl, hpayload⟩ := buildEvent_eq_ok.1 h
      refine ⟨hid, ht, by rw [payloadTimestamp, hpayload]; exact hnext, ?_⟩
      rw [hpayload]
      change (abandoned.map Python.strip).map Python.strip = abandoned.map Python.strip
      cases abandoned with
      | none => rfl
      | some text => exact congrArg some (Python.strip_strip text)

/-! ### What describes an event -/

/-- All items of the payload of an event. -/
def payloadItems (p : Pydantic) (event : DomainEvent) : List (String × Json) :=
  ("research_job_id", .str event.aggregateId) ::
    (event.type.timestampKey, .str (p.dumpDatetime (payloadTimestamp event))) ::
    payloadFields event.payload

/-- The fields describe the payload of the event: they are its items, in any order. -/
structure DescribesPayload (p : Pydantic) (event : DomainEvent) (fields : List (String × Json)) :
    Prop where
  keys : fields.all (event.type.payloadKeys.contains ·.1) = true
  items : ∀ key, fields.lookup key = (payloadItems p event).lookup key

/-- The mapping describes the event. -/
structure Describes (p : Pydantic) (event : DomainEvent) (data : List (String × RawValue)) :
    Prop where
  keys : data.all (envelopeKeys.contains ·.1) = true
  type : data.lookup "event_type" = some (.json (.str event.type.value))
  eventId : (data.lookup "event_id").bind p.uuid = some event.eventId
  aggregateId : data.lookup "aggregate_id" = some (.json (.str event.aggregateId))
  occurredAt : (data.lookup "occurred_at").bind p.datetime = some event.occurredAt
  defaults : defaultsAgree p data = true
  payload : ∃ fields, data.lookup "payload" = some (.json (.obj fields)) ∧
    DescribesPayload p event fields

theorem EventType.parse_value (type : EventType) : EventType.parse type.value = some type := by
  cases type <;> decide

section Parse

variable {p : Pydantic} {event : DomainEvent} {fields : List (String × Json)}
  {data : List (String × RawValue)}

theorem DescribesPayload.jobId (h : DescribesPayload p event fields) :
    fields.lookup "research_job_id" = some (.str event.aggregateId) :=
  h.items _

theorem DescribesPayload.timestamp (h : DescribesPayload p event fields) :
    fields.lookup event.type.timestampKey
      = some (.str (p.dumpDatetime (payloadTimestamp event))) := by
  rw [h.items, payloadItems, DomainEvent.type]
  cases event.payload <;> rfl

/-- The payload is parsed as the event's. -/
theorem parsePayload_of_describes (hp : p.Faithful) (henc : Encodable event)
    (h : DescribesPayload p event fields) :
    parsePayload p event.type (payloadTimestamp event) fields = some event.payload := by
  obtain ⟨eventId, aggregateId, occurredAt, payload, hvalid⟩ := event
  have hitems := h.items
  have hstripped := henc.stripped
  cases payload with
  | created => rfl
  | completed => rfl
  | failed reasonClass =>
      obtain ⟨hne, -, hlen⟩ := hvalid.2
      have hpos : 1 ≤ reasonClass.length := by
        by_contra hzero
        exact hne (String.length_eq_zero_iff.1 (by omega))
      have hreason : fields.lookup "reason_class" = some (.str reasonClass) := hitems _
      simp only [parsePayload, DomainEvent.type, Payload.type, hreason]
      simp only [RawValue.text, bind, Option.bind, pure, if_pos (And.intro hpos hlen)]
      exact congrArg (fun r => some (Payload.failed r)) hstripped
  | awaitingReview workflowExecutionId =>
      have hid : fields.lookup "workflow_execution_id" = some (.str workflowExecutionId) :=
        hitems _
      simp only [parsePayload, DomainEvent.type, Payload.type, hid]
      rfl
  | retryScheduled abandoned jobRetryCount nextAttemptAt =>
      have habandoned : fields.lookup "abandoned_workflow_execution_id"
          = some (abandoned.elim .null .str) := hitems _
      have hcount : fields.lookup "job_retry_count" = some (.int jobRetryCount) := hitems _
      simp only [parsePayload, DomainEvent.type, Payload.type, habandoned, hcount]
      have hint := hp.integer_int jobRetryCount
      cases abandoned with
      | none =>
          simp only [Option.elim, bind, Option.bind, pure, hint]
          rfl
      | some text =>
          simp only [Option.elim, RawValue.text, Option.map, bind, Option.bind, pure, hint]
          have htext : Python.strip text = text := Option.some.inj hstripped
          rw [htext]
          rfl

theorem aligned_of_event (event : DomainEvent) : aligned event.type event.aggregateId
    event.aggregateId event.occurredAt (payloadTimestamp event) = true := by
  rw [DomainEvent.type, payloadTimestamp]
  cases event.payload <;> simp [aligned, Payload.type]

/-- **What describes an event is parsed as it.** -/
theorem parseDomainEvent_of_describes (hp : p.Faithful) (henc : Encodable event)
    (h : Describes p event data) : parseDomainEvent p data = some event := by
  obtain ⟨fields, hfields, hdescribes⟩ := h.payload
  obtain ⟨id, hid, hid'⟩ := Option.bind_eq_some_iff.1 h.eventId
  obtain ⟨at_, hat, hat'⟩ := Option.bind_eq_some_iff.1 h.occurredAt
  have htime := hp.datetime_text _ henc.timestamp
  have hbuilt : buildEvent event.eventId event.aggregateId event.occurredAt event.payload
      = .ok event := buildEvent_eq_ok.2 ⟨rfl, rfl, rfl, rfl⟩
  simp only [parseDomainEvent, h.type, hid, hid', h.aggregateId, hat, hat', hfields,
    RawValue.text, bind, Option.bind, EventType.parse_value, hdescribes.jobId,
    hdescribes.timestamp, htime, parsePayload_of_describes hp henc hdescribes, h.keys,
    hdescribes.keys, h.defaults, aligned_of_event, Bool.and_self, if_true, hbuilt]
  rfl

end Parse

/-! ### The keys of a payload -/

section Payloads

variable (p : Pydantic) (event : DomainEvent)

theorem payloadItems_keys : (payloadItems p event).map Prod.fst = event.type.payloadKeys := by
  rw [payloadItems, DomainEvent.type]
  cases event.payload <;> rfl

theorem payloadKeys_nodup (type : EventType) : type.payloadKeys.Nodup := by
  cases type <;> decide

theorem payloadItems_scalar : ∀ f ∈ payloadItems p event, Json.Scalar f.2 := by
  have hfields : ∀ payload : Payload, ∀ f ∈ payloadFields payload, Json.Scalar f.2 := by
    intro payload f hf
    cases payload with
    | created => cases hf
    | completed => cases hf
    | failed reasonClass =>
        obtain rfl := List.mem_singleton.1 hf
        trivial
    | awaitingReview workflowExecutionId =>
        obtain rfl := List.mem_singleton.1 hf
        trivial
    | retryScheduled abandoned jobRetryCount nextAttemptAt =>
        rcases List.mem_cons.1 hf with rfl | hf
        · cases abandoned <;> trivial
        · obtain rfl := List.mem_singleton.1 hf
          trivial
  intro f hf
  rcases List.mem_cons.1 hf with rfl | hf
  · trivial
  · rcases List.mem_cons.1 hf with rfl | hf
    · trivial
    · exact hfields _ f hf

/-- Values without keys are what they are when sorted. -/
theorem payloadItems_lookup (key : String) {v : Option Json}
    (h : v.map Json.sorted = ((payloadItems p event).lookup key).map Json.sorted) :
    v = (payloadItems p event).lookup key := by
  have hnodup : ((payloadItems p event).map Prod.fst).Nodup := by
    rw [payloadItems_keys]
    exact payloadKeys_nodup _
  cases hlookup : (payloadItems p event).lookup key with
  | none =>
      rw [hlookup] at h
      simpa using h
  | some w =>
      have hw : Json.Scalar w :=
        payloadItems_scalar p event _ ((Json.mem_iff_lookup hnodup).2 hlookup)
      have hsorted : Json.sorted w = w := (Json.sorted_eq_scalar hw).2 rfl
      rw [hlookup] at h
      cases v with
      | none => simp at h
      | some u =>
          have hu : Json.sorted u = w := (Option.some.inj h).trans hsorted
          rw [(Json.sorted_eq_scalar hw).1 hu]

end Payloads

/-- A payload with its keys in another order describes the event. -/
theorem describesPayload_of_lookup {p : Pydantic} {event : DomainEvent}
    {fields : List (String × Json)}
    (hkeys : (fields.map Prod.fst).Perm ((payloadItems p event).map Prod.fst))
    (hlookup : ∀ key, (fields.lookup key).map Json.sorted
      = ((payloadItems p event).lookup key).map Json.sorted) : DescribesPayload p event fields where
  keys := by
    rw [payloadItems_keys] at hkeys
    rw [List.all_eq_true]
    intro f hf
    exact List.contains_iff_mem.2 (hkeys.mem_iff.1 (List.mem_map_of_mem (f := Prod.fst) hf))
  items key := payloadItems_lookup p event key (hlookup key)

/-! ### Rows describe their events -/

/-- What JSONB keeps of a payload describes the event. -/
theorem describesPayload_of_same {p : Pydantic} {event : DomainEvent} {stored : Json}
    (h : Json.Same (payloadJson p event) stored) :
    ∃ fields, stored = .obj fields ∧ DescribesPayload p event fields := by
  obtain ⟨fields, rfl, hkeys, hlookup⟩ := h.of_obj (by
    change ((payloadItems p event).map Prod.fst).Nodup
    rw [payloadItems_keys]
    exact payloadKeys_nodup _)
  exact ⟨fields, rfl, describesPayload_of_lookup hkeys hlookup⟩

/-- **A row is rebuilt to its event.** -/
theorem rebuildEvent_of_columns {p : Pydantic} (hp : p.Faithful) {event : DomainEvent}
    (henc : Encodable event) {columns : OutboxColumns} (hid : columns.eventId = event.eventId)
    (htype : columns.eventType = event.type.value) (hversion : columns.eventVersion = 1)
    (haggregate : columns.aggregateType = "research_job")
    (haggregateId : columns.aggregateId = event.aggregateId)
    (hat : columns.occurredAt = event.occurredAt)
    (hpayload : Json.Same (payloadJson p event) columns.payload) :
    rebuildEvent p columns = some event := by
  obtain ⟨fields, hfields, hdescribes⟩ := describesPayload_of_same hpayload
  rw [rebuildEvent, hid, htype, hversion, haggregate, haggregateId, hat, hfields]
  refine parseDomainEvent_of_describes hp henc ⟨rfl, rfl, hp.uuid_object _, rfl,
    hp.datetime_object _, ?_, fields, rfl, hdescribes⟩
  change (Option.all p.literalOne (some (.json (.int 1))) && true) = true
  simpa using hp.literalOne_one

/-! ### Texts describe their events -/

theorem lookup_rawFields (fields : List (String × Json)) (key : String) :
    (rawFields fields).lookup key = (fields.lookup key).map RawValue.json := by
  induction fields with
  | nil => rfl
  | cons f fields ih =>
      rw [rawFields] at ih ⊢
      rw [List.map_cons, List.lookup_cons, List.lookup_cons, ih]
      cases key == f.1 <;> rfl

/-- The items of the dump of an event. -/
def eventItems (p : Pydantic) (event : DomainEvent) : List (String × Json) :=
  [("event_id", .str event.eventId), ("event_version", .int 1),
    ("aggregate_type", .str "research_job"), ("aggregate_id", .str event.aggregateId),
    ("occurred_at", .str (p.dumpDatetime event.occurredAt)), ("event_type", .str event.type.value),
    ("payload", payloadJson p event)]

/-- **The canonical text of an event describes it.** -/
theorem describes_sorted {p : Pydantic} (hp : p.Faithful) {event : DomainEvent}
    (henc : Encodable event) : ∃ fields, Json.sorted (eventJson p event) = .obj fields ∧
      Describes p event (rawFields fields) := by
  obtain ⟨fields, hsorted, hkeys, hlookup⟩ :=
    Json.sorted_obj (eventItems p event) (by
      change envelopeKeys.Nodup
      decide)
  obtain ⟨items, hitems, hitemKeys, hitemLookup⟩ :=
    Json.sorted_obj (payloadItems p event) (by
      rw [payloadItems_keys]
      exact payloadKeys_nodup _)
  have hraw : ∀ key, (rawFields fields).lookup key
      = (((eventItems p event).lookup key).map Json.sorted).map RawValue.json := by
    intro key
    rw [lookup_rawFields, hlookup]
  have hdescribes : DescribesPayload p event items := by
    refine describesPayload_of_lookup hitemKeys ?_
    intro key
    rw [hitemLookup]
    cases h : (payloadItems p event).lookup key with
    | none => rfl
    | some v =>
        have hnodup : ((payloadItems p event).map Prod.fst).Nodup := by
          rw [payloadItems_keys]
          exact payloadKeys_nodup _
        have hv := payloadItems_scalar p event _ ((Json.mem_iff_lookup hnodup).2 h)
        have hsame : Json.sorted v = v := (Json.sorted_eq_scalar hv).2 rfl
        simp [hsame]
  refine ⟨fields, hsorted, ?_, hraw _, ?_, hraw _, ?_, ?_, items, ?_, hdescribes⟩
  · rw [List.all_eq_true]
    intro f hf
    obtain ⟨g, hg, rfl⟩ := List.mem_map.1 hf
    have hmem := hkeys.mem_iff.1 (List.mem_map_of_mem (f := Prod.fst) hg)
    exact List.contains_iff_mem.2 hmem
  · rw [hraw]
    exact hp.uuid_text _ henc.eventId
  · rw [hraw]
    exact hp.datetime_text _ henc.occurredAt
  · rw [defaultsAgree, hraw, hraw]
    change (Option.all p.literalOne (some (.json (.int 1))) && true) = true
    simpa using hp.literalOne_one
  · rw [hraw]
    change some (RawValue.json (Json.sorted (.obj (payloadItems p event)))) = _
    rw [hitems]

/-! ### Texts are read back -/

theorem shortInt_of_lt {n : ℕ} (h : n < 10) : Json.ShortInt n := by
  rw [Json.ShortInt, Int.natAbs_natCast, Nat.toDigits_of_lt_base h, List.length_singleton]
  decide

theorem payloadItems_plain (p : Pydantic) (event : DomainEvent) :
    ∀ f ∈ payloadItems p event, Json.Plain 0 f.2 := by
  intro f hf
  rcases List.mem_cons.1 hf with rfl | hf
  · trivial
  · rcases List.mem_cons.1 hf with rfl | hf
    · trivial
    · obtain ⟨eventId, aggregateId, occurredAt, payload, hvalid⟩ := event
      cases payload with
      | created => cases hf
      | completed => cases hf
      | failed reasonClass =>
          obtain rfl := List.mem_singleton.1 hf
          trivial
      | awaitingReview workflowExecutionId =>
          obtain rfl := List.mem_singleton.1 hf
          trivial
      | retryScheduled abandoned jobRetryCount nextAttemptAt =>
          rcases List.mem_cons.1 hf with rfl | hf
          · cases abandoned <;> trivial
          · obtain rfl := List.mem_singleton.1 hf
            exact shortInt_of_lt (lt_of_le_of_lt hvalid.2.2.2 (by decide))

/-- The dump of an event is nested two deep. -/
theorem eventJson_plain (p : Pydantic) (event : DomainEvent) :
    Json.Plain 2 (eventJson p event) := by
  have hpayload : Json.Plain 1 (payloadJson p event) := by
    refine ⟨?_, payloadItems_plain p event⟩
    change ((payloadItems p event).map Prod.fst).Nodup
    rw [payloadItems_keys]
    exact payloadKeys_nodup _
  refine ⟨?_, ?_⟩
  · change envelopeKeys.Nodup
    decide
  · intro f hf
    simp only [List.mem_cons, List.not_mem_nil, or_false] at hf
    rcases hf with rfl | rfl | rfl | rfl | rfl | rfl | rfl
    · trivial
    · exact shortInt_of_lt (n := 1) (by decide)
    · trivial
    · trivial
    · trivial
    · trivial
    · exact hpayload

section Texts

variable {p : Pydantic} {limit : ℕ} {event : DomainEvent}

/-- The canonical text of an event is a JSON object that describes it. -/
theorem loads_serializeDomainEvent (hp : p.Faithful) (hlimit : 2 ≤ limit)
    (henc : Encodable event) :
    ∃ fields, Json.loads limit (serializeDomainEvent p event) = .ok (.obj fields) ∧
      parseDomainEvent p (rawFields fields) = some event := by
  obtain ⟨fields, hsorted, hdescribes⟩ := describes_sorted hp henc
  refine ⟨fields, ?_, parseDomainEvent_of_describes hp henc hdescribes⟩
  rw [serializeDomainEvent, Json.loads_dumps ((eventJson_plain p event).mono hlimit), hsorted]

/-- **The canonical text of an event is parsed as it.** -/
theorem parseRetained_serializeDomainEvent (hp : p.Faithful) (hlimit : 2 ≤ limit)
    (henc : Encodable event) :
    parseRetained p limit (serializeDomainEvent p event) = some event := by
  obtain ⟨fields, hloads, hparse⟩ := loads_serializeDomainEvent hp hlimit henc
  rw [parseRetained, hloads]
  exact hparse

/-! ### Records -/

/-- The headers of a published record are read back. -/
theorem headersAsMapping_headersFor (event : DomainEvent) (traceparent : Option String) :
    headersAsMapping (headersFor event traceparent)
      = .ok ([("event_type", event.type.value), ("event_version", "1"),
          ("aggregate_type", "research_job")], traceparent) := by
  have hbytes : ∀ s : String, headerText (.bytes s.toByteArray) = .ok s := by
    intro s
    rw [headerText, Python.fromUTF8?_toByteArray]
  cases traceparent with
  | none =>
      simp [headersAsMapping, headersFor, headerPairs, readHeaders, ensure, hbytes, bind,
        Except.bind, pure, Except.pure, expectedHeaderKeys]
  | some t =>
      have htrace : bestEffortHeaderText (.bytes t.toByteArray) = some t :=
        Python.fromUTF8?_toByteArray t
      simp [headersAsMapping, headersFor, headerPairs, readHeaders, ensure, hbytes, htrace, bind,
        Except.bind, pure, Except.pure, expectedHeaderKeys]

/-- **What is published is decoded**, unless it is too large. -/
theorem decodeMessage_publishedMessage (hp : p.Faithful) (hlimit : 2 ≤ limit)
    (henc : Encodable event)
    (hsize : (serializeDomainEvent p event).utf8ByteSize ≤ maxMessageValueBytes)
    (traceparent : Option String) :
    decodeMessage p limit (publishedMessage p event traceparent) = .ok (event, traceparent) := by
  obtain ⟨fields, hloads, hparse⟩ := loads_serializeDomainEvent hp hlimit henc
  have htext : valueText (some (serializeDomainEvent p event).toByteArray)
      = .ok (serializeDomainEvent p event) := by
    rw [valueText, if_neg (by rw [String.size_toByteArray]; omega), Python.fromUTF8?_toByteArray]
  have hobject : valueObject limit (serializeDomainEvent p event) = .ok fields := by
    rw [valueObject, hloads]
  simp [decodeMessage, publishedMessage, headersAsMapping_headersFor, htext, hobject, hparse,
    Except.mapError, bind, Except.bind, ensure, pure, Except.pure, List.lookup_cons]

end Texts

/-! ### Sizes -/

/-- Every identifier of the event has at most 128 characters. -/
def ShortIdentifiers (event : DomainEvent) : Prop :=
  event.aggregateId.length ≤ 128 ∧
    match event.payload with
    | .awaitingReview workflowExecutionId => workflowExecutionId.length ≤ 128
    | .retryScheduled (some abandoned) _ _ => abandoned.length ≤ 128
    | _ => True

/-- The bytes of an item of an object, with its quotes, its colon and its comma. -/
def itemBytes (f : String × Json) : ℕ :=
  6 * f.1.length + 4 + Json.byteLength (Json.print (Json.sorted f.2))

theorem itemBytes_str (key : String) {text : String} (k : ℕ) {n : ℕ} (hk : key.length ≤ k)
    (hn : text.length ≤ n) :
    itemBytes (key, .str text) ≤ 6 * k + 6 * n + 6 := by
  have htext := Json.byteLength_print_str text
  change 6 * key.length + 4 + Json.byteLength (Json.print (.str text)) ≤ _
  omega

theorem itemBytes_int (key : String) {n : ℕ} (k : ℕ) (hk : key.length ≤ k) (hn : n ≤ 2) :
    itemBytes (key, .int n) ≤ 6 * k + 6 := by
  have hprint : Json.byteLength (Json.print (.int n)) = 1 := by
    rcases n with _ | _ | _ | n
    · decide
    · decide
    · decide
    · omega
  change 6 * key.length + 4 + Json.byteLength (Json.print (.int n)) ≤ _
  omega

theorem itemBytes_null (key : String) (k : ℕ) (hk : key.length ≤ k) :
    itemBytes (key, .null) ≤ 6 * k + 8 := by
  change 6 * key.length + 4 + Json.byteLength (Json.print .null) ≤ _
  have hprint : Json.byteLength (Json.print .null) = 4 := by decide
  omega

section Sizes

variable {p : Pydantic} {event : DomainEvent}

theorem payloadFields_bytes (hvalid : event.payload.Valid) (hshort : ShortIdentifiers event) :
    ((payloadFields event.payload).map itemBytes).sum ≤ 1200 := by
  obtain ⟨eventId, aggregateId, occurredAt, payload, _⟩ := event
  obtain ⟨-, hother⟩ := hshort
  cases payload with
  | created => simp [payloadFields]
  | completed => simp [payloadFields]
  | failed reasonClass =>
      have h := itemBytes_str "reason_class" 12 (by decide) hvalid.2.2
      simp only [payloadFields, List.map_cons, List.map_nil, List.sum_cons, List.sum_nil]
      omega
  | awaitingReview workflowExecutionId =>
      have h := itemBytes_str "workflow_execution_id" 21 (by decide) hother
      simp only [payloadFields, List.map_cons, List.map_nil, List.sum_cons, List.sum_nil]
      omega
  | retryScheduled abandoned jobRetryCount nextAttemptAt =>
      have hcount := itemBytes_int "job_retry_count" 15 (by decide) hvalid.2.2
      simp only [payloadFields, List.map_cons, List.map_nil, List.sum_cons, List.sum_nil]
      cases abandoned with
      | none =>
          have h := itemBytes_null "abandoned_workflow_execution_id" 31 (by decide)
          simp only [Option.elim]
          omega
      | some text =>
          have h := itemBytes_str "abandoned_workflow_execution_id" 31 (by decide)
            hother
          simp only [Option.elim]
          omega

/-- The text of a payload is far from its bound. -/
theorem payloadJson_bytes (hp : p.Faithful) (henc : Encodable event)
    (hshort : ShortIdentifiers event) :
    Json.byteLength (Json.print (Json.sorted (payloadJson p event))) ≤ 3000 := by
  have hall : Json.byteLength (Json.print (Json.sorted (payloadJson p event)))
      ≤ 2 + ((payloadItems p event).map itemBytes).sum :=
    Json.byteLength_sorted_obj (payloadItems p event)
  have hjob := itemBytes_str "research_job_id" 15 (by decide) hshort.1
  have hkey : event.type.timestampKey.length ≤ 17 := by
    cases event.type <;> decide
  have htime := itemBytes_str _ 17 hkey (hp.datetime_length _ henc.timestamp)
  have hother := payloadFields_bytes event.valid.2 hshort
  rw [payloadItems, List.map_cons, List.map_cons, List.sum_cons, List.sum_cons] at hall
  omega

/-- The text of an event is far from the decoder's bound. -/
theorem serializeDomainEvent_bytes (hp : p.Faithful) (henc : Encodable event)
    (hshort : ShortIdentifiers event) :
    (serializeDomainEvent p event).utf8ByteSize ≤ maxMessageValueBytes := by
  have hall : Json.byteLength (Json.print (Json.sorted (eventJson p event)))
      ≤ 2 + ((eventItems p event).map itemBytes).sum :=
    Json.byteLength_sorted_obj (eventItems p event)
  have hid := itemBytes_str "event_id" 8 (by decide) henc.eventId.1.le
  have hversion : itemBytes ("event_version", .int 1) ≤ 6 * 13 + 6 :=
    itemBytes_int _ 13 (by decide) (by decide : 1 ≤ 2)
  have haggregate := itemBytes_str "aggregate_type" 14
    (by decide : _ ≤ 14) (by decide : "research_job".length ≤ 12)
  have haggregateId := itemBytes_str "aggregate_id" 12 (by decide) hshort.1
  have hat := itemBytes_str "occurred_at" 11 (by decide)
    (hp.datetime_length _ henc.occurredAt)
  have htype : itemBytes ("event_type", .str event.type.value) ≤ 6 * 10 + 6 * 28 + 6 :=
    itemBytes_str _ 10 (n := 28) (by decide) (by cases event.type <;> decide)
  have hpayload : itemBytes ("payload", payloadJson p event) ≤ 3046 := by
    have hbytes := payloadJson_bytes hp henc hshort
    change 6 * "payload".length + 4
      + Json.byteLength (Json.print (Json.sorted (payloadJson p event))) ≤ 3046
    have hlen : "payload".length = 7 := by decide
    omega
  rw [eventItems] at hall
  simp only [List.map_cons, List.map_nil, List.sum_cons, List.sum_nil] at hall
  rw [serializeDomainEvent, Json.dumps, Json.utf8ByteSize_ofList]
  change _ ≤ 32768
  omega

end Sizes

/-! ### Rows -/

/-- The database takes the row of the event. -/
structure DatabaseTakes (p : Pydantic) (jsonb : Json → Option Json) (outbox : Outbox)
    (event : DomainEvent) (traceparent : Option String) : Prop where
  newId : ∀ row ∈ outbox.rows, row.event.eventId ≠ event.eventId
  nonBlank : sqlNonBlank event.aggregateId = true
  noZero : Char.ofNat 0 ∉ event.aggregateId.toList
  payload : (jsonb (payloadJson p event)).isSome
  traceparent : traceparent.all traceparentFormat = true

section Rows

variable {p : Pydantic} {jsonb : Json → Option Json} {outbox : Outbox} {event : DomainEvent}
  {traceparent : Option String}

theorem serializePayload_ok (hp : p.Faithful) (henc : Encodable event)
    (hshort : ShortIdentifiers event) : serializePayload p event = .ok (payloadJson p event) := by
  have hbytes := payloadJson_bytes hp henc hshort
  have hsize : (payloadJson p event).dumps.utf8ByteSize ≤ maxPayloadJsonBytes := by
    rw [Json.dumps, Json.utf8ByteSize_ofList]
    exact hbytes.trans (by decide)
  rw [serializePayload, ensure, if_pos hsize]
  rfl

/-- **An event is enqueued exactly when the database takes its row**, and then its columns are
those of the event. -/
theorem enqueueColumns_eq_ok (hp : p.Faithful) (henc : Encodable event)
    (hshort : ShortIdentifiers event) {outbox' : Outbox} {columns : OutboxColumns} :
    enqueueColumns p jsonb outbox event traceparent = .ok (outbox', columns) ↔
      DatabaseTakes p jsonb outbox event traceparent ∧
        outbox.enqueue event traceparent = .ok outbox' ∧
        ∃ stored, jsonb (payloadJson p event) = some stored ∧
          columns = ⟨event.eventId, event.type.value, 1, "research_job", event.aggregateId,
            event.occurredAt, stored⟩ := by
  rw [enqueueColumns, serializePayload_ok hp henc hshort]
  constructor
  · intro h
    simp only [Except.mapError, bind_eq_ok, ensure_eq_ok] at h
    obtain ⟨payload, hpayload, _, hzero, h⟩ := h
    obtain rfl := Except.ok.inj hpayload
    cases hjsonb : jsonb (payloadJson p event) with
    | none =>
        rw [hjsonb] at h
        cases h
    | some stored =>
        rw [hjsonb] at h
        simp only [bind_eq_ok, pure_eq_ok] at h
        obtain ⟨outbox'', henqueue, hpair⟩ := h
        obtain ⟨rfl, rfl⟩ := Prod.mk.inj hpair
        have hrow := henqueue
        simp only [Outbox.enqueue, bind_eq_ok, ensure_eq_ok] at hrow
        obtain ⟨_, hnew, _, ⟨hblank, -, htrace⟩, -⟩ := hrow
        exact ⟨⟨hnew, hblank, hzero, by rw [hjsonb]; rfl, htrace⟩, henqueue, stored, rfl, rfl⟩
  · rintro ⟨htakes, henqueue, stored, hjsonb, rfl⟩
    simp only [Except.mapError, bind_eq_ok, ensure_eq_ok]
    refine ⟨_, rfl, (), htakes.noZero, ?_⟩
    rw [hjsonb]
    simp only [bind_eq_ok, pure_eq_ok]
    exact ⟨outbox', henqueue, rfl⟩

theorem DatabaseTakes.enqueue (h : DatabaseTakes p jsonb outbox event traceparent)
    (hshort : ShortIdentifiers event) :
    ∃ outbox', outbox.enqueue event traceparent = .ok outbox' := by
  simp only [Outbox.enqueue, bind_eq_ok, ensure_eq_ok]
  exact ⟨_, (), h.newId, (), ⟨h.nonBlank, hshort.1, h.traceparent⟩, rfl⟩

end Rows

/-! ### The round trip -/

/-- An event whose canonical text fits is retained by it. -/
theorem retainedCanonicalValue_of_size {p : Pydantic} {event : DomainEvent}
    (h : (serializeDomainEvent p event).utf8ByteSize ≤ maxMessageValueBytes)
    (sha256 : ByteArray → String) (value : Option ByteArray) :
    (buildRetention p sha256 value (some event)).retainedCanonicalValue
      = some (serializeDomainEvent p event) := by
  have hfits : decide ((serializeDomainEvent p event).utf8ByteSize
      ≤ maxRetainedCanonicalValueBytes) = true := decide_eq_true h
  simp only [buildRetention, hfits, if_true]

/-- **An event survives its codec.**  An event a builder returned, with identifiers of at most 128
characters, is enqueued exactly when the database takes its row; its row is rebuilt to it, its
record is within the decoder's bound and decoded to it, and the canonical value a dead letter
retains is parsed as it. -/
theorem event_round_trip {p : Pydantic} (hp : p.Faithful) {jsonb : Json → Option Json}
    (hjsonb : ∀ v stored, jsonb v = some stored → Json.Same v stored) {limit : ℕ}
    (hlimit : 2 ≤ limit) {outbox : Outbox} {event : DomainEvent} {traceparent : Option String}
    (hbuilt : BuiltEvent event) (hshort : ShortIdentifiers event) :
    ((∃ r, enqueueColumns p jsonb outbox event traceparent = .ok r) ↔
      DatabaseTakes p jsonb outbox event traceparent) ∧
    (∀ outbox' columns, enqueueColumns p jsonb outbox event traceparent = .ok (outbox', columns) →
      rebuildEvent p columns = some event) ∧
    (serializeDomainEvent p event).utf8ByteSize ≤ maxMessageValueBytes ∧
    (∀ t, decodeMessage p limit (publishedMessage p event t) = .ok (event, t)) ∧
    ∀ sha256 value, ∃ text,
      (buildRetention p sha256 value (some event)).retainedCanonicalValue = some text ∧
        parseRetained p limit text = some event := by
  have henc := hbuilt.encodable
  have hsize := serializeDomainEvent_bytes hp henc hshort
  refine ⟨⟨?_, ?_⟩, ?_, hsize, decodeMessage_publishedMessage hp hlimit henc hsize, ?_⟩
  · rintro ⟨⟨outbox', columns⟩, h⟩
    exact ((enqueueColumns_eq_ok hp henc hshort).1 h).1
  · intro h
    obtain ⟨outbox', henqueue⟩ := h.enqueue hshort
    obtain ⟨stored, hstored⟩ := Option.isSome_iff_exists.1 h.payload
    exact ⟨_, (enqueueColumns_eq_ok hp henc hshort).2 ⟨h, henqueue, stored, hstored, rfl⟩⟩
  · intro outbox' columns h
    obtain ⟨-, -, stored, hstored, rfl⟩ := (enqueueColumns_eq_ok hp henc hshort).1 h
    exact rebuildEvent_of_columns hp henc rfl rfl rfl rfl rfl rfl (hjsonb _ _ hstored)
  · intro sha256 value
    refine ⟨serializeDomainEvent p event, ?_, parseRetained_serializeDomainEvent hp hlimit henc⟩
    exact retainedCanonicalValue_of_size hsize sha256 value

/-! ### A validation library -/

/-- A validation that accepts the canonical texts only. -/
def isoPydantic : Pydantic where
  uuid
    | .uuid text => some text
    | .json (.str text) => if UuidText text then some text else none
    | _ => none
  datetime
    | .datetime t => some t
    | .json (.str text) => Python.parseIsoDatetime text
    | _ => none
  integer
    | .json (.int n) => some n
    | _ => none
  literalOne
    | .json (.int n) => n = 1
    | _ => false
  dumpDatetime := Python.isoDatetime

theorem isoPydantic_faithful : isoPydantic.Faithful where
  uuid_object _ := rfl
  uuid_text _ h := if_pos h
  datetime_object _ := rfl
  datetime_text _ h := Python.parseIsoDatetime_isoDatetime h
  datetime_length t _ := (Python.length_isoDatetime t).trans (by decide)
  integer_int _ := rfl
  literalOne_one := rfl

/-- A scheduled retry with an abandoned execution. -/
def retryEvent : DomainEvent where
  eventId := "5a1c0000-0000-4000-8000-00000000000e"
  aggregateId := "job-ß"
  occurredAt := 1767319445060708
  payload := .retryScheduled (some "execution-1") 1 1767319505000000
  valid := by decide

theorem retryEvent_built : BuiltEvent retryEvent := by
  have h : buildResearchJobRetryScheduled retryEvent.eventId retryEvent.aggregateId
      (some " execution-1 ") 1 1767319505000000 1767319445060708 = .ok retryEvent := by
    decide +kernel
  exact .retryScheduled (by decide +kernel) (by decide) (by decide) h

theorem retryEvent_short : ShortIdentifiers retryEvent :=
  ⟨by decide +kernel, (by decide +kernel : "execution-1".length ≤ 128)⟩

/-- The event of a scheduled retry goes through the codec. -/
theorem event_round_trip_retry :
    BuiltEvent retryEvent ∧
    (∃ r, enqueueColumns isoPydantic some {} retryEvent none = .ok r) ∧
    (∀ outbox' columns,
      enqueueColumns isoPydantic some {} retryEvent none = .ok (outbox', columns) →
        rebuildEvent isoPydantic columns = some retryEvent) ∧
    decodeMessage isoPydantic 100 (publishedMessage isoPydantic retryEvent none)
      = .ok (retryEvent, none) := by
  obtain ⟨hiff, hrebuild, -, hdecode, -⟩ := @event_round_trip isoPydantic isoPydantic_faithful
    some (fun v stored h => by cases h; rfl) 100 (by decide) {} retryEvent none retryEvent_built
    retryEvent_short
  have htakes : DatabaseTakes isoPydantic some {} retryEvent none :=
    ⟨List.forall_mem_nil _, by decide +kernel, by decide +kernel, rfl, rfl⟩
  exact ⟨retryEvent_built, hiff.2 htakes, hrebuild, hdecode none⟩

/-- The id of this job is blank; its events are built, and the outbox refuses them. -/
def blankEvent : DomainEvent where
  eventId := "5a1c0000-0000-4000-8000-00000000000f"
  aggregateId := " "
  occurredAt := 0
  payload := .created
  valid := by decide

/-- **Not every event that is built is enqueued**: an id of one blank is one the builders take. -/
theorem blank_event_refused :
    buildResearchJobCreated blankEvent.eventId " " 0 = .ok blankEvent ∧
    BuiltEvent blankEvent ∧ ShortIdentifiers blankEvent ∧
    enqueueColumns isoPydantic some {} blankEvent none = .error outboxEnqueueError := by
  have hbuild : buildResearchJobCreated blankEvent.eventId " " 0 = .ok blankEvent :=
    buildEvent_eq_ok.2 ⟨rfl, rfl, rfl, rfl⟩
  have hbuilt : BuiltEvent blankEvent := .created (by decide +kernel) (by decide) hbuild
  have hshort : ShortIdentifiers blankEvent := ⟨by decide +kernel, trivial⟩
  have henqueue : ({} : Outbox).enqueue blankEvent none = .error outboxEnqueueError := by
    have hblank : ¬ (sqlNonBlank " " = true ∧ " ".length ≤ 128 ∧
        (none : Option String).all traceparentFormat = true) := by decide +kernel
    rw [Outbox.enqueue, bind_eq_error]
    refine .inr ⟨(), ensure_eq_ok.2 (List.forall_mem_nil _), ?_⟩
    rw [bind_eq_error]
    exact .inl (ensure_eq_error.2 ⟨hblank, rfl⟩)
  have hpayload := serializePayload_ok isoPydantic_faithful hbuilt.encodable hshort
  refine ⟨hbuild, hbuilt, hshort, ?_⟩
  rw [enqueueColumns, hpayload, ensure, if_pos (by decide +kernel), henqueue]
  rfl

end Atlas
