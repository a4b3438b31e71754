/-
**The forms of an event.**

An event is a validated model, a row of the outbox, a Kafka record with headers, and the canonical
text a dead letter retains.  The module has the functions between them: the validation and the dump
of `eventing/contracts.py` and `eventing/serialization.py`, the columns of `enqueue` and
`_rebuild_event`, the headers of the producer, `decode_message` of the consumer and the retention of
its dead letters.  What the validation library does with a single field is a parameter, and so is
what JSONB keeps of a payload.

Main definitions:

* `Atlas.RawValue`, `Atlas.Pydantic`, `Atlas.Pydantic.Faithful` — the fields before validation, the
  validation of one, and what it is relied on for;
* `Atlas.parseDomainEvent`, `Atlas.eventJson`, `Atlas.serializeDomainEvent` — a model and its text;
* `Atlas.enqueueColumns`, `Atlas.rebuildEvent` — a row;
* `Atlas.headersFor`, `Atlas.decodeMessage` — a record;
* `Atlas.buildRetention` — what a dead letter retains.
-/

import Atlas.Events
import Atlas.PythonJson
import Atlas.PythonDatetime

set_option relaxedAutoImplicit false
set_option autoImplicit false

namespace Atlas

open Checked
open Python (Json)

/-! ### Validation -/

/-- A field of the mapping `parse_domain_event` gets: a JSON value, or what a column holds. -/
inductive RawValue where
  | json (v : Json)
  | uuid (text : String)
  | datetime (t : Instant)

/-- What the validation library does with one field, and how it writes a datetime. -/
structure Pydantic where
  /-- A field of type `UUID`. -/
  uuid : RawValue → Option String
  /-- A field of type `datetime` after `normalize_utc`, which refuses naive ones. -/
  datetime : RawValue → Option Instant
  /-- A field of type `int`. -/
  integer : RawValue → Option ℤ
  /-- A field of type `Literal[1]`. -/
  literalOne : RawValue → Bool
  /-- A datetime in a JSON dump. -/
  dumpDatetime : Instant → String

/-- The text of a UUID: hexadecimal digits in groups of 8, 4, 4, 4 and 12. -/
def UuidText (text : String) : Prop :=
  text.length = 36 ∧ ∀ i < 36, (text.toList[i]?).any
    (fun c => if i ∈ [8, 13, 18, 23] then c = '-' else c ∈ "0123456789abcdef".toList) = true

instance (text : String) : Decidable (UuidText text) := inferInstanceAs (Decidable (_ ∧ _))

/-- Validation follows the declared types, and a dump is validated to what was dumped. -/
structure Pydantic.Faithful (p : Pydantic) : Prop where
  uuid_object : ∀ text, p.uuid (.uuid text) = some text
  uuid_text : ∀ text, UuidText text → p.uuid (.json (.str text)) = some text
  datetime_object : ∀ t, p.datetime (.datetime t) = some t
  datetime_text : ∀ t, Python.Representable t →
    p.datetime (.json (.str (p.dumpDatetime t))) = some t
  datetime_length : ∀ t, Python.Representable t → (p.dumpDatetime t).length ≤ 32
  integer_int : ∀ n, p.integer (.json (.int n)) = some n
  literalOne_one : p.literalOne (.json (.int 1)) = true

/-- A field of type `str`. -/
def RawValue.text : RawValue → Option String
  | .json (.str s) => some s
  | _ => none

namespace EventType

def all : List EventType := [created, completed, failed, awaitingReview, retryScheduled]

/-- The discriminator of the union. -/
def parse (s : String) : Option EventType := all.find? (·.value = s)

/-- The payload field with the timestamp. -/
def timestampKey : EventType → String
  | created => "created_at"
  | completed => "completed_at"
  | failed => "failed_at"
  | awaitingReview => "entered_review_at"
  | retryScheduled => "next_attempt_at"

/-- The payload fields besides the job's id and the timestamp. -/
def otherKeys : EventType → List String
  | created | completed => []
  | failed => ["reason_class"]
  | awaitingReview => ["workflow_execution_id"]
  | retryScheduled => ["abandoned_workflow_execution_id", "job_retry_count"]

def payloadKeys (type : EventType) : List String :=
  "research_job_id" :: type.timestampKey :: type.otherKeys

end EventType

/-- The payload of a type with the timestamp `t`, from its fields. -/
def parsePayload (p : Pydantic) (type : EventType) (t : Instant) (fields : List (String × Json)) :
    Option Payload :=
  match type with
  | .created => some .created
  | .completed => some .completed
  | .failed => do
      let reasonClass ← (RawValue.json (← fields.lookup "reason_class")).text
      if 1 ≤ reasonClass.length ∧ reasonClass.length ≤ 128 then
        return .failed (Python.strip reasonClass)
      else none
  | .awaitingReview => do
      let workflowExecutionId ← (RawValue.json (← fields.lookup "workflow_execution_id")).text
      return .awaitingReview workflowExecutionId
  | .retryScheduled => do
      let abandoned ← match ← fields.lookup "abandoned_workflow_execution_id" with
        | .null => some none
        | v => (RawValue.json v).text.map some
      let count ← p.integer (.json (← fields.lookup "job_retry_count"))
      return .retryScheduled (abandoned.map Python.strip) count.toNat t

/-- The fields of the envelope. -/
def envelopeKeys : List String :=
  ["event_id", "event_version", "aggregate_type", "aggregate_id", "occurred_at", "event_type",
    "payload"]

/-- The fields of the envelope that have a default: when they are given, they have its value. -/
def defaultsAgree (p : Pydantic) (data : List (String × RawValue)) : Bool :=
  (data.lookup "event_version").all p.literalOne &&
    (data.lookup "aggregate_type").all fun v => v.text = some "research_job"

/-- `_align_payload`: the payload repeats the envelope. -/
def aligned (type : EventType) (aggregateId jobId : String) (occurredAt t : Instant) : Bool :=
  aggregateId = jobId && (type = .retryScheduled || occurredAt = t)

/-- Parse and validate a domain event from a structured mapping. -/
def parseDomainEvent (p : Pydantic) (data : List (String × RawValue)) : Option DomainEvent := do
  let type ← EventType.parse (← (← data.lookup "event_type").text)
  let eventId ← p.uuid (← data.lookup "event_id")
  let aggregateId ← (← data.lookup "aggregate_id").text
  let occurredAt ← p.datetime (← data.lookup "occurred_at")
  let fields ← match ← data.lookup "payload" with
    | .json (.obj fields) => some fields
    | _ => none
  let jobId ← (RawValue.json (← fields.lookup "research_job_id")).text
  let t ← p.datetime (.json (← fields.lookup type.timestampKey))
  let payload ← parsePayload p type t fields
  -- No field is missing; none is one the models do not have.
  if data.all (envelopeKeys.contains ·.1) && fields.all (type.payloadKeys.contains ·.1) &&
      defaultsAgree p data && aligned type aggregateId jobId occurredAt t then
    (buildEvent eventId aggregateId occurredAt payload).toOption
  else none

/-- A parsed JSON object as the mapping to validate. -/
def rawFields (fields : List (String × Json)) : List (String × RawValue) :=
  fields.map fun f => (f.1, .json f.2)

/-- `parse_domain_event` on a JSON value; all that is no object is refused. -/
def parseDomainEventJson (p : Pydantic) : Json → Option DomainEvent
  | .obj fields => parseDomainEvent p (rawFields fields)
  | _ => none

/-! ### Dump -/

/-- The fields of a payload besides the job's id and the timestamp. -/
def payloadFields : Payload → List (String × Json)
  | .created | .completed => []
  | .failed reasonClass => [("reason_class", .str reasonClass)]
  | .awaitingReview workflowExecutionId => [("workflow_execution_id", .str workflowExecutionId)]
  | .retryScheduled abandoned jobRetryCount _ =>
      [("abandoned_workflow_execution_id", abandoned.elim .null .str),
        ("job_retry_count", .int jobRetryCount)]

/-- The timestamp of a payload: that of the envelope, except for a scheduled retry. -/
def payloadTimestamp (event : DomainEvent) : Instant :=
  match event.payload with
  | .retryScheduled _ _ nextAttemptAt => nextAttemptAt
  | _ => event.occurredAt

/-- `event.payload.model_dump(mode="json")`. -/
def payloadJson (p : Pydantic) (event : DomainEvent) : Json :=
  .obj (("research_job_id", .str event.aggregateId) ::
    (event.type.timestampKey, .str (p.dumpDatetime (payloadTimestamp event))) ::
    payloadFields event.payload)

/-- `domain_event_to_canonical_dict`: `event.model_dump(mode="json")`. -/
def eventJson (p : Pydantic) (event : DomainEvent) : Json :=
  .obj [("event_id", .str event.eventId), ("event_version", .int 1),
    ("aggregate_type", .str "research_job"), ("aggregate_id", .str event.aggregateId),
    ("occurred_at", .str (p.dumpDatetime event.occurredAt)), ("event_type", .str event.type.value),
    ("payload", payloadJson p event)]

/-- Serialize a typed envelope to canonical JSON text. -/
def serializeDomainEvent (p : Pydantic) (event : DomainEvent) : String := (eventJson p event).dumps

/-! ### Rows -/

/-- Soft application bound on the payload. -/
def maxPayloadJsonBytes : ℕ := 16 * 1024

/-- The JSON-ready payload mapping for durable outbox storage. -/
def serializePayload (p : Pydantic) (event : DomainEvent) : Except Exc Json := do
  ensure ((payloadJson p event).dumps.utf8ByteSize ≤ maxPayloadJsonBytes)
    (.other "DomainEventSerializationError" false)
  return payloadJson p event

/-- The columns of a row of `outbox_events` that hold the event. -/
structure OutboxColumns where
  eventId : String
  eventType : String
  eventVersion : ℤ
  aggregateType : String
  aggregateId : String
  occurredAt : Instant
  payload : Json

/-- Insert the row of an event, with the columns it gets.  `jsonb` is what the database keeps of a
payload, if it takes it; a text with the character zero it never takes. -/
def enqueueColumns (p : Pydantic) (jsonb : Json → Option Json) (outbox : Outbox)
    (event : DomainEvent) (traceparent : Option String) : Except Exc (Outbox × OutboxColumns) := do
  let payload ← (serializePayload p event).mapError fun _ => outboxEnqueueError
  ensure (Char.ofNat 0 ∉ event.aggregateId.toList) outboxEnqueueError
  match jsonb payload with
  | none => throw outboxEnqueueError
  | some stored =>
      let outbox' ← outbox.enqueue event traceparent
      return (outbox', {
        eventId := event.eventId
        eventType := event.type.value
        eventVersion := 1
        aggregateType := "research_job"
        aggregateId := event.aggregateId
        occurredAt := event.occurredAt
        payload := stored })

/-- `_rebuild_event`: the event of a row. -/
def rebuildEvent (p : Pydantic) (columns : OutboxColumns) : Option DomainEvent :=
  parseDomainEvent p [
    ("event_id", .uuid columns.eventId),
    ("event_version", .json (.int columns.eventVersion)),
    ("event_type", .json (.str columns.eventType)),
    ("aggregate_type", .json (.str columns.aggregateType)),
    ("aggregate_id", .json (.str columns.aggregateId)),
    ("occurred_at", .datetime columns.occurredAt),
    ("payload", .json columns.payload)]

/-! ### Records -/

/-- A header value as the client library may return it. -/
inductive HeaderValue where
  | null
  | bytes (b : ByteArray)
  | text (s : String)
  | other

/-- A header key: a text, or something else. -/
inductive HeaderKey where
  | text (s : String)
  | other
  deriving DecidableEq

/-- The headers of a record as the client library may return them; in a list an item may be no
pair. -/
inductive MessageHeaders where
  | missing
  | mapping (pairs : List (HeaderKey × HeaderValue))
  | list (items : List (Option (HeaderKey × HeaderValue)))
  | other

/-- A Kafka record. -/
structure KafkaMessage where
  value : Option ByteArray
  headers : MessageHeaders

/-- The poison classifications, by `ALLOWED_FAILURE_CODES`. -/
inductive PoisonError where
  | missingHeaders
  | unexpectedHeadersShape
  | unexpectedHeaderKeyType
  | duplicateHeaderKey
  | nullHeaderValue
  | undecodableHeaderValue
  | unexpectedHeaderValueType
  | unexpectedHeaderKeys
  | eventTypeHeaderMismatch
  | eventVersionHeaderMismatch
  | aggregateTypeHeaderMismatch
  | missingValue
  | valueTooLarge
  | undecodableValue
  | invalidJson
  | valueNotAnObject
  | schemaValidationFailed
  | lifecycleOrderViolation
  deriving DecidableEq, Repr

/-- `failure_code_for`. -/
def PoisonError.failureCode : PoisonError → String
  | missingHeaders => "missing_headers"
  | unexpectedHeadersShape => "unexpected_headers_shape"
  | unexpectedHeaderKeyType => "unexpected_header_key_type"
  | duplicateHeaderKey => "duplicate_header_key"
  | nullHeaderValue => "null_header_value"
  | undecodableHeaderValue => "undecodable_header_value"
  | unexpectedHeaderValueType => "unexpected_header_value_type"
  | unexpectedHeaderKeys => "unexpected_header_keys"
  | eventTypeHeaderMismatch => "event_type_header_mismatch"
  | eventVersionHeaderMismatch => "event_version_header_mismatch"
  | aggregateTypeHeaderMismatch => "aggregate_type_header_mismatch"
  | missingValue => "missing_value"
  | valueTooLarge => "value_too_large"
  | undecodableValue => "undecodable_value"
  | invalidJson => "invalid_json"
  | valueNotAnObject => "value_not_an_object"
  | schemaValidationFailed => "schema_validation_failed"
  | lifecycleOrderViolation => "lifecycle_order_violation"

/-- What `decode_message` raises: a poison classification, or what `json.loads` lets through that is
no `JSONDecodeError`. -/
inductive DecodeError where
  | poison (error : PoisonError)
  | uncaught
  deriving DecidableEq

/-- `_headers_for`: the headers of a published record. -/
def headersFor (event : DomainEvent) (traceparent : Option String) : MessageHeaders :=
  .list ([some (.text "event_type", .bytes event.type.value.toUTF8),
    some (.text "event_version", .bytes "1".toUTF8),
    some (.text "aggregate_type", .bytes "research_job".toUTF8)] ++
    (traceparent.map fun t => some (.text "traceparent", .bytes t.toUTF8)).toList)

/-- The record the relay publishes for an event. -/
def publishedMessage (p : Pydantic) (event : DomainEvent) (traceparent : Option String) :
    KafkaMessage where
  value := some (serializeDomainEvent p event).toUTF8
  headers := headersFor event traceparent

/-- `_best_effort_header_text`. -/
def bestEffortHeaderText : HeaderValue → Option String
  | .text s => some s
  | .bytes b => String.fromUTF8? b
  | _ => none

/-- The text of a required header. -/
def headerText : HeaderValue → Except PoisonError String
  | .null => .error .nullHeaderValue
  | .bytes b =>
      match String.fromUTF8? b with
      | some s => .ok s
      | none => .error .undecodableHeaderValue
  | .text s => .ok s
  | .other => .error .unexpectedHeaderValueType

/-- The loop of `_headers_as_mapping`: the keys seen, the required headers and the traceparent. -/
def readHeaders : List String → List (String × String) → Option String →
    List (HeaderKey × HeaderValue) → Except PoisonError (List (String × String) × Option String)
  | _, mapping, traceparent, [] => .ok (mapping, traceparent)
  | _, _, _, (.other, _) :: _ => .error .unexpectedHeaderKeyType
  | seen, mapping, traceparent, (.text key, value) :: pairs => do
      ensure (key ∉ seen) .duplicateHeaderKey
      if key = "traceparent" then
        readHeaders (key :: seen) mapping (bestEffortHeaderText value) pairs
      else
        let text ← headerText value
        readHeaders (key :: seen) (mapping ++ [(key, text)]) traceparent pairs

/-- `_EXPECTED_HEADER_KEYS`. -/
def expectedHeaderKeys : List String := ["event_type", "event_version", "aggregate_type"]

/-- The pairs of the headers, whichever shape they have. -/
def headerPairs : MessageHeaders → Except PoisonError (List (HeaderKey × HeaderValue))
  | .missing => .error .missingHeaders
  | .mapping pairs => .ok pairs
  | .list items =>
      if items.all Option.isSome then .ok (items.filterMap id) else .error .unexpectedHeadersShape
  | .other => .error .unexpectedHeadersShape

/-- `_headers_as_mapping`. -/
def headersAsMapping (headers : MessageHeaders) :
    Except PoisonError (List (String × String) × Option String) := do
  let pairs ← headerPairs headers
  let (mapping, traceparent) ← readHeaders [] [] none pairs
  ensure (mapping.all (expectedHeaderKeys.contains ·.1) ∧
    expectedHeaderKeys.all fun key => (mapping.lookup key).isSome) .unexpectedHeaderKeys
  return (mapping, traceparent)

/-- Twice the payload cap plus envelope overhead. -/
def maxMessageValueBytes : ℕ := 32 * 1024

/-- The text of a record's value. -/
def valueText (value : Option ByteArray) : Except PoisonError String :=
  match value with
  | none => .error .missingValue
  | some bytes =>
      if maxMessageValueBytes < bytes.size then .error .valueTooLarge
      else
        match String.fromUTF8? bytes with
        | none => .error .undecodableValue
        | some text => .ok text

/-- The JSON object of a record's text. -/
def valueObject (limit : ℕ) (text : String) : Except DecodeError (List (String × Json)) :=
  match Json.loads limit text with
  | .ok (.obj fields) => .ok fields
  | .ok _ => .error (.poison .valueNotAnObject)
  | .error .decodeError => .error (.poison .invalidJson)
  | .error _ => .error .uncaught

/-- Strictly decode and validate one Kafka record into a typed event, with the best-effort text of
its `traceparent` header.  `limit` is how deep the interpreter follows nested JSON. -/
def decodeMessage (p : Pydantic) (limit : ℕ) (message : KafkaMessage) :
    Except DecodeError (DomainEvent × Option String) := do
  let (headers, traceparent) ← (headersAsMapping message.headers).mapError .poison
  let text ← (valueText message.value).mapError .poison
  let fields ← valueObject limit text
  match parseDomainEvent p (rawFields fields) with
  | none => throw (.poison .schemaValidationFailed)
  | some event =>
      ensure (headers.lookup "event_type" = some event.type.value)
        (.poison .eventTypeHeaderMismatch)
      ensure (headers.lookup "event_version" = some "1") (.poison .eventVersionHeaderMismatch)
      ensure (headers.lookup "aggregate_type" = some "research_job")
        (.poison .aggregateTypeHeaderMismatch)
      return (event, traceparent)

/-! ### Dead letters -/

/-- The fields a dead letter persists of its event. -/
structure DeadLetterRetention where
  eventId : Option String
  eventType : Option String
  eventVersion : Option ℤ
  aggregateType : Option String
  aggregateId : Option String
  payloadSha256 : String
  payloadByteLength : ℕ
  retainedCanonicalValue : Option String
  retainedHeaderEventType : Option String
  retainedHeaderEventVersion : Option String
  retainedHeaderAggregateType : Option String
  replayEligible : Bool
  deriving DecidableEq

/-- Bound on the canonical value a dead letter retains. -/
def maxRetainedCanonicalValueBytes : ℕ := maxMessageValueBytes

/-- `build_retention`: of a decoded event the canonical value, unless it is too long; of everything
else a hash and a length. -/
def buildRetention (p : Pydantic) (sha256 : ByteArray → String) (value : Option ByteArray)
    (decoded : Option DomainEvent) : DeadLetterRetention :=
  let raw := value.getD ByteArray.empty
  match decoded with
  | none =>
      { eventId := none, eventType := none, eventVersion := none, aggregateType := none
        aggregateId := none, payloadSha256 := sha256 raw, payloadByteLength := raw.size
        retainedCanonicalValue := none, retainedHeaderEventType := none
        retainedHeaderEventVersion := none, retainedHeaderAggregateType := none
        replayEligible := false }
  | some event =>
      let canonical := serializeDomainEvent p event
      let fits : Bool := canonical.utf8ByteSize ≤ maxRetainedCanonicalValueBytes
      { eventId := some event.eventId, eventType := some event.type.value, eventVersion := some 1
        aggregateType := some "research_job", aggregateId := some event.aggregateId
        payloadSha256 := sha256 raw, payloadByteLength := raw.size
        retainedCanonicalValue := if fits then some canonical else none
        retainedHeaderEventType := if fits then some event.type.value else none
        retainedHeaderEventVersion := if fits then some "1" else none
        retainedHeaderAggregateType := if fits then some "research_job" else none
        replayEligible := fits }

/-- `parse_domain_event(json.loads(text))`, as a replay reads a retained value. -/
def parseRetained (p : Pydantic) (limit : ℕ) (text : String) : Option DomainEvent :=
  match Json.loads limit text with
  | .ok v => parseDomainEventJson p v
  | .error _ => none

end Atlas
