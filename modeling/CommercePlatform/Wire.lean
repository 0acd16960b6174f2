/-
Messages as Kafka carries them (`publishEvent` and `consumeTopics` of
`packages/messaging`).

Kafka carries bytes.  The producer writes the payload as JSON text and each header as a
text; the consumer decodes the one header that its filter needs, and parses the payload
of a message that the filter lets through.  A payload that is no JSON makes it raise.
-/
import CommercePlatform.Js.Interchange
import CommercePlatform.Messaging

namespace CommercePlatform

open Js

/-- A record of a topic. -/
structure KafkaRecord where
  topic : String
  key : String
  value : Option Bytes
  headers : List (String × Bytes)

/-- The record that `publishEvent` hands to the producer. -/
def publishRecord (topic routingKey : String) (payload : Json) (headers : List (String × Json)) :
    KafkaRecord :=
  let normalizedHeaders := Fields.spread [("routingKey", some (.str routingKey))]
    (headers.map fun header => (header.1, some header.2))
  { topic := topic
    key := partitionKey routingKey payload
    value := some (Buffer.ofText payload.stringify)
    headers := normalizedHeaders.map fun header => (header.1, Buffer.ofText (textOf header.2)) }

/-- `headers?.[name]?.toString()`. -/
def KafkaRecord.header (record : KafkaRecord) (name : String) : Option String :=
  (record.headers.lookup name).map Buffer.toText

/-- `value?.toString("utf8") ?? "\x7b\x7d"`. -/
def KafkaRecord.text (record : KafkaRecord) : String :=
  (record.value.map Buffer.toText).getD "\x7b\x7d"

/-- What `eachMessage` does with a record. -/
inductive Reception where
  | filtered
  | handed (payload : Value)
  | raised

/-- `eachMessage`, up to the handler. -/
def ConsumerGroup.eachMessage (group : ConsumerGroup) (record : KafkaRecord) : Reception :=
  let unwanted := match record.header "routingKey" with
    | none => true
    | some routingKey => routingKey == "" || !group.routingKeys.contains routingKey
  if !group.routingKeys.isEmpty && unwanted then .filtered
  else
    match Value.parse record.text.toList with
    | none => .raised
    | some payload => .handed payload

/-- The message that a record carries, if its payload is JSON. -/
def KafkaRecord.read (record : KafkaRecord) : Option KafkaMessage :=
  (Value.parse record.text.toList).bind fun payload => payload.toJson.map fun value =>
    { topic := record.topic
      key := record.key
      value := value
      headers := record.headers.map fun header => (header.1, Buffer.toText header.2) }

/-! ### What is read -/

/-- **A message that is published is read as it was.** -/
theorem read_publishRecord (topic routingKey : String) {payload : Json} (h : payload.Travels)
    (headers : List (String × Json)) :
    (publishRecord topic routingKey payload headers).read =
      some (publishEvent topic routingKey payload headers) := by
  obtain ⟨value, hvalue, hjson⟩ := Option.bind_eq_some_iff.mp (Json.read_stringify h)
  have htext : (publishRecord topic routingKey payload headers).text = payload.stringify :=
    Buffer.toText_ofText _
  simp only [KafkaRecord.read, htext, hvalue, Option.bind_some, hjson, Option.map_some]
  simp [publishRecord, publishEvent, List.map_map, Function.comp_def, Buffer.toText_ofText]

theorem KafkaRecord.header_of_read {record : KafkaRecord} {message : KafkaMessage}
    (h : record.read = some message) (name : String) : record.header name = message.header name := by
  obtain ⟨payload, -, h⟩ := Option.bind_eq_some_iff.mp h
  obtain ⟨value, -, rfl⟩ := Option.map_eq_some_iff.mp h
  show (record.headers.lookup name).map Buffer.toText =
    (record.headers.map fun header => (header.1, Buffer.toText header.2)).lookup name
  induction record.headers with
  | nil => rfl
  | cons header rest ih =>
      rw [List.map_cons, List.lookup_cons, List.lookup_cons]
      cases hname : name == header.1 with
      | true => rfl
      | false => exact ih

/-- A group that reads the topic hands the payload on just if it accepts the message. -/
theorem ConsumerGroup.eachMessage_of_read (group : ConsumerGroup) {record : KafkaRecord}
    {message : KafkaMessage} (h : record.read = some message)
    (htopic : group.topics.contains record.topic = true) :
    ∃ payload, payload.toJson = some message.value ∧
      group.eachMessage record =
        if group.accepts message then .handed payload else .filtered := by
  have hheader := KafkaRecord.header_of_read h "routingKey"
  obtain ⟨payload, hpayload, h⟩ := Option.bind_eq_some_iff.mp h
  obtain ⟨value, hvalue, rfl⟩ := Option.map_eq_some_iff.mp h
  refine ⟨payload, hvalue, ?_⟩
  unfold ConsumerGroup.eachMessage ConsumerGroup.accepts
  simp only [htopic, hpayload, hheader, Bool.true_and]
  generalize KafkaMessage.header _ "routingKey" = routingKey
  cases hempty : group.routingKeys.isEmpty with
  | true => simp
  | false =>
      cases routingKey with
      | none => simp
      | some key =>
          by_cases hkey : key = ""
          · simp [hkey]
          · by_cases hmem : key ∈ group.routingKeys
            · simp [hkey, hmem]
            · simp [hmem]

end CommercePlatform
