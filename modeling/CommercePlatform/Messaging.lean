/-
Publishing events and choosing who reads them (`packages/messaging`).

A topic keeps every message it was sent.  All groups that subscribe to a topic see all
of its messages; which of them a group handles is decided by the `routingKey` header
alone, and what the handler then does by the `eventType` of the payload.
-/
import CommercePlatform.Shared

namespace CommercePlatform

open Js

/-- A stored message.  Its value is the JSON text of a payload, shown here parsed. -/
structure KafkaMessage where
  topic : String
  key : String
  value : Json
  headers : List (String × String)
  deriving DecidableEq

/-- A header, which is missing or a text. -/
def KafkaMessage.header (message : KafkaMessage) (name : String) : Option String :=
  message.headers.lookup name

/-- The partition key: the order the payload is about, if it names one. -/
def partitionKey (routingKey : String) : Json → String
  | .obj fields =>
      match fields.lookup "orderId" with
      | some orderId => orderId.toString
      | none => routingKey
  | _ => routingKey

/-- The message that `publishEvent` sends. -/
def publishEvent (topic routingKey : String) (payload : Json) (headers : List (String × Json)) :
    KafkaMessage :=
  let normalizedHeaders := Fields.spread [("routingKey", some (.str routingKey))]
    (headers.map fun header => (header.1, some header.2))
  { topic := topic
    key := partitionKey routingKey payload
    value := payload
    headers := normalizedHeaders.map fun header => (header.1, textOf header.2) }

/-- What a service passes to `consumeTopics`, less its handler. -/
structure ConsumerGroup where
  groupId : String
  topics : List String
  routingKeys : List String

/-- The group reads the topic, and its filter lets the message through to the handler. -/
def ConsumerGroup.accepts (group : ConsumerGroup) (message : KafkaMessage) : Bool :=
  group.topics.contains message.topic &&
    (group.routingKeys.isEmpty ||
      match message.header "routingKey" with
      | none => false
      | some routingKey => routingKey != "" && group.routingKeys.contains routingKey)

/-! ### The headers of a published message

A header of the row called `routingKey` would take the place of the row's routing key;
without one, the headers are the routing key and those of the row.
-/

theorem publishEvent_headers (topic routingKey : String) (payload : Json)
    {headers : List (String × Json)} (hkey : "routingKey" ∉ headers.map Prod.fst)
    (hnodup : (headers.map Prod.fst).Nodup) :
    (publishEvent topic routingKey payload headers).headers =
      ("routingKey", routingKey) :: headers.map fun header => (header.1, header.2.toString) := by
  have hspread : Fields.spread [("routingKey", some (.str routingKey))]
      (headers.map fun header => (header.1, some header.2)) =
      ("routingKey", some (.str routingKey)) ::
        headers.map fun header => (header.1, some header.2) := by
    refine Fields.spread_of_nodup ?_ ?_
    · intro field hfield hin
      obtain ⟨header, hheader, rfl⟩ := List.mem_map.mp hfield
      have heq : header.1 = "routingKey" := by simpa using hin
      exact hkey (heq ▸ List.mem_map_of_mem hheader)
    · simpa [List.map_map, Function.comp_def] using hnodup
  simp [publishEvent, hspread, textOf, Json.toString]

end CommercePlatform
