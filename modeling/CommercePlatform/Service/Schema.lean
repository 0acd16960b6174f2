/-
What the schemas of the three services have in common.

Each service has tables of its own, an outbox of events to publish, and a table of the
events it has processed.  `β` are the keys of its own tables and `ρ` their rows.  The
statements on the shared tables are the same text in each service, up to the name of
the schema.
-/
import CommercePlatform.Txn.Program
import CommercePlatform.Pg.Column
import CommercePlatform.Messaging

namespace CommercePlatform

open Js Txn

/-- A row of an outbox. -/
structure OutboxRow where
  topic : String
  routingKey : String
  payload : Json
  headers : List (String × Json)
  publishedAt : Option ℕ
  createdAt : ℕ

/-- A row of a table of processed events. -/
structure ProcessedEvent where
  topic : String
  routingKey : String

/-- A primary key in the schema of a service. -/
inductive ServiceKey (β : Type) where
  | own (key : β)
  | outbox (id : String)
  | processed (eventId : String)
  deriving DecidableEq

/-- The identifier of a row of the outbox. -/
def ServiceKey.outboxId {β : Type} : ServiceKey β → String
  | .outbox id => id
  | _ => ""

/-- The row under a key. -/
@[reducible] def ServiceRow {β : Type} (ρ : β → Type) : ServiceKey β → Type
  | .own key => ρ key
  | .outbox _ => OutboxRow
  | .processed _ => ProcessedEvent

/-- The committed rows of a service. -/
abbrev ServiceStore {β : Type} (ρ : β → Type) := Store (ServiceRow ρ)

section Rows

variable {β : Type} [DecidableEq β] {ρ : β → Type}

/-- The committed row of one of the service's own tables. -/
abbrev ownRow (db : ServiceStore ρ) (key : β) : Option (ρ key) := db.lookup (ServiceKey.own key)

/-- The committed row of the outbox. -/
abbrev outboxAt (db : ServiceStore ρ) (id : String) : Option OutboxRow :=
  db.lookup (ServiceKey.outbox id)

/-- The committed row of the processed events. -/
abbrev processedAt (db : ServiceStore ρ) (eventId : String) : Option ProcessedEvent :=
  db.lookup (ServiceKey.processed eventId)

end Rows

/-- A transaction body of a service. -/
abbrev ServiceTx {β : Type} (ρ : β → Type) (α : Type) := Tx (ServiceRow ρ) Error α

/-- What a piece of code takes from its surroundings: two random identifiers and the time. -/
structure Choices where
  eventId : String
  rowId : String
  now : ℕ
  deriving DecidableEq

/-- One attempt to handle a message. -/
structure Delivery where
  message : KafkaMessage
  choices : Choices

/-- What a consumer group does with a message. -/
abbrev Handler {β : Type} (ρ : β → Type) := KafkaMessage → Choices → ServiceTx ρ Unit

/-- The transaction of one delivery. -/
def Handler.serve {β : Type} {ρ : β → Type} (handler : Handler ρ) (delivery : Delivery) :
    ServiceTx ρ Unit :=
  handler delivery.message delivery.choices

/-! ### Events -/

/-- What `createEventEnvelope` returns. -/
structure EventEnvelope where
  eventId : String
  routingKey : String
  payload : Fields
  headers : Fields

/-- `createEventEnvelope`, with the correlation identifier that one of its copies takes. -/
def eventEnvelope (eventId routingKey : String) (payload : Fields)
    (correlationId : Option String) : EventEnvelope :=
  { eventId := eventId
    routingKey := routingKey
    payload := payload.set "eventId" (some (.str eventId))
    headers := match correlationId with
      | none => [("eventId", some (.str eventId))]
      | some id =>
          if id = "" then [("eventId", some (.str eventId))]
          else [("eventId", some (.str eventId)), ("correlationId", some (.str id))] }

/-- The event identifier of a consumed message: the header, or else the payload's property. -/
def consumedEventId (message : KafkaMessage) : Except Error (Option Json) :=
  match message.header "eventId" with
  | some eventId => .ok (some (.str eventId))
  | none => message.value.get "eventId"

/-- The same, where a missing or empty one raises. -/
def requireEventId (message : KafkaMessage) : Except Error Json := do
  match ← consumedEventId message with
  | none => .error (.thrown "Missing eventId on consumed message")
  | some eventId =>
      if eventId.truthy then .ok eventId
      else .error (.thrown "Missing eventId on consumed message")

def consumedRoutingKey (message : KafkaMessage) : String :=
  (message.header "routingKey").getD "unknown"

/-! ### Statements on a service's own tables -/

section Own

variable {β : Type} {ρ : β → Type}

/-- `SELECT`. -/
def selectRow (key : β) : ServiceTx ρ (Option (ρ key)) :=
  .readRow (ServiceKey.own key)

/-- `SELECT … FOR UPDATE`. -/
def selectForUpdate (key : β) : ServiceTx ρ (Option (ρ key)) :=
  .lockRow (ServiceKey.own key)

/-- `INSERT`, under a unique constraint. -/
def insertInto (key : β) (row : ρ key) (constraint : String) : ServiceTx ρ Unit :=
  .insertRow (ServiceKey.own key) row (.unique constraint)

/-- `UPDATE`. -/
def updateWhere (key : β) (set : ρ key → Except Error (ρ key)) : ServiceTx ρ Unit :=
  .updateRow (ServiceKey.own key) set

/-- `INSERT … ON CONFLICT DO UPDATE`. -/
def upsertInto (key : β) (row : ρ key) (set : ρ key → ρ key)
    (foreignKey : ServiceTx ρ Unit := .pure ()) : ServiceTx ρ Unit :=
  .upsertRow (ServiceKey.own key) row set foreignKey

end Own

/-! ### Statements on the shared tables -/

variable {β : Type} {ρ : β → Type} [Platform]

/-- The key under which an event is recorded as processed. -/
def processedKey (eventId : Json) : Except Error String := do
  notNull "event_id" (← textParam (some eventId))

/-- `markEventProcessed`: is this the first time the event is seen? -/
def markEventProcessed (eventId : Json) (topic routingKey : String) : ServiceTx ρ Bool := do
  let key ← .ofExcept (processedKey eventId)
  let topic ← .ofExcept (textIn topic)
  let routingKey ← .ofExcept (textIn routingKey)
  if ← .claimKey (.processed key) then return false
  .putRow (.processed key) { topic := topic, routingKey := routingKey }
  return true

/--
How every handler uses its transaction: an event that was processed before is left
alone, any other is marked and takes its effect in the same commit.
-/
def processOnce (eventId : Json) (message : KafkaMessage) (effect : ServiceTx ρ Unit) :
    ServiceTx ρ Unit := do
  let shouldProcess ← markEventProcessed eventId message.topic (consumedRoutingKey message)
  if shouldProcess then effect else return

/-- The transaction in terms of its accesses: one claim decides whether there are any more. -/
theorem processOnce_eq (eventId : Json) (message : KafkaMessage) (effect : ServiceTx ρ Unit) :
    processOnce eventId message effect =
      (Tx.ofExcept (processedKey eventId)).bind fun key =>
        (Tx.ofExcept (textIn message.topic)).bind fun topic =>
          (Tx.ofExcept (textIn (consumedRoutingKey message))).bind fun routingKey =>
            .claim (.processed key) fun taken =>
              if taken then .pure ()
              else .put (.processed key) { topic := topic, routingKey := routingKey } effect := by
  unfold processOnce markEventProcessed
  simp only [Tx.bind_eq, Tx.pure_eq, Tx.bind_assoc, Tx.claimKey_bind, Tx.putRow_bind, Tx.claim_bind]
  congr
  funext key
  congr
  funext topic
  congr
  funext routingKey
  congr
  funext taken
  cases taken with
  | true => rfl
  | false => rfl

/-- The row of an outbox that an `INSERT` of an event writes, under its identifier. -/
def outboxRow (choices : Choices) (topic : String) (event : EventEnvelope) :
    Except Error (String × OutboxRow) := do
  let id ← notNull "id" (← uuidParam (some (.str choices.rowId)))
  let topic ← textIn topic
  let routingKey ← textIn event.routingKey
  let payload ← jsonb (.obj event.payload.defined)
  let headers ← jsonbFields event.headers.defined
  return (id, {
    topic := topic
    routingKey := routingKey
    payload := payload
    headers := headers
    publishedAt := none
    createdAt := choices.now })

/-- `INSERT INTO … .outbox`. -/
def insertOutbox (choices : Choices) (topic : String) (event : EventEnvelope) :
    ServiceTx ρ Unit := do
  let (id, row) ← .ofExcept (outboxRow choices topic event)
  .insertRow (.outbox id) row (.unique "outbox_pkey")

end CommercePlatform
