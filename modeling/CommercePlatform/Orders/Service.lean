/-
The order service (`apps/order-service`).

A new order and its first event are one transaction; the look-up of the idempotency
key comes before it and is not part of it.  What keeps a key from being used twice is
the unique index, which is a key of the schema here, with the order as its row.

The saga handler moves an order's status without looking at it.
-/
import CommercePlatform.Service.Schema

namespace CommercePlatform.Orders

open Js Txn

inductive OrderStatus where
  | pendingInventory
  | pendingPayment
  | confirmed
  | failed
  deriving DecidableEq, Repr

/-- A row of `orders.orders`. -/
structure OrderRow where
  userId : String
  idempotencyKey : Option String
  requestHash : Option String
  status : OrderStatus
  totalAmount : Numeric12_2
  currency : String
  itemSku : String
  quantity : Int4
  failureReason : Option String
  deriving DecidableEq

inductive Key where
  | order (id : String)
  /-- An entry of `orders_orders_user_id_idempotency_key_idx`. -/
  | idempotency (userId idempotencyKey : String)
  deriving DecidableEq

@[reducible] def Row : Key → Type
  | .order _ => OrderRow
  | .idempotency _ _ => String

abbrev OrderTx (α : Type) := ServiceTx Row α

/-- The group of `startOrderSagaConsumer`. -/
def orderSagaConsumer : ConsumerGroup where
  groupId := "order-service-saga"
  topics := [topics.inventory, topics.payment]
  routingKeys := [
    routingKeys.inventoryReserved,
    routingKeys.inventoryRejected,
    routingKeys.paymentSucceeded,
    routingKeys.paymentFailed]

def createEventEnvelope (eventId routingKey : String) (payload : Fields)
    (correlationId : Option String) : EventEnvelope :=
  eventEnvelope eventId routingKey payload correlationId

/-! ### Creating an order -/

/-- What `createOrder` is called with. -/
structure CreateOrderCall where
  body : OrderCreateInput
  userSub : String
  idempotencyKey : String
  correlationId : String
  deriving DecidableEq

/-- What `createOrder` returns. -/
inductive CreateOrderResult where
  | conflict
  | replayed (orderId : String) (status : OrderStatus)
  | created (orderId : String)
  deriving DecidableEq

variable [Platform]

def requestHash (body : Json) : String := Platform.sha256 body.stringify

namespace CreateOrderCall

def normalizedCurrency (call : CreateOrderCall) : String :=
  Platform.toUpperCase call.body.currency

/-- `{ ...input.body, currency: normalizedCurrency }`. -/
def normalizedBody (call : CreateOrderCall) : Json :=
  .obj (call.body.toFields.set "currency" (some (.str call.normalizedCurrency))).defined

def bodyHash (call : CreateOrderCall) : String := requestHash call.normalizedBody

end CreateOrderCall

omit [Platform] in
/-- `findOrderByIdempotency`, on the rows committed when it runs. -/
def findOrderByIdempotency (userId idempotencyKey : String) (db : ServiceStore Row) :
    Except Error (Option (String × OrderRow)) := do
  let userId ← textIn userId
  let idempotencyKey ← textIn idempotencyKey
  match ownRow db (.idempotency userId idempotencyKey) with
  | none => return none
  | some id =>
      match ownRow db (.order id) with
      | none => return none
      | some row => return some (id, row)

/-- The answer of `createOrder` where the look-up has found an order. -/
def answerExisting (call : CreateOrderCall) (existing : String × OrderRow) : CreateOrderResult :=
  match existing.2.requestHash with
  | none => .replayed existing.1 existing.2.status
  | some hash =>
      if hash ≠ "" ∧ hash ≠ call.bodyHash then .conflict
      else .replayed existing.1 existing.2.status

def reserveInventoryEvent (call : CreateOrderCall) (orderId eventId : String) : EventEnvelope :=
  createEventEnvelope eventId routingKeys.reserveInventory [
    ("eventType", some (.str "ReserveInventoryRequested")),
    ("orderId", some (.str orderId)),
    ("userId", some (.str call.userSub)),
    ("itemSku", some (.str call.body.itemSku)),
    ("quantity", some (.num (.finite call.body.quantity))),
    ("totalAmount", some (.num call.body.totalAmount)),
    ("currency", some (.str call.normalizedCurrency))] (some call.correlationId)

/-- The row that the `INSERT` of an order writes, under its identifier. -/
def newOrderRow (call : CreateOrderCall) (orderId : String) : Except Error (String × OrderRow) := do
  let id ← notNull "id" (← uuidParam (some (.str orderId)))
  let userId ← textIn call.userSub
  let idempotencyKey ← textIn call.idempotencyKey
  let requestHash ← textIn call.bodyHash
  let totalAmount ← notNull "total_amount" (← numericParam (some (.num call.body.totalAmount)))
  let currency ← textIn call.normalizedCurrency
  let itemSku ← textIn call.body.itemSku
  let quantity ← notNull "quantity" (← int4Param (some (.num (.finite call.body.quantity))))
  return (id, {
    userId := userId
    idempotencyKey := some idempotencyKey
    requestHash := some requestHash
    status := .pendingInventory
    totalAmount := totalAmount
    currency := currency
    itemSku := itemSku
    quantity := quantity
    failureReason := none })

/-- The transaction of `createOrderWithOutbox`. -/
def createOrderWithOutbox (call : CreateOrderCall) (orderId : String) (choices : Choices) :
    OrderTx Unit := do
  let (id, row) ← .ofExcept (newOrderRow call orderId)
  insertInto (.order id) row "orders_pkey"
  insertInto (.idempotency row.userId (row.idempotencyKey.getD "")) id
    "orders_orders_user_id_idempotency_key_idx"
  insertOutbox choices topics.inventory (reserveInventoryEvent call orderId choices.eventId)

/-! ### The saga -/

/-- `UPDATE orders.orders SET … WHERE id = $1`. -/
def updateOrder (orderId : Option String) (set : OrderRow → OrderRow) : OrderTx Unit :=
  match orderId with
  -- No row has the identifier `NULL`.
  | none => return
  | some id => updateWhere (.order id) fun row => .ok (set row)

def processPaymentEvent (orderId amount currency : Option Json) (eventId : String)
    (correlationId : Option String) : EventEnvelope :=
  createEventEnvelope eventId routingKeys.processPayment [
    ("eventType", some (.str "ProcessPayment")),
    ("orderId", orderId),
    ("amount", amount),
    ("currency", currency)] correlationId

def releaseInventoryEvent (orderId : Option Json) (eventId : String)
    (correlationId : Option String) : EventEnvelope :=
  createEventEnvelope eventId routingKeys.releaseInventory [
    ("eventType", some (.str "ReleaseInventory")),
    ("orderId", orderId)] correlationId

def inventoryReserved (payload : Json) (correlationId : Option String) (choices : Choices) :
    OrderTx Unit := do
  let orderId ← .ofExcept (payload.get "orderId")
  let amount ← .ofExcept (payload.get "totalAmount")
  let currency ← .ofExcept (payload.get "currency")
  let id ← .ofExcept (uuidParam orderId)
  updateOrder id fun row => { row with status := .pendingPayment }
  insertOutbox choices topics.payment
    (processPaymentEvent orderId amount currency choices.eventId correlationId)

/-- The order has failed, for the reason that the event gives. -/
def failOrder (payload : Json) : OrderTx Unit := do
  let orderId ← .ofExcept (payload.get "orderId")
  let reason ← .ofExcept (payload.get "reason")
  let id ← .ofExcept (uuidParam orderId)
  let reason ← .ofExcept (textParam reason)
  updateOrder id fun row => { row with status := .failed, failureReason := reason }

def paymentSucceeded (payload : Json) : OrderTx Unit := do
  let orderId ← .ofExcept (payload.get "orderId")
  let id ← .ofExcept (uuidParam orderId)
  updateOrder id fun row => { row with status := .confirmed }

def paymentFailed (payload : Json) (correlationId : Option String) (choices : Choices) :
    OrderTx Unit := do
  let orderId ← .ofExcept (payload.get "orderId")
  failOrder payload
  insertOutbox choices topics.inventory
    (releaseInventoryEvent orderId choices.eventId correlationId)

/-- An event of any other type is not marked, and has no effect. -/
def handleSagaEvent (message : KafkaMessage) (choices : Choices) : OrderTx Unit := do
  let payload := message.value
  let correlationId := message.header "correlationId"
  let eventId ← .ofExcept (requireEventId message)
  let eventType ← .ofExcept (payload.get "eventType")
  if isText eventType "InventoryReserved" then
    processOnce eventId message (inventoryReserved payload correlationId choices)
  else if isText eventType "InventoryRejected" then
    processOnce eventId message (failOrder payload)
  else if isText eventType "PaymentSucceeded" then
    processOnce eventId message (paymentSucceeded payload)
  else if isText eventType "PaymentFailed" then
    processOnce eventId message (paymentFailed payload correlationId choices)
  else return

end CommercePlatform.Orders
