/-
The payment service (`apps/payment-service`).

Every command it is sent is decided on the spot, by the amount alone, and the decision
goes out as an event.
-/
import CommercePlatform.Service.Schema

namespace CommercePlatform.Payments

open Js Txn

inductive AttemptStatus where
  | succeeded
  | failed
  deriving DecidableEq, Repr

/-- A row of `payments.payment_attempts`. -/
structure PaymentAttempt where
  amount : Numeric12_2
  currency : String
  status : AttemptStatus
  deriving DecidableEq

inductive Key where
  | attempt (orderId : String)
  deriving DecidableEq

@[reducible] def Row : Key → Type
  | .attempt _ => PaymentAttempt

abbrev PaymentTx (α : Type) := ServiceTx Row α

/-- The group of `startPaymentConsumer`. -/
def paymentConsumer : ConsumerGroup where
  groupId := "payment-service-commands"
  topics := [topics.payment]
  routingKeys := [routingKeys.processPayment]

def createEventEnvelope (eventId routingKey : String) (payload : Fields) : EventEnvelope :=
  eventEnvelope eventId routingKey payload none

variable [Platform]

/-- The row that the `INSERT` of an attempt writes, under its order. -/
def attemptRow (orderId amount currency : Option Json) (status : AttemptStatus) :
    Except Error (String × PaymentAttempt) := do
  let orderId ← uuidParam orderId
  let amount ← numericParam amount
  let currency ← textParam currency
  return (← notNull "order_id" orderId, {
    amount := ← notNull "amount" amount
    currency := ← notNull "currency" currency
    status := status })

/-- The `paymentResultEvent`. -/
def paymentResult (approved : Bool) (orderId : Option Json) (eventId : String) : EventEnvelope :=
  createEventEnvelope eventId
    (if approved then routingKeys.paymentSucceeded else routingKeys.paymentFailed) [
      ("eventType", some (.str (if approved then "PaymentSucceeded" else "PaymentFailed"))),
      ("orderId", orderId),
      ("reason", if approved then none else some (.str "Payment authorization failed"))]

/-- What `handlePaymentCommand` does in its transaction, once the event is marked. -/
def decidePayment (payload : Json) (choices : Choices) : PaymentTx Unit := do
  let amount ← .ofExcept (payload.get "amount")
  let orderId ← .ofExcept (payload.get "orderId")
  let currency ← .ofExcept (payload.get "currency")
  let approved := (toNumber amount).le (.finite 10000)
  let (key, row) ← .ofExcept
    (attemptRow orderId amount currency (if approved then .succeeded else .failed))
  upsertInto (.attempt key) row fun old => { old with status := row.status }
  insertOutbox choices topics.payment (paymentResult approved orderId choices.eventId)

def handlePaymentCommand (message : KafkaMessage) (choices : Choices) : PaymentTx Unit := do
  let eventId ← .ofExcept (requireEventId message)
  processOnce eventId message (decidePayment message.value choices)

end CommercePlatform.Payments
