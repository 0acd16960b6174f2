/-
What the handlers do with the events of a saga.

Given a message that announces an event, each handler takes the branch that is meant
for it; and if the rows of the service are those of the sagas, a commit either finds
the event processed and changes nothing, or takes the saga to its next phase.
-/
import CommercePlatform.Saga.Records
import CommercePlatform.Inventory.Accounts
import CommercePlatform.Payments.Effects

namespace CommercePlatform

open Js Txn

variable [Platform]

/-! ### Branches -/

/-- The branch of `handleSagaEvent` for an event. -/
def Orders.branch (kind : EventKind) (payload : Json) (choices : Choices) : Orders.OrderTx Unit :=
  match kind with
  | .reserved => Orders.inventoryReserved payload none choices
  | .rejected => Orders.failOrder payload
  | .succeeded => Orders.paymentSucceeded payload
  | .failed => Orders.paymentFailed payload none choices
  | _ => return

/-- The branch of `handleInventoryCommand` for an event. -/
def Inventory.branch (kind : EventKind) (payload : Json) (choices : Choices) :
    Inventory.InventoryTx Unit :=
  match kind with
  | .reserveRequested => Inventory.reserveInventory payload choices
  | .releaseRequested => Inventory.releaseInventory payload
  | _ => return

/-- The only branch of `handlePaymentCommand`. -/
def Payments.branch (kind : EventKind) (payload : Json) (choices : Choices) :
    Payments.PaymentTx Unit :=
  match kind with
  | .paymentRequested => Payments.decidePayment payload choices
  | _ => return

namespace Placed.Announces

variable {o : Placed} {kind : EventKind} {eventId : String} {message : KafkaMessage}
  (h : o.Announces kind eventId message) (hid : IsUuid eventId)

include h hid

theorem handleSagaEvent (hkind : kind.consumer = .orders) (choices : Choices) :
    Orders.handleSagaEvent message choices =
      processOnce (.str eventId) message (Orders.branch kind message.value choices) := by
  have htype : message.value.get "eventType" = .ok (some (.str kind.eventType)) := by
    rw [h.get, payload_eventType]
  unfold Orders.handleSagaEvent
  simp only [h.requireEventId hid.nonempty, htype, Tx.ofExcept_ok, Tx.bind_eq, Tx.pure_bind]
  cases kind with
  | reserved => rw [h.header_correlationId (by decide)]; rfl
  | rejected => rfl
  | succeeded => rfl
  | failed => rw [h.header_correlationId (by decide)]; rfl
  | reserveRequested => exact absurd hkind (by decide)
  | paymentRequested => exact absurd hkind (by decide)
  | releaseRequested => exact absurd hkind (by decide)

theorem handleInventoryCommand (hkind : kind.consumer = .inventory) (choices : Choices) :
    Inventory.handleInventoryCommand message choices =
      processOnce (.str eventId) message (Inventory.branch kind message.value choices) := by
  have htype : message.value.get "eventType" = .ok (some (.str kind.eventType)) := by
    rw [h.get, payload_eventType]
  unfold Inventory.handleInventoryCommand
  simp only [h.requireEventId hid.nonempty, htype, Tx.ofExcept_ok, Tx.bind_eq, Tx.pure_bind]
  cases kind with
  | reserveRequested => rfl
  | releaseRequested => rfl
  | reserved => exact absurd hkind (by decide)
  | rejected => exact absurd hkind (by decide)
  | paymentRequested => exact absurd hkind (by decide)
  | succeeded => exact absurd hkind (by decide)
  | failed => exact absurd hkind (by decide)

theorem handlePaymentCommand (hkind : kind.consumer = .payments) (choices : Choices) :
    Payments.handlePaymentCommand message choices =
      processOnce (.str eventId) message (Payments.branch kind message.value choices) := by
  unfold Payments.handlePaymentCommand
  simp only [h.requireEventId hid.nonempty, Tx.ofExcept_ok, Tx.bind_eq, Tx.pure_bind]
  cases kind with
  | paymentRequested => rfl
  | reserveRequested => exact absurd hkind (by decide)
  | reserved => exact absurd hkind (by decide)
  | rejected => exact absurd hkind (by decide)
  | succeeded => exact absurd hkind (by decide)
  | failed => exact absurd hkind (by decide)
  | releaseRequested => exact absurd hkind (by decide)

/-- An event that was processed before is left alone; any other is marked and takes its branch. -/
theorem run_processOnce {β : Type} [DecidableEq β] {ρ : β → Type} {db db' : ServiceStore ρ}
    {effect : ServiceTx ρ Unit} :
    (processOnce (.str eventId) message effect).run db = .ok ((), db') ↔
      (processedAt db eventId ≠ none ∧ db' = db) ∨
        (processedAt db eventId = none ∧
          effect.run (db.insert (ServiceKey.processed eventId)
            { topic := kind.topic, routingKey := kind.routingKey }) = .ok ((), db')) := by
  rw [run_processOnce_eq_ok]
  simp [hid.processedKey, h.texts.1, h.texts.2]

end Placed.Announces

end CommercePlatform
