/-
The inventory service (`apps/inventory-service`).

Stock is counted per SKU, and moved between `available` and `reserved` as orders are
reserved and released.  Any event type but `ReleaseInventory` is taken for a
reservation.
-/
import CommercePlatform.Service.Schema

namespace CommercePlatform.Inventory

open Js Txn

/-- A row of `inventory.inventory_items`. -/
structure Item where
  availableQuantity : Int4
  reservedQuantity : Int4
  deriving DecidableEq

inductive ReservationStatus where
  | reserved
  | released
  deriving DecidableEq, Repr

/-- A row of `inventory.reservations`. -/
structure Reservation where
  sku : String
  quantity : Int4
  status : ReservationStatus
  deriving DecidableEq

inductive Key where
  | item (sku : String)
  | reservation (orderId : String)
  deriving DecidableEq

@[reducible] def Row : Key → Type
  | .item _ => Item
  | .reservation _ => Reservation

abbrev InventoryTx (α : Type) := ServiceTx Row α

/-- The group of `startInventoryConsumer`. -/
def inventoryConsumer : ConsumerGroup where
  groupId := "inventory-service-commands"
  topics := [topics.inventory]
  routingKeys := [routingKeys.reserveInventory, routingKeys.releaseInventory]

def createEventEnvelope (eventId routingKey : String) (payload : Fields) : EventEnvelope :=
  eventEnvelope eventId routingKey payload none

/-- Moves `quantity` from available to reserved, or back if it is negative. -/
def Item.move (item : Item) (quantity : ℤ) : Except Error Item := do
  return {
    availableQuantity := ← Int4.ofInt (item.availableQuantity.val - quantity)
    reservedQuantity := ← Int4.ofInt (item.reservedQuantity.val + quantity) }

variable [Platform]

/-- `SELECT sku, quantity … WHERE order_id = $1 AND status = 'RESERVED'`. -/
def reservedReservation (orderId : String) : InventoryTx (Option Reservation) := do
  let row ← selectRow (Key.reservation orderId)
  return row.filter fun reservation => reservation.status = .reserved

/-- What `handleInventoryCommand` does for a `ReleaseInventory`, once the event is marked. -/
def releaseInventory (payload : Json) : InventoryTx Unit := do
  let orderId ← .ofExcept (payload.get "orderId")
  -- No row has the order `NULL`.
  let some orderId ← .ofExcept (uuidParam orderId) | return
  let some existing ← reservedReservation orderId | return
  updateWhere (.item existing.sku) fun item => item.move (-existing.quantity.val)
  updateWhere (.reservation orderId) fun reservation =>
    .ok { reservation with status := .released }

/-- The `rejected` event. -/
def inventoryRejected (orderId : Option Json) (eventId : String) : EventEnvelope :=
  createEventEnvelope eventId routingKeys.inventoryRejected [
    ("eventType", some (.str "InventoryRejected")),
    ("orderId", orderId),
    ("reason", some (.str "Insufficient inventory"))]

/-- The `reserved` event. -/
def inventoryReserved (orderId totalAmount currency : Option Json) (eventId : String) :
    EventEnvelope :=
  createEventEnvelope eventId routingKeys.inventoryReserved [
    ("eventType", some (.str "InventoryReserved")),
    ("orderId", orderId),
    ("totalAmount", totalAmount),
    ("currency", currency)]

/-- What is left to do where there is not enough stock. -/
def rejectInventory (orderId : Option Json) (choices : Choices) : InventoryTx Unit :=
  insertOutbox choices topics.inventory (inventoryRejected orderId choices.eventId)

/-- What `handleInventoryCommand` does for any other event, once it is marked. -/
def reserveInventory (payload : Json) (choices : Choices) : InventoryTx Unit := do
  let itemSku ← .ofExcept (payload.get "itemSku")
  let quantity ← .ofExcept (payload.get "quantity")
  let orderId ← .ofExcept (payload.get "orderId")
  -- No row has the SKU `NULL`.
  let some sku ← .ofExcept (textParam itemSku) | rejectInventory orderId choices
  let some item ← selectForUpdate (Key.item sku) | rejectInventory orderId choices
  if (Number.finite item.availableQuantity.val).lt (toNumber quantity) then
    rejectInventory orderId choices
  else
    let amount ← .ofExcept (int4Param quantity)
    updateWhere (.item sku) fun item => do
      item.move (← notNull "available_quantity" amount).val
    let key ← .ofExcept (uuidParam orderId)
    let key ← .ofExcept (notNull "order_id" key)
    let amount ← .ofExcept (notNull "quantity" amount)
    upsertInto (.reservation key) { sku := sku, quantity := amount, status := .reserved }
      (fun reservation => { reservation with status := .reserved }) (do
        -- The foreign key: an inserted row has to name a known SKU.
        let some _ ← selectForUpdate (Key.item sku) | .throw (.foreignKey "reservations_sku_fkey")
        return)
    let totalAmount ← .ofExcept (payload.get "totalAmount")
    let currency ← .ofExcept (payload.get "currency")
    insertOutbox choices topics.inventory
      (inventoryReserved orderId totalAmount currency choices.eventId)

def handleInventoryCommand (message : KafkaMessage) (choices : Choices) : InventoryTx Unit := do
  let payload := message.value
  let eventId ← .ofExcept (requireEventId message)
  let eventType ← .ofExcept (payload.get "eventType")
  processOnce eventId message
    (if isText eventType "ReleaseInventory" then releaseInventory payload
      else reserveInventory payload choices)

end CommercePlatform.Inventory
