/-
What the services share: topics, routing keys, and the request body of a new order
(`packages/shared`).
-/
import CommercePlatform.Js.Value

namespace CommercePlatform

open Js

namespace topics

def inventory : String := "inventory.events"
def payment : String := "payment.events"

end topics

namespace routingKeys

def reserveInventory : String := "inventory.reserve.requested"
def inventoryReserved : String := "inventory.reserved"
def inventoryRejected : String := "inventory.rejected"
def processPayment : String := "payment.process.requested"
def paymentSucceeded : String := "payment.succeeded"
def paymentFailed : String := "payment.failed"
def releaseInventory : String := "inventory.release.requested"

end routingKeys

/-- A request body that `orderCreateSchema` accepts. -/
structure OrderCreateInput where
  itemSku : String
  quantity : ℤ
  totalAmount : Number
  currency : String
  itemSku_min : 3 ≤ utf16Length itemSku
  quantity_pos : 0 < quantity
  totalAmount_pos : (Number.finite 0).lt totalAmount = true
  currency_length : utf16Length currency = 3
  deriving DecidableEq

/--
`orderCreateSchema`: the body it returns, without its unknown keys, or none where it
raises.  A number is any number but `NaN`, so an amount may be infinite; a quantity is
whole, hence finite.
-/
def orderCreateSchema : Json → Option OrderCreateInput
  | .obj fields =>
      match fields.lookup "itemSku", fields.lookup "quantity", fields.lookup "totalAmount",
        fields.lookup "currency" with
      | some (.str itemSku), some (.num (.finite quantity)), some (.num totalAmount),
        some (.str currency) =>
          if h : 3 ≤ utf16Length itemSku ∧ (quantity.den = 1 ∧ 0 < quantity.num) ∧
              (Number.finite 0).lt totalAmount = true ∧ utf16Length currency = 3 then
            some {
              itemSku := itemSku
              quantity := quantity.num
              totalAmount := totalAmount
              currency := currency
              itemSku_min := h.1
              quantity_pos := h.2.1.2
              totalAmount_pos := h.2.2.1
              currency_length := h.2.2.2 }
          else none
      | _, _, _, _ => none
  | _ => none

/-- The body as JSON, in the order of the schema. -/
def OrderCreateInput.toFields (body : OrderCreateInput) : Fields := [
  ("itemSku", some (.str body.itemSku)),
  ("quantity", some (.num (.finite body.quantity))),
  ("totalAmount", some (.num body.totalAmount)),
  ("currency", some (.str body.currency))]

/-- What the schema returns it accepts again, as it is. -/
theorem orderCreateSchema_toFields (body : OrderCreateInput) :
    orderCreateSchema (.obj body.toFields.defined) = some body := by
  have hquantity : (body.quantity : ℚ).den = 1 ∧ 0 < (body.quantity : ℚ).num := by
    simpa using body.quantity_pos
  simp [orderCreateSchema, OrderCreateInput.toFields, Fields.defined, List.lookup_cons,
    body.itemSku_min, body.totalAmount_pos, body.currency_length, body.quantity_pos]

end CommercePlatform
