/-
What the transactions of the order service touch.

The saga handler only ever updates the order its event is about, and an event of a
type it does not know touches nothing.  `createOrderWithOutbox` only inserts.
-/
import CommercePlatform.Service.Rule
import CommercePlatform.Orders.Service

namespace CommercePlatform.Orders

open Js Txn

variable [Platform]

/-- The transactions of the service: new orders and saga events. -/
inductive Job where
  | create (call : CreateOrderCall) (orderId : String) (choices : Choices)
  | saga (delivery : Delivery)

def Job.body : Job → OrderTx Unit
  | .create call orderId choices => createOrderWithOutbox call orderId choices
  | .saga delivery => handleSagaEvent delivery.message delivery.choices

/-- A saga event claims itself first, and looks for the order it is about. -/
def sagaRule (message : KafkaMessage) : Rule Key where
  guard := eventKey message
  puts key := ∃ orderId, key = .order orderId ∧ orderIdOf message.value = some orderId
  reads _ := False
  misses key := ∃ orderId, key = .order orderId ∧ orderIdOf message.value = some orderId
  claims _ := False

/-- A new order is inserted, under its identifier and its idempotency key. -/
def createRule : Rule Key where
  guard := none
  puts _ := True
  reads _ := False
  misses _ := False
  claims _ := True

def Job.rule : Job → Rule Key
  | .create _ _ _ => createRule
  | .saga delivery => sagaRule delivery.message

theorem obeys_createOrderWithOutbox (call : CreateOrderCall) (orderId : String)
    (choices : Choices) :
    (createOrderWithOutbox call orderId choices).Obeys createRule.discipline .none := by
  have hg : ∀ g, createRule.Guarded g := by
    intro g e he
    simp [createRule] at he
  unfold createOrderWithOutbox
  refine Tx.obeys_ofExcept_bind.mpr fun entry _ => ?_
  refine Tx.Obeys.bind (obeys_insertInto (hg _) trivial trivial) fun g₁ _ _ => ?_
  refine Tx.Obeys.bind (obeys_insertInto (hg _) trivial trivial) fun g₂ _ _ => ?_
  exact obeys_insertOutbox (hg _)

section Saga

variable {message : KafkaMessage} {g : Grip (ServiceKey Key)}

theorem obeys_updateOrder (hg : (sagaRule message).Guarded g) {orderId : Option Json}
    {id : Option String} (hget : message.value.get "orderId" = .ok orderId)
    (hid : uuidParam orderId = .ok id) (set : OrderRow → OrderRow) :
    (updateOrder id set).Obeys (sagaRule message).discipline g := by
  cases id with
  | none => trivial
  | some id =>
      have horder := orderIdOf_eq hget hid
      exact obeys_updateWhere hg ⟨id, rfl, horder⟩ (Or.inr ⟨id, rfl, horder⟩)

theorem obeys_inventoryReserved (hg : (sagaRule message).Guarded g)
    (correlationId : Option String) (choices : Choices) :
    (inventoryReserved message.value correlationId choices).Obeys (sagaRule message).discipline
      g := by
  unfold inventoryReserved
  refine Tx.obeys_ofExcept_bind.mpr fun orderId hget => ?_
  refine Tx.obeys_ofExcept_bind.mpr fun amount _ => ?_
  refine Tx.obeys_ofExcept_bind.mpr fun currency _ => ?_
  refine Tx.obeys_ofExcept_bind.mpr fun id hid => ?_
  refine Tx.Obeys.bind (obeys_updateOrder hg hget hid _) fun g' hle _ => ?_
  exact obeys_insertOutbox (hg.mono hle)

theorem obeys_failOrder (hg : (sagaRule message).Guarded g) :
    (failOrder message.value).Obeys (sagaRule message).discipline g := by
  unfold failOrder
  refine Tx.obeys_ofExcept_bind.mpr fun orderId hget => ?_
  refine Tx.obeys_ofExcept_bind.mpr fun reason _ => ?_
  refine Tx.obeys_ofExcept_bind.mpr fun id hid => ?_
  refine Tx.obeys_ofExcept_bind.mpr fun reason' _ => ?_
  exact obeys_updateOrder hg hget hid _

theorem obeys_paymentSucceeded (hg : (sagaRule message).Guarded g) :
    (paymentSucceeded message.value).Obeys (sagaRule message).discipline g := by
  unfold paymentSucceeded
  refine Tx.obeys_ofExcept_bind.mpr fun orderId hget => ?_
  refine Tx.obeys_ofExcept_bind.mpr fun id hid => ?_
  exact obeys_updateOrder hg hget hid _

theorem obeys_paymentFailed (hg : (sagaRule message).Guarded g) (correlationId : Option String)
    (choices : Choices) :
    (paymentFailed message.value correlationId choices).Obeys (sagaRule message).discipline g := by
  unfold paymentFailed
  refine Tx.obeys_ofExcept_bind.mpr fun orderId hget => ?_
  refine Tx.Obeys.bind (obeys_failOrder hg) fun g' hle _ => ?_
  exact obeys_insertOutbox (hg.mono hle)

theorem obeys_handleSagaEvent (message : KafkaMessage) (choices : Choices) :
    (handleSagaEvent message choices).Obeys (sagaRule message).discipline .none := by
  unfold handleSagaEvent
  refine Tx.obeys_ofExcept_bind.mpr fun eventId hid => ?_
  refine Tx.obeys_ofExcept_bind.mpr fun eventType _ => ?_
  have hguard : ∀ key, processedKey eventId = .ok key → (sagaRule message).guard = some key :=
    fun key hkey => eventKey_eq hid hkey
  split
  · exact obeys_processOnce hguard fun g hg => obeys_inventoryReserved hg _ _
  split
  · exact obeys_processOnce hguard fun g hg => obeys_failOrder hg
  split
  · exact obeys_processOnce hguard fun g hg => obeys_paymentSucceeded hg
  split
  · exact obeys_processOnce hguard fun g hg => obeys_paymentFailed hg _ _
  · trivial

end Saga

theorem obeys_body (job : Job) : job.body.Obeys job.rule.discipline .none := by
  cases job with
  | create call orderId choices => exact obeys_createOrderWithOutbox call orderId choices
  | saga delivery => exact obeys_handleSagaEvent delivery.message delivery.choices

end CommercePlatform.Orders
