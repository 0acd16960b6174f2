/-
What the transactions of the payment service touch: the attempt of the order, and
nothing that was read before.
-/
import CommercePlatform.Service.Rule
import CommercePlatform.Payments.Service

namespace CommercePlatform.Payments

open Js Txn

variable [Platform]

/-- A command claims its event first, peeks at nothing, and keeps to the attempt of its order. -/
def commandRule (message : KafkaMessage) : Rule Key where
  guard := eventKey message
  puts
    | .attempt orderId => orderIdOf message.value = some orderId
  reads _ := False
  misses _ := False
  claims _ := True

/-- An attempt is stored under the order that it names. -/
theorem attemptRow_key {orderId amount currency : Option Json} {status : AttemptStatus} {key : String}
    {row : PaymentAttempt} (h : attemptRow orderId amount currency status = .ok (key, row)) :
    uuidParam orderId = .ok (some key) := by
  obtain ⟨id, hid, h⟩ := bind_eq_ok.mp h
  obtain ⟨_, -, h⟩ := bind_eq_ok.mp h
  obtain ⟨_, -, h⟩ := bind_eq_ok.mp h
  obtain ⟨key', hkey, h⟩ := bind_eq_ok.mp h
  obtain ⟨_, -, h⟩ := bind_eq_ok.mp h
  obtain ⟨_, -, h⟩ := bind_eq_ok.mp h
  obtain ⟨rfl, -⟩ := Prod.mk.inj (Except.ok.inj h)
  rw [hid, notNull_eq_ok hkey]

theorem obeys_decidePayment {message : KafkaMessage} {g : Grip (ServiceKey Key)}
    (hg : (commandRule message).Guarded g) (choices : Choices) :
    (decidePayment message.value choices).Obeys (commandRule message).discipline g := by
  unfold decidePayment
  refine Tx.obeys_ofExcept_bind.mpr fun amount _ => ?_
  refine Tx.obeys_ofExcept_bind.mpr fun orderId hget => ?_
  refine Tx.obeys_ofExcept_bind.mpr fun currency _ => ?_
  refine Tx.obeys_ofExcept_bind.mpr fun entry hentry => ?_
  have horder : orderIdOf message.value = some entry.1 := orderIdOf_eq hget (attemptRow_key hentry)
  refine Tx.Obeys.bind (obeys_upsertInto hg trivial horder trivial) fun g' hle _ => ?_
  exact obeys_insertOutbox (hg.mono hle)

theorem obeys_handlePaymentCommand (message : KafkaMessage) (choices : Choices) :
    (handlePaymentCommand message choices).Obeys (commandRule message).discipline .none := by
  unfold handlePaymentCommand
  refine Tx.obeys_ofExcept_bind.mpr fun eventId hid => ?_
  refine obeys_processOnce (fun key hkey => eventKey_eq hid hkey) fun g hg => ?_
  exact obeys_decidePayment hg choices

theorem obeys_serve (delivery : Delivery) :
    (Handler.serve handlePaymentCommand delivery).Obeys
      (commandRule delivery.message).discipline .none :=
  obeys_handlePaymentCommand delivery.message delivery.choices

end CommercePlatform.Payments
