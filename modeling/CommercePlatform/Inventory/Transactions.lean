/-
What the transactions of the inventory service touch: items, which are never inserted,
and the reservation of the order.  A release looks at the reservation without a lock.
-/
import CommercePlatform.Service.Rule
import CommercePlatform.Inventory.Service

namespace CommercePlatform.Inventory

open Js Txn

variable [Platform]

/-- The message asks for a release; anything else is a reservation. -/
def isRelease (message : KafkaMessage) : Prop :=
  ∃ eventType, message.value.get "eventType" = .ok eventType ∧
    isText eventType "ReleaseInventory" = true

/-- A command claims its event first, and keeps to the reservation of its order. -/
def commandRule (message : KafkaMessage) : Rule Key where
  guard := eventKey message
  puts
    | .item _ => True
    | .reservation orderId => orderIdOf message.value = some orderId
  reads
    | .item _ => False
    | .reservation orderId => isRelease message ∧ orderIdOf message.value = some orderId
  misses
    | .item _ => True
    | .reservation _ => False
  claims
    | .item _ => False
    | .reservation orderId => ¬ isRelease message ∧ orderIdOf message.value = some orderId

theorem obeys_releaseInventory {message : KafkaMessage} {g : Grip (ServiceKey Key)}
    (hg : (commandRule message).Guarded g) (hrelease : isRelease message) :
    (releaseInventory message.value).Obeys (commandRule message).discipline g := by
  unfold releaseInventory
  refine Tx.obeys_ofExcept_bind.mpr fun orderId hget => ?_
  refine Tx.obeys_ofExcept_bind.mpr fun id hid => ?_
  cases id with
  | none => trivial
  | some id =>
      have horder : orderIdOf message.value = some id := orderIdOf_eq hget hid
      refine Tx.obeys_read.mpr ⟨⟨hg, _, rfl, hrelease, horder⟩, trivial, fun row => ?_⟩
      simp only [Tx.pure_bind, Tx.pure_eq]
      cases hexisting : Option.filter _ (some row) with
      | none => trivial
      | some existing =>
          refine Tx.Obeys.bind (obeys_updateWhere (hg.mono (g.le_see _)) trivial (Or.inr trivial))
            fun g' hle _ => ?_
          refine obeys_updateWhere ((hg.mono (g.le_see _)).mono hle) horder (Or.inl ?_)
          exact hle.seen _ (by simp [Grip.see])

theorem obeys_rejectInventory {R : Rule Key} {g : Grip (ServiceKey Key)} (hg : R.Guarded g)
    (orderId : Option Json) (choices : Choices) :
    (rejectInventory orderId choices).Obeys R.discipline g := obeys_insertOutbox hg

theorem obeys_reserveInventory {message : KafkaMessage} {g : Grip (ServiceKey Key)}
    (hg : (commandRule message).Guarded g) (hreserve : ¬ isRelease message) (choices : Choices) :
    (reserveInventory message.value choices).Obeys (commandRule message).discipline g := by
  unfold reserveInventory
  refine Tx.obeys_ofExcept_bind.mpr fun itemSku _ => ?_
  refine Tx.obeys_ofExcept_bind.mpr fun quantity _ => ?_
  refine Tx.obeys_ofExcept_bind.mpr fun orderId hget => ?_
  refine Tx.obeys_ofExcept_bind.mpr fun sku _ => ?_
  cases sku with
  | none => exact obeys_rejectInventory hg _ _
  | some sku =>
      refine Tx.obeys_lock.mpr ⟨Or.inr ⟨⟨hg, _, rfl, trivial⟩, obeys_rejectInventory hg _ _⟩, ?_⟩
      intro item
      have hlocked := hg.mono (g.le_lock (ServiceKey.own (Key.item sku)))
      have hseen : ServiceKey.own (Key.item sku) ∈ (g.lock (.own (Key.item sku))).seen := by
        simp [Grip.lock, Grip.see]
      simp only [Tx.pure_bind]
      split
      · exact obeys_rejectInventory hlocked _ _
      · refine Tx.obeys_ofExcept_bind.mpr fun amount _ => ?_
        refine Tx.Obeys.bind (obeys_updateWhere hlocked trivial (Or.inl hseen)) fun g₁ h₁ _ => ?_
        refine Tx.obeys_ofExcept_bind.mpr fun key hkey => ?_
        refine Tx.obeys_ofExcept_bind.mpr fun id hid => ?_
        refine Tx.obeys_ofExcept_bind.mpr fun quantity' _ => ?_
        have horder : orderIdOf message.value = some id := by
          rw [notNull_eq_ok hid] at hkey
          exact orderIdOf_eq hget hkey
        refine Tx.Obeys.bind (obeys_upsertInto (hlocked.mono h₁) ⟨hreserve, horder⟩ horder ?_)
          fun g₂ h₂ _ => ?_
        · -- The item is still locked, so the foreign key finds it.
          refine Tx.obeys_lock.mpr ⟨Or.inl (h₁.seen _ hseen), fun _ => trivial⟩
        · refine Tx.obeys_ofExcept_bind.mpr fun totalAmount _ => ?_
          refine Tx.obeys_ofExcept_bind.mpr fun currency _ => ?_
          exact obeys_insertOutbox ((hlocked.mono h₁).mono h₂)

theorem obeys_handleInventoryCommand (message : KafkaMessage) (choices : Choices) :
    (handleInventoryCommand message choices).Obeys (commandRule message).discipline .none := by
  unfold handleInventoryCommand
  refine Tx.obeys_ofExcept_bind.mpr fun eventId hid => ?_
  refine Tx.obeys_ofExcept_bind.mpr fun eventType htype => ?_
  refine obeys_processOnce (fun key hkey => eventKey_eq hid hkey) fun g hg => ?_
  have hiff : isRelease message ↔ isText eventType "ReleaseInventory" = true := by
    constructor
    · intro ⟨eventType', htype', hrelease⟩
      rw [htype] at htype'
      exact Except.ok.inj htype' ▸ hrelease
    · exact fun hrelease => ⟨eventType, htype, hrelease⟩
  split
  · exact obeys_releaseInventory hg (hiff.mpr ‹_›)
  · exact obeys_reserveInventory hg (fun h => ‹¬ _› (hiff.mp h)) choices

theorem obeys_serve (delivery : Delivery) :
    (Handler.serve handleInventoryCommand delivery).Obeys
      (commandRule delivery.message).discipline .none :=
  obeys_handleInventoryCommand delivery.message delivery.choices

end CommercePlatform.Inventory
