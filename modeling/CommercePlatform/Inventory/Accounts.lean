/-
The stock accounts.

For every SKU the reserved quantity is what it was at the start plus what the standing
reservations hold, and what is available and reserved together never changes.  Each
effect of a command keeps the accounts, provided that a reservation is not made twice
for one order and that its quantity is positive.
-/
import CommercePlatform.Txn.Total
import CommercePlatform.Inventory.Effects

namespace CommercePlatform.Inventory

open Js Txn

/-- What a reservation holds of a SKU. -/
def Reservation.held (sku : String) (reservation : Reservation) : ℤ :=
  if reservation.sku = sku ∧ reservation.status = .reserved then reservation.quantity.val else 0

/-- The weight of a row in the stock that is reserved of a SKU. -/
def heldWeight (sku : String) : (k : ServiceKey Key) → ServiceRow Row k → ℤ
  | .own (.reservation _), row => Reservation.held sku row
  | _, _ => 0

/-- What the standing reservations hold of a SKU. -/
def heldOf (sku : String) (db : ServiceStore Row) : ℤ := total (heldWeight sku) db

/-- What the reservation of one order holds of a SKU. -/
def heldFor (sku orderId : String) (db : ServiceStore Row) : ℤ :=
  weigh (heldWeight sku) db (.own (.reservation orderId))

/-- The books of the inventory, opened with the items `stock`. -/
structure Accounts (stock : String → Option Item) (db : ServiceStore Row) : Prop where
  items : ∀ sku, ownRow db (.item sku) = none ↔ stock sku = none
  /-- What is reserved is what was reserved at first and what the reservations hold. -/
  reserved : ∀ sku item opening, ownRow db (.item sku) = some item → stock sku = some opening →
    item.reservedQuantity.val = opening.reservedQuantity.val + heldOf sku db
  /-- Stock only moves between the two columns. -/
  conserved : ∀ sku item opening, ownRow db (.item sku) = some item → stock sku = some opening →
    item.availableQuantity.val + item.reservedQuantity.val =
      opening.availableQuantity.val + opening.reservedQuantity.val
  available : ∀ sku item opening, ownRow db (.item sku) = some item → stock sku = some opening →
    0 ≤ opening.availableQuantity.val → 0 ≤ item.availableQuantity.val
  quantity : ∀ orderId reservation, ownRow db (.reservation orderId) = some reservation →
    0 < reservation.quantity.val
  /-- Every reservation is of a known SKU. -/
  foreignKey : ∀ orderId reservation, ownRow db (.reservation orderId) = some reservation →
    ownRow db (.item reservation.sku) ≠ none

theorem Item.move_eq_ok {old item : Item} {quantity : ℤ} (h : old.move quantity = .ok item) :
    item.availableQuantity.val = old.availableQuantity.val - quantity ∧
      item.reservedQuantity.val = old.reservedQuantity.val + quantity := by
  obtain ⟨available, havailable, h⟩ := bind_eq_ok.mp h
  obtain ⟨reserved, hreserved, h⟩ := bind_eq_ok.mp h
  obtain rfl := Except.ok.inj h
  exact ⟨Int4.ofInt_eq_ok havailable, Int4.ofInt_eq_ok hreserved⟩

theorem Item.exists_move {old : Item} {quantity : ℤ}
    (havailable : -2147483648 ≤ old.availableQuantity.val - quantity)
    (havailable' : old.availableQuantity.val - quantity ≤ 2147483647)
    (hreserved : -2147483648 ≤ old.reservedQuantity.val + quantity)
    (hreserved' : old.reservedQuantity.val + quantity ≤ 2147483647) :
    ∃ item, old.move quantity = .ok item := by
  unfold Item.move
  rw [Int4.ofInt_of_fits havailable havailable', Int4.ofInt_of_fits hreserved hreserved']
  exact ⟨_, rfl⟩

/-! ### What a write does to what is held -/

section

variable {db : ServiceStore Row}

/-- What is held depends on the service's own rows only. -/
theorem heldOf_congr {db' : ServiceStore Row} (h : ∀ key, ownRow db' key = ownRow db key)
    (sku : String) : heldOf sku db' = heldOf sku db := by
  have hweigh : ∀ k, weigh (heldWeight sku) db' k = weigh (heldWeight sku) db k := by
    intro k
    match k with
    | .own key =>
        unfold weigh
        rw [show db'.lookup (ServiceKey.own key) = db.lookup (ServiceKey.own key) from h key]
    | .outbox id =>
        unfold weigh
        split <;> split <;> rfl
    | .processed eventId =>
        unfold weigh
        split <;> split <;> rfl
  unfold heldOf
  rw [total_eq_sum (db.keys ∪ db'.keys) fun k hk =>
      Finset.mem_union_right _ (Finmap.mem_keys.mpr hk),
    total_eq_sum (db.keys ∪ db'.keys) fun k hk =>
      Finset.mem_union_left _ (Finmap.mem_keys.mpr hk)]
  exact Finset.sum_congr rfl fun k _ => hweigh k

/-- Only a reservation holds anything. -/
theorem heldOf_insert_of_ne (sku : String) (k : ServiceKey Key) (row : ServiceRow Row k)
    (hk : ∀ orderId, k ≠ .own (.reservation orderId)) :
    heldOf sku (db.insert k row) = heldOf sku db := by
  have hweight : ∀ row : ServiceRow Row k, heldWeight sku k row = 0 := by
    intro row
    match k, row, hk with
    | .own (.item _), _, _ => rfl
    | .own (.reservation orderId), _, hk => exact absurd rfl (hk orderId)
    | .outbox _, _, _ => rfl
    | .processed _, _, _ => rfl
  unfold heldOf
  rw [total_insert, weigh_eq_zero hweight, hweight]
  omega

theorem heldOf_insert_reservation (sku orderId : String) (reservation : Reservation) :
    heldOf sku (db.insert (ServiceKey.own (Key.reservation orderId)) reservation) =
      heldOf sku db - heldFor sku orderId db + reservation.held sku :=
  total_insert _ _

theorem heldFor_of_none {sku orderId : String} (h : ownRow db (.reservation orderId) = none) :
    heldFor sku orderId db = 0 := weigh_of_none h

theorem heldFor_of_some {sku orderId : String} {reservation : Reservation}
    (h : ownRow db (.reservation orderId) = some reservation) :
    heldFor sku orderId db = reservation.held sku := weigh_of_lookup h

end

/-! ### Each effect keeps the accounts -/

namespace Accounts

variable {stock : String → Option Item} {db : ServiceStore Row}

/-- What is done to the shared tables is none of the accounts' business. -/
theorem of_same (h : Accounts stock db) {db' : ServiceStore Row}
    (hsame : ∀ key, ownRow db' key = ownRow db key) : Accounts stock db' where
  items sku := by rw [hsame]; exact h.items sku
  reserved sku := by rw [hsame, heldOf_congr hsame sku]; exact h.reserved sku
  conserved sku := by rw [hsame]; exact h.conserved sku
  available sku := by rw [hsame]; exact h.available sku
  quantity orderId := by rw [hsame]; exact h.quantity orderId
  foreignKey orderId reservation := by
    rw [hsame, hsame]
    exact h.foreignKey orderId reservation

theorem insert_outbox (h : Accounts stock db) (id : String) (row : OutboxRow) :
    Accounts stock (db.insert (ServiceKey.outbox id) row) :=
  h.of_same fun _ => ownRow_insert_outbox row

theorem insert_processed (h : Accounts stock db) (eventId : String) (row : ProcessedEvent) :
    Accounts stock (db.insert (ServiceKey.processed eventId) row) :=
  h.of_same fun _ => ownRow_insert_processed row

/-- The rows after an item and the reservation of an order are written together. -/
def moved (db : ServiceStore Row) (sku orderId : String) (item : Item) (reservation : Reservation) :
    ServiceStore Row :=
  (db.insert (ServiceKey.own (Key.item sku)) item).insert
    (ServiceKey.own (Key.reservation orderId)) reservation

section Moved

variable {sku orderId : String} {item : Item} {reservation : Reservation}

theorem item_moved (sku' : String) :
    ownRow (moved db sku orderId item reservation) (.item sku') =
      if sku' = sku then some item else ownRow db (.item sku') := by
  unfold moved
  rw [ownRow_insert_of_ne _ (by simp)]
  by_cases hsku : sku' = sku
  · subst hsku
    simp [ownRow]
  · rw [if_neg hsku]
    exact Finmap.lookup_insert_of_ne _ (by simpa using hsku)

theorem reservation_moved (orderId' : String) :
    ownRow (moved db sku orderId item reservation) (.reservation orderId') =
      if orderId' = orderId then some reservation else ownRow db (.reservation orderId') := by
  unfold moved
  by_cases horder : orderId' = orderId
  · subst horder
    simp [ownRow]
  · rw [if_neg horder]
    calc
      _ = ownRow (db.insert (ServiceKey.own (Key.item sku)) item) (.reservation orderId') :=
        Finmap.lookup_insert_of_ne _ (by simpa using horder)
      _ = _ := Finmap.lookup_insert_of_ne _ (by simp)

/-- The stock is moved alike in databases with the same stock. -/
theorem ownRow_moved_congr {db' : ServiceStore Row} (h : ∀ key, ownRow db' key = ownRow db key)
    (key : Key) : ownRow (moved db' sku orderId item reservation) key =
      ownRow (moved db sku orderId item reservation) key := by
  cases key with
  | item sku' => rw [item_moved, item_moved, h]
  | reservation orderId' => rw [reservation_moved, reservation_moved, h]

theorem heldOf_moved (sku' : String) :
    heldOf sku' (moved db sku orderId item reservation) =
      heldOf sku' db - heldFor sku' orderId db + reservation.held sku' := by
  unfold moved
  have hitem : heldOf sku' (db.insert (ServiceKey.own (Key.item sku)) item) = heldOf sku' db :=
    heldOf_insert_of_ne sku' (.own (.item sku)) item (by simp)
  have hfor : heldFor sku' orderId (db.insert (ServiceKey.own (Key.item sku)) item) =
      heldFor sku' orderId db := by
    unfold heldFor weigh
    rw [Finmap.lookup_insert_of_ne _ (by simp)]
  rw [heldOf_insert_reservation, hitem, hfor]

end Moved

/--
An item and the reservation of an order are written together: what the reservation
holds more than before is what the item has moved.
-/
theorem insert_move (h : Accounts stock db) {sku orderId : String} {old item : Item}
    {reservation : Reservation} {amount : ℤ} (hold : ownRow db (.item sku) = some old)
    (hmove : old.move amount = .ok item)
    (havailable : 0 ≤ old.availableQuantity.val → 0 ≤ item.availableQuantity.val)
    (hsku : reservation.sku = sku) (hquantity : 0 < reservation.quantity.val)
    (hother : ∀ sku', sku' ≠ sku → heldFor sku' orderId db = 0)
    (hamount : amount = reservation.held sku - heldFor sku orderId db) :
    Accounts stock (moved db sku orderId item reservation) := by
  obtain ⟨hmoved, hmoved'⟩ := Item.move_eq_ok hmove
  have hheld : ∀ sku', sku' ≠ sku →
      heldOf sku' (moved db sku orderId item reservation) = heldOf sku' db := by
    intro sku' hne
    have hnone : reservation.held sku' = 0 := by
      unfold Reservation.held
      rw [if_neg]
      exact fun hc => hne (hc.1.symm.trans hsku)
    rw [heldOf_moved, hother sku' hne, hnone]
    omega
  refine ⟨fun sku' => ?_, fun sku' item' opening hitem hopening => ?_,
    fun sku' item' opening hitem hopening => ?_, fun sku' item' opening hitem hopening => ?_,
    fun orderId' row hrow => ?_, fun orderId' row hrow => ?_⟩
  · rw [item_moved]
    split
    · rename_i heq
      subst heq
      rw [← h.items, hold]
      simp
    · exact h.items sku'
  · rw [item_moved] at hitem
    split at hitem
    · rename_i heq
      subst heq
      obtain rfl := Option.some.inj hitem
      have hreserved := h.reserved sku' old opening hold hopening
      rw [heldOf_moved]
      omega
    · rename_i hne
      rw [hheld sku' hne]
      exact h.reserved sku' item' opening hitem hopening
  · rw [item_moved] at hitem
    split at hitem
    · rename_i heq
      subst heq
      obtain rfl := Option.some.inj hitem
      have hconserved := h.conserved sku' old opening hold hopening
      omega
    · exact h.conserved sku' item' opening hitem hopening
  · intro hopen
    rw [item_moved] at hitem
    split at hitem
    · rename_i heq
      subst heq
      obtain rfl := Option.some.inj hitem
      exact havailable (h.available sku' old opening hold hopening hopen)
    · exact h.available sku' item' opening hitem hopening hopen
  · rw [reservation_moved] at hrow
    split at hrow
    · obtain rfl := Option.some.inj hrow
      exact hquantity
    · exact h.quantity orderId' row hrow
  · rw [reservation_moved] at hrow
    rw [item_moved]
    split at hrow
    · obtain rfl := Option.some.inj hrow
      simp [hsku]
    · split
      · simp
      · exact h.foreignKey orderId' row hrow

/-- An order holds no more than all orders together. -/
theorem heldFor_le (h : Accounts stock db) (sku orderId : String) :
    heldFor sku orderId db ≤ heldOf sku db := by
  refine weigh_le_total (fun k row hrow => ?_) _
  match k, row, hrow with
  | .own (.item _), _, _ => exact le_refl 0
  | .own (.reservation orderId), reservation, hrow =>
      have hquantity := h.quantity orderId reservation hrow
      show 0 ≤ Reservation.held sku reservation
      unfold Reservation.held
      split
      · omega
      · omega
  | .outbox _, _, _ => exact le_refl 0
  | .processed _, _, _ => exact le_refl 0

/-- A reservation finds room in its columns, if there is enough stock. -/
theorem exists_reserve (h : Accounts stock db) {sku : String} {old : Item} {quantity : ℤ}
    (hcapacity : ∀ opening, stock sku = some opening →
      opening.availableQuantity.val + opening.reservedQuantity.val ≤ 2147483647)
    (hold : ownRow db (.item sku) = some old) (hquantity : 0 < quantity)
    (henough : quantity ≤ old.availableQuantity.val) : ∃ item, old.move quantity = .ok item := by
  cases hopen : stock sku with
  | none =>
      rw [(h.items sku).mpr hopen] at hold
      simp at hold
  | some opening =>
      have hsum := hcapacity opening hopen
      have hconserved := h.conserved sku old opening hold hopen
      have hupper := old.availableQuantity.upper
      have hlower := old.reservedQuantity.lower
      exact Item.exists_move (by omega) (by omega) (by omega) (by omega)

/-- A release gives back what was taken from the same columns. -/
theorem exists_release (h : Accounts stock db) {orderId : String} {reservation : Reservation}
    {old : Item} (hreservation : ownRow db (.reservation orderId) = some reservation)
    (hstatus : reservation.status = .reserved)
    (hold : ownRow db (.item reservation.sku) = some old) :
    ∃ item, old.move (-reservation.quantity.val) = .ok item := by
  cases hopen : stock reservation.sku with
  | none =>
      rw [(h.items _).mpr hopen] at hold
      simp at hold
  | some opening =>
      have hquantity := h.quantity orderId reservation hreservation
      have hconserved := h.conserved _ old opening hold hopen
      have hreserved := h.reserved _ old opening hold hopen
      have hheld := h.heldFor_le reservation.sku orderId
      have hmine : reservation.held reservation.sku = reservation.quantity.val := by
        simp [Reservation.held, hstatus]
      rw [heldFor_of_some hreservation, hmine] at hheld
      have hupper := opening.availableQuantity.upper
      have hlower := opening.reservedQuantity.lower
      have havailable := old.availableQuantity.lower
      have hreserved' := old.reservedQuantity.upper
      exact Item.exists_move (by omega) (by omega) (by omega) (by omega)

variable [Platform] {message : KafkaMessage} {choices : Choices} {db' : ServiceStore Row}

/-- What a handler has to be given for its reservations to add up. -/
structure Sane (message : KafkaMessage) (db : ServiceStore Row) : Prop where
  /-- A reservation asks for a positive quantity. -/
  quantity : ¬ isRelease message → ∀ quantity amount,
    message.value.get "quantity" = .ok quantity → int4Param quantity = .ok (some amount) →
      0 < amount.val ∧ toNumber quantity = .finite amount.val
  /-- An order is not reserved twice. -/
  once : ¬ isRelease message → ∀ orderId, orderIdOf message.value = some orderId →
    ownRow db (.reservation orderId) = none

theorem effect (h : Accounts stock db) (hsane : Sane message db)
    (heffect : Effect message choices db db') : Accounts stock db' := by
  cases heffect with
  | ignored => exact h
  | rejected => exact h.insert_outbox _ _
  | @released orderId reservation item hrelease horder hreservation hreserved hmove =>
      obtain ⟨old, hold, hmove⟩ := hmove
      have hpositive := h.quantity orderId reservation hreservation
      have hheld : ∀ sku, heldFor sku orderId db = reservation.held sku :=
        fun sku => heldFor_of_some hreservation
      refine h.insert_move hold hmove ?_ rfl hpositive ?_ ?_
      · have hmoved := (Item.move_eq_ok hmove).1
        intro hold
        omega
      · intro sku hne
        rw [hheld]
        unfold Reservation.held
        rw [if_neg]
        exact fun hc => hne hc.1.symm
      · rw [hheld]
        simp [Reservation.held, hreserved]
  | @reserved sku orderId id _ quantity _ _ amount old item reservation row hreserve _ horder
      hquantity hamount hitem henough hmove hreservation =>
      have hnone := hsane.once hreserve orderId horder
      obtain ⟨hpositive, hnumber⟩ := hsane.quantity hreserve quantity amount hquantity hamount
      rw [hnone] at hreservation
      subst hreservation
      refine (h.insert_move hitem hmove ?_ rfl hpositive ?_ ?_).insert_outbox _ _
      · have hmoved := (Item.move_eq_ok hmove).1
        rw [hnumber, Number.lt_finite, decide_eq_false_iff_not, not_lt] at henough
        have hle : amount.val ≤ old.availableQuantity.val := by exact_mod_cast henough
        omega
      · intro sku' _
        exact heldFor_of_none hnone
      · rw [heldFor_of_none hnone]
        simp [Reservation.held]

/-- **A successful command keeps the accounts.** -/
theorem handleInventoryCommand (h : Accounts stock db)
    (hsane : ∀ key, eventKey message = some key → processedAt db key = none → Sane message db)
    (hrun : (handleInventoryCommand message choices).run db = .ok ((), db')) :
    Accounts stock db' := by
  obtain ⟨key, hkey, hcases⟩ := handleInventoryCommand_effect h.foreignKey hrun
  rcases hcases with ⟨-, rfl⟩ | ⟨row, hnew, heffect⟩
  · exact h
  · refine (h.insert_processed key row).effect ?_ heffect
    have hs := hsane key hkey hnew
    exact ⟨hs.quantity, fun hreserve orderId horder => by
      simpa using hs.once hreserve orderId horder⟩

end Accounts

end CommercePlatform.Inventory
