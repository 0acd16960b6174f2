/-
What an inventory command that succeeds has done.

A command that is new marks its event and then has one of four effects, of which one is
none.  Everything proved about the stock is proved about these.
-/
import CommercePlatform.Service.Statements
import CommercePlatform.Inventory.Transactions

namespace CommercePlatform.Inventory

open Js Txn

variable [Platform]

/-- What a new command does to the rows `db`, in which it is already marked. -/
inductive Effect (message : KafkaMessage) (choices : Choices) (db : ServiceStore Row) :
    ServiceStore Row → Prop where
  /-- A release of what is not reserved. -/
  | ignored (hrelease : isRelease message) : Effect message choices db db
  | released {orderId : String} {reservation : Reservation} {item : Item}
      (hrelease : isRelease message) (horder : orderIdOf message.value = some orderId)
      (hreservation : ownRow db (.reservation orderId) = some reservation)
      (hreserved : reservation.status = .reserved)
      (hmove : (∃ old, ownRow db (.item reservation.sku) = some old ∧
        old.move (-reservation.quantity.val) = .ok item)) :
      Effect message choices db
        ((db.insert (ServiceKey.own (Key.item reservation.sku)) item).insert
          (ServiceKey.own (Key.reservation orderId)) { reservation with status := .released })
  | rejected {orderId : Option Json} {id : String} {row : OutboxRow}
      (hreserve : ¬ isRelease message) (hget : message.value.get "orderId" = .ok orderId)
      (hrow : outboxRow choices topics.inventory (inventoryRejected orderId choices.eventId) =
        .ok (id, row))
      (hfree : outboxAt db id = none) :
      Effect message choices db (db.insert (ServiceKey.outbox id) row)
  | reserved {sku orderId id : String} {orderIdValue quantity totalAmount currency : Option Json}
      {amount : Int4} {old item : Item} {reservation : Reservation} {row : OutboxRow}
      (hreserve : ¬ isRelease message)
      (hget : message.value.get "orderId" = .ok orderIdValue)
      (horder : orderIdOf message.value = some orderId)
      (hquantity : message.value.get "quantity" = .ok quantity)
      (hamount : int4Param quantity = .ok (some amount))
      (hitem : ownRow db (.item sku) = some old)
      (henough : (Number.finite old.availableQuantity.val).lt (toNumber quantity) = false)
      (hmove : old.move amount.val = .ok item)
      (hreservation : reservation = match ownRow db (.reservation orderId) with
        | none => { sku := sku, quantity := amount, status := .reserved }
        | some held => { held with status := .reserved })
      (hrow : outboxRow choices topics.inventory
        (inventoryReserved orderIdValue totalAmount currency choices.eventId) = .ok (id, row))
      (hfree : outboxAt db id = none) :
      Effect message choices db
        (((db.insert (ServiceKey.own (Key.item sku)) item).insert
          (ServiceKey.own (Key.reservation orderId)) reservation).insert
            (ServiceKey.outbox id) row)

/-- No effect removes a row. -/
theorem Effect.mem {message : KafkaMessage} {choices : Choices} {db db' : ServiceStore Row}
    (h : Effect message choices db db') {k : ServiceKey Key} (hk : k ∈ db) : k ∈ db' := by
  cases h with
  | ignored => exact hk
  | released => simp [hk]
  | rejected => simp [hk]
  | reserved => simp [hk]

section

variable {message : KafkaMessage} {choices : Choices} {db db' : ServiceStore Row}

theorem releaseInventory_effect (hrelease : isRelease message)
    (hfk : ∀ orderId reservation, ownRow db (.reservation orderId) = some reservation →
      ownRow db (.item reservation.sku) ≠ none)
    (h : (releaseInventory message.value).run db = .ok ((), db')) :
    Effect message choices db db' := by
  unfold releaseInventory at h
  obtain ⟨orderId, hget, h⟩ := Tx.run_ofExcept_bind_eq_ok.mp h
  obtain ⟨id, hid, h⟩ := Tx.run_ofExcept_bind_eq_ok.mp h
  cases id with
  | none =>
      have hdb : db' = db := by simpa [eq_comm] using h
      exact hdb ▸ .ignored hrelease
  | some id =>
      simp only [reservedReservation, Tx.bind_eq, Tx.pure_eq, Tx.bind_assoc, run_selectRow_bind,
        Tx.pure_bind] at h
      cases hfound : Option.filter (fun reservation : Reservation => reservation.status = .reserved)
          (ownRow db (Key.reservation id)) with
      | none =>
          rw [hfound] at h
          have hdb : db' = db := by simpa [eq_comm] using h
          exact hdb ▸ .ignored hrelease
      | some reservation =>
          rw [hfound] at h
          obtain ⟨hreservation, hreserved⟩ := Option.filter_eq_some_iff.mp hfound
          obtain ⟨_, db₁, hitem, hupdate⟩ := Tx.run_bind_eq_ok.mp h
          rcases run_updateWhere_eq_ok.mp hitem with ⟨hnone, -⟩ | ⟨old, item, hold, hmove, rfl⟩
          · exact absurd hnone (hfk id reservation hreservation)
          · have hkept : ownRow (db.insert (ServiceKey.own (Key.item reservation.sku)) item)
                (Key.reservation id) = some reservation := by
              rw [ownRow_insert_of_ne _ (by simp)]
              exact hreservation
            rcases run_updateWhere_eq_ok.mp hupdate with ⟨hnone, -⟩ | ⟨row, row', hrow, hset, rfl⟩
            · rw [hkept] at hnone
              simp at hnone
            · rw [hkept] at hrow
              obtain rfl := Option.some.inj hrow
              obtain rfl := Except.ok.inj hset
              exact .released hrelease (orderIdOf_eq hget hid) hreservation (by simpa using hreserved)
                ⟨old, hold, hmove⟩

omit [Platform] in
/-- The upsert of a reservation, once the item is there, leaves it reserved. -/
theorem run_upsertReservation_eq_ok {sku orderId : String} {item : Item} {amount : Int4}
    {db₁ : ServiceStore Row} :
    (upsertInto (Key.reservation orderId) { sku := sku, quantity := amount, status := .reserved }
      (fun reservation => { reservation with status := .reserved }) (do
        let some _ ← selectForUpdate (Key.item sku) | .throw (.foreignKey "reservations_sku_fkey")
        return) : InventoryTx Unit).run (db.insert (ServiceKey.own (Key.item sku)) item) =
      .ok ((), db₁) ↔
    db₁ = (db.insert (ServiceKey.own (Key.item sku)) item).insert
      (ServiceKey.own (Key.reservation orderId))
      (match ownRow db (Key.reservation orderId) with
        | none => { sku := sku, quantity := amount, status := .reserved }
        | some held => { held with status := .reserved }) := by
  have hsame : ownRow (db.insert (ServiceKey.own (Key.item sku)) item) (Key.reservation orderId) =
      ownRow db (Key.reservation orderId) := ownRow_insert_of_ne _ (by simp)
  have hfound : ∀ reservation : Reservation,
      ownRow ((db.insert (ServiceKey.own (Key.item sku)) item).insert
        (ServiceKey.own (Key.reservation orderId)) reservation) (Key.item sku) = some item := by
    intro reservation
    rw [ownRow_insert_of_ne _ (by simp)]
    exact Finmap.lookup_insert _
  rw [run_upsertInto_eq_ok, hsame]
  cases ownRow db (Key.reservation orderId) with
  | none => simp [run_selectForUpdate_bind, hfound, eq_comm]
  | some held => simp

/-- What a reservation that succeeds has read of its payload, and what it has done. -/
theorem reserveInventory_cases {payload : Json}
    (h : (reserveInventory payload choices).run db = .ok ((), db')) :
    ∃ orderIdValue, payload.get "orderId" = .ok orderIdValue ∧
      ((∃ id row, outboxRow choices topics.inventory
          (inventoryRejected orderIdValue choices.eventId) = .ok (id, row) ∧
        outboxAt db id = none ∧ db' = db.insert (ServiceKey.outbox id) row) ∨
      ∃ itemSku quantity totalAmount currency sku orderId amount old item id row,
        payload.get "itemSku" = .ok itemSku ∧ textParam itemSku = .ok (some sku) ∧
        payload.get "quantity" = .ok quantity ∧ int4Param quantity = .ok (some amount) ∧
        uuidParam orderIdValue = .ok (some orderId) ∧ ownRow db (.item sku) = some old ∧
        (Number.finite old.availableQuantity.val).lt (toNumber quantity) = false ∧
        old.move amount.val = .ok item ∧
        outboxRow choices topics.inventory
          (inventoryReserved orderIdValue totalAmount currency choices.eventId) = .ok (id, row) ∧
        outboxAt db id = none ∧
        db' = ((db.insert (ServiceKey.own (Key.item sku)) item).insert
          (ServiceKey.own (Key.reservation orderId))
            (match ownRow db (Key.reservation orderId) with
              | none => { sku := sku, quantity := amount, status := .reserved }
              | some held => { held with status := .reserved })).insert
                (ServiceKey.outbox id) row) := by
  unfold reserveInventory at h
  obtain ⟨itemSku, hsku, h⟩ := Tx.run_ofExcept_bind_eq_ok.mp h
  obtain ⟨quantity, hquantity, h⟩ := Tx.run_ofExcept_bind_eq_ok.mp h
  obtain ⟨orderIdValue, hget, h⟩ := Tx.run_ofExcept_bind_eq_ok.mp h
  obtain ⟨sku, htext, h⟩ := Tx.run_ofExcept_bind_eq_ok.mp h
  refine ⟨orderIdValue, hget, ?_⟩
  cases sku with
  | none => exact Or.inl (run_insertOutbox_eq_ok.mp h)
  | some sku =>
      simp only [Tx.bind_eq, run_selectForUpdate_bind] at h
      cases hitem : ownRow db (Key.item sku) with
      | none =>
          rw [hitem] at h
          exact Or.inl (run_insertOutbox_eq_ok.mp h)
      | some old =>
          rw [hitem] at h
          simp only at h
          split at h
          · exact Or.inl (run_insertOutbox_eq_ok.mp h)
          · rename_i henough
            obtain ⟨amount, hamount, h⟩ := Tx.run_ofExcept_bind_eq_ok.mp h
            obtain ⟨_, db₁, hupdate, h⟩ := Tx.run_bind_eq_ok.mp h
            rcases run_updateWhere_eq_ok.mp hupdate with ⟨hnone, -⟩ | ⟨old', item, hold, hset, rfl⟩
            · rw [hitem] at hnone
              simp at hnone
            rw [hitem] at hold
            obtain rfl := Option.some.inj hold
            obtain ⟨amount', hamount', hmove⟩ := bind_eq_ok.mp hset
            obtain ⟨key, hkey, h⟩ := Tx.run_ofExcept_bind_eq_ok.mp h
            obtain ⟨orderId, hid, h⟩ := Tx.run_ofExcept_bind_eq_ok.mp h
            obtain ⟨amount'', hamount'', h⟩ := Tx.run_ofExcept_bind_eq_ok.mp h
            rw [notNull_eq_ok hamount'] at hamount hamount''
            rw [notNull_eq_ok hid] at hkey
            obtain rfl := Except.ok.inj hamount''
            obtain ⟨_, db₂, hupsert, h⟩ := Tx.run_bind_eq_ok.mp h
            obtain ⟨totalAmount, -, h⟩ := Tx.run_ofExcept_bind_eq_ok.mp h
            obtain ⟨currency, -, h⟩ := Tx.run_ofExcept_bind_eq_ok.mp h
            obtain ⟨id, row, hrow, hfree, rfl⟩ := run_insertOutbox_eq_ok.mp h
            have hdb₂ := run_upsertReservation_eq_ok.mp hupsert
            subst hdb₂
            exact Or.inr ⟨itemSku, quantity, totalAmount, currency, sku, orderId, _, old, item, id,
              row, hsku, htext, hquantity, hamount, hkey, hitem, by simpa using henough, hmove, hrow,
              by simpa using hfree, rfl⟩

theorem reserveInventory_effect (hreserve : ¬ isRelease message)
    (h : (reserveInventory message.value choices).run db = .ok ((), db')) :
    Effect message choices db db' := by
  obtain ⟨orderIdValue, hget, ⟨id, row, hrow, hfree, rfl⟩ | ⟨itemSku, quantity, totalAmount, currency,
    sku, orderId, amount, old, item, id, row, -, -, hquantity, hamount, hkey, hitem, henough, hmove,
    hrow, hfree, rfl⟩⟩ := reserveInventory_cases h
  · exact .rejected hreserve hget hrow hfree
  · exact .reserved hreserve hget (orderIdOf_eq hget hkey) hquantity hamount hitem henough hmove rfl
      hrow hfree

/-- **What a successful command has done**: nothing if it was processed before, or one effect. -/
theorem handleInventoryCommand_effect
    (hfk : ∀ orderId reservation, ownRow db (.reservation orderId) = some reservation →
      ownRow db (.item reservation.sku) ≠ none)
    (h : (handleInventoryCommand message choices).run db = .ok ((), db')) :
    ∃ key, eventKey message = some key ∧
      ((processedAt db key ≠ none ∧ db' = db) ∨
        ∃ row, processedAt db key = none ∧
          Effect message choices (db.insert (ServiceKey.processed key) row) db') := by
  unfold handleInventoryCommand at h
  obtain ⟨eventId, hid, h⟩ := Tx.run_ofExcept_bind_eq_ok.mp h
  obtain ⟨eventType, htype, h⟩ := Tx.run_ofExcept_bind_eq_ok.mp h
  obtain ⟨key, topic, routingKey, hkey, -, -, hcases⟩ := run_processOnce_eq_ok.mp h
  refine ⟨key, eventKey_eq hid hkey, hcases.imp id fun ⟨hnew, hrun⟩ => ?_⟩
  refine ⟨{ topic := topic, routingKey := routingKey }, hnew, ?_⟩
  split at hrun
  · rename_i hrelease
    refine releaseInventory_effect ⟨eventType, htype, hrelease⟩ ?_ hrun
    simpa using hfk
  · rename_i hreserve
    refine reserveInventory_effect ?_ hrun
    intro ⟨eventType', htype', hrelease⟩
    rw [htype] at htype'
    exact hreserve (Except.ok.inj htype' ▸ hrelease)

end

/-! ### The commands of the order service

These are well-formed, and then a command succeeds exactly where it has one of the
effects above.
-/

/-- A payload that asks for a reservation, with nothing missing. -/
structure ReserveCommand (payload : Json) (orderId sku : String) (amount : Int4)
    (totalAmount currency : Option Json) : Prop where
  uuid : uuidParam (some (.str orderId)) = .ok (some orderId)
  text : textParam (some (.str sku)) = .ok (some sku)
  fits : int4Param (some (.num (.finite amount.val))) = .ok (some amount)
  orderId : payload.get "orderId" = .ok (some (.str orderId))
  itemSku : payload.get "itemSku" = .ok (some (.str sku))
  quantity : payload.get "quantity" = .ok (some (.num (.finite amount.val)))
  totalAmount : payload.get "totalAmount" = .ok totalAmount
  currency : payload.get "currency" = .ok currency

section

variable {payload : Json} {choices : Choices} {db db' : ServiceStore Row} {orderId sku : String}

theorem run_rejectInventory_eq_ok {orderIdValue : Option Json} :
    (rejectInventory orderIdValue choices).run db = .ok ((), db') ↔
      ∃ id out, outboxRow choices topics.inventory
          (inventoryRejected orderIdValue choices.eventId) = .ok (id, out) ∧
        outboxAt db id = none ∧ db' = db.insert (ServiceKey.outbox id) out :=
  run_insertOutbox_eq_ok

theorem run_reserveInventory_eq_ok {amount : Int4} {totalAmount currency : Option Json}
    (h : ReserveCommand payload orderId sku amount totalAmount currency)
    (hnone : ownRow db (.reservation orderId) = none) :
    (reserveInventory payload choices).run db = .ok ((), db') ↔
      ((∀ item, ownRow db (.item sku) = some item →
          item.availableQuantity.val < amount.val) ∧
        ∃ id out, outboxRow choices topics.inventory
            (inventoryRejected (some (.str orderId)) choices.eventId) = .ok (id, out) ∧
          outboxAt db id = none ∧ db' = db.insert (ServiceKey.outbox id) out) ∨
      ∃ old item id out, ownRow db (.item sku) = some old ∧
        amount.val ≤ old.availableQuantity.val ∧ old.move amount.val = .ok item ∧
        outboxRow choices topics.inventory
          (inventoryReserved (some (.str orderId)) totalAmount currency choices.eventId) =
            .ok (id, out) ∧
        outboxAt db id = none ∧
        db' = ((db.insert (ServiceKey.own (Key.item sku)) item).insert
          (ServiceKey.own (Key.reservation orderId))
            ({ sku := sku, quantity := amount, status := .reserved } : Reservation)).insert
              (ServiceKey.outbox id) out := by
  unfold reserveInventory
  simp only [h.orderId, h.itemSku, h.quantity, h.text, Tx.ofExcept_ok, Tx.bind_eq, Tx.pure_bind,
    run_selectForUpdate_bind]
  cases hitem : ownRow db (Key.item sku) with
  | none =>
      simp only [run_rejectInventory_eq_ok]
      simp
  | some old =>
      have hlt : (Number.finite old.availableQuantity.val).lt
          (toNumber (some (.num (.finite amount.val)))) =
          decide (old.availableQuantity.val < amount.val) := by
        simp
      simp only [hlt, Option.some.injEq]
      by_cases henough : old.availableQuantity.val < amount.val
      · have hle : ¬ amount.val ≤ old.availableQuantity.val := by omega
        simp only [henough, decide_true, if_true, run_rejectInventory_eq_ok]
        simp [henough, hle]
      · have hle : amount.val ≤ old.availableQuantity.val := by omega
        simp only [henough, decide_false, Bool.false_eq_true, if_false, h.fits, h.uuid,
          h.totalAmount, h.currency, Tx.ofExcept_ok, Tx.pure_bind, notNull_some, Tx.run_bind_eq_ok]
        constructor
        · intro ⟨_, db₁, hupdate, _, db₂, hupsert, hout⟩
          rcases run_updateWhere_eq_ok.mp hupdate with ⟨habsent, -⟩ | ⟨old', item, hold, hmove, rfl⟩
          · rw [hitem] at habsent
            simp at habsent
          rw [hitem] at hold
          obtain rfl := Option.some.inj hold
          obtain rfl := run_upsertReservation_eq_ok.mp hupsert
          rw [hnone] at hout
          obtain ⟨id, out, hrow, hfree, hdb⟩ := run_insertOutbox_eq_ok.mp hout
          exact Or.inr ⟨old, item, id, out, rfl, hle, hmove, hrow, by simpa using hfree, hdb⟩
        · intro hcases
          rcases hcases with ⟨hshort, -⟩ | ⟨old', item, id, out, hold, -, hmove, hrow, hfree, hdb⟩
          · exact absurd (hshort old rfl) henough
          obtain rfl := hold
          refine ⟨(), _, run_updateWhere_eq_ok.mpr (Or.inr ⟨old, item, hitem, hmove, rfl⟩), (), _,
            run_upsertReservation_eq_ok.mpr rfl, ?_⟩
          rw [hnone]
          exact run_insertOutbox_eq_ok.mpr ⟨id, out, hrow, by simpa using hfree, hdb⟩

/-- A release of an order that has no standing reservation. -/
theorem run_releaseInventory_of_none {orderIdValue : Option Json}
    (hget : payload.get "orderId" = .ok orderIdValue)
    (huuid : uuidParam orderIdValue = .ok (some orderId))
    (hnone : ∀ reservation, ownRow db (.reservation orderId) = some reservation →
      reservation.status ≠ .reserved) :
    (releaseInventory payload).run db = .ok ((), db) := by
  unfold releaseInventory
  have hfound : Option.filter (fun reservation : Reservation => reservation.status = .reserved)
      (ownRow db (Key.reservation orderId)) = none := by
    rw [Option.filter_eq_none_iff]
    intro reservation hreservation
    simpa using hnone reservation hreservation
  simp only [hget, huuid, reservedReservation, Tx.ofExcept_ok, Tx.bind_eq, Tx.pure_eq, Tx.bind_assoc,
    Tx.pure_bind, run_selectRow_bind, hfound, Tx.run_pure]

/-- A release of a standing reservation. -/
theorem run_releaseInventory_eq_ok {reservation : Reservation} {orderIdValue : Option Json}
    (hget : payload.get "orderId" = .ok orderIdValue)
    (huuid : uuidParam orderIdValue = .ok (some orderId))
    (hreservation : ownRow db (.reservation orderId) = some reservation)
    (hreserved : reservation.status = .reserved)
    (hitem : ownRow db (.item reservation.sku) ≠ none) :
    (releaseInventory payload).run db = .ok ((), db') ↔
      ∃ old item, ownRow db (.item reservation.sku) = some old ∧
        old.move (-reservation.quantity.val) = .ok item ∧
        db' = (db.insert (ServiceKey.own (Key.item reservation.sku)) item).insert
          (ServiceKey.own (Key.reservation orderId)) { reservation with status := .released } := by
  unfold releaseInventory
  have hfound : Option.filter (fun reservation : Reservation => reservation.status = .reserved)
      (ownRow db (Key.reservation orderId)) = some reservation := by
    rw [hreservation]
    simp [hreserved]
  simp only [hget, huuid, reservedReservation, Tx.ofExcept_ok, Tx.bind_eq, Tx.pure_eq, Tx.bind_assoc,
    Tx.pure_bind, run_selectRow_bind, hfound, Tx.run_bind_eq_ok]
  have hkept : ∀ item : Item, ownRow (db.insert (ServiceKey.own (Key.item reservation.sku)) item)
      (Key.reservation orderId) = some reservation := by
    intro item
    rw [ownRow_insert_of_ne _ (by simp)]
    exact hreservation
  constructor
  · intro ⟨_, db₁, hupdate, hrelease⟩
    rcases run_updateWhere_eq_ok.mp hupdate with ⟨habsent, -⟩ | ⟨old, item, hold, hmove, rfl⟩
    · exact absurd habsent hitem
    rcases run_updateWhere_eq_ok.mp hrelease with ⟨habsent, -⟩ | ⟨row, row', hrow, hset, hdb⟩
    · rw [hkept] at habsent
      simp at habsent
    rw [hkept] at hrow
    obtain rfl := Option.some.inj hrow
    obtain rfl := Except.ok.inj hset
    exact ⟨old, item, hold, hmove, hdb⟩
  · intro ⟨old, item, hold, hmove, hdb⟩
    refine ⟨(), _, run_updateWhere_eq_ok.mpr (Or.inr ⟨old, item, hold, hmove, rfl⟩), ?_⟩
    exact run_updateWhere_eq_ok.mpr (Or.inr ⟨reservation, _, hkept item, rfl, hdb⟩)

end

end CommercePlatform.Inventory
