/-
What the transactions of the order service do when they run alone.

Every lemma is an `iff`: it says what a transaction that succeeded has done, and when
one succeeds.
-/
import CommercePlatform.Service.Statements
import CommercePlatform.Orders.Transactions

namespace CommercePlatform.Orders

open Js Txn

variable [Platform]

/-! ### The row of a new order -/

/-- The row is what the call asked for, and all of it fits. -/
structure OrderRow.Stores (row : OrderRow) (call : CreateOrderCall) : Prop where
  userId : textIn call.userSub = .ok row.userId
  idempotencyKey : ∃ key, textIn call.idempotencyKey = .ok key ∧ row.idempotencyKey = some key
  requestHash : row.requestHash = some call.bodyHash
  status : row.status = .pendingInventory
  totalAmount : numericParam (some (.num call.body.totalAmount)) = .ok (some row.totalAmount)
  currency : textIn call.normalizedCurrency = .ok row.currency
  itemSku : textIn call.body.itemSku = .ok row.itemSku
  quantity : int4Param (some (.num (.finite call.body.quantity))) = .ok (some row.quantity)
  failureReason : row.failureReason = none

theorem newOrderRow_eq_ok {call : CreateOrderCall} {orderId id : String} {row : OrderRow}
    (h : newOrderRow call orderId = .ok (id, row)) :
    uuidParam (some (.str orderId)) = .ok (some id) ∧ row.Stores call := by
  obtain ⟨id₁, hid, h⟩ := bind_eq_ok.mp h
  obtain ⟨id₂, hnotNull, h⟩ := bind_eq_ok.mp h
  obtain ⟨userId, huser, h⟩ := bind_eq_ok.mp h
  obtain ⟨key, hkey, h⟩ := bind_eq_ok.mp h
  obtain ⟨hash, hhash, h⟩ := bind_eq_ok.mp h
  obtain ⟨amount₁, hamount, h⟩ := bind_eq_ok.mp h
  obtain ⟨amount₂, hamount', h⟩ := bind_eq_ok.mp h
  obtain ⟨currency, hcurrency, h⟩ := bind_eq_ok.mp h
  obtain ⟨itemSku, hsku, h⟩ := bind_eq_ok.mp h
  obtain ⟨quantity₁, hquantity, h⟩ := bind_eq_ok.mp h
  obtain ⟨quantity₂, hquantity', h⟩ := bind_eq_ok.mp h
  obtain ⟨rfl, rfl⟩ := Prod.mk.inj (Except.ok.inj h)
  rw [notNull_eq_ok hnotNull] at hid
  rw [notNull_eq_ok hamount'] at hamount
  rw [notNull_eq_ok hquantity'] at hquantity
  refine ⟨hid, huser, ⟨key, hkey, rfl⟩, ?_, rfl, hamount, hcurrency, hsku, hquantity, rfl⟩
  rw [textIn_eq_ok hhash]

/-- A quantity is stored as it was asked for. -/
theorem OrderRow.Stores.quantity_val {row : OrderRow} {call : CreateOrderCall}
    (h : row.Stores call) : row.quantity.val = call.body.quantity := int4Param_int h.quantity

/-- An amount that is stored is finite. -/
theorem OrderRow.Stores.finite {row : OrderRow} {call : CreateOrderCall} (h : row.Stores call) :
    ∃ q, call.body.totalAmount = .finite q := by
  have hpositive := call.body.totalAmount_pos
  have hstored := h.totalAmount
  cases hamount : call.body.totalAmount with
  | finite q => exact ⟨q, rfl⟩
  | nan =>
      rw [hamount] at hpositive
      simp [Number.lt] at hpositive
  | negInf =>
      rw [hamount] at hpositive
      simp [Number.lt] at hpositive
  | posInf =>
      rw [hamount] at hstored
      obtain ⟨_, -, hstored⟩ := bind_eq_ok.mp hstored
      simp [numericText, Numeric12_2.ofNumber, Except.map] at hstored

/-! ### Transactions -/

variable {db db' : ServiceStore Row}

section Rows

variable {orderId orderId' userId key : String} {row : OrderRow}

omit [Platform]

theorem order_insert_order :
    ownRow (db.insert (ServiceKey.own (Key.order orderId)) row) (.order orderId') =
      if orderId' = orderId then some row else ownRow db (.order orderId') := by
  by_cases horder : orderId' = orderId
  · subst horder
    simp [ownRow]
  · rw [if_neg horder]
    exact Finmap.lookup_insert_of_ne _ (by simpa using horder)

@[simp] theorem idempotency_insert_order :
    ownRow (db.insert (ServiceKey.own (Key.order orderId)) row) (.idempotency userId key) =
      ownRow db (.idempotency userId key) :=
  Finmap.lookup_insert_of_ne _ (by simp)

theorem idempotency_insert_idempotency {userId' key' : String} :
    ownRow (db.insert (ServiceKey.own (Key.idempotency userId key)) orderId)
      (.idempotency userId' key') =
        if userId' = userId ∧ key' = key then some orderId
        else ownRow db (.idempotency userId' key') := by
  by_cases hpair : userId' = userId ∧ key' = key
  · obtain ⟨rfl, rfl⟩ := hpair
    simp [ownRow]
  · rw [if_neg hpair]
    exact Finmap.lookup_insert_of_ne _ (by simpa using hpair)

@[simp] theorem order_insert_idempotency :
    ownRow (db.insert (ServiceKey.own (Key.idempotency userId key)) orderId) (.order orderId') =
      ownRow db (.order orderId') :=
  Finmap.lookup_insert_of_ne _ (by simp)

end Rows

theorem run_createOrderWithOutbox_eq_ok {call : CreateOrderCall} {orderId : String}
    {choices : Choices} :
    (createOrderWithOutbox call orderId choices).run db = .ok ((), db') ↔
      ∃ id row outboxId out, newOrderRow call orderId = .ok (id, row) ∧
        ownRow db (.order id) = none ∧
        ownRow db (.idempotency row.userId (row.idempotencyKey.getD "")) = none ∧
        outboxRow choices topics.inventory (reserveInventoryEvent call orderId choices.eventId) =
          .ok (outboxId, out) ∧
        outboxAt db outboxId = none ∧
        db' = ((db.insert (ServiceKey.own (Key.order id)) row).insert
          (ServiceKey.own (Key.idempotency row.userId (row.idempotencyKey.getD ""))) id).insert
            (ServiceKey.outbox outboxId) out := by
  unfold createOrderWithOutbox
  rw [Tx.bind_eq, Tx.run_ofExcept_bind_eq_ok]
  constructor
  · intro ⟨⟨id, row⟩, hrow, h⟩
    obtain ⟨_, db₁, horder, h⟩ := Tx.run_bind_eq_ok.mp h
    obtain ⟨_, db₂, hindex, h⟩ := Tx.run_bind_eq_ok.mp h
    obtain ⟨outboxId, out, hout, hfree, rfl⟩ := run_insertOutbox_eq_ok.mp h
    obtain ⟨hunique, rfl⟩ := run_insertInto_eq_ok.mp hindex
    obtain ⟨hnew, rfl⟩ := run_insertInto_eq_ok.mp horder
    refine ⟨id, row, outboxId, out, hrow, hnew, ?_, hout, ?_, rfl⟩
    · simpa using hunique
    · simpa using hfree
  · intro ⟨id, row, outboxId, out, hrow, hnew, hunique, hout, hfree, hdb⟩
    have horder : (insertInto (Key.order id) row "orders_pkey").run db =
        .ok ((), db.insert (ServiceKey.own (Key.order id)) row) :=
      run_insertInto_eq_ok.mpr ⟨hnew, rfl⟩
    refine ⟨(id, row), hrow, Tx.run_bind_eq_ok.mpr ⟨(), _, horder, ?_⟩⟩
    refine Tx.run_bind_eq_ok.mpr ⟨(), _, run_insertInto_eq_ok.mpr ⟨by simpa using hunique, rfl⟩, ?_⟩
    exact run_insertOutbox_eq_ok.mpr ⟨outboxId, out, hout, by simpa using hfree, hdb⟩

omit [Platform] in
theorem run_updateOrder_eq_ok {orderId : String} {row : OrderRow} {set : OrderRow → OrderRow}
    (hrow : ownRow db (.order orderId) = some row) :
    (updateOrder (some orderId) set).run db = .ok ((), db') ↔
      db' = db.insert (ServiceKey.own (Key.order orderId)) (set row) := by
  unfold updateOrder
  rw [run_updateWhere_eq_ok, hrow]
  simp

section Saga

variable {payload : Json} {orderIdValue : Option Json} {orderId : String} {row : OrderRow}

theorem run_inventoryReserved_eq_ok {amount currency : Option Json} {choices : Choices}
    {correlationId : Option String} (hget : payload.get "orderId" = .ok orderIdValue)
    (hamount : payload.get "totalAmount" = .ok amount)
    (hcurrency : payload.get "currency" = .ok currency)
    (hid : uuidParam orderIdValue = .ok (some orderId))
    (hrow : ownRow db (.order orderId) = some row) :
    (inventoryReserved payload correlationId choices).run db = .ok ((), db') ↔
      ∃ id out, outboxRow choices topics.payment
          (processPaymentEvent orderIdValue amount currency choices.eventId correlationId) =
            .ok (id, out) ∧
        outboxAt db id = none ∧
        db' = (db.insert (ServiceKey.own (Key.order orderId))
          { row with status := .pendingPayment }).insert (ServiceKey.outbox id) out := by
  unfold inventoryReserved
  simp only [hget, hamount, hcurrency, hid, Tx.ofExcept_ok, Tx.bind_eq, Tx.pure_bind]
  rw [Tx.run_bind_eq_ok]
  constructor
  · intro ⟨_, db₁, hupdate, h⟩
    obtain rfl := (run_updateOrder_eq_ok hrow).mp hupdate
    obtain ⟨id, out, hout, hfree, hdb⟩ := run_insertOutbox_eq_ok.mp h
    exact ⟨id, out, hout, by simpa using hfree, hdb⟩
  · intro ⟨id, out, hout, hfree, hdb⟩
    refine ⟨(), _, (run_updateOrder_eq_ok hrow).mpr rfl, ?_⟩
    exact run_insertOutbox_eq_ok.mpr ⟨id, out, hout, by simpa using hfree, hdb⟩

theorem run_failOrder_eq_ok {reason : Option Json} {text : Option String}
    (hget : payload.get "orderId" = .ok orderIdValue) (hreason : payload.get "reason" = .ok reason)
    (hid : uuidParam orderIdValue = .ok (some orderId)) (htext : textParam reason = .ok text)
    (hrow : ownRow db (.order orderId) = some row) :
    (failOrder payload).run db = .ok ((), db') ↔
      db' = db.insert (ServiceKey.own (Key.order orderId))
        { row with status := .failed, failureReason := text } := by
  unfold failOrder
  simp only [hget, hreason, hid, htext, Tx.ofExcept_ok, Tx.bind_eq, Tx.pure_bind]
  exact run_updateOrder_eq_ok hrow

theorem run_paymentSucceeded_eq_ok (hget : payload.get "orderId" = .ok orderIdValue)
    (hid : uuidParam orderIdValue = .ok (some orderId))
    (hrow : ownRow db (.order orderId) = some row) :
    (paymentSucceeded payload).run db = .ok ((), db') ↔
      db' = db.insert (ServiceKey.own (Key.order orderId)) { row with status := .confirmed } := by
  unfold paymentSucceeded
  simp only [hget, hid, Tx.ofExcept_ok, Tx.bind_eq, Tx.pure_bind]
  exact run_updateOrder_eq_ok hrow

theorem run_paymentFailed_eq_ok {reason : Option Json} {text : Option String} {choices : Choices}
    {correlationId : Option String} (hget : payload.get "orderId" = .ok orderIdValue)
    (hreason : payload.get "reason" = .ok reason)
    (hid : uuidParam orderIdValue = .ok (some orderId)) (htext : textParam reason = .ok text)
    (hrow : ownRow db (.order orderId) = some row) :
    (paymentFailed payload correlationId choices).run db = .ok ((), db') ↔
      ∃ id out, outboxRow choices topics.inventory
          (releaseInventoryEvent orderIdValue choices.eventId correlationId) = .ok (id, out) ∧
        outboxAt db id = none ∧
        db' = (db.insert (ServiceKey.own (Key.order orderId))
          { row with status := .failed, failureReason := text }).insert
            (ServiceKey.outbox id) out := by
  unfold paymentFailed
  simp only [hget, Tx.ofExcept_ok, Tx.bind_eq, Tx.pure_bind]
  rw [Tx.run_bind_eq_ok]
  constructor
  · intro ⟨_, db₁, hfail, h⟩
    obtain rfl := (run_failOrder_eq_ok hget hreason hid htext hrow).mp hfail
    obtain ⟨id, out, hout, hfree, hdb⟩ := run_insertOutbox_eq_ok.mp h
    exact ⟨id, out, hout, by simpa using hfree, hdb⟩
  · intro ⟨id, out, hout, hfree, hdb⟩
    refine ⟨(), _, (run_failOrder_eq_ok hget hreason hid htext hrow).mpr rfl, ?_⟩
    exact run_insertOutbox_eq_ok.mpr ⟨id, out, hout, by simpa using hfree, hdb⟩

end Saga

end CommercePlatform.Orders
