/-
Calls whose values fit.

Nothing that such a call sends to the database is refused but for a constraint, and where
there is no order under its key there is no constraint that its transaction violates.
-/
import CommercePlatform.Saga.Invariant

namespace CommercePlatform

open Js Txn

variable [Platform]

/-- The columns of an order take the values of the call. -/
def Orders.CreateOrderCall.Fits (call : Orders.CreateOrderCall) : Prop :=
  ∃ orderId entry, Orders.newOrderRow call orderId = .ok entry

/-- Only the identifier of an order's row is not the call's. -/
theorem Orders.CreateOrderCall.Fits.newOrderRow {call : Orders.CreateOrderCall} (h : call.Fits)
    {o : String} (ho : IsUuid o) : ∃ row, Orders.newOrderRow call o = .ok (o, row) := by
  obtain ⟨orderId, entry, h⟩ := h
  obtain ⟨_, -, h⟩ := bind_eq_ok.mp h
  obtain ⟨_, -, h⟩ := bind_eq_ok.mp h
  refine ⟨entry.2, ?_⟩
  obtain ⟨userId, huser, h⟩ := bind_eq_ok.mp h
  obtain ⟨key, hkey, h⟩ := bind_eq_ok.mp h
  obtain ⟨hash, hhash, h⟩ := bind_eq_ok.mp h
  obtain ⟨amount₁, hamount₁, h⟩ := bind_eq_ok.mp h
  obtain ⟨amount₂, hamount₂, h⟩ := bind_eq_ok.mp h
  obtain ⟨currency, hcurrency, h⟩ := bind_eq_ok.mp h
  obtain ⟨itemSku, hsku, h⟩ := bind_eq_ok.mp h
  obtain ⟨quantity₁, hquantity₁, h⟩ := bind_eq_ok.mp h
  obtain ⟨quantity₂, hquantity₂, h⟩ := bind_eq_ok.mp h
  rw [← Except.ok.inj h]
  simp [Orders.newOrderRow, ho.uuidParam, huser, hkey, hhash, hamount₁, hamount₂, hcurrency, hsku,
    hquantity₁, hquantity₂, bind, Except.bind, pure, Except.pure]

/-- The look-up of a call that fits does not raise. -/
theorem Orders.CreateOrderCall.Fits.find_ne_error {call : Orders.CreateOrderCall} (h : call.Fits)
    (db : ServiceStore Orders.Row) (e : Error) :
    Orders.findOrderByIdempotency call.userSub call.idempotencyKey db ≠ .error e := by
  obtain ⟨orderId, entry, h⟩ := h
  obtain ⟨_, -, h⟩ := bind_eq_ok.mp h
  obtain ⟨_, -, h⟩ := bind_eq_ok.mp h
  obtain ⟨userId, huser, h⟩ := bind_eq_ok.mp h
  obtain ⟨key, hkey, -⟩ := bind_eq_ok.mp h
  simp only [Orders.findOrderByIdempotency, huser, hkey, bind, Except.bind]
  split
  · simp [pure, Except.pure]
  · split <;> simp [pure, Except.pure]

omit [Platform] in
/-- Headers are refused for a NUL, or not at all. -/
theorem jsonbFields_texts_or (fields : List (String × String)) :
    (∃ fields', jsonbFields (fields.map fun field => (field.1, Json.str field.2)) = .ok fields') ∨
      jsonbFields (fields.map fun field => (field.1, Json.str field.2)) =
        .error .invalidByteSequence := by
  have htext : ∀ text, textIn text = .ok text ∨ textIn text = .error .invalidByteSequence := by
    intro text
    unfold textIn
    split
    · exact Or.inr rfl
    · exact Or.inl rfl
  induction fields with
  | nil => exact Or.inl ⟨[], by simp [jsonbFields]⟩
  | cons field rest ih =>
      simp only [List.map_cons, jsonbFields, jsonb]
      rcases htext field.1 with hkey | hkey
      · rcases htext field.2 with hvalue | hvalue
        · rcases ih with ⟨fields', hrest⟩ | hrest
          · exact Or.inl ⟨_, by simp only [hkey, hvalue, hrest, bind, Except.bind, Except.map]; rfl⟩
          · exact Or.inr (by simp only [hkey, hvalue, hrest, bind, Except.bind, Except.map])
        · exact Or.inr (by simp only [hkey, hvalue, bind, Except.bind, Except.map])
      · exact Or.inr (by simp only [hkey, bind, Except.bind])

/-- The first event of an order can be inserted, but for its correlation identifier. -/
theorem Placed.outboxRow_reserve (o : Placed) {choices : Choices} (hevent : IsUuid choices.eventId)
    (hrow : IsUuid choices.rowId) :
    (∃ row, outboxRow choices topics.inventory (o.envelope .reserveRequested choices.eventId) =
      .ok (choices.rowId, row)) ∨
    outboxRow choices topics.inventory (o.envelope .reserveRequested choices.eventId) =
      .error .invalidByteSequence := by
  have hstored : jsonb (.obj (o.envelope .reserveRequested choices.eventId).payload.defined) = _ :=
    o.payload_stored .reserveRequested hevent.text
  have htopic : textIn topics.inventory = .ok topics.inventory := textIn_self (by decide)
  have hrouting : textIn (o.envelope .reserveRequested choices.eventId).routingKey =
      .ok routingKeys.reserveInventory := by
    rw [o.envelope_routingKey]
    exact textIn_self (by decide)
  have hheaders := jsonbFields_texts_or
    (eventHeaders choices.eventId (o.correlationId .reserveRequested))
  rw [← o.envelope_headers] at hheaders
  rcases hheaders with ⟨fields, hheaders⟩ | hheaders
  · exact Or.inl ⟨_, by
      simp only [outboxRow, hrow.uuidParam, htopic, hrouting, hstored, hheaders, notNull_some, bind,
        Except.bind]
      rfl⟩
  · refine Or.inr ?_
    simp only [outboxRow, hrow.uuidParam, htopic, hrouting, hstored, hheaders, notNull_some, bind,
      Except.bind]

/-- Where there is no order of its pair, the transaction of a call violates no constraint. -/
theorem OrdersView.run_create_or {sagas : Sagas} {db : ServiceStore Orders.Row}
    (hview : OrdersView sagas db) {call : Orders.CreateOrderCall} (hfits : call.Fits) {o : String}
    {choices : Choices} (ho : IsUuid o) (hevent : IsUuid choices.eventId)
    (hrow : IsUuid choices.rowId) (hnone : sagas o = none)
    (hpair : ∀ o saga, sagas o = some saga → ¬ saga.IsFor call.userSub call.idempotencyKey)
    (hfree : outboxAt db choices.rowId = none) :
    (∃ db', (Orders.createOrderWithOutbox call o choices).run db = .ok ((), db')) ∨
      (Orders.createOrderWithOutbox call o choices).run db = .error .invalidByteSequence := by
  obtain ⟨row, hentry⟩ := hfits.newOrderRow ho
  obtain ⟨-, hstores⟩ := Orders.newOrderRow_eq_ok hentry
  obtain ⟨key, hkey, hstoredKey⟩ := hstores.idempotencyKey
  let placed : Placed := ⟨call, o, row, ho, hstores⟩
  have hnew : ownRow db (.order o) = none := by rw [hview.order, hnone]; rfl
  have hunique : ownRow db (.idempotency row.userId (row.idempotencyKey.getD "")) = none := by
    rw [hstoredKey, Option.getD_some]
    by_contra hne
    obtain ⟨o', ho'⟩ := Option.ne_none_iff_exists'.mp hne
    obtain ⟨saga, hsaga, huser, hkey'⟩ := (hview.idempotency _ _ o').mp ho'
    refine hpair o' saga hsaga ⟨?_, ?_⟩
    · rw [huser, textIn_eq_ok hstores.userId]
    · rw [hkey', textIn_eq_ok hkey]
  rcases placed.outboxRow_reserve hevent hrow with ⟨out, hout⟩ | hout
  · exact Or.inl ⟨_, Orders.run_createOrderWithOutbox_eq_ok.mpr
      ⟨o, row, _, out, hentry, hnew, hunique, hout, hfree, rfl⟩⟩
  · refine Or.inr ?_
    have hout' : outboxRow choices topics.inventory
        (Orders.reserveInventoryEvent call o choices.eventId) = .error .invalidByteSequence := hout
    have horder : (insertInto (Orders.Key.order o) row "orders_pkey" : Orders.OrderTx Unit).run db =
        .ok ((), db.insert (ServiceKey.own (Orders.Key.order o)) row) :=
      run_insertInto_eq_ok.mpr ⟨hnew, rfl⟩
    have hindex : (insertInto (Orders.Key.idempotency row.userId (row.idempotencyKey.getD "")) o
        "orders_orders_user_id_idempotency_key_idx" : Orders.OrderTx Unit).run
          (db.insert (ServiceKey.own (Orders.Key.order o)) row) = .ok ((), _) :=
      run_insertInto_eq_ok.mpr ⟨by rw [Orders.idempotency_insert_order]; exact hunique, rfl⟩
    simp only [Orders.createOrderWithOutbox, insertOutbox, hentry, hout', Tx.bind_eq,
      Tx.ofExcept_ok, Tx.ofExcept_error, Tx.pure_bind, Tx.throw_bind, Tx.run_throw, Tx.run_bind,
      horder, hindex, Except.bind]

end CommercePlatform
