/-
The inventory as the sagas have it.

A saga has a reservation from the moment its stock is set aside, and the accounts of
the inventory add up in all of its phases.
-/
import CommercePlatform.Saga.Views

namespace CommercePlatform

open Js Txn Inventory

variable [Platform]

/-- The reservations, and the accounts. -/
structure InventoryView (stock : String → Option Item) (sagas : Sagas)
    (db : ServiceStore Inventory.Row) : Prop where
  reservation : ∀ o, ownRow db (.reservation o) =
    (sagas o).bind fun saga => saga.phase.reservation.map saga.reservationRow
  accounts : Accounts stock db
  records : Records .inventory sagas db

/-- What the stock of an order goes through on the way to a phase. -/
inductive StockMove (o : Placed) (db : ServiceStore Inventory.Row) :
    Phase → ServiceStore Inventory.Row → Prop where
  | reserve {old item : Item} (hitem : ownRow db (.item o.row.itemSku) = some old)
      (henough : o.row.quantity.val ≤ old.availableQuantity.val)
      (hmove : old.move o.row.quantity.val = .ok item) :
      StockMove o db .reserved
        (Accounts.moved db o.row.itemSku o.orderId item (o.reservationRow .reserved))
  | reject (hshort : ∀ item, ownRow db (.item o.row.itemSku) = some item →
      item.availableQuantity.val < o.row.quantity.val) : StockMove o db .rejected db
  | release {old item : Item} (hitem : ownRow db (.item o.row.itemSku) = some old)
      (hmove : old.move (-o.row.quantity.val) = .ok item) :
      StockMove o db .released
        (Accounts.moved db o.row.itemSku o.orderId item (o.reservationRow .released))

variable {stock : String → Option Item} {sagas : Sagas} {db db₁ db' : ServiceStore Inventory.Row}
  {o : String} {saga : Saga} {kind : EventKind} {message : KafkaMessage} {choices : Choices}

namespace StockMove

variable {placed : Placed} {p' : Phase}

theorem outbox (h : StockMove placed db p' db₁) (id : String) :
    outboxAt db₁ id = outboxAt db id := by
  cases h with
  | reject => rfl
  | reserve =>
      unfold Accounts.moved
      rw [outboxAt_insert_own, outboxAt_insert_own]
  | release =>
      unfold Accounts.moved
      rw [outboxAt_insert_own, outboxAt_insert_own]

theorem processed (h : StockMove placed db p' db₁) (eventId : String) :
    processedAt db₁ eventId = processedAt db eventId := by
  cases h with
  | reject => rfl
  | reserve =>
      unfold Accounts.moved
      rw [processedAt_insert_own, processedAt_insert_own]
  | release =>
      unfold Accounts.moved
      rw [processedAt_insert_own, processedAt_insert_own]

theorem reservation_of_ne (h : StockMove placed db p' db₁) {o : String} (ho : o ≠ placed.orderId) :
    ownRow db₁ (.reservation o) = ownRow db (.reservation o) := by
  cases h with
  | reject => rfl
  | reserve => rw [Accounts.reservation_moved, if_neg ho]
  | release => rw [Accounts.reservation_moved, if_neg ho]

/-- The order then has the reservation of its phase. -/
theorem reservation_self (h : StockMove placed db p' db₁)
    (hnone : p' = .rejected → ownRow db (.reservation placed.orderId) = none) :
    ownRow db₁ (.reservation placed.orderId) = p'.reservation.map placed.reservationRow := by
  cases h with
  | reject => exact hnone rfl
  | reserve =>
      rw [Accounts.reservation_moved, if_pos rfl]
      rfl
  | release =>
      rw [Accounts.reservation_moved, if_pos rfl]
      rfl

end StockMove

/-! ### The commands -/

theorem Told.reserveCommand (h : Told .inventory sagas o saga .reserveRequested message) :
    ReserveCommand message.value o saga.row.itemSku saga.row.quantity
      (some (.num saga.call.body.totalAmount)) (some (.str saga.call.normalizedCurrency)) := by
  have hsku := textIn_eq_ok saga.stored.itemSku
  have hquantity := saga.stored.quantity_val
  refine ⟨h.order ▸ saga.uuid.uuidParam, ?_, ?_, ?_, ?_, ?_, ?_, ?_⟩
  · rw [hsku]
    exact textParam_str (textIn_ok saga.stored.itemSku)
  · rw [hquantity]
    exact saga.stored.quantity
  · rw [h.announces.get, Placed.payload_orderId, h.order]
  · rw [h.announces.get, Placed.payload_itemSku, hsku]
  · rw [h.announces.get, Placed.payload_quantity, hquantity]
  · rw [h.announces.get, Placed.payload_totalAmount _ _ _ (by simp)]
  · rw [h.announces.get, Placed.payload_currency _ _ _ (by simp)]

/-- A message is a release exactly if it is the event that asks for one. -/
theorem Placed.Announces.isRelease_iff {placed : Placed} {eventId : String}
    (h : placed.Announces kind eventId message) : isRelease message ↔ kind = .releaseRequested := by
  have htype := h.get "eventType"
  rw [Placed.payload_eventType] at htype
  constructor
  · intro ⟨eventType, htype', hrelease⟩
    rw [htype] at htype'
    obtain rfl := Except.ok.inj htype'
    rw [isText_str] at hrelease
    exact EventKind.eventType_injective (of_decide_eq_true hrelease)
  · intro hkind
    subst hkind
    exact ⟨_, htype, rfl⟩

/-- The command has what its branch relies on. -/
theorem Told.sane (h : Told .inventory sagas o saga kind message)
    (hview : InventoryView stock sagas db) (hdistinct : Distinct sagas) (key : String)
    (hkey : eventKey message = some key) (hnew : processedAt db key = none) :
    Accounts.Sane message db := by
  have hreserve : ¬ isRelease message → kind = .reserveRequested := by
    intro hnot
    have hconsumer := h.consumer
    cases kind <;> first | rfl | exact absurd hconsumer (by decide) |
      exact absurd (h.announces.isRelease_iff.mpr rfl) hnot
  constructor
  · intro hnot quantity amount hget hamount
    obtain rfl := hreserve hnot
    rw [h.reserveCommand.quantity] at hget
    obtain rfl := Except.ok.inj hget
    rw [int4Param_int hamount, toNumber_num, saga.stored.quantity_val]
    exact ⟨saga.call.body.quantity_pos, rfl⟩
  · intro hnot orderId horder
    obtain rfl := hreserve hnot
    rw [h.announces.orderIdOf, h.order] at horder
    obtain rfl := Option.some.inj horder
    rw [h.announces.eventKey (saga.uuids _ h.emitted)] at hkey
    obtain rfl := Option.some.inj hkey
    have hphase : saga.phase = .requested := by
      refine Phase.pending_of_emitted h.emitted fun hconsumed => ?_
      exact (hview.records.processed_iff hdistinct h).mpr hconsumed hnew
    rw [hview.reservation, h.known]
    simp [hphase, Phase.reservation]

/-! ### The handler -/

/-- A branch moves the stock and tells the order service, if there is anything to tell. -/
theorem run_inventoryBranch_eq_ok (h : Told .inventory sagas o saga kind message)
    (hphase : saga.phase = Phase.awaiting kind)
    (hreservation : ownRow db (.reservation o) =
      saga.phase.reservation.map saga.reservationRow)
    (hitem : saga.phase.reservation ≠ none → ownRow db (.item saga.row.itemSku) ≠ none) :
    (Inventory.branch kind message.value choices).run db = .ok ((), db') ↔
      ∃ out p' db₁, Phase.Advance saga.phase kind out p' ∧ StockMove saga.toPlaced db p' db₁ ∧
        Emits saga.toPlaced choices out db₁ db' := by
  have hid : saga.idValue = some (.str o) := congrArg (fun id => some (Json.str id)) h.order
  have horder := h.order
  rw [hphase] at hreservation hitem ⊢
  cases kind with
  | reserveRequested =>
      unfold Inventory.branch
      rw [run_reserveInventory_eq_ok h.reserveCommand hreservation, ← hid]
      constructor
      · intro hcases
        rcases hcases with ⟨hshort, id, out, hout, hfree, hdb⟩ |
          ⟨old, item, id, out, hold, henough, hmove, hout, hfree, hdb⟩
        · exact ⟨_, _, db, .reject, .reject hshort, id, out, hout, hfree, hdb⟩
        · have hstock := StockMove.reserve (o := saga.toPlaced) hold henough hmove
          refine ⟨_, _, _, .reserve, hstock, id, out, hout, ?_, ?_⟩
          · rw [hstock.outbox, hfree]
          · rw [hdb, ← horder]
            rfl
      · intro ⟨_, _, db₁, hadv, hstock, hemits⟩
        cases hadv with
        | reserve =>
            obtain ⟨id, out, hout, hfree, hdb⟩ := hemits
            rw [hstock.outbox] at hfree
            cases hstock with
            | reserve hold henough hmove =>
                rw [horder] at hdb
                exact Or.inr ⟨_, _, id, out, hold, henough, hmove, hout, hfree, hdb⟩
        | reject =>
            obtain ⟨id, out, hout, hfree, hdb⟩ := hemits
            cases hstock with
            | reject hshort => exact Or.inl ⟨hshort, id, out, hout, hfree, hdb⟩
  | releaseRequested =>
      have hget := h.announces.get "orderId"
      rw [Placed.payload_orderId, horder] at hget
      have huuid : uuidParam (some (.str o)) = .ok (some o) := horder ▸ saga.uuid.uuidParam
      unfold Inventory.branch
      rw [run_releaseInventory_eq_ok hget huuid hreservation rfl (hitem (by decide))]
      constructor
      · intro ⟨old, item, hold, hmove, hdb⟩
        refine ⟨_, _, _, .release, .release hold hmove, ?_⟩
        rw [horder]
        exact hdb
      · intro ⟨_, _, db₁, hadv, hstock, hemits⟩
        cases hadv with
        | release =>
            cases hstock with
            | @release old item hold hmove =>
                refine ⟨old, item, hold, hmove, ?_⟩
                rw [show db' = _ from hemits, horder]
                rfl
  | reserved => exact absurd h.consumer (by decide)
  | rejected => exact absurd h.consumer (by decide)
  | paymentRequested => exact absurd h.consumer (by decide)
  | succeeded => exact absurd h.consumer (by decide)
  | failed => exact absurd h.consumer (by decide)

namespace InventoryView

/-- The item of a reservation is there. -/
theorem item_of_reservation (hview : InventoryView stock sagas db) (hsaga : sagas o = some saga)
    (h : saga.phase.reservation ≠ none) : ownRow db (.item saga.row.itemSku) ≠ none := by
  obtain ⟨status, hstatus⟩ := Option.ne_none_iff_exists'.mp h
  have hrow : ownRow db (.reservation o) = some (saga.reservationRow status) := by
    rw [hview.reservation, hsaga]
    simp [hstatus]
  exact hview.accounts.foreignKey o _ hrow

theorem run_handleInventoryCommand (hview : InventoryView stock sagas db)
    (hdistinct : Distinct sagas) (htold : Told .inventory sagas o saga kind message) :
    (handleInventoryCommand message choices).run db = .ok ((), db') ↔
      (kind ∈ saga.phase.consumed ∧ db' = db) ∨
        ∃ out p' db₁, Phase.Advance saga.phase kind out p' ∧
          StockMove saga.toPlaced (db.insert (ServiceKey.processed (saga.eventId kind))
            { topic := kind.topic, routingKey := kind.routingKey }) p' db₁ ∧
          Emits saga.toPlaced choices out db₁ db' := by
  rw [htold.announces.handleInventoryCommand (saga.uuids kind htold.emitted) htold.consumer]
  refine hview.records.run_processOnce hdistinct htold ?_ fun hphase => ?_
  · intro ⟨_, _, _, hadv, _⟩
    exact hadv.pending
  · refine run_inventoryBranch_eq_ok htold hphase ?_ fun hreservation => ?_
    · rw [ownRow_insert_processed, hview.reservation, htold.known]
      rfl
    · rw [ownRow_insert_processed]
      exact hview.item_of_reservation htold.known hreservation

theorem advance (hview : InventoryView stock sagas db)
    (htold : Told .inventory sagas o saga kind message) {out : Option EventKind} {p' : Phase}
    (hadv : Phase.Advance saga.phase kind out p') (hevent : IsUuid choices.eventId)
    (hrowId : IsUuid choices.rowId) {mark : ProcessedEvent}
    (hstock : StockMove saga.toPlaced
      (db.insert (ServiceKey.processed (saga.eventId kind)) mark) p' db₁)
    (hemits : Emits saga.toPlaced choices out db₁ db') (haccounts : Accounts stock db') :
    InventoryView stock (Function.update sagas o (some (saga.advance hadv choices hevent))) db' := by
  refine ⟨fun o' => ?_, haccounts, ?_⟩
  · rw [hemits.own]
    by_cases ho : o' = o
    · subst ho
      rw [Function.update_self, ← htold.order]
      refine (hstock.reservation_self fun hreject => ?_).trans ?_
      · subst hreject
        rw [ownRow_insert_processed, hview.reservation, htold.order, htold.known]
        have hnone : saga.phase.reservation = none := by
          generalize saga.phase = p at hadv
          cases hadv
          rfl
        simp [hnone]
      · rfl
    · rw [Function.update_of_ne ho, ← hview.reservation,
        hstock.reservation_of_ne (fun heq => ho (heq.trans htold.order))]
      exact ownRow_insert_processed mark
  · have hprocessed : ∀ eventId, processedAt db₁ eventId = processedAt
        (db.insert (ServiceKey.processed (saga.eventId kind)) mark) eventId := hstock.processed
    refine hview.records.handled htold.known hadv htold.consumer hevent hrowId (fun id => ?_)
      hprocessed hemits
    rw [hstock.outbox, outboxAt_insert_processed]

theorem elsewhere (hview : InventoryView stock sagas db) (hsaga : sagas o = some saga)
    {out : Option EventKind} {p' : Phase} (hadv : Phase.Advance saga.phase kind out p')
    (hevent : IsUuid choices.eventId) (hkind : kind.consumer ≠ .inventory) :
    InventoryView stock (Function.update sagas o (some (saga.advance hadv choices hevent))) db := by
  refine ⟨fun o' => ?_, hview.accounts, ?_⟩
  · rw [hview.reservation]
    by_cases ho : o' = o
    · subst ho
      rw [Function.update_self, hsaga]
      show _ = p'.reservation.map saga.reservationRow
      rw [hadv.reservation hkind]
      rfl
    · rw [Function.update_of_ne ho]
  · exact hview.records.advance_elsewhere hsaga hadv hevent hkind

theorem alike (hview : InventoryView stock sagas db) (hsame : Alike db db') :
    InventoryView stock sagas db' where
  reservation o := by rw [hsame.own, hview.reservation]
  accounts := hview.accounts.of_same hsame.own
  records := hview.records.alike hsame

/-- A new order has no reservation. -/
theorem opened (hview : InventoryView stock sagas db) (hnone : sagas o = none)
    (placed : Placed) (hevent : IsUuid choices.eventId) :
    InventoryView stock (Function.update sagas o (some (.opened placed choices hevent))) db := by
  refine ⟨fun o' => ?_, hview.accounts, ?_⟩
  · rw [hview.reservation]
    by_cases ho : o' = o
    · subst ho
      rw [Function.update_self, hnone]
      rfl
    · rw [Function.update_of_ne ho]
  · refine hview.records.grow_elsewhere (hnone ▸ Saga.grows_opened placed choices hevent) ?_ (by simp)
    intro k hk
    obtain rfl := Option.some.inj hk
    decide

end InventoryView

end CommercePlatform
