/-
The services refine the shop.

A run of the three services, with all its messages, repetitions, rollbacks and open
transactions, is a run of the shop: every step of it is nothing, or the one thing that
has happened to one order.  What the rows of the services say is what the shop is.
-/
import CommercePlatform.Machine.Simulation
import CommercePlatform.Saga.Agreement
import CommercePlatform.Saga.Shop

namespace CommercePlatform

open Js Txn

/-- The level of an item. -/
def Inventory.Item.level (item : Inventory.Item) : Level :=
  { available := item.availableQuantity.val, reserved := item.reservedQuantity.val }

/-- The stock that the rows of the inventory show. -/
def levelsOf (db : ServiceStore Inventory.Row) : String → Option Level :=
  fun sku => (ownRow db (.item sku)).map Inventory.Item.level

/-- The rows of the services show what there is in the shop, and nothing else. -/
structure System.Shows (s : System) (shop : Shop String String) : Prop where
  levels : levelsOf s.inventoryDb = shop.levels
  orders : ∀ o, (ownRow s.ordersDb (.order o)).map (fun row =>
      (row.itemSku, row.quantity.val, row.status, row.failureReason)) =
    (shop.orders o).map fun order =>
      (order.sku, order.quantity, order.phase.status, order.phase.failureReason)
  reservations : ∀ o, (ownRow s.inventoryDb (.reservation o)).map (fun reservation =>
      (reservation.sku, reservation.quantity.val, reservation.status)) =
    (shop.orders o).bind fun order => order.phase.reservation.map fun status =>
      (order.sku, order.quantity, status)
  attempts : ∀ o, (ownRow s.paymentsDb (.attempt o)).map (fun attempt => attempt.status) =
    (shop.orders o).bind fun order => order.phase.attempt

theorem levelsOf_congr {db db' : ServiceStore Inventory.Row}
    (h : ∀ sku, ownRow db' (.item sku) = ownRow db (.item sku)) : levelsOf db' = levelsOf db := by
  funext sku
  exact congrArg _ (h sku)

theorem levelsOf_moved {db : ServiceStore Inventory.Row} {sku o : String}
    {old item : Inventory.Item} {reservation : Inventory.Reservation} {quantity : ℤ}
    (hold : ownRow db (.item sku) = some old) (hmove : old.move quantity = .ok item) :
    levelsOf (Inventory.Accounts.moved db sku o item reservation) =
      Shop.restocked (levelsOf db) sku quantity := by
  obtain ⟨havailable, hreserved⟩ := Inventory.Item.move_eq_ok hmove
  funext sku'
  unfold levelsOf Shop.restocked
  rw [Inventory.Accounts.item_moved]
  by_cases hsku : sku' = sku
  · subst hsku
    simp only [if_pos, Function.update_self, hold, Option.map_some]
    exact congrArg some (Level.ext havailable hreserved)
  · rw [if_neg hsku, Function.update_of_ne hsku]

variable [Platform]

/-- A saga as the shop knows it. -/
def Saga.shopOrder (saga : Saga) : ShopOrder String where
  sku := saga.row.itemSku
  quantity := saga.row.quantity.val
  approved := saga.approved
  phase := saga.phase

/-- The shop that there is behind the sagas and the stock. -/
def Shop.of (sagas : Sagas) (db : ServiceStore Inventory.Row) : Shop String String where
  levels := levelsOf db
  orders := fun o => (sagas o).map Saga.shopOrder

/-- The shop is the one behind the sagas that account for the state. -/
def Behind (stock : ServiceStore Inventory.Row) (s : System) (shop : Shop String String) : Prop :=
  ∃ sagas owner, Law stock sagas owner s ∧ shop = Shop.of sagas s.inventoryDb

theorem Shop.of_update (sagas : Sagas) (db db' : ServiceStore Inventory.Row) (o : String)
    (saga : Saga) : Shop.of (Function.update sagas o (some saga)) db' =
      { levels := levelsOf db'
        orders := Function.update (Shop.of sagas db).orders o (some saga.shopOrder) } := by
  have horders : (fun o' => (Function.update sagas o (some saga) o').map Saga.shopOrder) =
      Function.update (Shop.of sagas db).orders o (some saga.shopOrder) := by
    funext o'
    by_cases ho : o' = o
    · subst ho
      rw [Function.update_self, Function.update_self]
      rfl
    · rw [Function.update_of_ne ho, Function.update_of_ne ho]
      rfl
  exact congrArg (fun orders => ({ levels := levelsOf db', orders := orders } : Shop String String))
    horders

/-- A saga goes on in the shop. -/
theorem Shop.step_advance {sagas : Sagas} {db db' : ServiceStore Inventory.Row} {o : String}
    {saga : Saga} {kind : EventKind} {out : Option EventKind} {p' : Phase} {choices : Choices}
    (hsaga : sagas o = some saga) (hadv : Phase.Advance saga.phase kind out p')
    (hevent : IsUuid choices.eventId) (hmay : Shop.May (levelsOf db) saga.shopOrder p')
    (hlevels : levelsOf db' =
      Shop.restocked (levelsOf db) saga.row.itemSku (Shop.taken saga.row.quantity.val p')) :
    Shop.Step (Shop.of sagas db)
      (Shop.of (Function.update sagas o (some (saga.advance hadv choices hevent))) db') := by
  have horder : (Shop.of sagas db).orders o = some saga.shopOrder := by
    show (sagas o).map Saga.shopOrder = _
    rw [hsaga]
    rfl
  rw [Shop.of_update sagas db, hlevels]
  exact .go horder hadv hmay

namespace Law

variable {stock : ServiceStore Inventory.Row} {sagas : Sagas} {owner : String → Option Owner}
  {s s' : System}

/-- What the order service does to an order, or that it takes one, happens in the shop. -/
theorem orders_refine (h : Law stock sagas owner s) {w : Work}
    (hs : s.step (.work .orders w) = some s') :
    ∃ shop', Relation.ReflGen Shop.Step (Shop.of sagas s.inventoryDb) shop' ∧
      Behind stock s' shop' := by
  obtain ⟨orders, horders, rfl⟩ := Option.map_eq_some_iff.mp hs
  obtain ⟨hnode, -, -⟩ := Orders.Desk.work_cases horders
  obtain ⟨i, sagas', owner', hmoves, hlaw, hopens⟩ := h.orders.work h.owned hnode
  have hlaw' : Law stock sagas' owner' { s with orders := orders } :=
    ⟨hmoves.owned h.owned, hlaw, h.inventory.elsewhere hmoves (by decide),
      h.payments.elsewhere hmoves (by decide),
      h.desk.step h.orders.view hs hmoves.extends_sagas hopens⟩
  refine ⟨_, ?_, sagas', owner', hlaw', rfl⟩
  cases hmoves with
  | stay => exact .refl
  | @advance o saga kind out p' choices hsaga hconsumer hadv hdrawn =>
      obtain ⟨hreserved, hreleased, hrejected⟩ := hadv.not_moving (by rw [hconsumer]; decide)
      obtain ⟨hpaid, hdeclined⟩ := hadv.not_deciding (by rw [hconsumer]; decide)
      refine .single (Shop.step_advance hsaga hadv hdrawn.event ?_
        (Shop.restocked_taken hreserved hreleased).symm)
      cases p' <;> trivial
  | @opened o placed choices hservice hnone hkeyed hdrawn =>
      have hnew : (Shop.of sagas s.inventoryDb).orders o = none := by
        show (sagas o).map Saga.shopOrder = none
        rw [hnone]
        rfl
      have hquantity : 0 < placed.row.quantity.val := by
        rw [placed.stored.quantity_val]
        exact placed.call.body.quantity_pos
      rw [Shop.of_update sagas s.inventoryDb]
      exact .single (.place hnew rfl hquantity)

/-- The payment service decides as it would have decided at any time. -/
theorem payments_refine (h : Law stock sagas owner s) {w : Work}
    (hs : s.step (.work .payments w) = some s') :
    ∃ shop', Relation.ReflGen Shop.Step (Shop.of sagas s.inventoryDb) shop' ∧
      Behind stock s' shop' := by
  obtain ⟨payments, hpayments, rfl⟩ := Option.map_eq_some_iff.mp hs
  obtain ⟨i, sagas', owner', hmoves, hlaw⟩ := h.payments.work h.owned hpayments
  have hlaw' : Law stock sagas' owner' { s with payments := payments } :=
    ⟨hmoves.owned h.owned, h.orders.elsewhere hmoves (by decide),
      h.inventory.elsewhere hmoves (by decide), hlaw,
      h.desk.step h.orders.view hs hmoves.extends_sagas (hmoves.opens (by decide))⟩
  refine ⟨_, ?_, sagas', owner', hlaw', rfl⟩
  cases hmoves with
  | stay => exact .refl
  | @advance o saga kind out p' choices hsaga hconsumer hadv hdrawn =>
      obtain ⟨hreserved, hreleased, hrejected⟩ := hadv.not_moving (by rw [hconsumer]; decide)
      refine .single (Shop.step_advance hsaga hadv hdrawn.event ?_
        (Shop.restocked_taken hreserved hreleased).symm)
      have hdecided : ∀ status, p'.attempt = some status →
          status = if saga.approved then .succeeded else .failed := fun status hstatus =>
        hlaw.view.decided o (saga.advance hadv choices hdrawn.event) status
          (Function.update_self _ _ _) hstatus
      cases p' with
      | paid =>
          have happroved := hdecided .succeeded rfl
          show saga.approved = true
          by_contra hnot
          simp [hnot] at happroved
      | declined =>
          have hrefused := hdecided .failed rfl
          show saga.approved = false
          by_contra hnot
          simp [hnot] at hrefused
      | reserved | released | rejected => contradiction
      | requested | outOfStock | paying | confirmed | releasing => trivial
  | opened hservice => exact absurd hservice (by decide)

end Law

/-! ### The stock -/

/-- A branch of the inventory moves the stock as the shop does. -/
theorem StockMove.refine {saga : Saga} {db db₁ : ServiceStore Inventory.Row} {p' : Phase}
    (h : StockMove saga.toPlaced db p' db₁) :
    Shop.May (levelsOf db) saga.shopOrder p' ∧ levelsOf db₁ =
      Shop.restocked (levelsOf db) saga.row.itemSku (Shop.taken saga.row.quantity.val p') := by
  cases h with
  | @reserve old item hitem henough hmove =>
      refine ⟨⟨old.level, ?_, henough⟩, levelsOf_moved hitem hmove⟩
      show (ownRow db (.item saga.row.itemSku)).map Inventory.Item.level = _
      rw [hitem]
      rfl
  | reject hshort =>
      refine ⟨fun level hlevel => ?_, (Shop.restocked_taken (by decide) (by decide)).symm⟩
      obtain ⟨item, hitem, rfl⟩ := Option.map_eq_some_iff.mp hlevel
      exact hshort item hitem
  | @release old item hitem hmove => exact ⟨trivial, levelsOf_moved hitem hmove⟩

/-- The inventory service with the stock it has moved. -/
theorem InventoryLaw.work_refine {stock : String → Option Inventory.Item} {sagas : Sagas}
    {owner : String → Option Owner} {n n' : Node Inventory.Row Delivery} {uuids : List String}
    (h : InventoryLaw stock sagas owner n) (howned : Owned sagas owner uuids) {w : Work}
    (hs : n.step (Handler.serve Inventory.handleInventoryCommand) w.act = some n') :
    ∃ i sagas' owner', Moves .inventory i sagas owner sagas' owner' ∧
      InventoryLaw stock sagas' owner' n' ∧
      Relation.ReflGen Shop.Step (Shop.of sagas n.server.db) (Shop.of sagas' n'.server.db) := by
  rcases Node.work_cases h.law.sound hs with ⟨i, σ, rfl, hσ, hrun, hhistory⟩ | ⟨halike, hhistory, -⟩
  · obtain ⟨hdrawn, o, saga, kind, htold⟩ := h.law.handling i σ σ.job hσ rfl
    have hlaw : ∀ sagas' owner', Moves .inventory i sagas owner sagas' owner' →
        (∃ o saga kind, Told .inventory sagas' o saga kind σ.job.message ∧
          kind ∈ saga.phase.consumed) →
        InventoryView stock sagas' n'.server.db → InventoryLaw stock sagas' owner' n' := by
      intro sagas' owner' hmoves hdone hview
      refine ⟨hview, h.law.commit Inventory.obeys_serve h.unshadowed hs hhistory
        hmoves.extends_sagas (fun _ _ hj hid => hmoves.keeps (fun _ => hj) hid) fun d hd => ?_,
        h.misses_step hs⟩
      obtain rfl := Option.some.inj hd
      exact hdone
    rcases (h.view.run_handleInventoryCommand howned.distinct htold).mp hrun with
      ⟨hconsumed, hdb⟩ | ⟨out, p', db₁, hadv, hstock, hemits⟩
    · refine ⟨i, _, _, .stay, hlaw _ _ .stay ⟨o, saga, kind, htold, hconsumed⟩ (hdb ▸ h.view), ?_⟩
      rw [hdb]
    · have haccounts : Inventory.Accounts stock n'.server.db :=
        h.view.accounts.handleInventoryCommand (htold.sane h.view howned.distinct) hrun
      have hmoves := Moves.advance htold.known htold.consumer hadv hdrawn
      obtain ⟨hmay, hlevels⟩ := hstock.refine
      rw [levelsOf_congr fun sku => ownRow_insert_processed _] at hmay hlevels
      rw [← levelsOf_congr fun sku => hemits.own (.item sku)] at hlevels
      exact ⟨i, _, _, hmoves, hlaw _ _ hmoves ⟨o, _, kind, htold.advance hadv hdrawn.event⟩
        (h.view.advance htold hadv hdrawn.event hdrawn.row hstock hemits haccounts),
        .single (Shop.step_advance htold.known hadv hdrawn.event hmay hlevels)⟩
  · refine ⟨0, sagas, owner, .stay, ⟨h.view.alike halike,
      h.law.work Inventory.obeys_serve h.unshadowed hs hhistory, h.misses_step hs⟩, ?_⟩
    have hlevels : levelsOf n'.server.db = levelsOf n.server.db :=
      levelsOf_congr fun sku => halike.own (.item sku)
    rw [show Shop.of sagas n'.server.db = Shop.of sagas n.server.db from
      congrArg (fun levels => ({ levels := levels, orders := _ } : Shop String String)) hlevels]

theorem Law.inventory_refine {stock : ServiceStore Inventory.Row} {sagas : Sagas}
    {owner : String → Option Owner} {s s' : System} (h : Law stock sagas owner s) {w : Work}
    (hs : s.step (.work .inventory w) = some s') :
    ∃ shop', Relation.ReflGen Shop.Step (Shop.of sagas s.inventoryDb) shop' ∧
      Behind stock s' shop' := by
  obtain ⟨inventory, hinventory, rfl⟩ := Option.map_eq_some_iff.mp hs
  obtain ⟨i, sagas', owner', hmoves, hlaw, hshop⟩ := h.inventory.work_refine h.owned hinventory
  refine ⟨_, hshop, sagas', owner', ⟨hmoves.owned h.owned, h.orders.elsewhere hmoves (by decide),
    hlaw, h.payments.elsewhere hmoves (by decide),
    h.desk.step h.orders.view hs hmoves.extends_sagas (hmoves.opens (by decide))⟩, rfl⟩

/-! ### Every run -/

/-- The inventory is as it was after a step that is no work of its own. -/
theorem Law.stutter {stock : ServiceStore Inventory.Row} {sagas : Sagas}
    {owner' : String → Option Owner} {s s' : System} (hlaw : Law stock sagas owner' s')
    (hdb : s'.inventoryDb = s.inventoryDb) :
    ∃ shop', Relation.ReflGen Shop.Step (Shop.of sagas s.inventoryDb) shop' ∧
      Behind stock s' shop' :=
  ⟨_, .refl, sagas, owner', hlaw, by rw [hdb]⟩

theorem System.deliver_inventoryDb {s s' : System} {service source : Service} {i offset : ℕ}
    {choices : Choices} (hs : s.step (.deliver service i source offset choices) = some s') :
    s'.inventoryDb = s.inventoryDb := by
  obtain ⟨message, -, s₁, -, -, hdeliver, rfl⟩ := System.deliver_cases hs
  cases service with
  | orders =>
      obtain ⟨orders, -, rfl⟩ := Option.map_eq_some_iff.mp hdeliver
      rfl
  | inventory =>
      obtain ⟨inventory, hinventory, rfl⟩ := Option.map_eq_some_iff.mp hdeliver
      exact (Node.begin_cases hinventory).1
  | payments =>
      obtain ⟨payments, -, rfl⟩ := Option.map_eq_some_iff.mp hdeliver
      rfl

theorem simulates_shop (stock : ServiceStore Inventory.Row) :
    Machine.Simulates System.Steps Shop.Step (Behind stock) where
  follow := by
    intro s s' shop ⟨sagas, owner, hlaw, hshop⟩ ⟨act, hs⟩
    subst hshop
    cases act with
    | lookUp c call =>
        exact (hlaw.lookUp hs).stutter (by rw [System.inventoryDb, (System.lookUp_cases hs).2.1])
    | insert c orderId choices =>
        obtain ⟨owner', hlaw'⟩ := hlaw.insert hs
        obtain ⟨-, -, hinventory, -⟩ := System.insert_cases hs
        exact hlaw'.stutter (by rw [System.inventoryDb, hinventory])
    | deliver service i source offset choices =>
        obtain ⟨owner', hlaw'⟩ := hlaw.deliver hs
        exact hlaw'.stutter (System.deliver_inventoryDb hs)
    | work service w =>
        cases service with
        | orders => exact hlaw.orders_refine hs
        | inventory => exact hlaw.inventory_refine hs
        | payments => exact hlaw.payments_refine hs

theorem behind_start {stock : ServiceStore Inventory.Row} (hstock : OnlyItems stock) :
    Behind stock (System.start stock) (Shop.opening (levelsOf stock)) :=
  ⟨fun _ => none, fun _ => none, Law.start hstock, rfl⟩

/-- The shop can be read off the rows. -/
theorem Behind.shows {stock : ServiceStore Inventory.Row} {s : System} {shop : Shop String String}
    (h : Behind stock s shop) : s.Shows shop := by
  obtain ⟨sagas, owner, hlaw, rfl⟩ := h
  refine ⟨rfl, fun o => ?_, fun o => ?_, fun o => ?_⟩
  · rw [hlaw.orders.view.order]
    show _ = ((sagas o).map Saga.shopOrder).map _
    cases sagas o <;> rfl
  · rw [hlaw.inventory.view.reservation]
    show _ = ((sagas o).map Saga.shopOrder).bind _
    cases sagas o with
    | none => rfl
    | some saga =>
        show (saga.phase.reservation.map saga.reservationRow).map _ = _
        rw [Option.map_map]
        rfl
  · rw [hlaw.payments.view.attempt]
    show _ = ((sagas o).map Saga.shopOrder).bind _
    cases sagas o with
    | none => rfl
    | some saga =>
        show (saga.phase.attempt.map saga.attemptRow).map _ = saga.phase.attempt
        cases saga.phase.attempt <;> rfl

/--
**The services refine the shop.**  To every run of the three services, however their
transactions, messages and publishers are interleaved and whatever is lost or repeated,
there is a run of the shop, in which one thing happens at a time, such that in each
state the rows of the services show the shop of that state.
-/
theorem services_refine_shop (stock : ServiceStore Inventory.Row) (hstock : OnlyItems stock)
    {states : ℕ → System} (hstart : states 0 = System.start stock)
    (hruns : Machine.Runs System.Steps states) :
    ∃ shops : ℕ → Shop String String, shops 0 = Shop.opening (levelsOf stock) ∧
      Machine.Runs Shop.Step shops ∧ ∀ n, (states n).Shows (shops n) := by
  obtain ⟨shops, hopening, hshops, hbehind⟩ :=
    (simulates_shop stock).runs hruns (hstart ▸ behind_start hstock)
  exact ⟨shops, hopening, hshops, fun n => (hbehind n).shows⟩

/-! ### What the inventory decides -/

/-- The order waits for its stock. -/
def System.Waits (s : System) (o sku : String) (quantity : ℤ) : Prop :=
  ∃ row, ownRow s.ordersDb (.order o) = some row ∧ row.status = .pendingInventory ∧
    row.itemSku = sku ∧ row.quantity.val = quantity

omit [Platform] in
theorem System.Shows.order {s : System} {shop : Shop String String} (h : s.Shows shop) {o : String}
    {order : ShopOrder String} (horder : shop.orders o = some order) :
    ∃ row, ownRow s.ordersDb (.order o) = some row ∧ row.itemSku = order.sku ∧
      row.quantity.val = order.quantity ∧ row.status = order.phase.status ∧
      row.failureReason = order.phase.failureReason := by
  have hrow := h.orders o
  rw [horder] at hrow
  obtain ⟨row, hrow, heq⟩ := Option.map_eq_some_iff.mp hrow
  simp only [Prod.mk.injEq] at heq
  exact ⟨row, hrow, heq⟩

/--
An order that has got into some phases did so when the stock was as they require, and
was waiting for it then.
-/
theorem Behind.entered {stock : ServiceStore Inventory.Row} (hstock : OnlyItems stock) {s : System}
    (hreach : System.Reach stock s) (phases : Phase → Prop) {target : Phase}
    (hfirst : ¬ phases .requested)
    (henter : ∀ {p kind out p'}, Phase.Advance p kind out p' → ¬ phases p → phases p' →
      p = .requested ∧ p' = target) :
    ∃ shop, Behind stock s shop ∧ ∀ o order, shop.orders o = some order → phases order.phase →
      ∃ s₀ before, System.Reach stock s₀ ∧ Relation.ReflTransGen System.Steps s₀ s ∧
        s₀.Waits o order.sku order.quantity ∧ before.sku = order.sku ∧
        before.quantity = order.quantity ∧ Shop.May (levelsOf s₀.inventoryDb) before target := by
  obtain ⟨shop, hbehind, hboth⟩ := (simulates_shop stock).both (behind_start hstock) hreach
  refine ⟨shop, hbehind, fun o order horder hphase => ?_⟩
  have hnew : ¬ Shop.In phases (Shop.opening (levelsOf stock) : Shop String String) o := by
    intro ⟨_, hnone, _⟩
    simp [Shop.opening] at hnone
  obtain ⟨⟨s₀, shop₀⟩, ⟨s₁, shop₁⟩, hbefore, hnot, hstep, hin, hafter⟩ :=
    Machine.exists_entering (P := fun p => Shop.In phases p.2 o) hboth hnew ⟨order, horder, hphase⟩
  obtain ⟨hsteps, hmove, hbehind₀, -⟩ := hstep
  have hreach₀ : System.Reach stock s₀ := hbefore.lift Prod.fst fun _ _ hboth => hboth.1
  have hrest : Relation.ReflTransGen System.Steps s₁ s :=
    hafter.lift Prod.fst fun _ _ hboth => hboth.1
  cases hmove with
  | refl => exact absurd hin hnot
  | single hmove =>
      obtain ⟨before, kind, out, p', hold, hnotIn, hadv, hinto, hmay⟩ :=
        hmove.entering hfirst hnot hin
      obtain ⟨hwaiting, rfl⟩ := henter hadv hnotIn hinto
      -- What was ordered is what it was when the phase was entered.
      have hall : Relation.ReflTransGen Shop.Step shop₀ shop :=
        (Relation.ReflTransGen.single hmove).trans
          (Relation.ReflTransGen.trans_induction_on
            (motive := fun {p q} _ => Relation.ReflTransGen Shop.Step p.2 q.2) hafter
            (fun _ => .refl) (fun hboth => hboth.2.1.to_reflTransGen)
            fun _ _ => Relation.ReflTransGen.trans)
      obtain ⟨order', horder', hsku, hquantity⟩ := Shop.keeps_run hall hold
      obtain rfl := Option.some.inj (horder.symm.trans horder')
      obtain ⟨row, hrow, hrowSku, hrowQuantity, hstatus, -⟩ := hbehind₀.shows.order hold
      refine ⟨s₀, before, hreach₀, hrest.head hsteps, ⟨row, hrow, ?_, hrowSku.trans hsku.symm,
        hrowQuantity.trans hquantity.symm⟩, hsku.symm, hquantity.symm, ?_⟩
      · rw [hstatus, hwaiting]
        rfl
      · rw [hbehind₀.shows.levels]
        exact hmay

/--
**Stock is refused only when it is short, and set aside only when it is there.**  An
order that failed for want of stock was, at some moment while it was waiting, for more
than was available; and one that has or had a reservation was then for no more.
-/
theorem stock_decisions_justified (stock : ServiceStore Inventory.Row) (hstock : OnlyItems stock)
    {s : System} (hreach : System.Reach stock s) {o : String} {row : Orders.OrderRow}
    (hrow : ownRow s.ordersDb (.order o) = some row) :
    (row.failureReason = some "Insufficient inventory" →
      ∃ s₀, System.Reach stock s₀ ∧ Relation.ReflTransGen System.Steps s₀ s ∧
        s₀.Waits o row.itemSku row.quantity.val ∧
        ∀ item, ownRow s₀.inventoryDb (.item row.itemSku) = some item →
          item.availableQuantity.val < row.quantity.val) ∧
    (ownRow s.inventoryDb (.reservation o) ≠ none →
      ∃ s₀, System.Reach stock s₀ ∧ Relation.ReflTransGen System.Steps s₀ s ∧
        s₀.Waits o row.itemSku row.quantity.val ∧
        ∃ item, ownRow s₀.inventoryDb (.item row.itemSku) = some item ∧
          row.quantity.val ≤ item.availableQuantity.val) := by
  have hknown : ∀ shop, Behind stock s shop → ∃ order, shop.orders o = some order ∧
      row.itemSku = order.sku ∧ row.quantity.val = order.quantity ∧
      row.failureReason = order.phase.failureReason := by
    intro shop hbehind
    have horder := hbehind.shows.orders o
    rw [hrow] at horder
    obtain ⟨order, horder, heq⟩ := Option.map_eq_some_iff.mp horder.symm
    simp only [Prod.mk.injEq] at heq
    exact ⟨order, horder, heq.1.symm, heq.2.1.symm, heq.2.2.2.symm⟩
  constructor
  · intro hreason
    obtain ⟨shop, hbehind, hentered⟩ :=
      Behind.entered hstock hreach Phase.Refused (by decide) Phase.Advance.refuses
    obtain ⟨order, horder, hsku, hquantity, hfailure⟩ := hknown shop hbehind
    have hphase : order.phase.Refused := by
      rw [hfailure] at hreason
      generalize order.phase = p at hreason
      cases p <;> first | exact Or.inr rfl | simp [Phase.failureReason] at hreason
    obtain ⟨s₀, before, hreach₀, hrun, hwaits, hsku', hquantity', hmay⟩ :=
      hentered o order horder hphase
    refine ⟨s₀, hreach₀, hrun, hsku ▸ hquantity ▸ hwaits, fun item hitem => ?_⟩
    rw [hquantity, ← hquantity']
    refine hmay item.level ?_
    show (ownRow s₀.inventoryDb (.item before.sku)).map Inventory.Item.level = _
    rw [hsku', ← hsku, hitem]
    rfl
  · intro hreservation
    obtain ⟨shop, hbehind, hentered⟩ :=
      Behind.entered hstock hreach Phase.Granted (by decide) Phase.Advance.grants
    obtain ⟨order, horder, hsku, hquantity, -⟩ := hknown shop hbehind
    have hphase : order.phase.Granted := by
      intro hnone
      have hshown := hbehind.shows.reservations o
      rw [horder, Option.bind_some, hnone] at hshown
      exact hreservation (Option.map_eq_none_iff.mp hshown)
    obtain ⟨s₀, before, hreach₀, hrun, hwaits, hsku', hquantity', level, hlevel, henough⟩ :=
      hentered o order horder hphase
    obtain ⟨item, hitem, rfl⟩ := Option.map_eq_some_iff.mp hlevel
    rw [hsku', ← hsku] at hitem
    rw [hquantity', ← hquantity] at henough
    exact ⟨s₀, hreach₀, hrun, hsku ▸ hquantity ▸ hwaits, item, hitem, henough⟩

end CommercePlatform

namespace CommercePlatform.Sale

open Js Txn

attribute [local instance] platform

/-- The run of the sale, and the shop that sells. -/
theorem refined : ∃ states s, states 0 = System.start stock ∧
    Machine.Runs System.Steps states ∧ s.AtRest ∧ (∃ n, states n = s) ∧
    ∃ shops : ℕ → Shop String String, shops 0 = Shop.opening (levelsOf stock) ∧
      Machine.Runs Shop.Step shops ∧ ∀ n, (states n).Shows (shops n) := by
  obtain ⟨s, hs, hrest, -⟩ := exists_sold
  obtain ⟨states, hstart, hruns, hend⟩ := Machine.exists_runs (System.steps_of_run hs)
  exact ⟨states, s, hstart, hruns, hrest, hend,
    services_refine_shop stock onlyItems hstart hruns⟩

/-- The chairs were there when the order asked for them. -/
theorem granted : ∃ s row, System.run acts (System.start stock) = some s ∧
    ownRow s.ordersDb (.order (uuid 1)) = some row ∧
    (row.failureReason = some "Insufficient inventory" →
      ∃ s₀, System.Reach stock s₀ ∧ Relation.ReflTransGen System.Steps s₀ s ∧
        s₀.Waits (uuid 1) row.itemSku row.quantity.val ∧
        ∀ item, ownRow s₀.inventoryDb (.item row.itemSku) = some item →
          item.availableQuantity.val < row.quantity.val) ∧
    (ownRow s.inventoryDb (.reservation (uuid 1)) ≠ none →
      ∃ s₀, System.Reach stock s₀ ∧ Relation.ReflTransGen System.Steps s₀ s ∧
        s₀.Waits (uuid 1) row.itemSku row.quantity.val ∧
        ∃ item, ownRow s₀.inventoryDb (.item row.itemSku) = some item ∧
          row.quantity.val ≤ item.availableQuantity.val) := by
  obtain ⟨s, hs, -, attempt, hattempt⟩ := exists_sold
  have hreach : System.Reach stock s := System.steps_of_run hs
  obtain ⟨shop, hbehind, -⟩ := (simulates_shop stock).run (behind_start onlyItems) hreach
  have hshown := hbehind.shows.attempts (uuid 1)
  rw [hattempt] at hshown
  obtain ⟨order, horder, -⟩ := Option.bind_eq_some_iff.mp hshown.symm
  obtain ⟨row, hrow, -⟩ := hbehind.shows.order horder
  exact ⟨s, row, hs, hrow, stock_decisions_justified stock onlyItems hreach hrow⟩

end CommercePlatform.Sale
