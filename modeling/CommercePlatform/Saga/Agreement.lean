/-
Agreement at rest.

The services never look at each other's tables, and while a saga is under way they
disagree.  When nothing is left to publish and nothing is left to handle they agree: a
phase in which no event is pending is one of three, and the phase says what each of
the three services has.
-/
import CommercePlatform.Saga.Invariant

namespace CommercePlatform

open Js Txn

namespace System

variable (s : System)

/-- The group of the service has handled the message, and committed that. -/
def Committed (service : Service) (message : KafkaMessage) : Prop :=
  match service with
  | .orders => ∃ choices, Orders.Job.saga { message := message, choices := choices } ∈
      s.orders.node.server.history
  | .inventory => ∃ choices, { message := message, choices := choices } ∈ s.inventory.server.history
  | .payments => ∃ choices, { message := message, choices := choices } ∈ s.payments.server.history

/-- Nothing is left to publish, and nothing is left to handle. -/
structure AtRest : Prop where
  published : ∀ service id row, s.outbox service id = some row → row.message ∈ s.sent service
  handled : ∀ source message, message ∈ s.sent source → ∀ service : Service,
    service.group.accepts message = true → s.Committed service message

instance (service : Service) (message : KafkaMessage) : Decidable (s.Committed service message) :=
  match service with
  | .orders =>
      decidable_of_iff (∃ job ∈ s.orders.node.server.history,
        job.delivery.map Delivery.message = some message) <| by
        constructor
        · intro ⟨job, hjob, hmessage⟩
          cases job with
          | create call o choices => simp [Orders.Job.delivery] at hmessage
          | saga delivery => exact ⟨delivery.choices, Option.some.inj hmessage ▸ hjob⟩
        · intro ⟨choices, hjob⟩
          exact ⟨_, hjob, rfl⟩
  | .inventory =>
      decidable_of_iff (∃ delivery ∈ s.inventory.server.history, delivery.message = message) <| by
        constructor
        · intro ⟨delivery, hjob, hmessage⟩
          exact ⟨delivery.choices, hmessage ▸ hjob⟩
        · intro ⟨choices, hjob⟩
          exact ⟨_, hjob, rfl⟩
  | .payments =>
      decidable_of_iff (∃ delivery ∈ s.payments.server.history, delivery.message = message) <| by
        constructor
        · intro ⟨delivery, hjob, hmessage⟩
          exact ⟨delivery.choices, hmessage ▸ hjob⟩
        · intro ⟨choices, hjob⟩
          exact ⟨_, hjob, rfl⟩

/-- The identifiers of the rows of an outbox. -/
def outboxIds : Service → Finset String
  | .orders => s.ordersDb.keys.image ServiceKey.outboxId
  | .inventory => s.inventoryDb.keys.image ServiceKey.outboxId
  | .payments => s.paymentsDb.keys.image ServiceKey.outboxId

variable {s} in
theorem mem_outboxIds {service : Service} {id : String} {row : OutboxRow}
    (hrow : s.outbox service id = some row) : id ∈ s.outboxIds service := by
  cases service with
  | orders => exact Finset.mem_image.mpr ⟨.outbox id, Finmap.mem_keys.mpr (Finmap.mem_iff.mpr ⟨row, hrow⟩), rfl⟩
  | inventory => exact Finset.mem_image.mpr ⟨.outbox id, Finmap.mem_keys.mpr (Finmap.mem_iff.mpr ⟨row, hrow⟩), rfl⟩
  | payments => exact Finset.mem_image.mpr ⟨.outbox id, Finmap.mem_keys.mpr (Finmap.mem_iff.mpr ⟨row, hrow⟩), rfl⟩

instance : Decidable s.AtRest :=
  decidable_of_iff
    ((∀ service : Service, ∀ id ∈ s.outboxIds service, ∀ row ∈ s.outbox service id,
        row.message ∈ s.sent service) ∧
      ∀ source : Service, ∀ message ∈ s.sent source, ∀ service : Service,
        service.group.accepts message = true → s.Committed service message) <| by
    constructor
    · intro ⟨hpublished, hhandled⟩
      exact ⟨fun service id row hrow => hpublished service id (s.mem_outboxIds hrow) row hrow,
        hhandled⟩
    · intro h
      exact ⟨fun service id _ row hrow => h.published service id row hrow, h.handled⟩

end System

/-- How the saga of an order can end. -/
inductive Ending where
  | sold
  | outOfStock
  | declined
  deriving DecidableEq

/-- The three services have what they should have of an order that ended this way. -/
def System.Settled (s : System) (orderId : String) (row : Orders.OrderRow) : Ending → Prop
  | .sold => row.status = .confirmed ∧
      ownRow s.inventoryDb (.reservation orderId) =
        some { sku := row.itemSku, quantity := row.quantity, status := .reserved } ∧
      ∃ attempt, ownRow s.paymentsDb (.attempt orderId) = some attempt ∧
        attempt.status = .succeeded
  | .outOfStock => row.status = .failed ∧
      ownRow s.inventoryDb (.reservation orderId) = none ∧
      ownRow s.paymentsDb (.attempt orderId) = none
  | .declined => row.status = .failed ∧
      (∃ reservation, ownRow s.inventoryDb (.reservation orderId) = some reservation ∧
        reservation.status = .released) ∧
      ∃ attempt, ownRow s.paymentsDb (.attempt orderId) = some attempt ∧ attempt.status = .failed

/-- The order that a key names. -/
def Orders.orderOfKey : ServiceKey Orders.Key → String
  | .own (.order o) => o
  | _ => ""

/-- What a row counts for among the confirmed orders of a SKU. -/
def soldWeight (sku : String) : (k : ServiceKey Orders.Key) → ServiceRow Orders.Row k → ℤ
  | .own (.order _), row =>
      if row.itemSku = sku ∧ row.status = .confirmed then row.quantity.val else 0
  | _, _ => 0

/-- The quantities of the confirmed orders of a SKU, added up. -/
def soldOf (sku : String) (db : ServiceStore Orders.Row) : ℤ := total (soldWeight sku) db

variable [Platform]

namespace Law

variable {stock : ServiceStore Inventory.Row} {sagas : Sagas} {owner : String → Option Owner}
  {s : System} {o : String} {saga : Saga}

/-! ### The rows of one order -/

theorem orderRow (h : Law stock sagas owner s) (hsaga : sagas o = some saga) :
    ownRow s.ordersDb (.order o) = some (saga.orderRow saga.phase) := by
  rw [h.orders.view.order, hsaga]
  rfl

theorem reservationRow (h : Law stock sagas owner s) (hsaga : sagas o = some saga) :
    ownRow s.inventoryDb (.reservation o) =
      saga.phase.reservation.map saga.reservationRow := by
  rw [h.inventory.view.reservation, hsaga]
  rfl

theorem attemptRow (h : Law stock sagas owner s) (hsaga : sagas o = some saga) :
    ownRow s.paymentsDb (.attempt o) = saga.phase.attempt.map saga.attemptRow := by
  rw [h.payments.view.attempt, hsaga]
  rfl

/-- Every order has a saga. -/
theorem saga_of_order (h : Law stock sagas owner s) {row : Orders.OrderRow}
    (hrow : ownRow s.ordersDb (.order o) = some row) :
    ∃ saga, sagas o = some saga ∧ row = saga.orderRow saga.phase := by
  rw [h.orders.view.order] at hrow
  obtain ⟨saga, hsaga, rfl⟩ := Option.map_eq_some_iff.mp hrow
  exact ⟨saga, hsaga, rfl⟩

/-! ### Nothing is pending at rest -/

/-- What a group has committed is consumed. -/
theorem consumed_of_committed (h : Law stock sagas owner s) {service : Service}
    {message : KafkaMessage} (hcommitted : s.Committed service message) :
    ∃ o saga kind, Told service sagas o saga kind message ∧ kind ∈ saga.phase.consumed := by
  cases service with
  | orders =>
      obtain ⟨choices, hjob⟩ := hcommitted
      exact h.orders.law.handled _ hjob _ rfl
  | inventory =>
      obtain ⟨choices, hjob⟩ := hcommitted
      exact h.inventory.law.handled _ hjob _ rfl
  | payments =>
      obtain ⟨choices, hjob⟩ := hcommitted
      exact h.payments.law.handled _ hjob _ rfl

theorem pending_eq_none (h : Law stock sagas owner s) (hrest : s.AtRest)
    (hsaga : sagas o = some saga) : saga.phase.pending = none := by
  by_contra hne
  obtain ⟨kind, hpending⟩ := Option.ne_none_iff_exists'.mp hne
  have hkind := Phase.pending_mem_emitted hpending
  obtain ⟨row, hrow, hdescribes⟩ := h.row hsaga hkind
  have hannounces := hdescribes.announces
  -- The pending event was published, its consumer accepts it, and so has handled it.
  have hsent := hrest.published _ _ row hrow
  have hcommitted := hrest.handled _ _ hsent kind.consumer
    ((hannounces.accepts_iff kind.consumer).mpr rfl)
  obtain ⟨o', saga', kind', htold, hconsumed⟩ := h.consumed_of_committed hcommitted
  obtain ⟨hkind', -, horder⟩ := hannounces.unique htold.announces
  rw [htold.order, h.owned.keyed o saga hsaga] at horder
  subst horder hkind'
  obtain rfl := Option.some.inj (htold.known.symm.trans hsaga)
  exact (Phase.mem_consumed.mp hconsumed).2 hpending

/-- An order at rest has one of the three endings. -/
theorem settled (h : Law stock sagas owner s) (hsaga : sagas o = some saga)
    (hpending : saga.phase.pending = none) :
    ∃ ending, s.Settled o (saga.orderRow saga.phase) ending := by
  have hreservation := h.reservationRow hsaga
  have hattempt := h.attemptRow hsaga
  cases hphase : saga.phase with
  | outOfStock =>
      rw [hphase] at hreservation hattempt
      exact ⟨.outOfStock, rfl, hreservation, hattempt⟩
  | confirmed =>
      rw [hphase] at hreservation hattempt
      exact ⟨.sold, rfl, hreservation, _, hattempt, rfl⟩
  | released =>
      rw [hphase] at hreservation hattempt
      exact ⟨.declined, rfl, ⟨_, hreservation, rfl⟩, _, hattempt, rfl⟩
  | requested | reserved | rejected | paying | paid | declined | releasing =>
      simp [hphase, Phase.pending] at hpending

/-! ### The stock at rest -/

/-- At rest a reservation holds stock exactly if its order is confirmed. -/
theorem heldFor_eq (h : Law stock sagas owner s) (hrest : s.AtRest) (sku o : String) :
    Inventory.heldFor sku o s.inventoryDb =
      weigh (soldWeight sku) s.ordersDb (.own (.order o)) := by
  cases hsaga : sagas o with
  | none =>
      have horder : ownRow s.ordersDb (.order o) = none := by rw [h.orders.view.order, hsaga]; rfl
      have hreservation : ownRow s.inventoryDb (.reservation o) = none := by
        rw [h.inventory.view.reservation, hsaga]
        rfl
      rw [Inventory.heldFor_of_none hreservation, weigh_of_none horder]
  | some saga =>
      have hpending := h.pending_eq_none hrest hsaga
      have horder := h.orderRow hsaga
      have hreservation := h.reservationRow hsaga
      rw [weigh_of_lookup horder]
      cases hphase : saga.phase with
      | outOfStock =>
          rw [hphase] at hreservation
          rw [Inventory.heldFor_of_none hreservation]
          simp [soldWeight, Placed.orderRow, Phase.status]
      | confirmed =>
          rw [hphase] at hreservation
          rw [Inventory.heldFor_of_some hreservation]
          simp [soldWeight, Placed.orderRow, Placed.reservationRow, Phase.status,
            Inventory.Reservation.held]
      | released =>
          rw [hphase] at hreservation
          rw [Inventory.heldFor_of_some hreservation]
          simp [soldWeight, Placed.orderRow, Placed.reservationRow, Phase.status,
            Inventory.Reservation.held]
      | requested | reserved | rejected | paying | paid | declined | releasing =>
          simp [hphase, Phase.pending] at hpending

/-- The orders there are, and any there have been. -/
theorem exists_orders (h : Law stock sagas owner s) :
    ∃ S : Finset String, ∀ o, sagas o ≠ none → o ∈ S := by
  refine ⟨s.ordersDb.keys.image Orders.orderOfKey, fun o ho => ?_⟩
  obtain ⟨saga, hsaga⟩ := Option.ne_none_iff_exists'.mp ho
  have hmem : ServiceKey.own (Orders.Key.order o) ∈ s.ordersDb :=
    Finmap.mem_iff.mpr ⟨_, h.orderRow hsaga⟩
  exact Finset.mem_image.mpr ⟨_, Finmap.mem_keys.mpr hmem, rfl⟩

theorem heldOf_eq_soldOf (h : Law stock sagas owner s) (hrest : s.AtRest) (sku : String) :
    Inventory.heldOf sku s.inventoryDb = soldOf sku s.ordersDb := by
  obtain ⟨S, hS⟩ := h.exists_orders
  have hheld : Inventory.heldOf sku s.inventoryDb =
      ∑ o ∈ S, Inventory.heldFor sku o s.inventoryDb := by
    refine total_reindex (f := fun o => ServiceKey.own (Inventory.Key.reservation o)) ?_ ?_
    · intro a b hab
      simpa using hab
    · intro k hk
      match k, hk with
      | .own (.reservation o), hk =>
          refine ⟨o, hS o fun hnone => hk ?_, rfl⟩
          refine weigh_of_none ?_
          show ownRow s.inventoryDb (.reservation o) = none
          rw [h.inventory.view.reservation, hnone]
          rfl
      | .own (.item _), hk => exact absurd (weigh_eq_zero fun _ => rfl) hk
      | .outbox _, hk => exact absurd (weigh_eq_zero fun _ => rfl) hk
      | .processed _, hk => exact absurd (weigh_eq_zero fun _ => rfl) hk
  have hsold : soldOf sku s.ordersDb =
      ∑ o ∈ S, weigh (soldWeight sku) s.ordersDb (.own (.order o)) := by
    refine total_reindex (f := fun o => ServiceKey.own (Orders.Key.order o)) ?_ ?_
    · intro a b hab
      simpa using hab
    · intro k hk
      match k, hk with
      | .own (.order o), hk =>
          refine ⟨o, hS o fun hnone => hk ?_, rfl⟩
          refine weigh_of_none ?_
          show ownRow s.ordersDb (.order o) = none
          rw [h.orders.view.order, hnone]
          rfl
      | .own (.idempotency _ _), hk => exact absurd (weigh_eq_zero fun _ => rfl) hk
      | .outbox _, hk => exact absurd (weigh_eq_zero fun _ => rfl) hk
      | .processed _, hk => exact absurd (weigh_eq_zero fun _ => rfl) hk
  rw [hheld, hsold]
  exact Finset.sum_congr rfl fun o _ => h.heldFor_eq hrest sku o

end Law

omit [Platform] in
theorem System.Settled.unique {s : System} {o : String} {row : Orders.OrderRow}
    {ending ending' : Ending} (h : s.Settled o row ending) (h' : s.Settled o row ending') :
    ending' = ending := by
  have hclash : row.status = .confirmed → row.status = .failed → False := by
    intro hconfirmed hfailed
    rw [hconfirmed] at hfailed
    simp at hfailed
  have hstock : ownRow s.inventoryDb (.reservation o) = none →
      (∃ reservation, ownRow s.inventoryDb (.reservation o) = some reservation ∧
        reservation.status = .released) → False := by
    intro hnone ⟨reservation, hsome, _⟩
    rw [hnone] at hsome
    simp at hsome
  cases ending with
  | sold =>
      cases ending' with
      | sold => rfl
      | outOfStock => exact (hclash h.1 h'.1).elim
      | declined => exact (hclash h.1 h'.1).elim
  | outOfStock =>
      cases ending' with
      | sold => exact (hclash h'.1 h.1).elim
      | outOfStock => rfl
      | declined => exact (hstock h.2.1 h'.2.1).elim
  | declined =>
      cases ending' with
      | sold => exact (hclash h'.1 h.1).elim
      | outOfStock => exact (hstock h'.2.1 h.2.1).elim
      | declined => rfl

/--
**Agreement at rest.**  Whatever the services and their topics went through, once
nothing is left to publish or to handle every order is sold, out of stock or declined,
and just one of these; and of every SKU just what was sold is reserved.
-/
theorem saga_agreement (stock : ServiceStore Inventory.Row) (hstock : OnlyItems stock)
    (hopening : ∀ sku item, ownRow stock (.item sku) = some item → item.reservedQuantity.val = 0)
    {s : System} (hreach : System.Reach stock s) (hrest : s.AtRest) :
    (∀ o row, ownRow s.ordersDb (.order o) = some row → ∃! ending, s.Settled o row ending) ∧
      ∀ sku item, ownRow s.inventoryDb (.item sku) = some item →
        item.reservedQuantity.val = soldOf sku s.ordersDb := by
  obtain ⟨sagas, owner, hlaw⟩ := Law.of_reach hstock hreach
  constructor
  · intro o row hrow
    obtain ⟨saga, hsaga, rfl⟩ := hlaw.saga_of_order hrow
    obtain ⟨ending, hending⟩ := hlaw.settled hsaga (hlaw.pending_eq_none hrest hsaga)
    exact ⟨ending, hending, fun ending' hending' => hending.unique hending'⟩
  · intro sku item hitem
    have haccounts := hlaw.inventory.view.accounts
    cases hopen : itemsOf stock sku with
    | none =>
        rw [(haccounts.items sku).mpr hopen] at hitem
        simp at hitem
    | some opening =>
        have hreserved := haccounts.reserved sku item opening hitem hopen
        have hzero := hopening sku opening hopen
        rw [hlaw.heldOf_eq_soldOf hrest] at hreserved
        omega

end CommercePlatform

/-! ### One sale

Two chairs, from the look-up of the idempotency key to the confirmation of the order.
-/

namespace CommercePlatform.Sale

open Js Txn

@[reducible] def platform : Platform := .ascii
  [("\x7b\"itemSku\":\"SKU-CHAIR-001\",\"quantity\":2,\"totalAmount\":49.99,\"currency\":\"USD\"\x7d",
    "6e2f677a32987f330c53ce06c5a46473fcf58ad9ad9c308d5f3b7bde7c4fe0d6")] (by decide)

attribute [local instance] platform

def body : OrderCreateInput where
  itemSku := "SKU-CHAIR-001"
  quantity := 2
  totalAmount := .finite (4999 / 100)
  currency := "usd"
  itemSku_min := by decide
  quantity_pos := by decide
  totalAmount_pos := by decide +kernel
  currency_length := by decide

def call : Orders.CreateOrderCall :=
  { body := body, userSub := "auth0|alice", idempotencyKey := "order-001", correlationId := "req-1" }

/-- The identifiers that are drawn, in this order. -/
def uuid (n : ℕ) : String := "3b241101-e2bb-4255-8caf-4136c566a9" ++ Nat.repr (n + 10)

def choices (event row : ℕ) : Choices :=
  { eventId := uuid event, rowId := uuid row, now := event }

def stock : ServiceStore Inventory.Row :=
  Finmap.singleton (.own (.item "SKU-CHAIR-001"))
    { availableQuantity := ⟨25, by decide, by decide⟩
      reservedQuantity := ⟨0, by decide, by decide⟩ }

/-- A transaction of `n` accesses. -/
def transaction (service : Service) (i n : ℕ) : List SystemAct :=
  List.replicate n (.work service (.exec i)) ++ [.work service (.commit i)]

/-- A tick that publishes one row. -/
def publish (service : Service) (t : ℕ) (scan : List String) : List SystemAct :=
  [.work service (.startTick t scan), .work service (.send t .resolved),
    .work service (.mark t (100 + t) .resolved)]

def acts : List SystemAct :=
  [.lookUp 1 call, .insert 1 (uuid 1) (choices 2 3)] ++ transaction .orders 1 6 ++
  publish .orders 1 [uuid 3] ++
  [.deliver .inventory 1 .orders 0 (choices 4 5)] ++ transaction .inventory 1 10 ++
  publish .inventory 1 [uuid 5] ++
  [.deliver .orders 2 .inventory 0 (choices 6 7)] ++ transaction .orders 2 6 ++
  publish .orders 2 [uuid 3, uuid 7] ++
  [.deliver .payments 1 .orders 1 (choices 8 9)] ++ transaction .payments 1 6 ++
  publish .payments 1 [uuid 9] ++
  [.deliver .orders 3 .payments 0 (choices 10 11)] ++ transaction .orders 3 4

theorem onlyItems : OnlyItems stock := by
  intro k hk
  exact ⟨"SKU-CHAIR-001", (Finmap.mem_singleton _ _ _).mp hk⟩

/-- Every act of the sale is enabled, and at its end it is paid and nothing is left to do. -/
theorem exists_sold : ∃ s, System.run acts (System.start stock) = some s ∧ s.AtRest ∧
    ∃ attempt, ownRow s.paymentsDb (.attempt (uuid 1)) = some attempt := by
  have h : ((System.run acts (System.start stock)).any fun s =>
      s.AtRest && (ownRow s.paymentsDb (.attempt (uuid 1))).isSome) = true := by
    decide +kernel
  obtain ⟨s, hs, hsold⟩ := (Option.any_eq_true _ _).mp h
  obtain ⟨hrest, hpaid⟩ := (Bool.and_eq_true ..).mp hsold
  exact ⟨s, hs, of_decide_eq_true hrest, Option.isSome_iff_exists.mp hpaid⟩

theorem item_eq {sku : String} {item : Inventory.Item}
    (hitem : ownRow stock (.item sku) = some item) :
    item = { availableQuantity := ⟨25, by decide, by decide⟩
             reservedQuantity := ⟨0, by decide, by decide⟩ } := by
  have hmem : ServiceKey.own (Inventory.Key.item sku) ∈ stock := Finmap.mem_iff.mpr ⟨item, hitem⟩
  have hkey := (Finmap.mem_singleton _ _ _).mp hmem
  obtain rfl : sku = "SKU-CHAIR-001" := by simpa using hkey
  exact Option.some.inj (hitem.symm.trans (Finmap.lookup_singleton_eq ..))

theorem agreement : ∃ s, System.run acts (System.start stock) = some s ∧
    (∀ o row, ownRow s.ordersDb (.order o) = some row → ∃! ending, s.Settled o row ending) ∧
      ∀ sku item, ownRow s.inventoryDb (.item sku) = some item →
        item.reservedQuantity.val = soldOf sku s.ordersDb := by
  obtain ⟨s, hs, hrest, -⟩ := exists_sold
  exact ⟨s, hs, saga_agreement stock onlyItems (fun _ _ hitem => by rw [item_eq hitem])
    (System.steps_of_run hs) hrest⟩

end CommercePlatform.Sale
