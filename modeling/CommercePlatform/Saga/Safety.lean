/-
What holds in every state, and along every run.

No handler looks at the status of an order or at the tables of another service.  That
they nevertheless never contradict each other is read off the phases: a saga is in one
phase at a time, and it only ever goes on.
-/
import CommercePlatform.Txn.Trace
import CommercePlatform.Saga.Agreement

namespace CommercePlatform

open Js Txn

variable [Platform]

/-! ### Sagas only go on -/

/-- What every move keeps is kept for good. -/
theorem Saga.Next.keeps {P : Phase → Prop}
    (hP : ∀ p kind out p', Phase.Advance p kind out p' → P p → P p') {saga : Saga}
    {next : Option Saga} (h : Relation.ReflTransGen Saga.Next (some saga) next)
    (hp : P saga.phase) :
    ∃ saga', next = some saga' ∧ saga'.toPlaced = saga.toPlaced ∧ P saga'.phase := by
  induction h with
  | refl => exact ⟨saga, rfl, rfl, hp⟩
  | tail _ hnext ih =>
      obtain ⟨saga₁, rfl, hplaced₁, hp₁⟩ := ih
      cases hnext with
      | same => exact ⟨saga₁, rfl, hplaced₁, hp₁⟩
      | advance hplaced _ hadv => exact ⟨_, rfl, hplaced.trans hplaced₁, hP _ _ _ _ hadv hp₁⟩

/-- An event goes on being the event it is. -/
theorem Saga.Next.event {saga : Saga} {next : Option Saga}
    (h : Relation.ReflTransGen Saga.Next (some saga) next) {kind : EventKind}
    (hkind : kind ∈ saga.phase.emitted) :
    ∃ saga', next = some saga' ∧ saga'.toPlaced = saga.toPlaced ∧ kind ∈ saga'.phase.emitted ∧
      saga'.eventId kind = saga.eventId kind := by
  induction h with
  | refl => exact ⟨saga, rfl, rfl, hkind, rfl⟩
  | tail _ hnext ih =>
      obtain ⟨saga₁, rfl, hplaced₁, hkind₁, hid₁⟩ := ih
      cases hnext with
      | same => exact ⟨saga₁, rfl, hplaced₁, hkind₁, hid₁⟩
      | advance hplaced hids hadv =>
          exact ⟨_, rfl, hplaced.trans hplaced₁, hadv.mono_emitted kind hkind₁,
            (hids kind hkind₁).trans hid₁⟩

/-! ### No charge without stock -/

/-- There is such a message, in an outbox or in a topic. -/
def System.HasMessage (s : System) (message : KafkaMessage) : Prop :=
  (∃ service id row, s.outbox service id = some row ∧ row.message = message) ∨
    ∃ service, message ∈ s.sent service

namespace Law

variable {stock : ServiceStore Inventory.Row} {sagas : Sagas} {owner : String → Option Owner}
  {s s' : System} {o : String} {saga : Saga}

/-- A message is an event of a saga. -/
theorem message (h : Law stock sagas owner s) {message : KafkaMessage}
    (hmessage : s.HasMessage message) :
    ∃ o saga kind, sagas o = some saga ∧ saga.orderId = o ∧ kind ∈ saga.phase.emitted ∧
      saga.Announces kind (saga.eventId kind) message := by
  have hrow : ∃ service id row, s.outbox service id = some row ∧ row.message = message := by
    rcases hmessage with hrow | ⟨service, hsent⟩
    · exact hrow
    · obtain ⟨id, row, hrow⟩ := h.sent hsent
      exact ⟨service, id, row, hrow⟩
  obtain ⟨service, id, row, hrow, rfl⟩ := hrow
  obtain ⟨o, saga, kind, hsaga, hkind, -, -, hdescribes⟩ := h.event hrow
  exact ⟨o, saga, kind, hsaga, h.owned.keyed o saga hsaga, hkind, hdescribes.announces⟩

/-- Who asks for the release of an order is its saga. -/
theorem emitted_of_release (h : Law stock sagas owner s) {message : KafkaMessage}
    (hmessage : s.HasMessage message) (hrelease : Inventory.isRelease message)
    (horder : orderIdOf message.value = some o) :
    ∃ saga, sagas o = some saga ∧ .releaseRequested ∈ saga.phase.emitted := by
  obtain ⟨o', saga, kind, hsaga, hkeyed, hkind, hannounces⟩ := h.message hmessage
  rw [hannounces.orderIdOf, hkeyed] at horder
  obtain rfl := Option.some.inj horder
  obtain rfl := hannounces.isRelease_iff.mp hrelease
  exact ⟨saga, hsaga, hkind⟩

theorem saga_of_attempt (h : Law stock sagas owner s) {attempt : Payments.PaymentAttempt}
    (hattempt : ownRow s.paymentsDb (.attempt o) = some attempt) :
    ∃ saga, sagas o = some saga ∧ saga.phase.attempt = some attempt.status := by
  rw [h.payments.view.attempt] at hattempt
  obtain ⟨saga, hsaga, hrow⟩ := Option.bind_eq_some_iff.mp hattempt
  obtain ⟨status, hstatus, rfl⟩ := Option.map_eq_some_iff.mp hrow
  exact ⟨saga, hsaga, hstatus⟩

theorem saga_of_reservation (h : Law stock sagas owner s) {reservation : Inventory.Reservation}
    (hreservation : ownRow s.inventoryDb (.reservation o) = some reservation) :
    ∃ saga, sagas o = some saga ∧ saga.phase.reservation = some reservation.status := by
  rw [h.inventory.view.reservation] at hreservation
  obtain ⟨saga, hsaga, hrow⟩ := Option.bind_eq_some_iff.mp hreservation
  obtain ⟨status, hstatus, rfl⟩ := Option.map_eq_some_iff.mp hrow
  exact ⟨saga, hsaga, hstatus⟩

/-- The saga of an order whose payment has succeeded goes on without a release. -/
theorem succeeded_run (h : Law stock sagas owner s)
    (hrun : Relation.ReflTransGen System.Steps s s') (hsaga : sagas o = some saga)
    (hattempt : saga.phase.attempt = some .succeeded) :
    ∃ sagas' owner' saga', Law stock sagas' owner' s' ∧ sagas' o = some saga' ∧
      saga'.phase.attempt = some .succeeded := by
  obtain ⟨sagas', owner', hlaw, hnext⟩ := h.run hrun
  have hnext' := hnext o
  rw [hsaga] at hnext'
  obtain ⟨saga', hsaga', -, hattempt'⟩ :=
    Saga.Next.keeps (fun _ _ _ _ hadv => hadv.succeeded) hnext' hattempt
  exact ⟨sagas', owner', saga', hlaw, hsaga', hattempt'⟩

/-- A message that asks for a release goes on being there. -/
theorem release_run (h : Law stock sagas owner s)
    (hrun : Relation.ReflTransGen System.Steps s s') (hsaga : sagas o = some saga)
    (hrelease : .releaseRequested ∈ saga.phase.emitted) :
    ∃ sagas' owner' saga', Law stock sagas' owner' s' ∧ sagas' o = some saga' ∧
      .releaseRequested ∈ saga'.phase.emitted := by
  obtain ⟨sagas', owner', hlaw, hnext⟩ := h.run hrun
  have hnext' := hnext o
  rw [hsaga] at hnext'
  obtain ⟨saga', hsaga', -, hrelease'⟩ :=
    Saga.Next.keeps (fun _ _ _ _ hadv => hadv.mono_emitted _) hnext' hrelease
  exact ⟨sagas', owner', saga', hlaw, hsaga', hrelease'⟩

end Law

/--
**No charge without held stock.**  In every state an order with a payment attempt has
its own stock reserved or released; one whose attempt has succeeded has it reserved from
then on, and nobody ever asks for its release; only such an order is confirmed; and what
is released belongs to an order that has failed, as its payment has.
-/
theorem no_charge_without_stock (stock : ServiceStore Inventory.Row) (hstock : OnlyItems stock)
    {s : System} (hreach : System.Reach stock s) (o : String) :
    (∀ attempt, ownRow s.paymentsDb (.attempt o) = some attempt →
      ∃ row reservation, ownRow s.ordersDb (.order o) = some row ∧
        ownRow s.inventoryDb (.reservation o) = some reservation ∧
        reservation.sku = row.itemSku ∧ reservation.quantity = row.quantity) ∧
    (∀ attempt, ownRow s.paymentsDb (.attempt o) = some attempt → attempt.status = .succeeded →
      (∀ s', Relation.ReflTransGen System.Steps s s' →
        ∃ reservation, ownRow s'.inventoryDb (.reservation o) = some reservation ∧
          reservation.status = .reserved) ∧
      ∀ s', System.Reach stock s' →
        Relation.ReflTransGen System.Steps s s' ∨ Relation.ReflTransGen System.Steps s' s →
          ∀ message, s'.HasMessage message →
            ¬ (Inventory.isRelease message ∧ orderIdOf message.value = some o)) ∧
    (∀ row, ownRow s.ordersDb (.order o) = some row → row.status = .confirmed →
      ∃ attempt, ownRow s.paymentsDb (.attempt o) = some attempt ∧
        attempt.status = .succeeded) ∧
    ∀ reservation, ownRow s.inventoryDb (.reservation o) = some reservation →
      reservation.status = .released →
        ∃ row attempt, ownRow s.ordersDb (.order o) = some row ∧ row.status = .failed ∧
          ownRow s.paymentsDb (.attempt o) = some attempt ∧ attempt.status = .failed := by
  obtain ⟨sagas, owner, hlaw⟩ := Law.of_reach hstock hreach
  refine ⟨fun attempt hattempt => ?_, fun attempt hattempt hsucceeded => ⟨?_, ?_⟩, ?_, ?_⟩
  · obtain ⟨saga, hsaga, hstatus⟩ := hlaw.saga_of_attempt hattempt
    obtain ⟨status, hreserved⟩ :=
      Option.ne_none_iff_exists'.mp (Phase.reservation_of_attempt hstatus)
    have hreservation := hlaw.reservationRow hsaga
    rw [hreserved] at hreservation
    exact ⟨_, _, hlaw.orderRow hsaga, hreservation, rfl, rfl⟩
  · intro s' hrun
    obtain ⟨saga, hsaga, hstatus⟩ := hlaw.saga_of_attempt hattempt
    rw [hsucceeded] at hstatus
    obtain ⟨sagas', owner', saga', hlaw', hsaga', hstatus'⟩ :=
      hlaw.succeeded_run hrun hsaga hstatus
    have hreservation := hlaw'.reservationRow hsaga'
    rw [Phase.reserved_of_succeeded hstatus'] at hreservation
    exact ⟨_, hreservation, rfl⟩
  · intro s' hreach' hrun message hmessage ⟨hrelease, horder⟩
    rcases hrun with hafter | hbefore
    · obtain ⟨saga, hsaga, hstatus⟩ := hlaw.saga_of_attempt hattempt
      rw [hsucceeded] at hstatus
      obtain ⟨sagas', owner', saga', hlaw', hsaga', hstatus'⟩ :=
        hlaw.succeeded_run hafter hsaga hstatus
      obtain ⟨saga₁, hsaga₁, hemitted⟩ := hlaw'.emitted_of_release hmessage hrelease horder
      obtain rfl := Option.some.inj (hsaga₁.symm.trans hsaga')
      exact Phase.not_release_of_succeeded hstatus' hemitted
    · -- What was asked for before would still be.
      obtain ⟨sagas₀, owner₀, hlaw₀⟩ := Law.of_reach hstock hreach'
      obtain ⟨saga₀, hsaga₀, hemitted₀⟩ := hlaw₀.emitted_of_release hmessage hrelease horder
      obtain ⟨sagas', owner', saga', hlaw', hsaga', hemitted⟩ :=
        hlaw₀.release_run hbefore hsaga₀ hemitted₀
      obtain ⟨saga₁, hsaga₁, hstatus⟩ := hlaw'.saga_of_attempt hattempt
      obtain rfl := Option.some.inj (hsaga₁.symm.trans hsaga')
      rw [hsucceeded] at hstatus
      exact Phase.not_release_of_succeeded hstatus hemitted
  · intro row hrow hconfirmed
    obtain ⟨saga, hsaga, rfl⟩ := hlaw.saga_of_order hrow
    have hattempt := hlaw.attemptRow hsaga
    rw [Phase.succeeded_of_confirmed hconfirmed] at hattempt
    exact ⟨_, hattempt, rfl⟩
  · intro reservation hreservation hreleased
    obtain ⟨saga, hsaga, hstatus⟩ := hlaw.saga_of_reservation hreservation
    rw [hreleased] at hstatus
    obtain ⟨hfailed, hdeclined⟩ := Phase.failed_of_released hstatus
    have hattempt := hlaw.attemptRow hsaga
    rw [hdeclined] at hattempt
    exact ⟨_, _, hlaw.orderRow hsaga, hfailed, hattempt, rfl⟩

end CommercePlatform

namespace CommercePlatform.Sale

open Js Txn

attribute [local instance] platform

theorem charged : ∃ s, System.run acts (System.start stock) = some s ∧
    (∀ attempt, ownRow s.paymentsDb (.attempt (uuid 1)) = some attempt →
      ∃ row reservation, ownRow s.ordersDb (.order (uuid 1)) = some row ∧
        ownRow s.inventoryDb (.reservation (uuid 1)) = some reservation ∧
        reservation.sku = row.itemSku ∧ reservation.quantity = row.quantity) ∧
    (∀ attempt, ownRow s.paymentsDb (.attempt (uuid 1)) = some attempt → attempt.status = .succeeded →
      (∀ s', Relation.ReflTransGen System.Steps s s' →
        ∃ reservation, ownRow s'.inventoryDb (.reservation (uuid 1)) = some reservation ∧
          reservation.status = .reserved) ∧
      ∀ s', System.Reach stock s' →
        Relation.ReflTransGen System.Steps s s' ∨ Relation.ReflTransGen System.Steps s' s →
          ∀ message, s'.HasMessage message →
            ¬ (Inventory.isRelease message ∧ orderIdOf message.value = some (uuid 1))) ∧
    (∀ row, ownRow s.ordersDb (.order (uuid 1)) = some row → row.status = .confirmed →
      ∃ attempt, ownRow s.paymentsDb (.attempt (uuid 1)) = some attempt ∧
        attempt.status = .succeeded) ∧
    ∀ reservation, ownRow s.inventoryDb (.reservation (uuid 1)) = some reservation →
      reservation.status = .released →
        ∃ row attempt, ownRow s.ordersDb (.order (uuid 1)) = some row ∧ row.status = .failed ∧
          ownRow s.paymentsDb (.attempt (uuid 1)) = some attempt ∧ attempt.status = .failed := by
  obtain ⟨s, hs, -⟩ := exists_sold
  exact ⟨s, hs, no_charge_without_stock stock onlyItems (System.steps_of_run hs)
    (uuid 1)⟩

end CommercePlatform.Sale

namespace CommercePlatform

open Js Txn

variable [Platform]

/-! ### The status of an order -/

/-- The edges along which the status of an order goes; the first is its being placed. -/
inductive StatusEdge : Option Orders.OrderStatus → Option Orders.OrderStatus → Prop where
  | place : StatusEdge none (some .pendingInventory)
  | reserve : StatusEdge (some .pendingInventory) (some .pendingPayment)
  | reject : StatusEdge (some .pendingInventory) (some .failed)
  | confirm : StatusEdge (some .pendingPayment) (some .confirmed)
  | decline : StatusEdge (some .pendingPayment) (some .failed)

/-- The status of an order, if there is one. -/
def System.statusOf (o : String) (s : System) : Option Orders.OrderStatus :=
  (ownRow s.ordersDb (.order o)).map fun row => row.status

omit [Platform] in
theorem Phase.Advance.status_edge {p p' : Phase} {kind : EventKind} {out : Option EventKind}
    (h : Phase.Advance p kind out p') :
    p.status = p'.status ∨ StatusEdge (some p.status) (some p'.status) := by
  cases h with
  | reserve => exact Or.inl rfl
  | reject => exact Or.inl rfl
  | giveUp => exact Or.inr .reject
  | askPayment => exact Or.inr .reserve
  | pay => exact Or.inl rfl
  | decline => exact Or.inl rfl
  | confirm => exact Or.inr .confirm
  | askRelease => exact Or.inr .decline
  | release => exact Or.inl rfl

theorem Law.statusOf {stock : ServiceStore Inventory.Row} {sagas : Sagas}
    {owner : String → Option Owner} {s : System} (h : Law stock sagas owner s) (o : String) :
    s.statusOf o = (sagas o).map fun saga => saga.phase.status := by
  unfold System.statusOf
  rw [h.orders.view.order, Option.map_map]
  rfl

/-- A step takes an edge, or leaves the status as it is. -/
theorem status_step {stock : ServiceStore Inventory.Row} (hstock : OnlyItems stock) {s s' : System}
    (hreach : System.Reach stock s) (hstep : System.Steps s s') (o : String) :
    s.statusOf o = s'.statusOf o ∨ StatusEdge (s.statusOf o) (s'.statusOf o) := by
  obtain ⟨sagas, owner, hlaw⟩ := Law.of_reach hstock hreach
  obtain ⟨act, hact⟩ := hstep
  obtain ⟨sagas', owner', hlaw', hnext⟩ := hlaw.step hact
  have hmove := hnext o
  rw [hlaw.statusOf, hlaw'.statusOf]
  generalize sagas o = before, sagas' o = after at hmove ⊢
  cases hmove with
  | same => exact Or.inl rfl
  | opened hphase =>
      refine Or.inr ?_
      rw [Option.map_some, hphase]
      exact .place
  | advance _ _ hadv => exact hadv.status_edge.imp (congrArg some) id

omit [Platform] in
theorem StatusEdge.not_final {a b : Option Orders.OrderStatus} (h : StatusEdge a b) :
    a ≠ some .confirmed ∧ a ≠ some .failed := by
  cases h <;> simp

/--
**The state machine of an order.**  Along every run the successive values of its status
take one edge after the other; a final status stays; and the reason of a failure is there
just when the order has failed.
-/
theorem order_state_machine (stock : ServiceStore Inventory.Row) (hstock : OnlyItems stock)
    (states : List System) (hrun : (System.start stock :: states).IsChain System.Steps)
    (o : String) :
    (((System.start stock :: states).map (System.statusOf o)).destutter (· ≠ ·)).IsChain
      StatusEdge ∧
    ((System.start stock :: states).map (System.statusOf o)).Pairwise
      (fun a b => a = some .confirmed ∨ a = some .failed → b = a) ∧
    ∀ s ∈ System.start stock :: states, ∀ row, ownRow s.ordersDb (.order o) = some row →
      (row.failureReason ≠ none ↔ row.status = .failed) := by
  have hsteps : ((System.start stock :: states).map (System.statusOf o)).IsChain
      fun a b => a = b ∨ StatusEdge a b := by
    rw [List.isChain_map]
    exact isChain_of_steps hrun fun s s' hreach hstep => status_step hstock hreach hstep o
  refine ⟨isChain_destutter hsteps, ?_, fun s hs row hrow => ?_⟩
  · have htrans : Trans
        (fun a b : Option Orders.OrderStatus => a = some .confirmed ∨ a = some .failed → b = a)
        (fun a b : Option Orders.OrderStatus => a = some .confirmed ∨ a = some .failed → b = a)
        (fun a b : Option Orders.OrderStatus => a = some .confirmed ∨ a = some .failed → b = a) := by
      refine ⟨fun {a b c} hab hbc hfinal => ?_⟩
      obtain rfl := hab hfinal
      exact hbc hfinal
    refine List.isChain_iff_pairwise.mp (hsteps.imp fun a b hstep hfinal => ?_)
    rcases hstep with heq | hedge
    · exact heq.symm
    · obtain ⟨hconfirmed, hfailed⟩ := hedge.not_final
      rcases hfinal with hc | hf
      · exact absurd hc hconfirmed
      · exact absurd hf hfailed
  · obtain ⟨sagas, owner, hlaw⟩ := Law.of_reach hstock (reach_of_mem hrun hs)
    obtain ⟨saga, -, rfl⟩ := hlaw.saga_of_order hrow
    exact saga.phase.failureReason_iff

end CommercePlatform

namespace CommercePlatform.Sale

open Js Txn

attribute [local instance] platform

theorem confirmed : ∃ states, (System.start stock :: states).IsChain System.Steps ∧
    (((System.start stock :: states).map (System.statusOf (uuid 1))).destutter
      (· ≠ ·)).IsChain StatusEdge ∧
    ((System.start stock :: states).map (System.statusOf (uuid 1))).Pairwise
      (fun a b => a = some .confirmed ∨ a = some .failed → b = a) ∧
    ∀ s ∈ System.start stock :: states, ∀ row,
      ownRow s.ordersDb (.order (uuid 1)) = some row →
        (row.failureReason ≠ none ↔ row.status = .failed) := by
  obtain ⟨s, hs, -⟩ := exists_sold
  obtain ⟨states, hrun, -⟩ :=
    List.exists_isChain_cons_of_relationReflTransGen (System.steps_of_run hs)
  exact ⟨states, hrun, order_state_machine stock onlyItems states hrun (uuid 1)⟩

end CommercePlatform.Sale
