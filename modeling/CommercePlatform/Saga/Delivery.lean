/-
No message is refused.

A message that a handler always raises on would block its partition for good.  The
producers and consumers of the saga agree on the names of the fields by convention only,
and each writes its values under constraints of its own.  Still every committed event
finds one group, in it the branch that was written for it, and room for what the branch
writes.
-/
import CommercePlatform.Saga.Bounded

namespace CommercePlatform

open Js Txn

/-- The fields that the branch for an event reads. -/
def EventKind.reads : EventKind → List String
  | .reserveRequested =>
      ["eventType", "itemSku", "quantity", "orderId", "totalAmount", "currency"]
  | .reserved => ["eventType", "orderId", "totalAmount", "currency"]
  | .rejected => ["eventType", "orderId", "reason"]
  | .paymentRequested => ["amount", "orderId", "currency"]
  | .succeeded => ["eventType", "orderId"]
  | .failed => ["eventType", "orderId", "reason"]
  | .releaseRequested => ["eventType", "orderId"]

variable [Platform]

/-- An event has all the fields that its branch reads, and none of them is null. -/
theorem Placed.payload_reads (o : Placed) (kind : EventKind) (eventId : String) :
    ∀ name ∈ kind.reads, ∃ value, (o.payload kind eventId).lookup name = some value ∧
      value ≠ .null := by
  intro name hname
  cases kind <;> simp only [EventKind.reads, List.mem_cons, List.not_mem_nil, or_false] at hname
  case reserveRequested =>
    rcases hname with rfl | rfl | rfl | rfl | rfl | rfl <;> exact ⟨_, rfl, by simp⟩
  case reserved => rcases hname with rfl | rfl | rfl | rfl <;> exact ⟨_, rfl, by simp⟩
  case rejected => rcases hname with rfl | rfl | rfl <;> exact ⟨_, rfl, by simp⟩
  case paymentRequested => rcases hname with rfl | rfl | rfl <;> exact ⟨_, rfl, by simp⟩
  case succeeded => rcases hname with rfl | rfl <;> exact ⟨_, rfl, by simp⟩
  case failed => rcases hname with rfl | rfl | rfl <;> exact ⟨_, rfl, by simp⟩
  case releaseRequested => rcases hname with rfl | rfl <;> exact ⟨_, rfl, by simp⟩

/-! ### The handlers succeed -/

section Runs

variable {sagas : Sagas} {o : String} {saga : Saga} {kind : EventKind} {message : KafkaMessage}
  {choices : Choices}

theorem OrdersView.exists_run {db : ServiceStore Orders.Row} (hview : OrdersView sagas db)
    (hdistinct : Distinct sagas) (htold : Told .orders sagas o saga kind message)
    (hevent : IsUuid choices.eventId) (hrow : IsUuid choices.rowId)
    (hfree : outboxAt db choices.rowId = none) :
    ∃ db', (Orders.handleSagaEvent message choices).run db = .ok ((), db') := by
  have hiff : ∀ db', (Orders.handleSagaEvent message choices).run db = .ok ((), db') ↔ _ :=
    fun db' => hview.run_handleSagaEvent hdistinct htold
  by_cases hconsumed : kind ∈ saga.phase.consumed
  · exact ⟨db, (hiff db).mpr (Or.inl ⟨hconsumed, rfl⟩)⟩
  · have hadv : Phase.Advance saga.phase kind (Phase.reply kind).1 (Phase.reply kind).2 := by
      rw [Phase.pending_of_emitted htold.emitted hconsumed]
      exact (Phase.advance_orders_iff htold.consumer).mpr ⟨rfl, rfl⟩
    have hfirst : (Phase.reply kind).1 ≠ some .reserveRequested := by
      cases kind <;> decide
    obtain ⟨db', hemits⟩ := exists_emits hevent hrow hfirst ((outboxAt_insert_own _).trans
      ((outboxAt_insert_processed _).trans hfree))
    exact ⟨db', (hiff db').mpr (Or.inr ⟨_, _, hadv, hemits⟩)⟩

theorem PaymentsView.exists_run {db : ServiceStore Payments.Row} (hview : PaymentsView sagas db)
    (hdistinct : Distinct sagas) (htold : Told .payments sagas o saga kind message)
    (hevent : IsUuid choices.eventId) (hrow : IsUuid choices.rowId)
    (hfree : outboxAt db choices.rowId = none) :
    ∃ db', (Payments.handlePaymentCommand message choices).run db = .ok ((), db') := by
  have hiff : ∀ db', (Payments.handlePaymentCommand message choices).run db = .ok ((), db') ↔ _ :=
    fun db' => hview.run_handlePaymentCommand hdistinct htold
  by_cases hconsumed : kind ∈ saga.phase.consumed
  · exact ⟨db, (hiff db).mpr (Or.inl ⟨hconsumed, rfl⟩)⟩
  · have hphase := Phase.pending_of_emitted htold.emitted hconsumed
    obtain rfl : kind = .paymentRequested := by
      have hconsumer := htold.consumer
      cases kind <;> first | rfl | exact absurd hconsumer (by decide)
    have hdecision : ∃ out p' status, Phase.Advance saga.phase .paymentRequested (some out) p' ∧
        p'.attempt = some status ∧ status = (if saga.approved then .succeeded else .failed) ∧
        out ≠ .reserveRequested := by
      rw [hphase]
      cases saga.approved with
      | true => exact ⟨_, _, _, .pay, rfl, rfl, by decide⟩
      | false => exact ⟨_, _, _, .decline, rfl, rfl, by decide⟩
    obtain ⟨out, p', status, hadv, hattempt, hstatus, hfirst⟩ := hdecision
    obtain ⟨db', hemits⟩ := exists_emits hevent hrow (fun heq => hfirst (Option.some.inj heq))
      ((outboxAt_insert_own _).trans ((outboxAt_insert_processed _).trans hfree))
    exact ⟨db', (hiff db').mpr (Or.inr ⟨_, _, _, hadv, hattempt, hstatus, hemits⟩)⟩

/-- The stock of a SKU, all in all, fits into one column. -/
def Roomy (stock : String → Option Inventory.Item) : Prop :=
  ∀ sku opening, stock sku = some opening →
    opening.availableQuantity.val + opening.reservedQuantity.val ≤ 2147483647

/-- The stock can always move as an event asks. -/
theorem InventoryView.exists_move {stock : String → Option Inventory.Item} (hroomy : Roomy stock)
    {db : ServiceStore Inventory.Row} (hview : InventoryView stock sagas db)
    (htold : Told .inventory sagas o saga kind message) (hnew : kind ∉ saga.phase.consumed)
    (mark : ProcessedEvent) :
    ∃ out p' db₁, Phase.Advance saga.phase kind out p' ∧ StockMove saga.toPlaced
      (db.insert (ServiceKey.processed (saga.eventId kind)) mark) p' db₁ ∧
      out ≠ some .reserveRequested := by
  have haccounts := hview.accounts.insert_processed (saga.eventId kind) mark
  have hphase := Phase.pending_of_emitted htold.emitted hnew
  have hconsumer := htold.consumer
  cases kind with
  | reserveRequested =>
      rw [hphase]
      cases hitem : ownRow (db.insert (ServiceKey.processed (saga.eventId .reserveRequested)) mark)
          (.item saga.row.itemSku) with
      | none =>
          exact ⟨_, _, _, .reject, .reject fun item hitem' => by simp [hitem] at hitem', by decide⟩
      | some old =>
          by_cases henough : saga.row.quantity.val ≤ old.availableQuantity.val
          · have hpositive : 0 < saga.row.quantity.val := by
              rw [saga.stored.quantity_val]
              exact saga.call.body.quantity_pos
            obtain ⟨item, hmove⟩ := haccounts.exists_reserve (hroomy _) hitem hpositive henough
            exact ⟨_, _, _, .reserve, .reserve hitem henough hmove, by decide⟩
          · refine ⟨_, _, _, .reject, .reject fun item hitem' => ?_, by decide⟩
            rw [hitem] at hitem'
            obtain rfl := Option.some.inj hitem'
            omega
  | releaseRequested =>
      have hreservation : ownRow (db.insert
          (ServiceKey.processed (saga.eventId .releaseRequested)) mark) (.reservation o) =
            some (saga.reservationRow .reserved) := by
        rw [ownRow_insert_processed, hview.reservation, htold.known]
        simp [hphase, Phase.awaiting, Phase.reservation]
      have hpresent := haccounts.foreignKey o _ hreservation
      obtain ⟨old, hitem⟩ := Option.ne_none_iff_exists'.mp hpresent
      obtain ⟨item, hmove⟩ := haccounts.exists_release hreservation rfl hitem
      rw [hphase]
      exact ⟨_, _, _, .release, .release hitem hmove, by decide⟩
  | reserved => exact absurd hconsumer (by decide)
  | rejected => exact absurd hconsumer (by decide)
  | paymentRequested => exact absurd hconsumer (by decide)
  | succeeded => exact absurd hconsumer (by decide)
  | failed => exact absurd hconsumer (by decide)

theorem InventoryView.exists_run {stock : String → Option Inventory.Item} (hroomy : Roomy stock)
    {db : ServiceStore Inventory.Row} (hview : InventoryView stock sagas db)
    (hdistinct : Distinct sagas) (htold : Told .inventory sagas o saga kind message)
    (hevent : IsUuid choices.eventId) (hrow : IsUuid choices.rowId)
    (hfree : outboxAt db choices.rowId = none) :
    ∃ db', (Inventory.handleInventoryCommand message choices).run db = .ok ((), db') := by
  have hiff : ∀ db', (Inventory.handleInventoryCommand message choices).run db = .ok ((), db') ↔ _ :=
    fun db' => hview.run_handleInventoryCommand hdistinct htold
  by_cases hconsumed : kind ∈ saga.phase.consumed
  · exact ⟨db, (hiff db).mpr (Or.inl ⟨hconsumed, rfl⟩)⟩
  · obtain ⟨out, p', db₁, hadv, hstock, hfirst⟩ := hview.exists_move hroomy htold hconsumed _
    obtain ⟨db', hemits⟩ := exists_emits hevent hrow hfirst
      ((hstock.outbox _).trans ((outboxAt_insert_processed _).trans hfree))
    exact ⟨db', (hiff db').mpr (Or.inr ⟨_, _, _, hadv, hstock, hemits⟩)⟩

end Runs

/-! ### In every state -/

namespace System

/-- Run on the rows of its service, the handler succeeds. -/
def Handles (s : System) (service : Service) (message : KafkaMessage) (choices : Choices) : Prop :=
  match service with
  | .orders => ∃ db', (Orders.handleSagaEvent message choices).run s.ordersDb = .ok ((), db')
  | .inventory =>
      ∃ db', (Inventory.handleInventoryCommand message choices).run s.inventoryDb = .ok ((), db')
  | .payments =>
      ∃ db', (Payments.handlePaymentCommand message choices).run s.paymentsDb = .ok ((), db')

omit [Platform] in
/-- A transaction that is handling the message has raised. -/
def Raises (s : System) (service : Service) (message : KafkaMessage) : Prop :=
  match service with
  | .orders => ∃ i σ choices e, s.orders.node.server.sessions i = some σ ∧
      σ.job = .saga { message := message, choices := choices } ∧ σ.rest = .throw e
  | .inventory => ∃ i σ e, s.inventory.server.sessions i = some σ ∧ σ.job.message = message ∧
      σ.rest = .throw e
  | .payments => ∃ i σ e, s.payments.server.sessions i = some σ ∧ σ.job.message = message ∧
      σ.rest = .throw e

end System

/-- The handler marks the event and does what its branch for the event does. -/
def TakesBranch (kind : EventKind) (eventId : String) (message : KafkaMessage)
    (choices : Choices) : Prop :=
  match kind.consumer with
  | .orders => Orders.handleSagaEvent message choices =
      processOnce (.str eventId) message (Orders.branch kind message.value choices)
  | .inventory => Inventory.handleInventoryCommand message choices =
      processOnce (.str eventId) message (Inventory.branch kind message.value choices)
  | .payments => Payments.handlePaymentCommand message choices =
      processOnce (.str eventId) message (Payments.branch kind message.value choices)

theorem Placed.Announces.takesBranch {o : Placed} {kind : EventKind} {eventId : String}
    {message : KafkaMessage} (h : o.Announces kind eventId message) (hid : IsUuid eventId)
    (choices : Choices) : TakesBranch kind eventId message choices := by
  unfold TakesBranch
  split
  · exact h.handleSagaEvent hid ‹_› choices
  · exact h.handleInventoryCommand hid ‹_› choices
  · exact h.handlePaymentCommand hid ‹_› choices

namespace Law

variable {stock : ServiceStore Inventory.Row} {sagas : Sagas} {owner : String → Option Owner}
  {s s' : System} {o : String} {saga : Saga} {kind : EventKind} {service : Service}
  {message : KafkaMessage} {choices : Choices}

theorem handles (h : Law stock sagas owner s) (hroomy : Roomy (itemsOf stock))
    (htold : Told service sagas o saga kind message) (hevent : IsUuid choices.eventId)
    (hrow : IsUuid choices.rowId) (hid : ∀ o kind, owner choices.rowId ≠ some (.row o kind)) :
    s.Handles service message choices := by
  have hfree := h.outbox_free hid
  cases service with
  | orders => exact h.orders.view.exists_run h.owned.distinct htold hevent hrow (hfree .orders)
  | inventory =>
      exact h.inventory.view.exists_run hroomy h.owned.distinct htold hevent hrow
        (hfree .inventory)
  | payments =>
      exact h.payments.view.exists_run h.owned.distinct htold hevent hrow (hfree .payments)

/-- No transaction that is handling a message has raised. -/
theorem not_raises (h : Law stock sagas owner s) (hroomy : Roomy (itemsOf stock)) :
    ¬ s.Raises service message := by
  have hdrawn : ∀ {service i choices}, Drawn owner service i choices →
      ∀ o kind, owner choices.rowId ≠ some (.row o kind) := by
    intro service i choices hdrawn o kind
    rw [hdrawn.ownsRow]
    simp
  cases service with
  | orders =>
      intro ⟨i, σ, choices, e, hσ, hjob, hrest⟩
      obtain ⟨hmine, o, saga, kind, htold⟩ :=
        h.orders.law.handling i σ { message := message, choices := choices } hσ (by rw [hjob]; rfl)
      obtain ⟨db', hrun⟩ := h.handles hroomy htold hmine.event hmine.row (hdrawn hmine)
      have hraised := h.orders.law.sound.run_of_throw hσ hrest
      rw [hjob] at hraised
      exact absurd (hraised.symm.trans hrun) (by simp)
  | inventory =>
      intro ⟨i, σ, e, hσ, hjob, hrest⟩
      obtain ⟨hmine, o, saga, kind, htold⟩ := h.inventory.law.handling i σ σ.job hσ rfl
      obtain ⟨db', hrun⟩ := h.handles hroomy htold hmine.event hmine.row (hdrawn hmine)
      have hraised := h.inventory.law.sound.run_of_throw hσ hrest
      exact absurd (hraised.symm.trans hrun) (by simp)
  | payments =>
      intro ⟨i, σ, e, hσ, hjob, hrest⟩
      obtain ⟨hmine, o, saga, kind, htold⟩ := h.payments.law.handling i σ σ.job hσ rfl
      obtain ⟨db', hrun⟩ := h.handles hroomy htold hmine.event hmine.row (hdrawn hmine)
      have hraised := h.payments.law.sound.run_of_throw hσ hrest
      exact absurd (hraised.symm.trans hrun) (by simp)

/-- A message goes on telling its service of the same saga. -/
theorem told_run (h : Law stock sagas owner s) (hrun : Relation.ReflTransGen System.Steps s s')
    (htold : Told service sagas o saga kind message) :
    ∃ sagas' owner' saga', Law stock sagas' owner' s' ∧
      Told service sagas' o saga' kind message := by
  obtain ⟨sagas', owner', hlaw, hnext⟩ := h.run hrun
  have hnext' := hnext o
  rw [htold.known] at hnext'
  obtain ⟨saga', hsaga', hplaced, hkind, hid⟩ := Saga.Next.event hnext' htold.emitted
  refine ⟨sagas', owner', saga', hlaw, hsaga', ?_, hkind, htold.consumer, ?_⟩
  · rw [hplaced, htold.order]
  · rw [hplaced, hid]
    exact htold.announces

end Law

/--
**No poison, and nothing misrouted.**  The message of a committed event is accepted by
one group; the handler of that group finds the event's identifier and takes the branch
for its type, with every field there that the branch reads; and it succeeds in every
state from then on, however its statements are interleaved with others.
-/
theorem no_poison (stock : ServiceStore Inventory.Row) (hstock : OnlyItems stock)
    (hroomy : Roomy (itemsOf stock)) {s : System} (hreach : System.Reach stock s)
    {source : Service} {id : String} {row : OutboxRow} (hrow : s.outbox source id = some row) :
    ∃ kind : EventKind, row.payload.get "eventType" = .ok (some (.str kind.eventType)) ∧
      (∀ service : Service, service.group.accepts row.message = true ↔ service = kind.consumer) ∧
      (∃ eventId, requireEventId row.message = .ok (.str eventId) ∧
        ∀ choices, TakesBranch kind eventId row.message choices) ∧
      (∀ name ∈ kind.reads, ∃ value, row.payload.get name = .ok (some value) ∧ value ≠ .null) ∧
      ∀ s', Relation.ReflTransGen System.Steps s s' →
        (∀ choices, System.Fresh s'.uuids [choices.eventId, choices.rowId] →
          s'.Handles kind.consumer row.message choices) ∧
        ¬ s'.Raises kind.consumer row.message := by
  obtain ⟨sagas, owner, hlaw⟩ := Law.of_reach hstock hreach
  obtain ⟨o, saga, kind, hsaga, hkind, -, -, hdescribes⟩ := hlaw.event hrow
  have hannounces := hdescribes.announces
  have huuid := saga.uuids kind hkind
  have htold : Told kind.consumer sagas o saga kind row.message :=
    ⟨hsaga, hlaw.owned.keyed o saga hsaga, hkind, rfl, hannounces⟩
  have hget : ∀ name, row.payload.get name = _ := hannounces.get
  refine ⟨kind, ?_, hannounces.accepts_iff, ⟨saga.eventId kind, hannounces.requireEventId
    huuid.nonempty, hannounces.takesBranch huuid⟩, fun name hname => ?_, fun s' hrun => ?_⟩
  · rw [hget, Placed.payload_eventType]
  · obtain ⟨value, hvalue, hnull⟩ := saga.payload_reads kind (saga.eventId kind) name hname
    exact ⟨value, by rw [hget, hvalue], hnull⟩
  · obtain ⟨sagas', owner', saga', hlaw', htold'⟩ := hlaw.told_run hrun htold
    refine ⟨fun choices hfresh => ?_, hlaw'.not_raises hroomy⟩
    obtain ⟨hevent, -⟩ := hfresh.2 choices.eventId (by simp)
    obtain ⟨hrowId, hnew⟩ := hfresh.2 choices.rowId (by simp)
    refine hlaw'.handles hroomy htold' hevent hrowId fun o kind hown => ?_
    rw [hlaw'.owned.unowned hnew] at hown
    simp at hown

end CommercePlatform

namespace CommercePlatform.Sale

open Js Txn

attribute [local instance] platform

/-- The first event of the sale. -/
theorem delivered : ∃ s row, System.run (acts.take 12) (System.start stock) = some s ∧
    s.outbox .orders (uuid 3) = some row ∧
      ∃ kind : EventKind, row.payload.get "eventType" = .ok (some (.str kind.eventType)) ∧
        (∀ service : Service, service.group.accepts row.message = true ↔ service = kind.consumer) ∧
        (∃ eventId, requireEventId row.message = .ok (.str eventId) ∧
          ∀ choices, TakesBranch kind eventId row.message choices) ∧
        (∀ name ∈ kind.reads, ∃ value, row.payload.get name = .ok (some value) ∧ value ≠ .null) ∧
        ∀ s', Relation.ReflTransGen System.Steps s s' →
          (∀ choices, System.Fresh s'.uuids [choices.eventId, choices.rowId] →
            s'.Handles kind.consumer row.message choices) ∧
          ¬ s'.Raises kind.consumer row.message := by
  have h : ((System.run (acts.take 12) (System.start stock)).any
      fun s => (s.outbox .orders (uuid 3)).isSome) = true := by decide +kernel
  obtain ⟨s, hs, hsome⟩ := (Option.any_eq_true _ _).mp h
  obtain ⟨row, hrow⟩ := Option.isSome_iff_exists.mp hsome
  have hroomy : Roomy (itemsOf stock) := by
    intro sku opening hopening
    rw [item_eq hopening]
    decide
  exact ⟨s, row, hs, hrow,
    no_poison stock onlyItems hroomy (System.steps_of_run hs) hrow⟩

end CommercePlatform.Sale
