/-
The rows of each service as the sagas have them.

A view says what the tables of one service hold, given the sagas.  For each service
there is one lemma on its handler: exactly when the transaction of a saga event
succeeds, and what it leaves.  Read one way it keeps the view; read the other way it is
why the handler does not raise.
-/
import CommercePlatform.Saga.Handlers

namespace CommercePlatform

open Js Txn

variable [Platform]

/-! ### Emitting an event -/

/-- The event, if there is one, is inserted into the outbox as the last thing. -/
def Emits {β : Type} [DecidableEq β] {ρ : β → Type} (o : Placed) (choices : Choices)
    (out : Option EventKind) (db db' : ServiceStore ρ) : Prop :=
  match out with
  | none => db' = db
  | some kind => ∃ id row,
      outboxRow choices kind.topic (o.envelope kind choices.eventId) = .ok (id, row) ∧
        outboxAt db id = none ∧ db' = db.insert (ServiceKey.outbox id) row

section Emits

variable {β : Type} [DecidableEq β] {ρ : β → Type} {o : Placed} {choices : Choices}
  {out : Option EventKind} {db db' : ServiceStore ρ}

theorem Emits.own (h : Emits o choices out db db') (key : β) : ownRow db' key = ownRow db key := by
  cases out with
  | none => rw [show db' = db from h]
  | some kind =>
      obtain ⟨id, row, -, -, rfl⟩ := h
      exact ownRow_insert_outbox row

theorem Emits.processed (h : Emits o choices out db db') (eventId : String) :
    processedAt db' eventId = processedAt db eventId := by
  cases out with
  | none => rw [show db' = db from h]
  | some kind =>
      obtain ⟨id, row, -, -, rfl⟩ := h
      exact processedAt_insert_outbox row

/-- Any event but the first can be emitted under an identifier that is not taken. -/
theorem exists_emits (hevent : IsUuid choices.eventId) (hrow : IsUuid choices.rowId)
    (hkind : out ≠ some .reserveRequested) (hfree : outboxAt db choices.rowId = none) :
    ∃ db', Emits o choices out db db' := by
  cases out with
  | none => exact ⟨db, rfl⟩
  | some kind =>
      obtain ⟨row, hout⟩ := Placed.outboxRow_envelope (o := o) hevent hrow
        (fun heq => hkind (congrArg some heq))
      exact ⟨_, choices.rowId, row, hout, hfree, rfl⟩

end Emits

namespace Records

variable {β : Type} [DecidableEq β] {ρ : β → Type} {service : Service} {sagas : Sagas}
  {db db₁ db' : ServiceStore ρ}

/-- An event was processed exactly if its saga has consumed it. -/
theorem processed_iff (h : Records service sagas db) (hdistinct : Distinct sagas) {o : String}
    {saga : Saga} {kind : EventKind} {message : KafkaMessage}
    (htold : Told service sagas o saga kind message) :
    processedAt db (saga.eventId kind) ≠ none ↔ kind ∈ saga.phase.consumed := by
  rw [h.processed]
  constructor
  · intro ⟨o', saga', kind', hsaga', hkind', _, hid⟩
    obtain ⟨rfl, rfl⟩ := hdistinct o' saga' kind' o saga kind hsaga'
      (Phase.mem_consumed.mp hkind').1 htold.known htold.emitted hid
    rw [htold.known] at hsaga'
    exact Option.some.inj hsaga' ▸ hkind'
  · intro hconsumed
    exact ⟨o, saga, kind, htold.known, hconsumed, htold.consumer, rfl⟩

/--
An event that its saga has consumed is left alone.  Any other is pending, and then the
transaction does what its branch does.
-/
theorem run_processOnce (h : Records service sagas db) (hdistinct : Distinct sagas) {o : String}
    {saga : Saga} {kind : EventKind} {message : KafkaMessage}
    (htold : Told service sagas o saga kind message) {branch : ServiceTx ρ Unit} {Q : Prop}
    (hpending : Q → saga.phase.pending = some kind)
    (hbranch : saga.phase = Phase.awaiting kind →
      (branch.run (db.insert (ServiceKey.processed (saga.eventId kind))
        { topic := kind.topic, routingKey := kind.routingKey }) = .ok ((), db') ↔ Q)) :
    (processOnce (.str (saga.eventId kind)) message branch).run db = .ok ((), db') ↔
      (kind ∈ saga.phase.consumed ∧ db' = db) ∨ Q := by
  have hiff := h.processed_iff hdistinct htold
  rw [htold.announces.run_processOnce (saga.uuids kind htold.emitted), hiff]
  refine or_congr Iff.rfl ?_
  constructor
  · intro ⟨hnew, hrun⟩
    have hphase := Phase.pending_of_emitted htold.emitted fun hc => hiff.mpr hc hnew
    exact (hbranch hphase).mp hrun
  · intro hQ
    have hphase := Phase.pending_eq_some.mp (hpending hQ)
    have hnew : processedAt db (saga.eventId kind) = none := by
      by_contra hdone
      exact (Phase.mem_consumed.mp (hiff.mp hdone)).2 (hpending hQ)
    exact ⟨hnew, (hbranch hphase).mpr hQ⟩

/-- A service that consumes an event marks it, and emits what comes next. -/
theorem handled (h : Records service sagas db) {o : String} {saga : Saga}
    (hsaga : sagas o = some saga) {kind : EventKind} {out : Option EventKind} {p' : Phase}
    (hadv : Phase.Advance saga.phase kind out p') (hconsumer : kind.consumer = service)
    {choices : Choices} (hevent : IsUuid choices.eventId) (hrow : IsUuid choices.rowId)
    {mark : ProcessedEvent} (houtbox : ∀ id, outboxAt db₁ id = outboxAt db id)
    (hprocessed : ∀ eventId, processedAt db₁ eventId =
      processedAt (db.insert (ServiceKey.processed (saga.eventId kind)) mark) eventId)
    (hout : Emits saga.toPlaced choices out db₁ db') :
    Records service (Function.update sagas o (some (saga.advance hadv choices hevent))) db' := by
  have hgrow : Saga.Grows (sagas o) (saga.advance hadv choices hevent) (some kind) out := by
    rw [hsaga]
    exact saga.grows_advance hadv choices hevent
  refine h.grow hgrow (fun k hk hproducer => ?_) (fun hnone id => ?_) fun eventId => ?_
  · subst hk
    obtain ⟨id, row, hentry, hfree, rfl⟩ := hout
    obtain ⟨rfl, hdescribes⟩ := Placed.describes_of_outboxRow hevent hrow hentry
    have heventId : (saga.advance hadv choices hevent).eventId k = choices.eventId :=
      Function.update_self _ _ _
    have hrowId : (saga.advance hadv choices hevent).rowId k = choices.rowId :=
      Function.update_self _ _ _
    rw [houtbox] at hfree
    rw [heventId, hrowId]
    refine ⟨hfree, row, hdescribes, fun id => ?_⟩
    by_cases hid : id = choices.rowId
    · subst hid
      simp [outboxAt]
    · rw [if_neg hid, outboxAt_insert_of_ne row hid, houtbox]
  · cases out with
    | none => rw [show db' = db₁ from hout, houtbox]
    | some k => exact absurd ((hadv.emits rfl).1.trans hconsumer) (hnone k rfl)
  · have hid : (saga.advance hadv choices hevent).eventId kind = saga.eventId kind :=
      (hgrow.ids saga kind hsaga (Phase.pending_mem_emitted hadv.pending)).1
    rw [hout.processed, hprocessed]
    by_cases heq : eventId = saga.eventId kind
    · subst heq
      have hmarked : processedAt (db.insert (ServiceKey.processed (saga.eventId kind)) mark)
          (saga.eventId kind) ≠ none := by
        simp [processedAt]
      exact ⟨fun _ => Or.inr ⟨kind, rfl, hconsumer, hid⟩, fun _ => hmarked⟩
    · rw [processedAt_insert_of_ne mark heq]
      constructor
      · exact Or.inl
      · intro hcases
        rcases hcases with hold | ⟨k, hk, -, hk'⟩
        · exact hold
        · obtain rfl := Option.some.inj hk
          exact absurd (hk'.symm.trans hid) heq

end Records

/-! ### The order service -/

/-- The orders, and the index on their idempotency keys. -/
structure OrdersView (sagas : Sagas) (db : ServiceStore Orders.Row) : Prop where
  order : ∀ o, ownRow db (.order o) = (sagas o).map fun saga => saga.orderRow saga.phase
  idempotency : ∀ userId key o, ownRow db (.idempotency userId key) = some o ↔
    ∃ saga, sagas o = some saga ∧ saga.row.userId = userId ∧
      saga.row.idempotencyKey = some key
  records : Records .orders sagas db

section Orders

variable {sagas : Sagas} {db db' : ServiceStore Orders.Row} {o : String} {saga : Saga}
  {kind : EventKind} {message : KafkaMessage} {choices : Choices}

/-- A branch moves the order to the status of the next phase. -/
theorem run_ordersBranch_eq_ok (h : Told .orders sagas o saga kind message)
    (hphase : saga.phase = Phase.awaiting kind)
    (hrow : ownRow db (.order o) = some (saga.orderRow saga.phase)) :
    (Orders.branch kind message.value choices).run db = .ok ((), db') ↔
      ∃ out p', Phase.Advance saga.phase kind out p' ∧ Emits saga.toPlaced choices out
        (db.insert (ServiceKey.own (Orders.Key.order o)) (saga.orderRow p')) db' := by
  have hreply : (∃ out p', Phase.Advance saga.phase kind out p' ∧ Emits saga.toPlaced choices out
        (db.insert (ServiceKey.own (Orders.Key.order o)) (saga.orderRow p')) db') ↔
      Emits saga.toPlaced choices (Phase.reply kind).1
        (db.insert (ServiceKey.own (Orders.Key.order o)) (saga.orderRow (Phase.reply kind).2))
        db' := by
    rw [hphase]
    simp only [Phase.advance_orders_iff h.consumer]
    simp
  rw [hreply]
  rw [hphase] at hrow
  have hget := h.announces.get "orderId"
  rw [Placed.payload_orderId, h.order] at hget
  have hid : saga.idValue = some (.str o) := congrArg (fun id => some (Json.str id)) h.order
  have huuid : uuidParam (some (.str o)) = .ok (some o) := h.order ▸ saga.uuid.uuidParam
  have hreason := h.announces.get "reason"
  cases kind with
  | reserved =>
      have hamount := h.announces.get "totalAmount"
      have hcurrency := h.announces.get "currency"
      rw [Placed.payload_totalAmount _ _ _ (by simp)] at hamount
      rw [Placed.payload_currency _ _ _ (by simp)] at hcurrency
      unfold Orders.branch
      rw [Orders.run_inventoryReserved_eq_ok hget hamount hcurrency huuid hrow, ← hid]
      unfold Emits
      simp only [Phase.reply, outboxAt_insert_own]
      rfl
  | rejected =>
      rw [Placed.payload_reason_rejected] at hreason
      have htext : textParam (some (.str "Insufficient inventory")) =
          .ok (some "Insufficient inventory") := textParam_str (by decide)
      unfold Orders.branch
      rw [Orders.run_failOrder_eq_ok hget hreason huuid htext hrow]
      rfl
  | succeeded =>
      unfold Orders.branch
      rw [Orders.run_paymentSucceeded_eq_ok hget huuid hrow]
      rfl
  | failed =>
      rw [Placed.payload_reason_failed] at hreason
      have htext : textParam (some (.str "Payment authorization failed")) =
          .ok (some "Payment authorization failed") := textParam_str (by decide)
      unfold Orders.branch
      rw [Orders.run_paymentFailed_eq_ok hget hreason huuid htext hrow, ← hid]
      unfold Emits
      simp only [Phase.reply, outboxAt_insert_own]
      rfl
  | reserveRequested => exact absurd h.consumer (by decide)
  | paymentRequested => exact absurd h.consumer (by decide)
  | releaseRequested => exact absurd h.consumer (by decide)

/-- Exactly when the transaction of a saga event commits, and what it leaves. -/
theorem OrdersView.run_handleSagaEvent (hview : OrdersView sagas db) (hdistinct : Distinct sagas)
    (htold : Told .orders sagas o saga kind message) :
    (Orders.handleSagaEvent message choices).run db = .ok ((), db') ↔
      (kind ∈ saga.phase.consumed ∧ db' = db) ∨
        ∃ out p', Phase.Advance saga.phase kind out p' ∧ Emits saga.toPlaced choices out
          ((db.insert (ServiceKey.processed (saga.eventId kind))
            { topic := kind.topic, routingKey := kind.routingKey }).insert
              (ServiceKey.own (Orders.Key.order o)) (saga.orderRow p')) db' := by
  rw [htold.announces.handleSagaEvent (saga.uuids kind htold.emitted) htold.consumer]
  refine hview.records.run_processOnce hdistinct htold ?_ fun hphase => ?_
  · intro ⟨_, _, hadv, _⟩
    exact hadv.pending
  · refine run_ordersBranch_eq_ok htold hphase ?_
    rw [ownRow_insert_processed, hview.order, htold.known]
    rfl

/-- What it leaves are the rows of the next phase. -/
theorem OrdersView.advance (hview : OrdersView sagas db)
    (htold : Told .orders sagas o saga kind message) {out : Option EventKind} {p' : Phase}
    (hadv : Phase.Advance saga.phase kind out p') (hevent : IsUuid choices.eventId)
    (hrowId : IsUuid choices.rowId) {mark : ProcessedEvent}
    (hemits : Emits saga.toPlaced choices out
      ((db.insert (ServiceKey.processed (saga.eventId kind)) mark).insert
        (ServiceKey.own (Orders.Key.order o)) (saga.orderRow p')) db') :
    OrdersView (Function.update sagas o (some (saga.advance hadv choices hevent))) db' := by
  refine ⟨fun o' => ?_, fun userId key o' => ?_, ?_⟩
  · rw [hemits.own, Orders.order_insert_order, ownRow_insert_processed, hview.order]
    by_cases ho : o' = o
    · subst ho
      rw [if_pos rfl, Function.update_self]
      rfl
    · rw [if_neg ho, Function.update_of_ne ho]
  · rw [hemits.own, Orders.idempotency_insert_order, ownRow_insert_processed, hview.idempotency]
    by_cases ho : o' = o
    · subst ho
      rw [Function.update_self, htold.known]
      simp only [Option.some.injEq, exists_eq_left']
      rfl
    · rw [Function.update_of_ne ho]
  · exact hview.records.handled htold.known hadv htold.consumer hevent hrowId (fun id => by simp)
      (fun eventId => processedAt_insert_own _) hemits

theorem OrdersView.alike (hview : OrdersView sagas db) (hsame : Alike db db') :
    OrdersView sagas db' where
  order o := by rw [hsame.own, hview.order]
  idempotency userId key o := by rw [hsame.own, hview.idempotency]
  records := hview.records.alike hsame

/-- What the other services do to a saga leaves the orders alone. -/
theorem OrdersView.elsewhere (hview : OrdersView sagas db) (hsaga : sagas o = some saga)
    {out : Option EventKind} {p' : Phase} (hadv : Phase.Advance saga.phase kind out p')
    (hevent : IsUuid choices.eventId) (hkind : kind.consumer ≠ .orders) :
    OrdersView (Function.update sagas o (some (saga.advance hadv choices hevent))) db := by
  refine ⟨fun o' => ?_, fun userId key o' => ?_, ?_⟩
  · rw [hview.order]
    by_cases ho : o' = o
    · subst ho
      have hrow : saga.orderRow p' = saga.orderRow saga.phase := by
        unfold Placed.orderRow
        rw [(hadv.status hkind).1, (hadv.status hkind).2]
      rw [Function.update_self, hsaga]
      exact congrArg some hrow.symm
    · rw [Function.update_of_ne ho]
  · rw [hview.idempotency]
    by_cases ho : o' = o
    · subst ho
      rw [Function.update_self, hsaga]
      simp only [Option.some.injEq, exists_eq_left']
      rfl
    · rw [Function.update_of_ne ho]
  · exact hview.records.advance_elsewhere hsaga hadv hevent hkind

/-- A new order is the start of a saga. -/
theorem OrdersView.create (hview : OrdersView sagas db) {call : Orders.CreateOrderCall}
    (horder : IsUuid o) (hevent : IsUuid choices.eventId) (hrowId : IsUuid choices.rowId)
    (hrun : (Orders.createOrderWithOutbox call o choices).run db = .ok ((), db')) :
    sagas o = none ∧ ∃ placed : Placed, placed.call = call ∧ placed.orderId = o ∧
      OrdersView (Function.update sagas o (some (.opened placed choices hevent))) db' := by
  obtain ⟨id, row, outboxId, out, hentry, hnew, hunique, hout, hfree, rfl⟩ :=
    Orders.run_createOrderWithOutbox_eq_ok.mp hrun
  obtain ⟨hid, hstores⟩ := Orders.newOrderRow_eq_ok hentry
  rw [horder.uuidParam] at hid
  obtain rfl : o = id := Option.some.inj (Except.ok.inj hid)
  have hnone : sagas o = none := by
    rw [hview.order, Option.map_eq_none_iff] at hnew
    exact hnew
  let placed : Placed := ⟨call, o, row, horder, hstores⟩
  have hentry' : outboxRow choices (EventKind.topic .reserveRequested)
      (placed.envelope .reserveRequested choices.eventId) = .ok (outboxId, out) := hout
  obtain ⟨rfl, hdescribes⟩ := Placed.describes_of_outboxRow hevent hrowId hentry'
  obtain ⟨key, -, hkey⟩ := hstores.idempotencyKey
  refine ⟨hnone, placed, rfl, rfl, fun o' => ?_, fun userId key' o' => ?_, ?_⟩
  · rw [ownRow_insert_outbox, Orders.order_insert_idempotency, Orders.order_insert_order,
      hview.order]
    by_cases ho : o' = o
    · subst ho
      have hrow : placed.orderRow .requested = row := by
        show { row with status := _, failureReason := _ } = row
        rw [show Phase.status .requested = row.status from hstores.status.symm,
          show Phase.failureReason .requested = row.failureReason from hstores.failureReason.symm]
      rw [if_pos rfl, Function.update_self]
      exact congrArg some hrow.symm
    · rw [if_neg ho, Function.update_of_ne ho]
  · rw [hkey] at hunique ⊢
    rw [ownRow_insert_outbox, Orders.idempotency_insert_idempotency, Orders.idempotency_insert_order,
      Option.getD_some]
    rw [Option.getD_some] at hunique
    by_cases hpair : userId = row.userId ∧ key' = key
    · obtain ⟨rfl, rfl⟩ := hpair
      rw [if_pos ⟨rfl, rfl⟩]
      by_cases ho : o' = o
      · subst ho
        rw [Function.update_self]
        simp only [Option.some.injEq, exists_eq_left', true_iff]
        exact ⟨rfl, hkey⟩
      · rw [Function.update_of_ne ho, ← hview.idempotency, hunique]
        simp [Ne.symm ho]
    · rw [if_neg hpair, hview.idempotency]
      by_cases ho : o' = o
      · subst ho
        rw [Function.update_self, hnone]
        simp only [reduceCtorEq, false_and, exists_false, Option.some.injEq, exists_eq_left',
          false_iff, not_and]
        intro huser hkey'
        exact hpair ⟨huser.symm, Option.some.inj (hkey'.symm.trans hkey)⟩
      · rw [Function.update_of_ne ho]
  · refine hview.records.grow (hnone ▸ Saga.grows_opened placed choices hevent) (fun k hk _ => ?_)
      (fun hother => absurd rfl (hother .reserveRequested rfl)) fun eventId => ?_
    · obtain rfl := Option.some.inj hk
      refine ⟨hfree, out, hdescribes, fun id => ?_⟩
      by_cases heq : id = choices.rowId
      · subst heq
        simp [outboxAt, Saga.opened]
      · rw [outboxAt_insert_of_ne out heq]
        simp [Saga.opened, heq]
    · simp

end Orders

/-! ### The payment service -/

/-- The amount is low enough. -/
def Placed.approved (o : Placed) : Bool := o.call.body.totalAmount.le (.finite 10000)

/-- The payment attempts. -/
structure PaymentsView (sagas : Sagas) (db : ServiceStore Payments.Row) : Prop where
  attempt : ∀ o, ownRow db (.attempt o) =
    (sagas o).bind fun saga => saga.phase.attempt.map saga.attemptRow
  decided : ∀ o saga status, sagas o = some saga → saga.phase.attempt = some status →
    status = if saga.approved then .succeeded else .failed
  records : Records .payments sagas db

section Payments

variable {sagas : Sagas} {db db' : ServiceStore Payments.Row} {o : String} {saga : Saga}
  {kind : EventKind} {message : KafkaMessage} {choices : Choices}

theorem Told.payCommand (h : Told .payments sagas o saga .paymentRequested message) :
    Payments.PayCommand message.value o saga.row.currency saga.call.body.totalAmount
      saga.row.totalAmount := by
  have hcurrency := textIn_eq_ok saga.stored.currency
  refine ⟨h.order ▸ saga.uuid.uuidParam, ?_, saga.stored.totalAmount, ?_, ?_, ?_⟩
  · rw [hcurrency]
    exact textParam_str saga.currency_text
  · rw [h.announces.get, Placed.payload_orderId, h.order]
  · rw [h.announces.get, Placed.payload_amount]
  · rw [h.announces.get, Placed.payload_currency _ _ _ (by simp), hcurrency]

/-- The branch decides the payment. -/
theorem run_paymentsBranch_eq_ok (h : Told .payments sagas o saga kind message)
    (hphase : saga.phase = Phase.awaiting kind) (hnone : ownRow db (.attempt o) = none) :
    (Payments.branch kind message.value choices).run db = .ok ((), db') ↔
      ∃ out p' status, Phase.Advance saga.phase kind out p' ∧ p'.attempt = some status ∧
        status = (if saga.approved then .succeeded else .failed) ∧
        Emits saga.toPlaced choices out
          (db.insert (ServiceKey.own (Payments.Key.attempt o)) (saga.attemptRow status)) db' := by
  obtain rfl : kind = .paymentRequested := by
    have hconsumer := h.consumer
    cases kind <;> first | rfl | exact absurd hconsumer (by decide)
  have hid : saga.idValue = some (.str o) := congrArg (fun id => some (Json.str id)) h.order
  unfold Payments.branch
  rw [Payments.run_decidePayment_eq_ok h.payCommand hnone, ← hid, hphase]
  cases happroved : saga.approved with
  | true =>
      have hle : saga.call.body.totalAmount.le (.finite 10000) = true := happroved
      simp only [hle, if_true]
      constructor
      · rintro ⟨id, out, hout, hfree, hdb⟩
        exact ⟨_, _, _, .pay, rfl, rfl, id, out, hout, by simpa using hfree, hdb⟩
      · rintro ⟨_, _, _, hadv, hattempt, hstatus, hemits⟩
        subst hstatus
        cases hadv with
        | pay =>
            obtain ⟨id, out, hout, hfree, hdb⟩ := hemits
            exact ⟨id, out, hout, by simpa using hfree, hdb⟩
        | decline => simp [Phase.attempt] at hattempt
  | false =>
      have hle : saga.call.body.totalAmount.le (.finite 10000) = false := happroved
      simp only [hle, Bool.false_eq_true, if_false]
      constructor
      · rintro ⟨id, out, hout, hfree, hdb⟩
        exact ⟨_, _, _, .decline, rfl, rfl, id, out, hout, by simpa using hfree, hdb⟩
      · rintro ⟨_, _, _, hadv, hattempt, hstatus, hemits⟩
        subst hstatus
        cases hadv with
        | pay => simp [Phase.attempt] at hattempt
        | decline =>
            obtain ⟨id, out, hout, hfree, hdb⟩ := hemits
            exact ⟨id, out, hout, by simpa using hfree, hdb⟩

theorem PaymentsView.run_handlePaymentCommand (hview : PaymentsView sagas db)
    (hdistinct : Distinct sagas) (htold : Told .payments sagas o saga kind message) :
    (Payments.handlePaymentCommand message choices).run db = .ok ((), db') ↔
      (kind ∈ saga.phase.consumed ∧ db' = db) ∨
        ∃ out p' status, Phase.Advance saga.phase kind out p' ∧ p'.attempt = some status ∧
          status = (if saga.approved then .succeeded else .failed) ∧
          Emits saga.toPlaced choices out
            ((db.insert (ServiceKey.processed (saga.eventId kind))
              { topic := kind.topic, routingKey := kind.routingKey }).insert
                (ServiceKey.own (Payments.Key.attempt o)) (saga.attemptRow status)) db' := by
  rw [htold.announces.handlePaymentCommand (saga.uuids kind htold.emitted) htold.consumer]
  refine hview.records.run_processOnce hdistinct htold ?_ fun hphase => ?_
  · intro ⟨_, _, _, hadv, _⟩
    exact hadv.pending
  · refine run_paymentsBranch_eq_ok htold hphase ?_
    obtain rfl : kind = .paymentRequested := by
      have hconsumer := htold.consumer
      cases kind <;> first | rfl | exact absurd hconsumer (by decide)
    rw [ownRow_insert_processed, hview.attempt, htold.known]
    simp [hphase, Phase.awaiting, Phase.attempt]

theorem PaymentsView.advance (hview : PaymentsView sagas db)
    (htold : Told .payments sagas o saga kind message) {out : Option EventKind} {p' : Phase}
    {status : Payments.AttemptStatus} (hadv : Phase.Advance saga.phase kind out p')
    (hstatus : p'.attempt = some status)
    (hdecided : status = if saga.approved then .succeeded else .failed)
    (hevent : IsUuid choices.eventId) (hrowId : IsUuid choices.rowId) {mark : ProcessedEvent}
    (hemits : Emits saga.toPlaced choices out
      ((db.insert (ServiceKey.processed (saga.eventId kind)) mark).insert
        (ServiceKey.own (Payments.Key.attempt o)) (saga.attemptRow status)) db') :
    PaymentsView (Function.update sagas o (some (saga.advance hadv choices hevent))) db' := by
  refine ⟨fun o' => ?_, fun o' saga' status' hsaga' hstatus' => ?_, ?_⟩
  · rw [hemits.own, Payments.attempt_insert_attempt, ownRow_insert_processed, hview.attempt]
    by_cases ho : o' = o
    · subst ho
      rw [if_pos rfl, Function.update_self]
      show some (saga.attemptRow status) = p'.attempt.map saga.attemptRow
      rw [hstatus]
      rfl
    · rw [if_neg ho, Function.update_of_ne ho]
  · by_cases ho : o' = o
    · subst ho
      rw [Function.update_self] at hsaga'
      obtain rfl := Option.some.inj hsaga'
      obtain rfl := Option.some.inj (hstatus.symm.trans hstatus')
      exact hdecided
    · rw [Function.update_of_ne ho] at hsaga'
      exact hview.decided o' saga' status' hsaga' hstatus'
  · exact hview.records.handled htold.known hadv htold.consumer hevent hrowId (fun id => by simp)
      (fun eventId => processedAt_insert_own _) hemits

theorem PaymentsView.elsewhere (hview : PaymentsView sagas db) (hsaga : sagas o = some saga)
    {out : Option EventKind} {p' : Phase} (hadv : Phase.Advance saga.phase kind out p')
    (hevent : IsUuid choices.eventId) (hkind : kind.consumer ≠ .payments) :
    PaymentsView (Function.update sagas o (some (saga.advance hadv choices hevent))) db := by
  refine ⟨fun o' => ?_, fun o' saga' status' hsaga' hstatus' => ?_, ?_⟩
  · rw [hview.attempt]
    by_cases ho : o' = o
    · subst ho
      rw [Function.update_self, hsaga]
      show _ = p'.attempt.map saga.attemptRow
      rw [hadv.attempt hkind]
      rfl
    · rw [Function.update_of_ne ho]
  · by_cases ho : o' = o
    · subst ho
      rw [Function.update_self] at hsaga'
      obtain rfl := Option.some.inj hsaga'
      have hold : saga.phase.attempt = some status' := (hadv.attempt hkind).symm.trans hstatus'
      exact hview.decided o' saga status' hsaga hold
    · rw [Function.update_of_ne ho] at hsaga'
      exact hview.decided o' saga' status' hsaga' hstatus'
  · exact hview.records.advance_elsewhere hsaga hadv hevent hkind

theorem PaymentsView.alike (hview : PaymentsView sagas db) (hsame : Alike db db') :
    PaymentsView sagas db' where
  attempt o := by rw [hsame.own, hview.attempt]
  decided := hview.decided
  records := hview.records.alike hsame

/-- A new order has no attempt. -/
theorem PaymentsView.opened (hview : PaymentsView sagas db) (hnone : sagas o = none)
    (placed : Placed) (hevent : IsUuid choices.eventId) :
    PaymentsView (Function.update sagas o (some (.opened placed choices hevent))) db := by
  refine ⟨fun o' => ?_, fun o' saga' status' hsaga' hstatus' => ?_, ?_⟩
  · rw [hview.attempt]
    by_cases ho : o' = o
    · subst ho
      rw [Function.update_self, hnone]
      rfl
    · rw [Function.update_of_ne ho]
  · by_cases ho : o' = o
    · subst ho
      rw [Function.update_self] at hsaga'
      obtain rfl := Option.some.inj hsaga'
      exact absurd hstatus' (by simp [Saga.opened, Phase.attempt])
    · rw [Function.update_of_ne ho] at hsaga'
      exact hview.decided o' saga' status' hsaga' hstatus'
  · refine hview.records.grow_elsewhere (hnone ▸ Saga.grows_opened placed choices hevent) ?_ (by simp)
    intro k hk
    obtain rfl := Option.some.inj hk
    decide

end Payments

end CommercePlatform
