/-
Everything can still be finished.

However the services got to where they are, with transactions open, ticks under way,
messages unsent and messages unhandled, they can go on from there until nothing is left
to publish or to handle, without an order being placed: whatever is under way is
dropped, what is not marked is published, and what is not handled is handled.  Each
message needs handling once at most, and an order has no more than five.
-/
import CommercePlatform.Saga.Delivery
import CommercePlatform.Service.Publication
import CommercePlatform.Service.Quiet

namespace CommercePlatform

open Js Txn

namespace System

variable [Platform]

/-! ### Each service for itself -/

/-- A step of a service, whichever it is. -/
def NodeSteps {β : Type} [DecidableEq β] {ρ : β → Type} {ι : Type} (prog : ι → ServiceTx ρ Unit)
    (n n' : Node ρ ι) : Prop := ∃ act, n.step prog act = some n'

/-- A step of the system is one of each service, or none. -/
structure EachSteps (s s' : System) : Prop where
  orders : Relation.ReflGen (NodeSteps Orders.Job.body) s.orders.node s'.orders.node
  inventory : Relation.ReflGen (NodeSteps (Handler.serve Inventory.handleInventoryCommand))
    s.inventory s'.inventory
  payments : Relation.ReflGen (NodeSteps (Handler.serve Payments.handlePaymentCommand))
    s.payments s'.payments

theorem eachSteps {s s' : System} {act : SystemAct} (hs : s.step act = some s') :
    EachSteps s s' := by
  cases act with
  | lookUp c call =>
      obtain ⟨horders, hinventory, hpayments, -⟩ := lookUp_cases hs
      obtain ⟨-, -, hnode, -⟩ := Orders.Desk.lookUp_cases horders
      exact ⟨hnode ▸ .refl, hinventory ▸ .refl, hpayments ▸ .refl⟩
  | insert c orderId choices =>
      obtain ⟨-, horders, hinventory, hpayments, -⟩ := insert_cases hs
      obtain ⟨call, -, hnode, -, -⟩ := Orders.Desk.insert_cases horders
      exact ⟨.single ⟨_, hnode⟩, hinventory ▸ .refl, hpayments ▸ .refl⟩
  | deliver service i source offset choices =>
      obtain ⟨message, -, s₁, -, -, hdeliver, rfl⟩ := deliver_cases hs
      cases service with
      | orders =>
          obtain ⟨orders, horders, rfl⟩ := Option.map_eq_some_iff.mp hdeliver
          exact ⟨.single ⟨_, (Orders.Desk.deliver_cases horders).1⟩, .refl, .refl⟩
      | inventory =>
          obtain ⟨inventory, hinventory, rfl⟩ := Option.map_eq_some_iff.mp hdeliver
          exact ⟨.refl, .single ⟨_, hinventory⟩, .refl⟩
      | payments =>
          obtain ⟨payments, hpayments, rfl⟩ := Option.map_eq_some_iff.mp hdeliver
          exact ⟨.refl, .refl, .single ⟨_, hpayments⟩⟩
  | work service w =>
      cases service with
      | orders =>
          obtain ⟨orders, horders, rfl⟩ := Option.map_eq_some_iff.mp hs
          exact ⟨.single ⟨_, (Orders.Desk.work_cases horders).1⟩, .refl, .refl⟩
      | inventory =>
          obtain ⟨inventory, hinventory, rfl⟩ := Option.map_eq_some_iff.mp hs
          exact ⟨.refl, .single ⟨_, hinventory⟩, .refl⟩
      | payments =>
          obtain ⟨payments, hpayments, rfl⟩ := Option.map_eq_some_iff.mp hs
          exact ⟨.refl, .refl, .single ⟨_, hpayments⟩⟩

/-- Every service is tidy. -/
structure Tidy (s : System) : Prop where
  orders : s.orders.node.Tidy
  inventory : s.inventory.Tidy
  payments : s.payments.Tidy

omit [Platform] in
theorem tidy_nodeSteps {β : Type} [DecidableEq β] {ρ : β → Type} {ι : Type}
    {prog : ι → ServiceTx ρ Unit} {n n' : Node ρ ι} (h : n.Tidy)
    (hs : Relation.ReflGen (NodeSteps prog) n n') : n'.Tidy := by
  cases hs with
  | refl => exact h
  | single hs =>
      obtain ⟨act, hs⟩ := hs
      exact h.step hs

theorem tidy_of_reach {stock : ServiceStore Inventory.Row} {s : System} (h : Reach stock s) :
    s.Tidy := by
  induction h with
  | refl => exact ⟨Node.tidy_start _, Node.tidy_start _, Node.tidy_start _⟩
  | tail _ hstep ih =>
      obtain ⟨act, hs⟩ := hstep
      have heach := eachSteps hs
      exact ⟨tidy_nodeSteps ih.orders heach.orders, tidy_nodeSteps ih.inventory heach.inventory,
        tidy_nodeSteps ih.payments heach.payments⟩

theorem committed_step {s s' : System} {act : SystemAct} (hs : s.step act = some s')
    {service : Service} {message : KafkaMessage} (h : s.Committed service message) :
    s'.Committed service message := by
  have heach := eachSteps hs
  have hkept : ∀ {β : Type} [DecidableEq β] {ρ : β → Type} {ι : Type}
      {prog : ι → ServiceTx ρ Unit} {n n' : Node ρ ι},
      Relation.ReflGen (NodeSteps prog) n n' → ∀ job ∈ n.server.history,
        job ∈ n'.server.history := by
    intro β _ ρ ι prog n n' hstep job hjob
    cases hstep with
    | refl => exact hjob
    | single hstep =>
        obtain ⟨act, hs⟩ := hstep
        exact Node.history_kept hs hjob
  cases service with
  | orders =>
      obtain ⟨choices, hjob⟩ := h
      exact ⟨choices, hkept heach.orders _ hjob⟩
  | inventory =>
      obtain ⟨choices, hjob⟩ := h
      exact ⟨choices, hkept heach.inventory _ hjob⟩
  | payments =>
      obtain ⟨choices, hjob⟩ := h
      exact ⟨choices, hkept heach.payments _ hjob⟩

theorem committed_run {s s' : System} (hrun : Relation.ReflTransGen Steps s s')
    {service : Service} {message : KafkaMessage} (h : s.Committed service message) :
    s'.Committed service message := by
  induction hrun with
  | refl => exact h
  | tail _ hstep ih =>
      obtain ⟨act, hs⟩ := hstep
      exact committed_step hs ih

end System

variable [Platform]

namespace Law

variable {stock : ServiceStore Inventory.Row} {sagas : Sagas} {owner : String → Option Owner}
  {s s' : System}

/-- An event stays, and stays what it is. -/
theorem outbox_step (h : Law stock sagas owner s) {act : SystemAct} (hs : s.step act = some s')
    {service : Service} {id : String} {row : OutboxRow} (hrow : s.outbox service id = some row) :
    ∃ row', s'.outbox service id = some row' ∧ row'.message = row.message := by
  have heach := System.eachSteps hs
  have hkept : ∀ {β : Type} [DecidableEq β] {ρ : β → Type} {ι : Type}
      {prog : ι → ServiceTx ρ Unit} {rule : ι → Rule β} {n n' : Node ρ ι}, OutboxLaw rule n →
      Relation.ReflGen (System.NodeSteps prog) n n' → outboxAt n.server.db id = some row →
        ∃ row', outboxAt n'.server.db id = some row' ∧ row'.message = row.message := by
    intro β _ ρ ι prog rule n n' hlaw hstep hrow
    cases hstep with
    | refl => exact ⟨row, hrow, rfl⟩
    | single hstep =>
        obtain ⟨act, hs⟩ := hstep
        obtain ⟨row', hrow', -, hmessage⟩ := Node.outbox_kept hlaw hs hrow
        exact ⟨row', hrow', hmessage⟩
  cases service with
  | orders => exact hkept h.orders.law.outbox heach.orders hrow
  | inventory => exact hkept h.inventory.law.outbox heach.inventory hrow
  | payments => exact hkept h.payments.law.outbox heach.payments hrow

theorem outbox_run (h : Law stock sagas owner s) (hrun : Relation.ReflTransGen System.Steps s s')
    {service : Service} {id : String} {row : OutboxRow} (hrow : s.outbox service id = some row) :
    ∃ row', s'.outbox service id = some row' ∧ row'.message = row.message := by
  induction hrun with
  | refl => exact ⟨row, hrow, rfl⟩
  | tail hrun hstep ih =>
      obtain ⟨row₁, hrow₁, hmessage₁⟩ := ih
      obtain ⟨sagas₁, owner₁, hlaw₁, -⟩ := h.run hrun
      obtain ⟨act, hs⟩ := hstep
      obtain ⟨row', hrow', hmessage⟩ := hlaw₁.outbox_step hs hrow₁
      exact ⟨row', hrow', hmessage.trans hmessage₁⟩

end Law

/-! ### Nothing under way -/

namespace System

/-- No service has anything under way. -/
structure Still (s : System) : Prop where
  orders : s.orders.node.Quiet
  inventory : s.inventory.Quiet
  payments : s.payments.Quiet

/-- Every event has been published, and marked. -/
structure Published (s : System) : Prop where
  orders : unmarked s.ordersDb = ∅
  inventory : unmarked s.inventoryDb = ∅
  payments : unmarked s.paymentsDb = ∅

/-- What the order service can do by itself, the system can do. -/
theorem works_orders {s : System} {node : Node Orders.Row Orders.Job}
    (h : Relation.ReflTransGen (Node.Works Orders.Job.body) s.orders.node node) :
    ∃ s', Relation.ReflTransGen Steps s s' ∧ s'.orders.node = node ∧ s'.inventory = s.inventory ∧
      s'.payments = s.payments ∧ s'.uuids = s.uuids := by
  induction h with
  | refl => exact ⟨s, .refl, rfl, rfl, rfl, rfl⟩
  | @tail n n' _ hworks ih =>
      obtain ⟨s₁, hrun, rfl, hinventory, hpayments, huuids⟩ := ih
      obtain ⟨w, hw⟩ := hworks
      have hstep : s₁.step (.work .orders w) = some { s₁ with
          orders := { s₁.orders with node := n', log := s₁.orders.log ++ s₁.orders.ends w } } := by
        show (s₁.orders.work w).map _ = _
        unfold Orders.Desk.work
        rw [hw]
        rfl
      exact ⟨_, hrun.tail ⟨_, hstep⟩, rfl, hinventory, hpayments, huuids⟩

theorem works_inventory {s : System} {node : Node Inventory.Row Delivery}
    (h : Relation.ReflTransGen (Node.Works (Handler.serve Inventory.handleInventoryCommand))
      s.inventory node) :
    Relation.ReflTransGen Steps s { s with inventory := node } := by
  induction h with
  | refl => exact .refl
  | tail _ hworks ih =>
      obtain ⟨w, hw⟩ := hworks
      refine ih.tail ⟨.work .inventory w, ?_⟩
      show Option.map _ (Node.step _ _ w.act) = _
      rw [hw]
      rfl

theorem works_payments {s : System} {node : Node Payments.Row Delivery}
    (h : Relation.ReflTransGen (Node.Works (Handler.serve Payments.handlePaymentCommand))
      s.payments node) :
    Relation.ReflTransGen Steps s { s with payments := node } := by
  induction h with
  | refl => exact .refl
  | tail _ hworks ih =>
      obtain ⟨w, hw⟩ := hworks
      refine ih.tail ⟨.work .payments w, ?_⟩
      show Option.map _ (Node.step _ _ w.act) = _
      rw [hw]
      rfl

/-- **Whatever is under way can be dropped.** -/
theorem exists_quiet {s : System} (h : s.Tidy) :
    ∃ s', Relation.ReflTransGen Steps s s' ∧ s'.Still ∧ s'.ordersDb = s.ordersDb ∧
      s'.uuids = s.uuids := by
  obtain ⟨orders, hworks, horders, hdb, -, -⟩ := Node.exists_quiet Orders.Job.body h.orders
  obtain ⟨s₁, hrun, rfl, hinventory, hpayments, huuids⟩ := works_orders hworks
  obtain ⟨inventory, hworks, hinventory', -⟩ :=
    Node.exists_quiet (Handler.serve Inventory.handleInventoryCommand) h.inventory
  obtain ⟨payments, hworks', hpayments', -⟩ :=
    Node.exists_quiet (Handler.serve Payments.handlePaymentCommand) h.payments
  have hrun₁ := works_inventory (s := s₁) (hinventory ▸ hworks)
  have hrun₂ := works_payments (s := { s₁ with inventory := inventory }) (hpayments ▸ hworks')
  exact ⟨_, (hrun.trans hrun₁).trans hrun₂, ⟨horders, hinventory', hpayments'⟩, hdb, huuids⟩

/-- **All that is to be published can be published.** -/
theorem exists_published {s : System} (h : s.Still) :
    ∃ s', Relation.ReflTransGen Steps s s' ∧ s'.Still ∧ s'.Published ∧
      (∀ o, ownRow s'.ordersDb (.order o) = ownRow s.ordersDb (.order o)) ∧
      s'.uuids = s.uuids := by
  obtain ⟨orders, hworks, horders, -, halike, hnone⟩ := h.orders.exists_published Orders.Job.body
  obtain ⟨s₁, hrun, rfl, hinventory, hpayments, huuids⟩ := works_orders hworks
  obtain ⟨inventory, hworks, hinventory', -, -, hnone'⟩ :=
    h.inventory.exists_published (Handler.serve Inventory.handleInventoryCommand)
  obtain ⟨payments, hworks', hpayments', -, -, hnone''⟩ :=
    h.payments.exists_published (Handler.serve Payments.handlePaymentCommand)
  have hrun₁ := works_inventory (s := s₁) (hinventory ▸ hworks)
  have hrun₂ := works_payments (s := { s₁ with inventory := inventory }) (hpayments ▸ hworks')
  exact ⟨_, (hrun.trans hrun₁).trans hrun₂, ⟨horders, hinventory', hpayments'⟩,
    ⟨hnone, hnone', hnone''⟩, fun o => halike.own (.order o), huuids⟩

end System

/-! ### One message -/

namespace Law

variable {stock : ServiceStore Inventory.Row} {sagas : Sagas} {owner : String → Option Owner}
  {s : System}

/-- What the order service commits for an event places no order. -/
theorem order_of_handleSagaEvent (h : Law stock sagas owner s) {o o' : String} {saga : Saga}
    {kind : EventKind} {message : KafkaMessage} {choices : Choices}
    (htold : Told .orders sagas o saga kind message) {db' : ServiceStore Orders.Row}
    (hrun : (Orders.handleSagaEvent message choices).run s.ordersDb = .ok ((), db')) :
    ownRow db' (.order o') = none ↔ ownRow s.ordersDb (.order o') = none := by
  rcases (h.orders.view.run_handleSagaEvent h.owned.distinct htold).mp hrun with
    ⟨-, rfl⟩ | ⟨out, p', -, hemits⟩
  · exact Iff.rfl
  · rw [hemits.own, Orders.order_insert_order, ownRow_insert_processed]
    by_cases ho : o' = o
    · subst ho
      rw [if_pos rfl, h.orderRow htold.known]
      simp
    · rw [if_neg ho]

/-- **A message can be handled by a quiet system**, with two identifiers. -/
theorem exists_handled (h : Law stock sagas owner s) (hroomy : Roomy (itemsOf stock))
    (hquiet : s.Still) {source service : Service} {message : KafkaMessage}
    (hsent : message ∈ s.sent source) (haccepts : service.group.accepts message = true)
    (choices : Choices) (hfresh : System.Fresh s.uuids [choices.eventId, choices.rowId]) :
    ∃ s', Relation.ReflTransGen System.Steps s s' ∧ s'.Still ∧ s'.Committed service message ∧
      (∀ o, ownRow s'.ordersDb (.order o) = none ↔ ownRow s.ordersDb (.order o) = none) ∧
      s'.uuids = [choices.eventId, choices.rowId] ++ s.uuids := by
  obtain ⟨offset, hoffset⟩ := List.mem_iff_getElem?.mp hsent
  obtain ⟨o, saga, kind, htold⟩ := h.told_of_sent hsent haccepts
  have hhandles : s.Handles service message choices := by
    obtain ⟨hevent, -⟩ := hfresh.2 choices.eventId (by simp)
    obtain ⟨hrow, hnew⟩ := hfresh.2 choices.rowId (by simp)
    refine h.handles hroomy htold hevent hrow fun o kind hown => ?_
    rw [h.owned.unowned hnew] at hown
    simp at hown
  have hdeliver : ∀ s₁, s.deliver service 0 { message := message, choices := choices } = some s₁ →
      s.step (.deliver service 0 source offset choices) =
        some { s₁ with uuids := [choices.eventId, choices.rowId] ++ s.uuids } := by
    intro s₁ hs₁
    simp only [System.step, hoffset]
    rw [if_pos ⟨haccepts, hfresh⟩, hs₁]
    rfl
  cases service with
  | orders =>
      obtain ⟨db', hrun⟩ := hhandles
      obtain ⟨n₁, n', hbegin, hworks, hquiet', hdb, hhistory, -⟩ := hquiet.orders.exists_done
        Orders.Job.body 0 (.saga { message := message, choices := choices }) hrun
      have hstep := hdeliver { s with orders := { s.orders with node := n₁ } } (by
        show (s.orders.deliver 0 _).map _ = _
        unfold Orders.Desk.deliver
        rw [hbegin]
        rfl)
      obtain ⟨s', hrun', rfl, hinventory, hpayments, huuids⟩ := System.works_orders (s := { s with
        orders := { s.orders with node := n₁ }
        uuids := [choices.eventId, choices.rowId] ++ s.uuids }) hworks
      refine ⟨s', hrun'.head ⟨_, hstep⟩, ⟨hquiet', hinventory ▸ hquiet.inventory,
        hpayments ▸ hquiet.payments⟩, ⟨choices, ?_⟩, fun o' => ?_, huuids⟩
      · rw [hhistory]
        exact List.mem_append_right _ (List.mem_singleton.mpr rfl)
      · rw [System.ordersDb, hdb]
        exact h.order_of_handleSagaEvent htold hrun
  | inventory =>
      obtain ⟨db', hrun⟩ := hhandles
      obtain ⟨n₁, n', hbegin, hworks, hquiet', -, hhistory, -⟩ := hquiet.inventory.exists_done
        (Handler.serve Inventory.handleInventoryCommand) 0
        { message := message, choices := choices } hrun
      have hstep := hdeliver { s with inventory := n₁ } (by
        show Option.map _ (Node.step _ _ _) = _
        rw [hbegin]
        rfl)
      refine ⟨_, (System.works_inventory (s := { s with
        inventory := n₁
        uuids := [choices.eventId, choices.rowId] ++ s.uuids }) hworks).head ⟨_, hstep⟩,
        ⟨hquiet.orders, hquiet', hquiet.payments⟩, ⟨choices, ?_⟩, fun _ => Iff.rfl, rfl⟩
      rw [hhistory]
      exact List.mem_append_right _ (List.mem_singleton.mpr rfl)
  | payments =>
      obtain ⟨db', hrun⟩ := hhandles
      obtain ⟨n₁, n', hbegin, hworks, hquiet', -, hhistory, -⟩ := hquiet.payments.exists_done
        (Handler.serve Payments.handlePaymentCommand) 0
        { message := message, choices := choices } hrun
      have hstep := hdeliver { s with payments := n₁ } (by
        show Option.map _ (Node.step _ _ _) = _
        rw [hbegin]
        rfl)
      refine ⟨_, (System.works_payments (s := { s with
        payments := n₁
        uuids := [choices.eventId, choices.rowId] ++ s.uuids }) hworks).head ⟨_, hstep⟩,
        ⟨hquiet.orders, hquiet.inventory, hquiet'⟩, ⟨choices, ?_⟩, fun _ => Iff.rfl, rfl⟩
      rw [hhistory]
      exact List.mem_append_right _ (List.mem_singleton.mpr rfl)

end Law

/-! ### What is left to handle -/

namespace System

/-- The orders there are. -/
def orderIds (s : System) : Finset String :=
  (s.ordersDb.keys.image Orders.orderOfKey).filter fun o =>
    (ownRow s.ordersDb (.order o)).isSome

omit [Platform] in
theorem mem_orderIds {s : System} {o : String} :
    o ∈ s.orderIds ↔ ownRow s.ordersDb (.order o) ≠ none := by
  unfold orderIds
  rw [Finset.mem_filter, Option.isSome_iff_ne_none]
  refine ⟨fun h => h.2, fun h => ⟨?_, h⟩⟩
  obtain ⟨row, hrow⟩ := Option.ne_none_iff_exists'.mp h
  refine Finset.mem_image.mpr ⟨.own (.order o), ?_, rfl⟩
  exact Finmap.mem_keys.mpr (Finmap.mem_iff.mpr ⟨row, hrow⟩)

omit [Platform] in
/-- Every group that lets the message through has handled it. -/
def Handled (s : System) (message : KafkaMessage) : Prop :=
  ∀ service : Service, service.group.accepts message = true → s.Committed service message

instance (s : System) (message : KafkaMessage) : Decidable (s.Handled message) :=
  inferInstanceAs (Decidable (∀ _ : Service, _ → _))

/-- The events that have been handled. -/
def handledRows (s : System) : Finset (Service × String) :=
  ((Finset.univ : Finset Service).biUnion fun service =>
    (s.outboxIds service).image fun id => (service, id)).filter fun entry =>
      (s.outbox entry.1 entry.2).any fun row => s.Handled row.message

omit [Platform] in
theorem mem_handledRows {s : System} {service : Service} {id : String} :
    (service, id) ∈ s.handledRows ↔
      ∃ row, s.outbox service id = some row ∧ s.Handled row.message := by
  unfold handledRows
  rw [Finset.mem_filter, Option.any_eq_true]
  constructor
  · intro ⟨_, row, hrow, hhandled⟩
    exact ⟨row, hrow, of_decide_eq_true hhandled⟩
  · intro ⟨row, hrow, hhandled⟩
    refine ⟨Finset.mem_biUnion.mpr ⟨service, Finset.mem_univ _, ?_⟩, row, hrow,
      decide_eq_true hhandled⟩
    exact Finset.mem_image.mpr ⟨id, mem_outboxIds hrow, rfl⟩

omit [Platform] in
theorem atRest_of_handled {s : System}
    (hpublished : ∀ service id row, s.outbox service id = some row → row.message ∈ s.sent service)
    (hhandled : ∀ source message, message ∈ s.sent source → s.Handled message) : s.AtRest :=
  ⟨hpublished, fun source message hsent service haccepts =>
    hhandled source message hsent service haccepts⟩

end System

namespace Law

variable {stock : ServiceStore Inventory.Row} {sagas : Sagas} {owner : String → Option Owner}
  {s s' : System}

/-- Once all rows are marked, all have been sent. -/
theorem sent_of_published (h : Law stock sagas owner s) (hpublished : s.Published)
    {service : Service} {id : String} {row : OutboxRow} (hrow : s.outbox service id = some row) :
    row.message ∈ s.sent service := by
  have hmarked : ∀ {β : Type} [DecidableEq β] {ρ : β → Type} {db : ServiceStore ρ},
      unmarked db = ∅ → outboxAt db id = some row → row.publishedAt.isSome := by
    intro β _ ρ db hempty hrow
    rw [Option.isSome_iff_ne_none]
    intro hnone
    have hmem := mem_unmarked.mpr ⟨row, hrow, hnone⟩
    rw [hempty] at hmem
    simp at hmem
  cases service with
  | orders => exact h.orders.law.outbox.published id row hrow (hmarked hpublished.orders hrow)
  | inventory =>
      exact h.inventory.law.outbox.published id row hrow (hmarked hpublished.inventory hrow)
  | payments =>
      exact h.payments.law.outbox.published id row hrow (hmarked hpublished.payments hrow)

/-- There are at most five events for each order. -/
theorem card_events (h : Law stock sagas owner s) (rows : Finset (Service × String))
    (hrows : ∀ entry ∈ rows, s.outbox entry.1 entry.2 ≠ none) :
    rows.card ≤ 5 * s.orderIds.card := by
  let orderOf : Service × String → String := fun entry =>
    ((s.outbox entry.1 entry.2).bind fun row => orderIdOf row.payload).getD ""
  have hknown : ∀ entry ∈ rows, ∃ row, s.outbox entry.1 entry.2 = some row ∧
      orderIdOf row.payload = some (orderOf entry) ∧ orderOf entry ∈ s.orderIds := by
    intro entry hentry
    obtain ⟨row, hrow⟩ := Option.ne_none_iff_exists'.mp (hrows entry hentry)
    obtain ⟨o, saga, kind, hsaga, -, -, -, hdescribes⟩ := h.event hrow
    have horder : orderIdOf row.payload = some saga.orderId := hdescribes.announces.orderIdOf
    have horderOf : orderOf entry = o := by
      show ((s.outbox entry.1 entry.2).bind fun row => orderIdOf row.payload).getD "" = o
      rw [hrow, Option.bind_some, horder, Option.getD_some, h.owned.keyed o saga hsaga]
    refine ⟨row, hrow, ?_, System.mem_orderIds.mpr ?_⟩
    · rw [horder, horderOf, h.owned.keyed o saga hsaga]
    · rw [horderOf, h.orderRow hsaga]
      simp
  refine Finset.card_le_mul_card_image_of_maps_to (f := orderOf)
    (fun entry hentry => (hknown entry hentry).elim fun _ hrow => hrow.2.2) 5 fun o _ => ?_
  refine h.card_rows (o := o) _ fun entry hentry => ?_
  obtain ⟨hentry, horder⟩ := Finset.mem_filter.mp hentry
  obtain ⟨row, hrow, hid, -⟩ := hknown entry hentry
  exact ⟨row, hrow, hid.trans (congrArg some horder)⟩

/-- What has been handled stays handled. -/
theorem handledRows_run (h : Law stock sagas owner s)
    (hrun : Relation.ReflTransGen System.Steps s s') : s.handledRows ⊆ s'.handledRows := by
  intro ⟨service, id⟩ hmem
  obtain ⟨row, hrow, hhandled⟩ := System.mem_handledRows.mp hmem
  obtain ⟨row', hrow', hmessage⟩ := h.outbox_run hrun hrow
  refine System.mem_handledRows.mpr ⟨row', hrow', fun service' haccepts => ?_⟩
  rw [hmessage] at haccepts ⊢
  exact System.committed_run hrun (hhandled service' haccepts)

/-- One group lets an event through, and once it has handled it, it is handled. -/
theorem handled_of_committed (h : Law stock sagas owner s) {source service : Service} {id : String}
    {row : OutboxRow} (hrow : s.outbox source id = some row)
    (haccepts : service.group.accepts row.message = true)
    (hcommitted : s'.Committed service row.message) : s'.Handled row.message := by
  intro service' haccepts'
  obtain ⟨o, saga, kind, -, -, -, -, hdescribes⟩ := h.event hrow
  have hconsumer := (hdescribes.announces.accepts_iff service).mp haccepts
  have hconsumer' := (hdescribes.announces.accepts_iff service').mp haccepts'
  rw [hconsumer', ← hconsumer]
  exact hcommitted

omit [Platform] in
theorem notMem_handledRows {source : Service} {id : String} {row : OutboxRow}
    (hrow : s.outbox source id = some row) (hnot : ¬ s.Handled row.message) :
    (source, id) ∉ s.handledRows := by
  intro hmem
  obtain ⟨row', hrow', hhandled⟩ := System.mem_handledRows.mp hmem
  obtain rfl := Option.some.inj (hrow.symm.trans hrow')
  exact hnot hhandled

/-- As long as an event is not handled, those that are handled are not all. -/
theorem card_handledRows_lt (h : Law stock sagas owner s) {source : Service} {id : String}
    {row : OutboxRow} (hrow : s.outbox source id = some row) (hnot : ¬ s.Handled row.message) :
    s.handledRows.card < 5 * s.orderIds.card := by
  rw [← Nat.succ_le_iff, Nat.succ_eq_add_one,
    ← Finset.card_insert_of_notMem (notMem_handledRows hrow hnot)]
  refine h.card_events _ fun entry hentry => ?_
  rcases Finset.mem_insert.mp hentry with rfl | hmem
  · rw [hrow]
    simp
  · obtain ⟨row', hrow', -⟩ := System.mem_handledRows.mp hmem
    rw [hrow']
    simp

/-- Once it is handled they are more. -/
theorem card_handledRows_lt_run (h : Law stock sagas owner s)
    (hrun : Relation.ReflTransGen System.Steps s s') {source : Service} {id : String}
    {row : OutboxRow} (hrow : s.outbox source id = some row) (hnot : ¬ s.Handled row.message)
    (hhandled : s'.Handled row.message) : s.handledRows.card < s'.handledRows.card := by
  rw [← Nat.succ_le_iff, Nat.succ_eq_add_one,
    ← Finset.card_insert_of_notMem (notMem_handledRows hrow hnot)]
  refine Finset.card_le_card (Finset.insert_subset ?_ (h.handledRows_run hrun))
  obtain ⟨row', hrow', hmessage⟩ := h.outbox_run hrun hrow
  refine System.mem_handledRows.mpr ⟨row', hrow', ?_⟩
  rw [hmessage]
  exact hhandled

end Law

/-! ### Everything -/

/-- How the way to rest goes: nothing under way, all published, and identifiers enough. -/
structure Finishing (stock : ServiceStore Inventory.Row) (orders : Finset String) (s : System) :
    Prop where
  reach : System.Reach stock s
  quiet : s.Still
  published : s.Published
  same : s.orderIds = orders
  ids : ∃ ids, System.Fresh s.uuids ids ∧ 2 * (5 * orders.card - s.handledRows.card) ≤ ids.length

omit [Platform] in
theorem System.orderIds_congr {s s' : System}
    (h : ∀ o, ownRow s'.ordersDb (.order o) = none ↔ ownRow s.ordersDb (.order o) = none) :
    s'.orderIds = s.orderIds := by
  ext o
  rw [mem_orderIds, mem_orderIds, ne_eq, ne_eq, h]

/-- Once the first identifiers are drawn, the others are still new. -/
theorem System.Fresh.of_append {uuids drawn rest : List String}
    (h : System.Fresh uuids (drawn ++ rest)) :
    System.Fresh uuids drawn ∧ System.Fresh (drawn ++ uuids) rest := by
  obtain ⟨hnodup, hnew⟩ := h
  obtain ⟨hdrawn, hrest, hapart⟩ := List.nodup_append.mp hnodup
  refine ⟨⟨hdrawn, fun id hid => hnew id (List.mem_append_left _ hid)⟩, hrest, fun id hid => ?_⟩
  obtain ⟨huuid, hunused⟩ := hnew id (List.mem_append_right _ hid)
  refine ⟨huuid, fun hmem => ?_⟩
  rcases List.mem_append.mp hmem with hbefore | hbefore
  · exact hapart id hbefore id hid rfl
  · exact hunused hbefore

/-- As long as something is not handled there is a way on to where less is left. -/
theorem Finishing.next {stock : ServiceStore Inventory.Row} (hstock : OnlyItems stock)
    (hroomy : Roomy (itemsOf stock)) {orders : Finset String} {s : System}
    (h : Finishing stock orders s) :
    s.AtRest ∨ ∃ s', Relation.ReflTransGen System.Steps s s' ∧ Finishing stock orders s' ∧
      5 * orders.card - s'.handledRows.card < 5 * orders.card - s.handledRows.card := by
  obtain ⟨sagas, owner, hlaw⟩ := Law.of_reach hstock h.reach
  by_cases hall : ∀ source message, message ∈ s.sent source → s.Handled message
  · exact Or.inl (System.atRest_of_handled
      (fun service id row hrow => hlaw.sent_of_published h.published hrow) hall)
  · refine Or.inr ?_
    simp only [not_forall] at hall
    obtain ⟨source, message, hsent, hnot⟩ := hall
    obtain ⟨id, row, hrow, rfl⟩ := hlaw.sent hsent
    obtain ⟨service, haccepts, -⟩ : ∃ service : Service,
        ∃ _ : service.group.accepts row.message = true, ¬ s.Committed service row.message := by
      simpa only [System.Handled, not_forall] using hnot
    have hroom := hlaw.card_handledRows_lt hrow hnot
    rw [h.same] at hroom
    obtain ⟨ids, hfresh, hlength⟩ := h.ids
    match ids, hfresh, hlength with
    | event :: rowId :: rest, hfresh, hlength =>
      obtain ⟨hdrawn, hrest⟩ :=
        (show System.Fresh s.uuids ([event, rowId] ++ rest) from hfresh).of_append
      obtain ⟨s₁, hrun₁, hquiet₁, hcommitted, horders₁, huuids₁⟩ :=
        hlaw.exists_handled hroomy h.quiet hsent haccepts
          { eventId := event, rowId := rowId, now := 0 } hdrawn
      obtain ⟨s', hrun', hquiet', hpublished', horders', huuids'⟩ := System.exists_published hquiet₁
      have hrun := hrun₁.trans hrun'
      have hsame : s'.orderIds = orders := by
        rw [← h.same]
        exact System.orderIds_congr fun o => by rw [horders', horders₁]
      have hmore := hlaw.card_handledRows_lt_run hrun hrow hnot
        (hlaw.handled_of_committed hrow haccepts (System.committed_run hrun' hcommitted))
      refine ⟨s', hrun, ⟨h.reach.trans hrun, hquiet', hpublished', hsame, rest, ?_, ?_⟩, ?_⟩
      · rw [huuids', huuids₁]
        exact hrest
      · simp only [List.length_cons] at hlength
        omega
      · omega
    | [_], _, hlength =>
      simp only [List.length_cons, List.length_nil] at hlength
      omega
    | [], _, hlength =>
      simp only [List.length_nil] at hlength
      omega

/--
**Everything can still be finished.**  From every state that the services can get into,
and with ten new identifiers for each order, they can go on until nothing is left to
publish or to handle, with no new order; and every order is then sold, out of stock or
declined.
-/
theorem can_come_to_rest (stock : ServiceStore Inventory.Row) (hstock : OnlyItems stock)
    (hroomy : Roomy (itemsOf stock)) {s : System} (hreach : System.Reach stock s)
    {ids : List String} (hfresh : System.Fresh s.uuids ids)
    (henough : 10 * s.orderIds.card ≤ ids.length) :
    ∃ s', Relation.ReflTransGen System.Steps s s' ∧ s'.AtRest ∧
      (∀ o, ownRow s'.ordersDb (.order o) = none ↔ ownRow s.ordersDb (.order o) = none) ∧
      ∀ o row, ownRow s'.ordersDb (.order o) = some row → ∃ ending, s'.Settled o row ending := by
  obtain ⟨s₁, hrun₁, hquiet₁, hdb₁, huuids₁⟩ := System.exists_quiet (System.tidy_of_reach hreach)
  obtain ⟨s₂, hrun₂, hquiet₂, hpublished₂, horders₂, huuids₂⟩ := System.exists_published hquiet₁
  have horders : s₂.orderIds = s.orderIds :=
    System.orderIds_congr fun o => by rw [horders₂, hdb₁]
  have hstart : Finishing stock s.orderIds s₂ := by
    refine ⟨(hreach.trans hrun₁).trans hrun₂, hquiet₂, hpublished₂, horders, ids, ?_, by omega⟩
    rw [huuids₂, huuids₁]
    exact hfresh
  obtain ⟨s', hrun, hfinishing, hrest⟩ :=
    Machine.exists_done _ _ _ (fun s h => Finishing.next hstock hroomy h) hstart
  refine ⟨s', (hrun₁.trans hrun₂).trans hrun, hrest, fun o => ?_, fun o row hrow => ?_⟩
  · have hmem : o ∈ s'.orderIds ↔ o ∈ s.orderIds := by rw [hfinishing.same]
    rw [System.mem_orderIds, System.mem_orderIds] at hmem
    exact not_iff_not.mp hmem
  · obtain ⟨sagas, owner, hlaw⟩ := Law.of_reach hstock hfinishing.reach
    obtain ⟨saga, hsaga, rfl⟩ := hlaw.saga_of_order hrow
    exact hlaw.settled hsaga (hlaw.pending_eq_none hrest hsaga)

end CommercePlatform

namespace CommercePlatform.Sale

open Js Txn

attribute [local instance] platform

/-- Identifiers that the sale has not used. -/
def spare : List String := (List.range 10).map fun n => uuid (n + 20)

/-- The sale was interrupted once the order was published, and can be finished. -/
theorem finished : ∃ s, System.run (acts.take 12) (System.start stock) = some s ∧
    s.orderIds.card = 1 ∧ ∃ s', Relation.ReflTransGen System.Steps s s' ∧ s'.AtRest ∧
      (∀ o, ownRow s'.ordersDb (.order o) = none ↔ ownRow s.ordersDb (.order o) = none) ∧
      ∀ o row, ownRow s'.ordersDb (.order o) = some row → ∃ ending, s'.Settled o row ending := by
  have h : ((System.run (acts.take 12) (System.start stock)).any fun s =>
      s.orderIds.card = 1 && System.Fresh s.uuids spare) = true := by decide +kernel
  obtain ⟨s, hs, hboth⟩ := (Option.any_eq_true _ _).mp h
  obtain ⟨hone, hfresh⟩ := (Bool.and_eq_true ..).mp hboth
  have hone := of_decide_eq_true hone
  have hroomy : Roomy (itemsOf stock) := by
    intro sku opening hopening
    rw [item_eq hopening]
    decide
  exact ⟨s, hs, hone, can_come_to_rest stock onlyItems hroomy (System.steps_of_run hs)
    (of_decide_eq_true hfresh) (by rw [hone]; decide)⟩

end CommercePlatform.Sale
