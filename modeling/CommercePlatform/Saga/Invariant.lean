/-
The law of the system.

In every reachable state there are sagas that account for every row of the three
services and for every message that was ever stored in a topic.  They are not part of
the system: each step says which sagas there are after it, given those before, and
then every order has at most made one move of its saga.
-/
import CommercePlatform.Saga.Calls

namespace CommercePlatform

open Js Txn

variable [Platform]

/-- The items of a stock. -/
abbrev itemsOf (stock : ServiceStore Inventory.Row) : String → Option Inventory.Item :=
  fun sku => ownRow stock (.item sku)

/-- The sagas account for all there is. -/
structure Law (stock : ServiceStore Inventory.Row) (sagas : Sagas)
    (owner : String → Option Owner) (s : System) : Prop where
  owned : Owned sagas owner s.uuids
  orders : OrdersLaw sagas owner s.orders.node
  inventory : InventoryLaw (itemsOf stock) sagas owner s.inventory
  payments : PaymentsLaw sagas owner s.payments
  desk : DeskLaw sagas s.orders

/-- There is nothing but items in the store. -/
def OnlyItems (stock : ServiceStore Inventory.Row) : Prop := ∀ k ∈ stock, Inventory.IsItem k

namespace Law

variable {stock : ServiceStore Inventory.Row} {sagas : Sagas} {owner : String → Option Owner}
  {s s' : System}

/-! ### The start -/

theorem start_orders :
    OrdersLaw (fun _ => none) owner (Orders.Desk.start ∅).node where
  view := ⟨fun _ => rfl, fun userId key o => by simp [Orders.Desk.start, Node.start, Server.start,
    ownRow], .start (fun _ => rfl) fun _ => rfl⟩
  law := .start fun _ => rfl
  creating i σ call o choices hσ := by simp [Orders.Desk.start, Node.start, Server.start] at hσ
  misses i σ hσ := by simp [Orders.Desk.start, Node.start, Server.start] at hσ

theorem start_inventory (h : OnlyItems stock) :
    InventoryLaw (itemsOf stock) (fun _ => none) owner (Node.start stock) := by
  have hnone : ∀ k, ¬ Inventory.IsItem k → stock.lookup k = none := by
    intro k hk
    exact Finmap.lookup_eq_none.mpr fun hmem => hk (h k hmem)
  have hreservation : ∀ orderId, ownRow stock (.reservation orderId) = none := by
    intro orderId
    exact hnone _ (by simp [Inventory.IsItem])
  have hempty : ∀ id, outboxAt stock id = none := fun id => hnone _ (by simp [Inventory.IsItem])
  have hnew : ∀ eventId, processedAt stock eventId = none :=
    fun eventId => hnone _ (by simp [Inventory.IsItem])
  exact ⟨⟨hreservation, Inventory.Fed.accounts_start hreservation, .start hempty hnew⟩,
    .start hempty, Server.missesAbsent_start stock⟩

theorem start_payments : PaymentsLaw (fun _ => none) owner (Node.start ∅) where
  view := ⟨fun _ => rfl, by simp, .start (fun _ => rfl) fun _ => rfl⟩
  law := .start fun _ => rfl

theorem start (h : OnlyItems stock) :
    Law stock (fun _ => none) (fun _ => none) (System.start stock) where
  owned := ⟨by simp, by simp, by simp, by simp, by simp⟩
  orders := start_orders
  inventory := start_inventory h
  payments := start_payments
  desk := .start ∅

/-! ### What is in the outboxes and in the topics -/

/-- A row of an outbox is an event of a saga. -/
theorem event (h : Law stock sagas owner s) {service : Service} {id : String} {row : OutboxRow}
    (hrow : s.outbox service id = some row) :
    ∃ o saga kind, sagas o = some saga ∧ kind ∈ saga.phase.emitted ∧ kind.producer = service ∧
      saga.rowId kind = id ∧ saga.Describes kind (saga.eventId kind) row := by
  cases service with
  | orders => exact h.orders.view.records.event hrow
  | inventory => exact h.inventory.view.records.event hrow
  | payments => exact h.payments.view.records.event hrow

/-- An event of a saga has its row. -/
theorem row (h : Law stock sagas owner s) {o : String} {saga : Saga} {kind : EventKind}
    (hsaga : sagas o = some saga) (hkind : kind ∈ saga.phase.emitted) :
    ∃ row, s.outbox kind.producer (saga.rowId kind) = some row ∧
      saga.Describes kind (saga.eventId kind) row := by
  cases hproducer : kind.producer with
  | orders => exact h.orders.view.records.complete o saga kind hsaga hkind hproducer
  | inventory => exact h.inventory.view.records.complete o saga kind hsaga hkind hproducer
  | payments => exact h.payments.view.records.complete o saga kind hsaga hkind hproducer

/-- Under an identifier that is no row's there is no row. -/
theorem outbox_free (h : Law stock sagas owner s) {id : String}
    (hid : ∀ o kind, owner id ≠ some (.row o kind)) (service : Service) :
    s.outbox service id = none := by
  cases hrow : s.outbox service id with
  | none => rfl
  | some row =>
      obtain ⟨o, saga, kind, hsaga, hkind, -, heq, -⟩ := h.event hrow
      exact absurd (heq ▸ h.owned.rows o saga kind hsaga hkind) (hid o kind)

/-- Whatever a service has sent has its row. -/
theorem sent (h : Law stock sagas owner s) {source : Service} {message : KafkaMessage}
    (hsent : message ∈ s.sent source) :
    ∃ id row, s.outbox source id = some row ∧ row.message = message := by
  cases source with
  | orders => exact h.orders.law.outbox.sent message hsent
  | inventory => exact h.inventory.law.outbox.sent message hsent
  | payments => exact h.payments.law.outbox.sent message hsent

/-- A message that a group accepts tells its service of a saga. -/
theorem told_of_sent (h : Law stock sagas owner s) {source service : Service}
    {message : KafkaMessage} (hsent : message ∈ s.sent source)
    (haccepts : service.group.accepts message = true) :
    ∃ o saga kind, Told service sagas o saga kind message := by
  obtain ⟨id, row, hrow, rfl⟩ := h.sent hsent
  obtain ⟨o, saga, kind, hsaga, hkind, -, -, hdescribes⟩ := h.event hrow
  have hannounces := hdescribes.announces
  exact ⟨o, saga, kind, hsaga, h.owned.keyed o saga hsaga, hkind,
    ((hannounces.accepts_iff service).mp haccepts).symm, hannounces⟩

/-! ### Every step -/

theorem lookUp (h : Law stock sagas owner s) {c : ℕ} {call : Orders.CreateOrderCall}
    (hs : s.step (.lookUp c call) = some s') : Law stock sagas owner s' := by
  obtain ⟨horders, hinventory, hpayments, huuids⟩ := System.lookUp_cases hs
  obtain ⟨-, -, hnode, -⟩ := Orders.Desk.lookUp_cases horders
  exact ⟨huuids ▸ h.owned, hnode ▸ h.orders, hinventory ▸ h.inventory, hpayments ▸ h.payments,
    h.desk.step h.orders.view hs (.refl sagas) .stay⟩

/-- A new order draws the identifiers of its row, of its event and of the event's row. -/
theorem insert (h : Law stock sagas owner s) {c : ℕ} {orderId : String} {choices : Choices}
    (hs : s.step (.insert c orderId choices) = some s') :
    ∃ owner', Law stock sagas owner' s' := by
  obtain ⟨hfresh, horders, hinventory, hpayments, huuids⟩ := System.insert_cases hs
  obtain ⟨call, -, hnode, -, -⟩ := Orders.Desk.insert_cases horders
  obtain ⟨howned, hkeep⟩ := h.owned.claim .orders c hfresh
  obtain ⟨hnodup, hids⟩ := hfresh
  simp only [List.nodup_cons, List.mem_cons, List.not_mem_nil, or_false, not_or] at hnodup
  refine ⟨_, huuids ▸ howned, (h.orders.mono_owner hkeep).begin hnode ?_ ?_,
    hinventory ▸ h.inventory.mono_owner hkeep, hpayments ▸ h.payments.mono_owner hkeep,
    h.desk.step h.orders.view hs (.refl sagas) .stay⟩
  · intro call' o choices' hjob
    obtain ⟨-, rfl, rfl⟩ := Orders.Job.create.inj hjob
    refine ⟨⟨(hids _ (by simp)).1, (hids _ (by simp)).1, ?_, ?_, hnodup.2.1⟩,
      (hids _ (by simp)).1, ?_, hnodup.1.1, hnodup.1.2⟩
    · exact Owned.claim_of_mem (by simp)
    · exact Owned.claim_of_mem (by simp)
    · exact Owned.claim_of_mem (by simp)
  · intro d hd
    simp [Orders.Job.delivery] at hd

theorem deliver (h : Law stock sagas owner s) {service source : Service} {i offset : ℕ}
    {choices : Choices} (hs : s.step (.deliver service i source offset choices) = some s') :
    ∃ owner', Law stock sagas owner' s' := by
  obtain ⟨message, hmessage, s₁, haccepts, hfresh, hdeliver, rfl⟩ := System.deliver_cases hs
  have htold := h.told_of_sent hmessage haccepts
  have hdesk : DeskLaw sagas _ := h.desk.step h.orders.view hs (.refl sagas) .stay
  obtain ⟨howned, hkeep⟩ := h.owned.claim service i hfresh
  obtain ⟨hnodup, hids⟩ := hfresh
  have hdrawn : Drawn (claim owner service i [choices.eventId, choices.rowId]) service i
      choices :=
    ⟨(hids _ (by simp)).1, (hids _ (by simp)).1, Owned.claim_of_mem (by simp),
      Owned.claim_of_mem (by simp), by simpa using hnodup⟩
  refine ⟨claim owner service i [choices.eventId, choices.rowId], ?_⟩
  cases service with
  | orders =>
      obtain ⟨orders, horders, rfl⟩ := Option.map_eq_some_iff.mp hdeliver
      obtain ⟨hnode, -, -⟩ := Orders.Desk.deliver_cases horders
      refine ⟨howned, (h.orders.mono_owner hkeep).begin hnode (fun _ _ _ hjob => ?_) ?_,
        h.inventory.mono_owner hkeep, h.payments.mono_owner hkeep, hdesk⟩
      · simp at hjob
      · intro d hd
        obtain rfl := Option.some.inj hd
        exact ⟨hdrawn, htold⟩
  | inventory =>
      obtain ⟨inventory, hinventory, rfl⟩ := Option.map_eq_some_iff.mp hdeliver
      exact ⟨howned, h.orders.mono_owner hkeep,
        (h.inventory.mono_owner hkeep).begin hinventory ⟨hdrawn, htold⟩,
        h.payments.mono_owner hkeep, hdesk⟩
  | payments =>
      obtain ⟨payments, hpayments, rfl⟩ := Option.map_eq_some_iff.mp hdeliver
      exact ⟨howned, h.orders.mono_owner hkeep, h.inventory.mono_owner hkeep,
        (h.payments.mono_owner hkeep).begin hpayments ⟨hdrawn, htold⟩, hdesk⟩

/-- Only a service at work takes sagas on. -/
theorem work (h : Law stock sagas owner s) {service : Service} {w : Work}
    (hs : s.step (.work service w) = some s') :
    ∃ sagas' owner', Law stock sagas' owner' s' ∧ ∀ o, Saga.Next (sagas o) (sagas' o) := by
  cases service with
  | orders =>
      obtain ⟨orders, horders, rfl⟩ := Option.map_eq_some_iff.mp hs
      obtain ⟨hnode, -, -⟩ := Orders.Desk.work_cases horders
      obtain ⟨i, sagas', owner', hmoves, hlaw, hopens⟩ := h.orders.work h.owned hnode
      exact ⟨sagas', owner', ⟨hmoves.owned h.owned, hlaw, h.inventory.elsewhere hmoves (by decide),
        h.payments.elsewhere hmoves (by decide),
        h.desk.step h.orders.view hs hmoves.extends_sagas hopens⟩, hmoves.next⟩
  | inventory =>
      obtain ⟨inventory, hinventory, rfl⟩ := Option.map_eq_some_iff.mp hs
      obtain ⟨i, sagas', owner', hmoves, hlaw⟩ := h.inventory.work h.owned hinventory
      exact ⟨sagas', owner', ⟨hmoves.owned h.owned, h.orders.elsewhere hmoves (by decide), hlaw,
        h.payments.elsewhere hmoves (by decide),
        h.desk.step h.orders.view hs hmoves.extends_sagas (hmoves.opens (by decide))⟩, hmoves.next⟩
  | payments =>
      obtain ⟨payments, hpayments, rfl⟩ := Option.map_eq_some_iff.mp hs
      obtain ⟨i, sagas', owner', hmoves, hlaw⟩ := h.payments.work h.owned hpayments
      exact ⟨sagas', owner', ⟨hmoves.owned h.owned, h.orders.elsewhere hmoves (by decide),
        h.inventory.elsewhere hmoves (by decide), hlaw,
        h.desk.step h.orders.view hs hmoves.extends_sagas (hmoves.opens (by decide))⟩, hmoves.next⟩

/-- **Every step keeps the law, and every order makes at most one move of its saga.** -/
theorem step (h : Law stock sagas owner s) {act : SystemAct} (hs : s.step act = some s') :
    ∃ sagas' owner', Law stock sagas' owner' s' ∧ ∀ o, Saga.Next (sagas o) (sagas' o) := by
  cases act with
  | lookUp c call => exact ⟨sagas, owner, h.lookUp hs, fun _ => .same _⟩
  | insert c orderId choices =>
      obtain ⟨owner', hlaw⟩ := h.insert hs
      exact ⟨sagas, owner', hlaw, fun _ => .same _⟩
  | deliver service i source offset choices =>
      obtain ⟨owner', hlaw⟩ := h.deliver hs
      exact ⟨sagas, owner', hlaw, fun _ => .same _⟩
  | work service w => exact h.work hs

/-- The sagas go on from state to state. -/
theorem run (h : Law stock sagas owner s) (hrun : Relation.ReflTransGen System.Steps s s') :
    ∃ sagas' owner', Law stock sagas' owner' s' ∧
      ∀ o, Relation.ReflTransGen Saga.Next (sagas o) (sagas' o) := by
  induction hrun with
  | refl => exact ⟨sagas, owner, h, fun _ => .refl⟩
  | tail _ hstep ih =>
      obtain ⟨sagas₁, owner₁, hlaw₁, hnext₁⟩ := ih
      obtain ⟨act, hact⟩ := hstep
      obtain ⟨sagas₂, owner₂, hlaw₂, hnext₂⟩ := hlaw₁.step hact
      exact ⟨sagas₂, owner₂, hlaw₂, fun o => (hnext₁ o).tail (hnext₂ o)⟩

/-- **The law holds in every reachable state.** -/
theorem of_reach (hstock : OnlyItems stock) (hreach : System.Reach stock s) :
    ∃ sagas owner, Law stock sagas owner s := by
  obtain ⟨sagas, owner, hlaw, -⟩ := (start hstock).run hreach
  exact ⟨sagas, owner, hlaw⟩

end Law

end CommercePlatform
