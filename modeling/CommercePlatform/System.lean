/-
The three services together.

They share nothing but topics: a group is handed any stored message that its filter
accepts, at any time and any number of times.  So an act of the system is an act of
one service, of which a delivery alone depends on what the others have sent.

An identifier that `randomUUID` returns was never returned before, in any service.
-/
import Mathlib.Logic.Relation
import Mathlib.Data.Fintype.Basic
import CommercePlatform.Orders.Desk
import CommercePlatform.Inventory.Transactions
import CommercePlatform.Payments.Transactions

namespace CommercePlatform

open Js Txn

inductive Service where
  | orders
  | inventory
  | payments
  deriving DecidableEq, Repr

namespace Service

instance : Fintype Service where
  elems := {.orders, .inventory, .payments}
  complete service := by cases service <;> simp

/-- The consumer group of a service. -/
def group : Service → ConsumerGroup
  | orders => Orders.orderSagaConsumer
  | inventory => Inventory.inventoryConsumer
  | payments => Payments.paymentConsumer

end Service

/-- The form of what `randomUUID` returns: a text that is read back as it is. -/
structure IsUuid [Platform] (id : String) : Prop where
  canonical : Platform.uuidIn id = some id
  text : '\x00' ∉ id.toList
  nonempty : id ≠ ""

instance [Platform] (id : String) : Decidable (IsUuid id) :=
  decidable_of_iff (Platform.uuidIn id = some id ∧ '\x00' ∉ id.toList ∧ id ≠ "")
    ⟨fun h => ⟨h.1, h.2.1, h.2.2⟩, fun h => ⟨h.canonical, h.text, h.nonempty⟩⟩

structure System where
  orders : Orders.Desk
  inventory : Node Inventory.Row Delivery
  payments : Node Payments.Row Delivery
  /-- What `randomUUID` has returned so far. -/
  uuids : List String

inductive SystemAct where
  | lookUp (c : ℕ) (call : Orders.CreateOrderCall)
  | insert (c : ℕ) (orderId : String) (choices : Choices)
  /-- The service is handed the message that `source` was the `offset`th to send. -/
  | deliver (service : Service) (i : ℕ) (source : Service) (offset : ℕ) (choices : Choices)
  | work (service : Service) (w : Work)

namespace System

/-- The system with the given stock, before anything runs. -/
def start (stock : ServiceStore Inventory.Row) : System :=
  { orders := .start ∅, inventory := .start stock, payments := .start ∅, uuids := [] }

/-- The committed rows of each service. -/
abbrev ordersDb (s : System) : ServiceStore Orders.Row := s.orders.node.server.db

abbrev inventoryDb (s : System) : ServiceStore Inventory.Row := s.inventory.server.db

abbrev paymentsDb (s : System) : ServiceStore Payments.Row := s.payments.server.db

/-- The messages that a service has stored in the topics. -/
def sent (s : System) : Service → List KafkaMessage
  | .orders => s.orders.node.sent
  | .inventory => s.inventory.sent
  | .payments => s.payments.sent

/-- The committed rows of the outbox of a service. -/
def outbox (s : System) : Service → String → Option OutboxRow
  | .orders => outboxAt s.ordersDb
  | .inventory => outboxAt s.inventoryDb
  | .payments => outboxAt s.paymentsDb

variable [Platform]

/-- Nobody has been given these identifiers before. -/
def Fresh (uuids ids : List String) : Prop := ids.Nodup ∧ ∀ id ∈ ids, IsUuid id ∧ id ∉ uuids

instance (uuids ids : List String) : Decidable (Fresh uuids ids) :=
  inferInstanceAs (Decidable (_ ∧ _))

/-- A service begins to handle a message. -/
def deliver (s : System) (service : Service) (i : ℕ) (delivery : Delivery) : Option System :=
  match service with
  | .orders => (s.orders.deliver i delivery).map fun orders => { s with orders := orders }
  | .inventory =>
      (s.inventory.step (Handler.serve Inventory.handleInventoryCommand)
        (.business (.begin i delivery))).map fun inventory => { s with inventory := inventory }
  | .payments =>
      (s.payments.step (Handler.serve Payments.handlePaymentCommand)
        (.business (.begin i delivery))).map fun payments => { s with payments := payments }

def work (s : System) (service : Service) (w : Work) : Option System :=
  match service with
  | .orders => (s.orders.work w).map fun orders => { s with orders := orders }
  | .inventory =>
      (s.inventory.step (Handler.serve Inventory.handleInventoryCommand) w.act).map
        fun inventory => { s with inventory := inventory }
  | .payments =>
      (s.payments.step (Handler.serve Payments.handlePaymentCommand) w.act).map
        fun payments => { s with payments := payments }

def step (s : System) : SystemAct → Option System
  | .lookUp c call => (s.orders.lookUp c call).map fun orders => { s with orders := orders }
  | .insert c orderId choices =>
      if Fresh s.uuids [orderId, choices.eventId, choices.rowId] then
        (s.orders.insert c orderId choices).map fun orders => { s with
          orders := orders
          uuids := [orderId, choices.eventId, choices.rowId] ++ s.uuids }
      else none
  | .deliver service i source offset choices =>
      match (s.sent source)[offset]? with
      | none => none
      | some message =>
          if service.group.accepts message ∧ Fresh s.uuids [choices.eventId, choices.rowId] then
            (s.deliver service i { message := message, choices := choices }).map fun s' =>
              { s' with uuids := [choices.eventId, choices.rowId] ++ s.uuids }
          else none
  | .work service w => s.work service w

/-- One step of the system, whichever it is. -/
def Steps (s s' : System) : Prop := ∃ act, s.step act = some s'

/-- The states after any run from the given stock. -/
def Reach (stock : ServiceStore Inventory.Row) : System → Prop :=
  Relation.ReflTransGen Steps (start stock)

/-- The state after one act after the other, if each is enabled. -/
def run : List SystemAct → System → Option System
  | [], s => some s
  | act :: rest, s => (s.step act).bind (run rest)

theorem steps_of_run {acts : List SystemAct} {s s' : System} (h : run acts s = some s') :
    Relation.ReflTransGen Steps s s' := by
  induction acts generalizing s with
  | nil =>
      obtain rfl := Option.some.inj h
      exact .refl
  | cons act rest ih =>
      obtain ⟨s₁, hstep, hrest⟩ := Option.bind_eq_some_iff.mp h
      exact (ih hrest).head ⟨act, hstep⟩

/-! ### What a step can do -/

theorem lookUp_cases {s s' : System} {c : ℕ} {call : Orders.CreateOrderCall}
    (h : s.step (.lookUp c call) = some s') :
    s.orders.lookUp c call = some s'.orders ∧ s'.inventory = s.inventory ∧
      s'.payments = s.payments ∧ s'.uuids = s.uuids := by
  obtain ⟨orders, horders, rfl⟩ := Option.map_eq_some_iff.mp h
  exact ⟨horders, rfl, rfl, rfl⟩

theorem insert_cases {s s' : System} {c : ℕ} {orderId : String} {choices : Choices}
    (h : s.step (.insert c orderId choices) = some s') :
    Fresh s.uuids [orderId, choices.eventId, choices.rowId] ∧
      s.orders.insert c orderId choices = some s'.orders ∧ s'.inventory = s.inventory ∧
      s'.payments = s.payments ∧
      s'.uuids = [orderId, choices.eventId, choices.rowId] ++ s.uuids := by
  simp only [step] at h
  split at h
  · rename_i hfresh
    obtain ⟨orders, horders, rfl⟩ := Option.map_eq_some_iff.mp h
    exact ⟨hfresh, horders, rfl, rfl, rfl⟩
  · simp at h

/-- A delivery takes a message from a topic that the group is subscribed to. -/
theorem deliver_cases {s s' : System} {service source : Service} {i offset : ℕ}
    {choices : Choices} (h : s.step (.deliver service i source offset choices) = some s') :
    ∃ message ∈ s.sent source, ∃ s₁, service.group.accepts message = true ∧
      Fresh s.uuids [choices.eventId, choices.rowId] ∧
      s.deliver service i { message := message, choices := choices } = some s₁ ∧
      s' = { s₁ with uuids := [choices.eventId, choices.rowId] ++ s.uuids } := by
  simp only [step] at h
  split at h
  · simp at h
  · rename_i message hmessage
    split at h
    · rename_i hguard
      obtain ⟨s₁, hs₁, rfl⟩ := Option.map_eq_some_iff.mp h
      exact ⟨message, List.mem_of_getElem? hmessage, s₁, hguard.1, hguard.2, hs₁, rfl⟩
    · simp at h

end System

end CommercePlatform
