/-
The order service as its clients see it.

A call of `createOrder` first looks its idempotency key up, in a statement of its own.
If there is an order it is answered; if not it waits here until its transaction is
opened, which it is under the number of the call, and the end of the transaction is
the end of the call.  Whatever happens between the look-up and the insert happens
without the call noticing.
-/
import CommercePlatform.Service.Node
import CommercePlatform.Orders.Transactions

namespace CommercePlatform.Orders

open Js Txn

/-- How a call ends. -/
inductive Outcome where
  | answered (result : CreateOrderResult)
  | raised
  deriving DecidableEq

/-- What the clients could tell of a run, in the order in which it happened. -/
inductive DeskEvent where
  | lookedUp (c : ℕ) (call : CreateOrderCall)
  | ended (c : ℕ) (call : CreateOrderCall) (outcome : Outcome)
  deriving DecidableEq

/-- The service, and the calls under way. -/
structure Desk where
  node : Node Row Job
  /-- The calls that have found no order, and whose transaction is not open. -/
  waiting : ℕ → Option CreateOrderCall
  log : List DeskEvent

namespace Desk

def start (db : ServiceStore Row) : Desk :=
  { node := .start db, waiting := fun _ => none, log := [] }

/-- What session `i` was opened for. -/
def jobOf (n : Node Row Job) (i : ℕ) : Option Job := (n.server.sessions i).map fun σ => σ.job

/-- The order that a step of the service creates, and the call it is created for. -/
def creates (n : Node Row Job) : Work → Option (String × CreateOrderCall)
  | .commit i =>
      match jobOf n i with
      | some (.create call orderId _) => some (orderId, call)
      | _ => none
  | _ => none

variable [Platform]

/-- The first statement of call `c`. -/
def lookUp (d : Desk) (c : ℕ) (call : CreateOrderCall) : Option Desk :=
  match d.waiting c, d.node.server.sessions c with
  | none, none =>
      match findOrderByIdempotency call.userSub call.idempotencyKey d.node.server.db with
      | .error _ => some { d with log := d.log ++ [.lookedUp c call, .ended c call .raised] }
      | .ok (some existing) => some { d with
          log := d.log ++
            [.lookedUp c call, .ended c call (.answered (answerExisting call existing))] }
      | .ok none => some { d with
          waiting := Function.update d.waiting c (some call)
          log := d.log ++ [.lookedUp c call] }
  | _, _ => none

/-- Call `c` goes on to its transaction. -/
def insert (d : Desk) (c : ℕ) (orderId : String) (choices : Choices) : Option Desk :=
  match d.waiting c with
  | none => none
  | some call =>
      (d.node.step Job.body (.business (.begin c (.create call orderId choices)))).map fun node =>
        { d with node := node, waiting := Function.update d.waiting c none }

/-- A saga event arrives. -/
def deliver (d : Desk) (i : ℕ) (delivery : Delivery) : Option Desk :=
  (d.node.step Job.body (.business (.begin i (.saga delivery)))).map fun node =>
    { d with node := node }

omit [Platform] in
/-- The calls that a step of the service ends. -/
def ends (d : Desk) : Work → List DeskEvent
  | .commit i =>
      match jobOf d.node i with
      | some (.create call orderId _) => [.ended i call (.answered (.created orderId))]
      | _ => []
  | .rollback i =>
      match jobOf d.node i with
      | some (.create call _ _) => [.ended i call .raised]
      | _ => []
  | _ => []

def work (d : Desk) (w : Work) : Option Desk :=
  (d.node.step Job.body w.act).map fun node => { d with node := node, log := d.log ++ d.ends w }

/-! ### What a step can do -/

theorem lookUp_cases {d d' : Desk} {c : ℕ} {call : CreateOrderCall}
    (h : d.lookUp c call = some d') :
    d.waiting c = none ∧ d.node.server.sessions c = none ∧ d'.node = d.node ∧
      ((∃ e, findOrderByIdempotency call.userSub call.idempotencyKey d.node.server.db = .error e ∧
          d'.waiting = d.waiting ∧
          d'.log = d.log ++ [.lookedUp c call, .ended c call .raised]) ∨
        (∃ existing, findOrderByIdempotency call.userSub call.idempotencyKey d.node.server.db =
            .ok (some existing) ∧ d'.waiting = d.waiting ∧
          d'.log = d.log ++
            [.lookedUp c call, .ended c call (.answered (answerExisting call existing))]) ∨
        (findOrderByIdempotency call.userSub call.idempotencyKey d.node.server.db = .ok none ∧
          d'.waiting = Function.update d.waiting c (some call) ∧
          d'.log = d.log ++ [.lookedUp c call])) := by
  unfold lookUp at h
  split at h
  · rename_i hwaiting hsession
    refine ⟨hwaiting, hsession, ?_⟩
    split at h
    · rename_i e hfind
      obtain rfl := Option.some.inj h
      exact ⟨rfl, Or.inl ⟨e, hfind, rfl, rfl⟩⟩
    · rename_i existing hfind
      obtain rfl := Option.some.inj h
      exact ⟨rfl, Or.inr (Or.inl ⟨existing, hfind, rfl, rfl⟩)⟩
    · rename_i hfind
      obtain rfl := Option.some.inj h
      exact ⟨rfl, Or.inr (Or.inr ⟨hfind, rfl, rfl⟩)⟩
  · simp at h

theorem insert_cases {d d' : Desk} {c : ℕ} {orderId : String} {choices : Choices}
    (h : d.insert c orderId choices = some d') :
    ∃ call, d.waiting c = some call ∧
      d.node.step Job.body (.business (.begin c (.create call orderId choices))) = some d'.node ∧
      d'.waiting = Function.update d.waiting c none ∧ d'.log = d.log := by
  unfold insert at h
  split at h
  · simp at h
  · rename_i call hwaiting
    obtain ⟨node, hnode, rfl⟩ := Option.map_eq_some_iff.mp h
    exact ⟨call, hwaiting, hnode, rfl, rfl⟩

theorem deliver_cases {d d' : Desk} {i : ℕ} {delivery : Delivery}
    (h : d.deliver i delivery = some d') :
    d.node.step Job.body (.business (.begin i (.saga delivery))) = some d'.node ∧
      d'.waiting = d.waiting ∧ d'.log = d.log := by
  obtain ⟨node, hnode, rfl⟩ := Option.map_eq_some_iff.mp h
  exact ⟨hnode, rfl, rfl⟩

theorem work_cases {d d' : Desk} {w : Work} (h : d.work w = some d') :
    d.node.step Job.body w.act = some d'.node ∧ d'.waiting = d.waiting ∧
      d'.log = d.log ++ d.ends w := by
  obtain ⟨node, hnode, rfl⟩ := Option.map_eq_some_iff.mp h
  exact ⟨hnode, rfl, rfl⟩

end Desk

end CommercePlatform.Orders
