/-
The saga of one order, as it is meant to go.

An order has seven kinds of events, each emitted by one service and consumed by
another, and at every moment it is in one of ten phases.  A phase says which events
have been emitted, and at most one of them is still to be consumed; consuming it is
what takes the order to its next phase.

Nothing here refers to rows or messages.  That the services do go this way is proved
in `Saga/Invariant.lean`.
-/
import CommercePlatform.System

namespace CommercePlatform

/-- The events of a saga. -/
inductive EventKind where
  | reserveRequested
  | reserved
  | rejected
  | paymentRequested
  | succeeded
  | failed
  | releaseRequested
  deriving DecidableEq, Repr

namespace EventKind

/-- The service that emits the event. -/
def producer : EventKind → Service
  | reserveRequested | paymentRequested | releaseRequested => .orders
  | reserved | rejected => .inventory
  | succeeded | failed => .payments

/-- The service that acts on the event. -/
def consumer : EventKind → Service
  | reserveRequested | releaseRequested => .inventory
  | reserved | rejected | succeeded | failed => .orders
  | paymentRequested => .payments

def topic : EventKind → String
  | reserveRequested | reserved | rejected | releaseRequested => topics.inventory
  | paymentRequested | succeeded | failed => topics.payment

def routingKey : EventKind → String
  | reserveRequested => routingKeys.reserveInventory
  | reserved => routingKeys.inventoryReserved
  | rejected => routingKeys.inventoryRejected
  | paymentRequested => routingKeys.processPayment
  | succeeded => routingKeys.paymentSucceeded
  | failed => routingKeys.paymentFailed
  | releaseRequested => routingKeys.releaseInventory

/-- The `eventType` of the payload. -/
def eventType : EventKind → String
  | reserveRequested => "ReserveInventoryRequested"
  | reserved => "InventoryReserved"
  | rejected => "InventoryRejected"
  | paymentRequested => "ProcessPayment"
  | succeeded => "PaymentSucceeded"
  | failed => "PaymentFailed"
  | releaseRequested => "ReleaseInventory"

theorem eventType_injective : Function.Injective eventType := by
  intro a b h
  cases a <;> cases b <;> first | rfl | (exact absurd h (by decide))

/-- The consumer of an event is subscribed to its topic and lets it through; no other service is
and does. -/
theorem accepted_iff (kind : EventKind) (service : Service) :
    (service.group.topics.contains kind.topic &&
      service.group.routingKeys.contains kind.routingKey) = true ↔ service = kind.consumer := by
  cases kind <;> cases service <;> decide

end EventKind

/-- How far the saga of an order has come. -/
inductive Phase where
  | requested
  | reserved
  | rejected
  | outOfStock
  | paying
  | paid
  | declined
  | confirmed
  | releasing
  | released
  deriving DecidableEq, Repr

namespace Phase

/-- The events there have been. -/
def emitted : Phase → List EventKind
  | requested => [.reserveRequested]
  | reserved => [.reserveRequested, .reserved]
  | rejected | outOfStock => [.reserveRequested, .rejected]
  | paying => [.reserveRequested, .reserved, .paymentRequested]
  | paid | confirmed => [.reserveRequested, .reserved, .paymentRequested, .succeeded]
  | declined => [.reserveRequested, .reserved, .paymentRequested, .failed]
  | releasing | released =>
      [.reserveRequested, .reserved, .paymentRequested, .failed, .releaseRequested]

/-- The event that is to be consumed next. -/
def pending : Phase → Option EventKind
  | requested => some .reserveRequested
  | reserved => some .reserved
  | rejected => some .rejected
  | paying => some .paymentRequested
  | paid => some .succeeded
  | declined => some .failed
  | releasing => some .releaseRequested
  | outOfStock | confirmed | released => none

/-- The events that have been consumed. -/
def consumed (p : Phase) : List EventKind := p.emitted.filter fun kind => p.pending ≠ some kind

/-- The status of the order. -/
def status : Phase → Orders.OrderStatus
  | requested | reserved | rejected => .pendingInventory
  | paying | paid | declined => .pendingPayment
  | confirmed => .confirmed
  | outOfStock | releasing | released => .failed

def failureReason : Phase → Option String
  | outOfStock => some "Insufficient inventory"
  | releasing | released => some "Payment authorization failed"
  | _ => none

/-- The status of its reservation, if it has one. -/
def reservation : Phase → Option Inventory.ReservationStatus
  | requested | rejected | outOfStock => none
  | released => some .released
  | _ => some .reserved

/-- The status of its payment attempt, if there was one. -/
def attempt : Phase → Option Payments.AttemptStatus
  | paid | confirmed => some .succeeded
  | declined | releasing | released => some .failed
  | _ => none

/-- Consuming an event takes the saga to its next phase, and may emit an event. -/
inductive Advance : Phase → EventKind → Option EventKind → Phase → Prop where
  | reserve : Advance requested .reserveRequested (some .reserved) reserved
  | reject : Advance requested .reserveRequested (some .rejected) rejected
  | giveUp : Advance rejected .rejected none outOfStock
  | askPayment : Advance reserved .reserved (some .paymentRequested) paying
  | pay : Advance paying .paymentRequested (some .succeeded) paid
  | decline : Advance paying .paymentRequested (some .failed) declined
  | confirm : Advance paid .succeeded none confirmed
  | askRelease : Advance declined .failed (some .releaseRequested) releasing
  | release : Advance releasing .releaseRequested none released

/-- How the order service answers an event: with another event or none, and a phase. -/
def reply : EventKind → Option EventKind × Phase
  | .reserved => (some .paymentRequested, paying)
  | .rejected => (none, outOfStock)
  | .succeeded => (none, confirmed)
  | .failed => (some .releaseRequested, releasing)
  | .reserveRequested => (none, requested)
  | .paymentRequested => (none, paying)
  | .releaseRequested => (none, releasing)

theorem mem_consumed {p : Phase} {kind : EventKind} :
    kind ∈ p.consumed ↔ kind ∈ p.emitted ∧ p.pending ≠ some kind := by
  simp [consumed]

theorem pending_mem_emitted {p : Phase} {kind : EventKind} (h : p.pending = some kind) :
    kind ∈ p.emitted := by
  cases p <;> simp only [pending, Option.some.injEq, reduceCtorEq] at h <;> subst h <;> decide

/-- The phase in which an event is to be consumed. -/
def awaiting : EventKind → Phase
  | .reserveRequested => requested
  | .reserved => reserved
  | .rejected => rejected
  | .paymentRequested => paying
  | .succeeded => paid
  | .failed => declined
  | .releaseRequested => releasing

theorem pending_eq_some {p : Phase} {kind : EventKind} :
    p.pending = some kind ↔ p = awaiting kind := by
  cases p <;> cases kind <;> decide

theorem advance_orders_iff {kind : EventKind} {out : Option EventKind} {p' : Phase}
    (hkind : kind.consumer = .orders) :
    Advance (awaiting kind) kind out p' ↔ out = (reply kind).1 ∧ p' = (reply kind).2 := by
  constructor
  · intro h
    cases kind <;> cases h <;> first | exact ⟨rfl, rfl⟩ | exact absurd hkind (by decide)
  · intro ⟨hout, hp'⟩
    subst hout hp'
    cases kind <;> first | constructor | exact absurd hkind (by decide)

/-- An event that has been emitted is pending or consumed, and never both. -/
theorem pending_of_emitted {p : Phase} {kind : EventKind} (h : kind ∈ p.emitted)
    (hnot : kind ∉ p.consumed) : p = awaiting kind := by
  by_contra hne
  exact hnot (mem_consumed.mpr ⟨h, fun hpending => hne (pending_eq_some.mp hpending)⟩)

/-- A release is asked for after the reserve has been answered. -/
theorem reserved_of_release {p : Phase} (h : .releaseRequested ∈ p.emitted) :
    .reserveRequested ∈ p.consumed := by
  revert h
  cases p <;> decide

/-- A payment is decided for stock that is reserved. -/
theorem reservation_of_attempt {p : Phase} {status : Payments.AttemptStatus}
    (h : p.attempt = some status) : p.reservation ≠ none := by
  revert h
  cases p <;> simp [attempt, reservation]

theorem reserved_of_succeeded {p : Phase} (h : p.attempt = some .succeeded) :
    p.reservation = some .reserved := by
  revert h
  cases p <;> simp [attempt, reservation]

theorem not_release_of_succeeded {p : Phase} (h : p.attempt = some .succeeded) :
    .releaseRequested ∉ p.emitted := by
  revert h
  cases p <;> simp [attempt, emitted]

theorem succeeded_of_confirmed {p : Phase} (h : p.status = .confirmed) :
    p.attempt = some .succeeded := by
  revert h
  cases p <;> simp [status, attempt]

theorem failed_of_released {p : Phase} (h : p.reservation = some .released) :
    p.status = .failed ∧ p.attempt = some .failed := by
  revert h
  cases p <;> simp [reservation, status, attempt]

/-- There is a reason just when the order has failed. -/
theorem failureReason_iff (p : Phase) : p.failureReason ≠ none ↔ p.status = .failed := by
  cases p <;> simp [failureReason, status]

theorem length_emitted (p : Phase) : p.emitted.length ≤ 5 := by
  cases p <;> decide

namespace Advance

variable {p p' : Phase} {kind : EventKind} {out : Option EventKind}

theorem pending (h : Advance p kind out p') : p.pending = some kind := by
  cases h <;> rfl

theorem emitted (h : Advance p kind out p') : p'.emitted = p.emitted ++ out.toList := by
  cases h <;> rfl

theorem mem_consumed (h : Advance p kind out p') (k : EventKind) :
    k ∈ p'.consumed ↔ k ∈ p.consumed ∨ k = kind := by
  cases h <;> cases k <;> decide

/-- An event is emitted once, by the service that consumes the one before it. -/
theorem emits (h : Advance p kind out p') {next : EventKind} (hnext : out = some next) :
    next.producer = kind.consumer ∧ next ∉ p.emitted := by
  cases h <;> cases hnext <;> decide

/-- Only the order service changes an order. -/
theorem status (h : Advance p kind out p') (hkind : kind.consumer ≠ .orders) :
    p'.status = p.status ∧ p'.failureReason = p.failureReason := by
  cases h <;> first | exact ⟨rfl, rfl⟩ | exact absurd rfl hkind

/-- The reason of a failure stays. -/
theorem failureReason (h : Advance p kind out p') (hp : p.failureReason ≠ none) :
    p'.failureReason = p.failureReason := by
  revert hp
  cases h <;> simp [Phase.failureReason]

/-- Only the inventory service changes a reservation. -/
theorem reservation (h : Advance p kind out p') (hkind : kind.consumer ≠ .inventory) :
    p'.reservation = p.reservation := by
  cases h <;> first | rfl | exact absurd rfl hkind

/-- Only the payment service changes an attempt. -/
theorem attempt (h : Advance p kind out p') (hkind : kind.consumer ≠ .payments) :
    p'.attempt = p.attempt := by
  cases h <;> first | rfl | exact absurd rfl hkind

theorem succeeded (h : Advance p kind out p') (hp : p.attempt = some .succeeded) :
    p'.attempt = some .succeeded := by
  revert hp
  cases h <;> simp [Phase.attempt]

theorem mono_emitted (h : Advance p kind out p') (k : EventKind) (hp : k ∈ p.emitted) :
    k ∈ p'.emitted := by
  rw [h.emitted]
  exact List.mem_append_left _ hp

end Advance

end Phase

end CommercePlatform
