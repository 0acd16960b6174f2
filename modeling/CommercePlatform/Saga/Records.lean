/-
Sagas and the tables that all services have.

A saga knows which events it has emitted and under which identifiers.  `Records` says
that the outbox of a service holds exactly the events it is the producer of, and that
it has marked as processed exactly the consumed ones it is the consumer of.  A saga
only ever `Grows`: what it has emitted and consumed stays.
-/
import CommercePlatform.Saga.Events
import CommercePlatform.Service.Steps

namespace CommercePlatform

open Js Txn

/-- The saga of an order. -/
structure Saga [Platform] extends Placed where
  phase : Phase
  /-- The identifiers of the events emitted so far. -/
  eventId : EventKind → String
  /-- The identifiers of their rows. -/
  rowId : EventKind → String
  uuids : ∀ kind ∈ phase.emitted, IsUuid (eventId kind)

/-- The sagas of all orders, by the identifier of the order. -/
abbrev Sagas [Platform] := String → Option Saga

variable [Platform]

namespace Placed

/-- The rows of the order in each service. -/
def orderRow (o : Placed) (p : Phase) : Orders.OrderRow :=
  { o.row with status := p.status, failureReason := p.failureReason }

def reservationRow (o : Placed) (status : Inventory.ReservationStatus) : Inventory.Reservation :=
  { sku := o.row.itemSku, quantity := o.row.quantity, status := status }

def attemptRow (o : Placed) (status : Payments.AttemptStatus) : Payments.PaymentAttempt :=
  { amount := o.row.totalAmount, currency := o.row.currency, status := status }

end Placed

namespace Saga

/-- The saga consumes an event and emits another. -/
def advance (saga : Saga) {kind : EventKind} {out : Option EventKind} {p' : Phase}
    (h : Phase.Advance saga.phase kind out p') (choices : Choices)
    (hevent : IsUuid choices.eventId) : Saga :=
  { saga with
    phase := p'
    eventId := match out with
      | none => saga.eventId
      | some next => Function.update saga.eventId next choices.eventId
    rowId := match out with
      | none => saga.rowId
      | some next => Function.update saga.rowId next choices.rowId
    uuids := by
      intro k hk
      rw [h.emitted] at hk
      cases out with
      | none => exact saga.uuids k (by simpa using hk)
      | some next =>
          by_cases hnext : k = next
          · subst hnext
            simpa using hevent
          · simpa [Function.update_of_ne hnext] using
              saga.uuids k (by simpa [hnext] using hk) }

/--
What a saga is after a step, compared with what it was, if it was there: it has
consumed `done` and emitted `new`, and all else is as before.
-/
structure Grows (old : Option Saga) (saga : Saga) (done new : Option EventKind) : Prop where
  placed : ∀ before, old = some before → saga.toPlaced = before.toPlaced
  emitted : ∀ k, k ∈ saga.phase.emitted ↔
    (∃ before, old = some before ∧ k ∈ before.phase.emitted) ∨ new = some k
  consumed : ∀ k, k ∈ saga.phase.consumed ↔
    (∃ before, old = some before ∧ k ∈ before.phase.consumed) ∨ done = some k
  ids : ∀ before k, old = some before → k ∈ before.phase.emitted →
    saga.eventId k = before.eventId k ∧ saga.rowId k = before.rowId k
  fresh : ∀ before k, old = some before → new = some k → k ∉ before.phase.emitted

theorem grows_advance (saga : Saga) {kind : EventKind} {out : Option EventKind} {p' : Phase}
    (h : Phase.Advance saga.phase kind out p') (choices : Choices)
    (hevent : IsUuid choices.eventId) :
    Grows (some saga) (saga.advance h choices hevent) (some kind) out := by
  refine ⟨?_, fun k => ?_, fun k => ?_, ?_, ?_⟩
  · intro before hbefore
    obtain rfl := Option.some.inj hbefore
    rfl
  · have hmem : k ∈ p'.emitted ↔ k ∈ saga.phase.emitted ∨ out = some k := by
      rw [h.emitted, List.mem_append]
      cases out with
      | none => simp
      | some next => simp [eq_comm]
    simpa [advance] using hmem
  · simpa [advance, eq_comm] using h.mem_consumed k
  · intro before k hbefore hk
    obtain rfl := Option.some.inj hbefore
    cases out with
    | none => exact ⟨rfl, rfl⟩
    | some next =>
        have hne : k ≠ next := by
          intro heq
          exact (h.emits rfl).2 (heq ▸ hk)
        exact ⟨Function.update_of_ne hne _ _, Function.update_of_ne hne _ _⟩
  · intro before k hbefore hout
    obtain rfl := Option.some.inj hbefore
    exact (h.emits hout).2

/-- The saga of an order that has just been stored. -/
def opened (placed : Placed) (choices : Choices) (hevent : IsUuid choices.eventId) : Saga :=
  { placed with
    phase := .requested
    eventId := fun _ => choices.eventId
    rowId := fun _ => choices.rowId
    uuids := fun _ _ => hevent }

theorem grows_opened (placed : Placed) (choices : Choices) (hevent : IsUuid choices.eventId) :
    Grows none (opened placed choices hevent) none (some .reserveRequested) := by
  refine ⟨by simp, fun k => ?_, fun k => ?_, by simp, by simp⟩
  · simp [opened, Phase.emitted, eq_comm]
  · cases k <;> simp [opened, Phase.consumed, Phase.emitted, Phase.pending]

end Saga

/-! ### Outbox and processed events -/

/-- The shared tables of a service hold what the sagas say. -/
structure Records {β : Type} [DecidableEq β] {ρ : β → Type} (service : Service) (sagas : Sagas)
    (db : ServiceStore ρ) : Prop where
  sound : ∀ id row, outboxAt db id = some row →
    ∃ o saga kind, sagas o = some saga ∧ kind ∈ saga.phase.emitted ∧ kind.producer = service ∧
      saga.rowId kind = id
  complete : ∀ o saga kind, sagas o = some saga → kind ∈ saga.phase.emitted →
    kind.producer = service →
      ∃ row, outboxAt db (saga.rowId kind) = some row ∧
        saga.Describes kind (saga.eventId kind) row
  processed : ∀ eventId, processedAt db eventId ≠ none ↔
    ∃ o saga kind, sagas o = some saga ∧ kind ∈ saga.phase.consumed ∧ kind.consumer = service ∧
      saga.eventId kind = eventId

/-- No two events have the same identifier. -/
def Distinct (sagas : Sagas) : Prop :=
  ∀ o saga kind o' saga' kind', sagas o = some saga → kind ∈ saga.phase.emitted →
    sagas o' = some saga' → kind' ∈ saga'.phase.emitted →
      saga.eventId kind = saga'.eventId kind' → o = o' ∧ kind = kind'

/-- The message is an event of one of the sagas, and meant for the service. -/
structure Told (service : Service) (sagas : Sagas) (o : String) (saga : Saga) (kind : EventKind)
    (message : KafkaMessage) : Prop where
  known : sagas o = some saga
  order : saga.orderId = o
  emitted : kind ∈ saga.phase.emitted
  consumer : kind.consumer = service
  announces : saga.Announces kind (saga.eventId kind) message

namespace Records

variable {β : Type} [DecidableEq β] {ρ : β → Type} {service : Service} {sagas : Sagas}
  {db db' : ServiceStore ρ}

/-- Empty tables say nothing of any saga. -/
theorem start (hempty : ∀ id, outboxAt db id = none) (hnew : ∀ eventId, processedAt db eventId = none) :
    Records service (fun _ => none) db where
  sound id row hrow := by
    rw [hempty] at hrow
    simp at hrow
  complete o saga kind hsaga := by simp at hsaga
  processed eventId := by simp [hnew]

/-- A row of the outbox is an event of a saga. -/
theorem event (h : Records service sagas db) {id : String} {row : OutboxRow}
    (hrow : outboxAt db id = some row) :
    ∃ o saga kind, sagas o = some saga ∧ kind ∈ saga.phase.emitted ∧ kind.producer = service ∧
      saga.rowId kind = id ∧ saga.Describes kind (saga.eventId kind) row := by
  obtain ⟨o, saga, kind, hsaga, hkind, hproducer, hid⟩ := h.sound id row hrow
  obtain ⟨row', hrow', hdescribes⟩ := h.complete o saga kind hsaga hkind hproducer
  rw [hid, hrow] at hrow'
  obtain rfl := Option.some.inj hrow'
  exact ⟨o, saga, kind, hsaga, hkind, hproducer, hid, hdescribes⟩

theorem alike (h : Records service sagas db) (hsame : Alike db db') :
    Records service sagas db' := by
  refine ⟨fun id row hrow => ?_, fun o saga kind hsaga hkind hproducer => ?_, fun eventId => ?_⟩
  · obtain ⟨row₀, hrow₀, -⟩ := (hsame.outbox id).2 row hrow
    exact h.sound id row₀ hrow₀
  · obtain ⟨row₀, hrow₀, hdescribes⟩ := h.complete o saga kind hsaga hkind hproducer
    cases hrow : outboxAt db' (saga.rowId kind) with
    | none =>
        rw [(hsame.outbox _).1] at hrow
        rw [hrow] at hrow₀
        simp at hrow₀
    | some row =>
        obtain ⟨row₁, hrow₁, heq⟩ := (hsame.outbox _).2 row hrow
        rw [hrow₀] at hrow₁
        obtain rfl := Option.some.inj hrow₁
        refine ⟨row, rfl, ?_⟩
        rw [heq]
        exact ⟨hdescribes.topic, hdescribes.routingKey, hdescribes.payload, hdescribes.headers⟩
  · rw [hsame.processed]
    exact h.processed eventId

/-- What there is of an event stays as its saga grows. -/
theorem kept {o : String} {saga : Saga} {done new : Option EventKind}
    (hgrow : Saga.Grows (sagas o) saga done new) {o' : String} {before : Saga}
    (hbefore : sagas o' = some before) :
    ∃ after, Function.update sagas o (some saga) o' = some after ∧
      after.toPlaced = before.toPlaced ∧
      (∀ k ∈ before.phase.emitted, k ∈ after.phase.emitted ∧
        after.eventId k = before.eventId k ∧ after.rowId k = before.rowId k) ∧
      ∀ k ∈ before.phase.consumed, k ∈ after.phase.consumed := by
  by_cases ho : o' = o
  · subst ho
    refine ⟨saga, Function.update_self _ _ _, hgrow.placed before hbefore, fun k hk => ?_,
      fun k hk => ?_⟩
    · exact ⟨(hgrow.emitted k).mpr (Or.inl ⟨before, hbefore, hk⟩), hgrow.ids before k hbefore hk⟩
    · exact (hgrow.consumed k).mpr (Or.inl ⟨before, hbefore, hk⟩)
  · refine ⟨before, ?_, rfl, fun k hk => ⟨hk, rfl, rfl⟩, fun k hk => hk⟩
    rw [Function.update_of_ne ho, hbefore]

/-- What the tables have to be after one saga has grown. -/
theorem grow (h : Records service sagas db) {o : String} {saga : Saga}
    {done new : Option EventKind} (hgrow : Saga.Grows (sagas o) saga done new)
    (hnew : ∀ k, new = some k → k.producer = service →
      outboxAt db (saga.rowId k) = none ∧
        ∃ row, saga.Describes k (saga.eventId k) row ∧
          ∀ id, outboxAt db' id = if id = saga.rowId k then some row else outboxAt db id)
    (hsame : (∀ k, new = some k → k.producer ≠ service) → ∀ id, outboxAt db' id = outboxAt db id)
    (hdone : ∀ eventId, processedAt db' eventId ≠ none ↔ processedAt db eventId ≠ none ∨
      ∃ k, done = some k ∧ k.consumer = service ∧ saga.eventId k = eventId) :
    Records service (Function.update sagas o (some saga)) db' := by
  have hself : Function.update sagas o (some saga) o = some saga := Function.update_self _ _ _
  have hold : ∀ id row, outboxAt db id = some row → outboxAt db' id = some row := by
    intro id row hrow
    by_cases hmine : ∃ k, new = some k ∧ k.producer = service
    · obtain ⟨k, hk, hproducer⟩ := hmine
      obtain ⟨hfree, row', -, hrows⟩ := hnew k hk hproducer
      rw [hrows, if_neg, hrow]
      intro heq
      rw [← heq, hrow] at hfree
      simp at hfree
    · rw [hsame fun k hk hproducer => hmine ⟨k, hk, hproducer⟩, hrow]
  refine ⟨fun id row hrow => ?_, fun o' after kind hafter hkind hproducer => ?_, fun eventId => ?_⟩
  · have hfrom : outboxAt db id = some row ∨
        ∃ k, new = some k ∧ k.producer = service ∧ saga.rowId k = id := by
      by_cases hmine : ∃ k, new = some k ∧ k.producer = service
      · obtain ⟨k, hk, hproducer⟩ := hmine
        obtain ⟨-, row', -, hrows⟩ := hnew k hk hproducer
        rw [hrows] at hrow
        split at hrow
        · exact Or.inr ⟨k, hk, hproducer, (‹id = _›).symm⟩
        · exact Or.inl hrow
      · rw [hsame fun k hk hproducer => hmine ⟨k, hk, hproducer⟩] at hrow
        exact Or.inl hrow
    rcases hfrom with hrow | ⟨k, hk, hproducer, hid⟩
    · obtain ⟨o', before, kind, hbefore, hkind, hproducer, hid⟩ := h.sound id row hrow
      obtain ⟨after, hafter, -, hemitted, -⟩ := kept hgrow hbefore
      obtain ⟨hkind', -, hrowId⟩ := hemitted kind hkind
      exact ⟨o', after, kind, hafter, hkind', hproducer, hrowId.trans hid⟩
    · exact ⟨o, saga, k, hself, (hgrow.emitted k).mpr (Or.inr hk), hproducer, hid⟩
  · have hcases : (∃ before, sagas o' = some before ∧ kind ∈ before.phase.emitted) ∨
        (o' = o ∧ new = some kind) := by
      by_cases ho : o' = o
      · subst ho
        rw [hself] at hafter
        obtain rfl := Option.some.inj hafter
        exact ((hgrow.emitted kind).mp hkind).imp id fun hk => ⟨rfl, hk⟩
      · rw [Function.update_of_ne ho] at hafter
        exact Or.inl ⟨after, hafter, hkind⟩
    rcases hcases with ⟨before, hbefore, hkind'⟩ | ⟨rfl, hk⟩
    · obtain ⟨after', hafter', hplaced, hemitted, -⟩ := kept hgrow hbefore
      rw [hafter'] at hafter
      obtain rfl := Option.some.inj hafter
      obtain ⟨-, heventId, hrowId⟩ := hemitted kind hkind'
      obtain ⟨row, hrow, hdescribes⟩ := h.complete o' before kind hbefore hkind' hproducer
      rw [hplaced, heventId, hrowId]
      exact ⟨row, hold _ row hrow, hdescribes⟩
    · rw [hself] at hafter
      obtain rfl := Option.some.inj hafter
      obtain ⟨-, row, hdescribes, hrows⟩ := hnew kind hk hproducer
      exact ⟨row, by rw [hrows, if_pos rfl], hdescribes⟩
  · rw [hdone, h.processed]
    constructor
    · intro hcases
      rcases hcases with ⟨o', before, kind, hbefore, hkind, hconsumer, hid⟩ | ⟨k, hk, hconsumer, hid⟩
      · obtain ⟨after, hafter, -, hemitted, hconsumed⟩ := kept hgrow hbefore
        obtain ⟨-, heventId, -⟩ := hemitted kind (Phase.mem_consumed.mp hkind).1
        exact ⟨o', after, kind, hafter, hconsumed kind hkind, hconsumer, heventId.trans hid⟩
      · exact ⟨o, saga, k, hself, (hgrow.consumed k).mpr (Or.inr hk), hconsumer, hid⟩
    · rintro ⟨o', after, kind, hafter, hkind, hconsumer, hid⟩
      by_cases ho : o' = o
      · subst ho
        rw [hself] at hafter
        obtain rfl := Option.some.inj hafter
        rcases (hgrow.consumed kind).mp hkind with ⟨before, hbefore, hkind'⟩ | hk
        · have heventId := (hgrow.ids before kind hbefore (Phase.mem_consumed.mp hkind').1).1
          exact Or.inl ⟨o', before, kind, hbefore, hkind', hconsumer, heventId.symm.trans hid⟩
        · exact Or.inr ⟨kind, hk, hconsumer, hid⟩
      · rw [Function.update_of_ne ho] at hafter
        exact Or.inl ⟨o', after, kind, hafter, hkind, hconsumer, hid⟩

/-- A service that neither emits nor consumes has nothing to change. -/
theorem grow_elsewhere (h : Records service sagas db) {o : String} {saga : Saga}
    {done new : Option EventKind} (hgrow : Saga.Grows (sagas o) saga done new)
    (hnew : ∀ k, new = some k → k.producer ≠ service)
    (hdone : ∀ k, done = some k → k.consumer ≠ service) :
    Records service (Function.update sagas o (some saga)) db := by
  refine h.grow hgrow (fun k hk hproducer => absurd hproducer (hnew k hk)) (fun _ _ => rfl)
    fun eventId => ?_
  constructor
  · exact Or.inl
  · intro hcases
    rcases hcases with hprocessed | ⟨k, hk, hconsumer, -⟩
    · exact hprocessed
    · exact absurd hconsumer (hdone k hk)

theorem advance_elsewhere (h : Records service sagas db) {o : String} {saga : Saga}
    (hsaga : sagas o = some saga) {kind : EventKind} {out : Option EventKind} {p' : Phase}
    (hadv : Phase.Advance saga.phase kind out p') {choices : Choices}
    (hevent : IsUuid choices.eventId) (hkind : kind.consumer ≠ service) :
    Records service (Function.update sagas o (some (saga.advance hadv choices hevent))) db := by
  refine h.grow_elsewhere (hsaga ▸ saga.grows_advance hadv choices hevent) ?_ ?_
  · intro k hk
    rw [(hadv.emits hk).1]
    exact hkind
  · intro k hk
    obtain rfl := Option.some.inj hk
    exact hkind

end Records

end CommercePlatform
