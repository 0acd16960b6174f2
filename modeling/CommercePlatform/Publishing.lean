/-
What the topics hold, for each of the three services.

The publisher is the same code in all three, so the law of `Service/Outbox.lean` is
stated here for the transactions each of them runs: nothing is published that was not
committed, and nothing is marked that was not published.
-/
import CommercePlatform.Service.Outbox
import CommercePlatform.Redelivery

namespace CommercePlatform

open Js Txn

/-- The message is the row: its key, its routing key, its other headers and its payload. -/
structure KafkaMessage.Carries (message : KafkaMessage) (row : OutboxRow) : Prop where
  topic : message.topic = row.topic
  key : message.key = partitionKey row.routingKey row.payload
  value : message.value = row.payload
  headers : message.headers =
    ("routingKey", row.routingKey) :: row.headers.map fun header => (header.1, header.2.toString)

/-- The outbox and the topics of a service agree. -/
structure Node.Transactional {β : Type} [DecidableEq β] {ρ : β → Type} {ι : Type}
    (n : Node ρ ι) : Prop where
  /-- A row that is marked is in its topic. -/
  published : ∀ id row, outboxAt n.server.db id = some row → row.publishedAt.isSome →
    ∃ message ∈ n.sent, message.Carries row
  /-- A committed row that is in no topic is not marked, and is among those the next batch is
  taken from. -/
  pending : ∀ id row, outboxAt n.server.db id = some row →
    (∀ message ∈ n.sent, ¬ message.Carries row) →
      row.publishedAt = none ∧
        ∀ scan, Scans n.server.db scan → (id, row) ∈ pendingOutbox n.server.db scan
  /-- Whatever is in a topic is a committed row. -/
  committed : ∀ message ∈ n.sent, ∃ id row, outboxAt n.server.db id = some row ∧
    message.Carries row

namespace OutboxLaw

variable {β : Type} [DecidableEq β] {ρ : β → Type} {ι : Type} {rule : ι → Rule β} {n : Node ρ ι}

theorem carries (h : OutboxLaw rule n) {id : String} {row : OutboxRow}
    (hrow : outboxAt n.server.db id = some row) : row.message.Carries row where
  topic := rfl
  key := rfl
  value := rfl
  headers := publishEvent_headers _ _ _ (h.headers id row hrow).1 (h.headers id row hrow).2

theorem transactional (h : OutboxLaw rule n) : n.Transactional where
  published id row hrow hpublished :=
    ⟨row.message, h.published id row hrow hpublished, h.carries hrow⟩
  pending id row hrow hnone := by
    have hpending : row.publishedAt = none := by
      cases hpublished : row.publishedAt with
      | none => rfl
      | some now =>
          have hsent := h.published id row hrow (by rw [hpublished]; rfl)
          exact absurd (h.carries hrow) (hnone _ hsent)
    exact ⟨hpending, fun scan hscan => mem_pendingOutbox hscan hrow hpending⟩
  committed message hmessage := by
    obtain ⟨id, row, hrow, rfl⟩ := h.sent message hmessage
    exact ⟨id, row, hrow, h.carries hrow⟩

end OutboxLaw

variable [Platform]

/--
**Transactional outbox.**  In every state a service can reach from an empty outbox, by
any interleaving of its transactions with any number of ticks, each of which may stop
anywhere, its outbox and its topics agree.
-/
theorem outbox_transactional :
    (∀ db₀ (n : Node Orders.Row Orders.Job), (∀ id, outboxAt db₀ id = none) →
      Node.Reach Orders.Job.body db₀ n → n.Transactional) ∧
    (∀ db₀ (n : Node Inventory.Row Delivery), (∀ id, outboxAt db₀ id = none) →
      Node.Reach (Handler.serve Inventory.handleInventoryCommand) db₀ n → n.Transactional) ∧
    (∀ db₀ (n : Node Payments.Row Delivery), (∀ id, outboxAt db₀ id = none) →
      Node.Reach (Handler.serve Payments.handlePaymentCommand) db₀ n → n.Transactional) := by
  refine ⟨fun db₀ n hempty h => ?_, fun db₀ n hempty h => ?_, fun db₀ n hempty h => ?_⟩
  · exact (OutboxLaw.of_reach Orders.obeys_body hempty h).transactional
  · exact (OutboxLaw.of_reach Inventory.obeys_serve hempty h).transactional
  · exact (OutboxLaw.of_reach Payments.obeys_serve hempty h).transactional

end CommercePlatform

/-! ### A payment that is published and not marked -/

namespace CommercePlatform.Charge

open Js Txn

attribute [local instance] Platform.plain

def other : Delivery :=
  attempt (command "8d1f4c60-52ab-4e0a-9d3c-7be1a05f6c12" "8d1f4c60-52ab-4e0a-9d3c-7be1a05f6c22")
    "8d1f4c60-52ab-4e0a-9d3c-7be1a05f6c34" "8d1f4c60-52ab-4e0a-9d3c-7be1a05f6c44" 4

/-- A payment is made in one transaction. -/
def pays (i : ℕ) (delivery : Delivery) : List (NodeAct Delivery) :=
  [.business (.begin i delivery)] ++ List.replicate 6 (.business (.exec i)) ++
  [.business (.commit i)]

/-- The rows of two payments, which a tick comes upon in the wrong order. -/
def scan : List String :=
  ["8d1f4c60-52ab-4e0a-9d3c-7be1a05f6c44", "8d1f4c60-52ab-4e0a-9d3c-7be1a05f6c41"]

/-- The tick fails once it has sent the older row. -/
def failing : List (NodeAct Delivery) :=
  pays 1 first ++ pays 2 other ++
  [.startTick 1 scan, .send 1 .resolved, .mark 1 5 (.rejected false)]

theorem published_again : ∃ n, Node.Reach (Handler.serve Payments.handlePaymentCommand) ∅ n ∧
    n.sent.length = 1 ∧ (pendingOutbox n.server.db scan).length = 2 ∧ n.Transactional := by
  have hout : ((Node.run (Handler.serve Payments.handlePaymentCommand) failing
      (Node.start ∅)).any fun n =>
        n.sent.length = 1 ∧ (pendingOutbox n.server.db scan).length = 2) = true := by
    decide +kernel
  obtain ⟨n, hn, hout⟩ := (Option.any_eq_true _ _).mp hout
  obtain ⟨hsent, hpending⟩ := of_decide_eq_true hout
  have hreach : Node.Reach (Handler.serve Payments.handlePaymentCommand) ∅ n := .of_run .start hn
  exact ⟨n, hreach, hsent, hpending, outbox_transactional.2.2 ∅ n (fun _ => rfl) hreach⟩

end CommercePlatform.Charge
