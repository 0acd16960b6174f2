/-
Delivery is at least once, the effect is exactly once.

A group commits its offset after the handler, so a message is handed out again
whenever an attempt has failed or its outcome was lost, and more than one attempt may
be under way.  Each of the three handlers marks the event it processes in the
transaction of its effect; that makes them guarded in the sense of
`Txn/ExactlyOnce.lean`, whatever the messages say.
-/
import CommercePlatform.Txn.ExactlyOnce
import CommercePlatform.Orders.Transactions
import CommercePlatform.Inventory.Transactions
import CommercePlatform.Payments.Transactions

namespace CommercePlatform

open Js Txn

variable {β : Type} {ρ : β → Type}

/-- The key that a delivery is guarded by, where it is guarded by the event `key` finds. -/
def guardKey (key : KafkaMessage → Option String) (delivery : Delivery) :
    Option (ServiceKey β) := (key delivery.message).map ServiceKey.processed

/--
Any sequence of delivery attempts from the rows `db₀`.  Attempts may be rolled back at
any access and made again; two may be open at once if they are for the same event.
-/
def Attempts [DecidableEq β] (handler : Handler ρ) (key : KafkaMessage → Option String)
    (db₀ : ServiceStore ρ) (s : Server (ServiceRow ρ) Error Unit Delivery) : Prop :=
  Server.Reach handler.serve
    (fun s delivery => ∀ i σ, s.sessions i = some σ →
      (guardKey key σ.job : Option (ServiceKey β)) = guardKey key delivery)
    (Server.start db₀) s

/-- The rows after each event was applied once, in the order of the first successful attempts. -/
def appliedOnce [DecidableEq β] (handler : Handler ρ) (key : KafkaMessage → Option String)
    (db₀ : ServiceStore ρ) (history : List Delivery) : ServiceStore ρ :=
  applied handler.serve db₀ (firsts (guardKey key : Delivery → Option (ServiceKey β)) history)

variable [Platform]

theorem processOnce_guarded {eventId : Json} {key : String} (message : KafkaMessage)
    (effect : ServiceTx ρ Unit) (hkey : processedKey eventId = .ok key) :
    (processOnce eventId message effect).GuardedBy (.processed key) ∨
      ∃ e, processOnce eventId message effect = .throw e := by
  rw [processOnce_eq, hkey]
  cases htopic : textIn message.topic with
  | error e => exact Or.inr ⟨e, by simp⟩
  | ok topic =>
      cases hrouting : textIn (consumedRoutingKey message) with
      | error e => exact Or.inr ⟨e, by simp⟩
      | ok routingKey =>
          exact Or.inl ⟨(), { topic := topic, routingKey := routingKey }, effect, by simp⟩

/-- A handler that does nothing but process once is guarded by the event of its message. -/
theorem guardedAs_eventKey {message : KafkaMessage} {body : Json → ServiceTx ρ Unit}
    (hbody : ∀ eventId, requireEventId message = .ok eventId →
      (∃ effect, body eventId = processOnce eventId message effect) ∨
        ∃ e, body eventId = .throw e) :
    ((Tx.ofExcept (requireEventId message)).bind body).GuardedAs
      ((eventKey message).map ServiceKey.processed) := by
  cases hid : requireEventId message with
  | error e =>
      have hkey : eventKey message = none := by simp [eventKey, hid, bind, Except.bind]
      rw [hkey]
      exact Or.inr ⟨e, rfl⟩
  | ok eventId =>
      rw [Tx.ofExcept_ok, Tx.pure_bind]
      cases hkey : processedKey eventId with
      | error e =>
          have hnone : eventKey message = none := by
            simp [eventKey, hid, hkey, bind, Except.bind]
          rw [hnone]
          rcases hbody eventId hid with ⟨effect, heffect⟩ | ⟨e', he'⟩
          · exact Or.inr ⟨e, by rw [heffect, processOnce_eq, hkey]; rfl⟩
          · exact Or.inr ⟨e', he'⟩
      | ok key =>
          rw [eventKey_eq hid hkey]
          rcases hbody eventId hid with ⟨effect, heffect⟩ | ⟨e', he'⟩
          · rw [heffect]
            exact processOnce_guarded message effect hkey
          · exact Or.inr ⟨e', he'⟩

/-! ### The three handlers -/

/-- The saga handler leaves events of unknown types alone, and then nothing is guarded. -/
def sagaKey (message : KafkaMessage) : Option String :=
  match message.value.get "eventType" with
  | .ok eventType =>
      if isText eventType "InventoryReserved" ∨ isText eventType "InventoryRejected" ∨
          isText eventType "PaymentSucceeded" ∨ isText eventType "PaymentFailed" then
        eventKey message
      else none
  | .error _ => none

theorem handlePaymentCommand_guarded (message : KafkaMessage) (choices : Choices) :
    (Payments.handlePaymentCommand message choices).GuardedAs
      ((eventKey message).map ServiceKey.processed) :=
  guardedAs_eventKey fun _ _ => Or.inl ⟨_, rfl⟩

theorem handleInventoryCommand_guarded (message : KafkaMessage) (choices : Choices) :
    (Inventory.handleInventoryCommand message choices).GuardedAs
      ((eventKey message).map ServiceKey.processed) := by
  refine guardedAs_eventKey fun eventId _ => ?_
  cases htype : message.value.get "eventType" with
  | error e => exact Or.inr ⟨e, by simp⟩
  | ok eventType => exact Or.inl ⟨_, rfl⟩

theorem handleSagaEvent_guarded (message : KafkaMessage) (choices : Choices) :
    (Orders.handleSagaEvent message choices).GuardedAs
      ((sagaKey message).map ServiceKey.processed) := by
  unfold sagaKey
  cases htype : message.value.get "eventType" with
  | error e =>
      cases hid : requireEventId message with
      | error e' => exact Or.inr ⟨e', by simp [Orders.handleSagaEvent, hid]⟩
      | ok eventId => exact Or.inr ⟨e, by simp [Orders.handleSagaEvent, hid, htype]⟩
  | ok eventType =>
      by_cases hknown : isText eventType "InventoryReserved" ∨
          isText eventType "InventoryRejected" ∨ isText eventType "PaymentSucceeded" ∨
          isText eventType "PaymentFailed"
      · simp only [hknown, if_true]
        refine guardedAs_eventKey fun eventId _ => Or.inl ?_
        simp only [htype, Tx.ofExcept_ok, Tx.bind_eq, Tx.pure_bind]
        split
        · exact ⟨_, rfl⟩
        split
        · exact ⟨_, rfl⟩
        split
        · exact ⟨_, rfl⟩
        split
        · exact ⟨_, rfl⟩
        · tauto
      · simp only [hknown, if_false]
        obtain ⟨hreserved, hrejected, hsucceeded, hfailed⟩ : _ ∧ _ ∧ _ ∧ _ := by
          simpa only [not_or] using hknown
        cases hid : requireEventId message with
        | error e' => exact Or.inr ⟨e', by simp [Orders.handleSagaEvent, hid]⟩
        | ok eventId =>
            refine Or.inl ⟨(), ?_⟩
            simp [Orders.handleSagaEvent, hid, htype, hreserved, hrejected, hsucceeded, hfailed]

/-! ### Exactly once -/

section

variable [DecidableEq β] {handler : Handler ρ} {key : KafkaMessage → Option String}

omit [Platform] in
theorem attempts_appliedOnce
    (hguard : ∀ message choices,
      (handler message choices).GuardedAs ((key message).map ServiceKey.processed))
    {rule : KafkaMessage → Rule β}
    (hobeys : ∀ message choices, (handler message choices).Obeys (rule message).discipline .none)
    {db₀ : ServiceStore ρ} {s : Server (ServiceRow ρ) Error Unit Delivery}
    (h : Attempts handler key db₀ s) : s.db = appliedOnce handler key db₀ s.history := by
  refine Server.exactly_once (fun delivery => ?_) (fun delivery => ?_) h
  · exact hguard delivery.message delivery.choices
  · refine (hobeys delivery.message delivery.choices).mono ?_ ?_ ?_ ?_
    all_goals intros; trivial

end

/--
In every run of attempts, the rows are those of applying every event that had a
successful attempt once, in the order of the first successful attempts; and only a
commit changes them.
-/
def TakesEffectOnce [DecidableEq β] (handler : Handler ρ) (key : KafkaMessage → Option String) :
    Prop :=
  ∀ db₀ s, Attempts handler key db₀ s →
    s.db = appliedOnce handler key db₀ s.history ∧
    ∀ act s', s.step handler.serve act = some s' → (∀ i, act ≠ .commit i) → s'.db = s.db

/-- **Exactly-once effect of at-least-once delivery**, for each handler and any messages. -/
theorem handlers_take_effect_once :
    TakesEffectOnce Orders.handleSagaEvent sagaKey ∧
    TakesEffectOnce Inventory.handleInventoryCommand eventKey ∧
    TakesEffectOnce Payments.handlePaymentCommand eventKey := by
  refine ⟨fun db₀ s h => ⟨?_, ?_⟩, fun db₀ s h => ⟨?_, ?_⟩, fun db₀ s h => ⟨?_, ?_⟩⟩
  · exact attempts_appliedOnce handleSagaEvent_guarded Orders.obeys_handleSagaEvent h
  · exact fun act s' hs hcommit => Server.step_db hs hcommit
  · exact attempts_appliedOnce handleInventoryCommand_guarded
      Inventory.obeys_handleInventoryCommand h
  · exact fun act s' hs hcommit => Server.step_db hs hcommit
  · exact attempts_appliedOnce handlePaymentCommand_guarded Payments.obeys_handlePaymentCommand h
  · exact fun act s' hs hcommit => Server.step_db hs hcommit

end CommercePlatform

/-! ### One payment, attempted three times -/

namespace CommercePlatform.Charge

open Js Txn

attribute [local instance] Platform.plain

def command (orderId eventId : String) : KafkaMessage :=
  publishEvent topics.payment routingKeys.processPayment
    (.obj [("eventType", .str "ProcessPaymentRequested"), ("orderId", .str orderId),
      ("amount", .num (.finite 90)), ("currency", .str "USD")])
    [("eventId", .str eventId)]

def message : KafkaMessage :=
  command "8d1f4c60-52ab-4e0a-9d3c-7be1a05f6c11" "8d1f4c60-52ab-4e0a-9d3c-7be1a05f6c21"

def attempt (message : KafkaMessage) (eventId rowId : String) (now : ℕ) : Delivery :=
  { message := message, choices := { eventId := eventId, rowId := rowId, now := now } }

def first : Delivery :=
  attempt message "8d1f4c60-52ab-4e0a-9d3c-7be1a05f6c31" "8d1f4c60-52ab-4e0a-9d3c-7be1a05f6c41" 1

def second : Delivery :=
  attempt message "8d1f4c60-52ab-4e0a-9d3c-7be1a05f6c32" "8d1f4c60-52ab-4e0a-9d3c-7be1a05f6c42" 2

def third : Delivery :=
  attempt message "8d1f4c60-52ab-4e0a-9d3c-7be1a05f6c33" "8d1f4c60-52ab-4e0a-9d3c-7be1a05f6c43" 3

/-- The second attempt is open with the first one, and the third one with the second. -/
def acts : List (Act Delivery) :=
  [.begin 1 first, .begin 2 second] ++ List.replicate 3 (.exec 1) ++ [.rollback 1] ++
  List.replicate 5 (.exec 2) ++ [.begin 3 third, .exec 2, .commit 2, .exec 3, .commit 3]

/-- Two of the attempts succeed, and one of them takes effect. -/
theorem charged_once : ∃ s, Attempts Payments.handlePaymentCommand eventKey ∅ s ∧
    s.history.length = 2 ∧ s.db.keys.card = 3 ∧
    s.db = appliedOnce Payments.handlePaymentCommand eventKey ∅ s.history ∧
    ∀ act s', s.step (Handler.serve Payments.handlePaymentCommand) act = some s' →
      (∀ i, act ≠ .commit i) → s'.db = s.db := by
  have hout : ((Server.run (Handler.serve Payments.handlePaymentCommand) acts
      (Server.start ∅)).any fun s => s.history.length = 2 ∧ s.db.keys.card = 3) = true := by
    decide +kernel
  obtain ⟨s, hs, hout⟩ := (Option.any_eq_true _ _).mp hout
  obtain ⟨hhistory, hcard⟩ := of_decide_eq_true hout
  have hattempts : Attempts Payments.handlePaymentCommand eventKey ∅ s := by
    let P (delivery : Delivery) := delivery.message = message
    refine Server.Reach.of_run_together (P := P) .start ?_ (by simp [Server.start]) ?_ hs
    · intro s delivery hopen hmessage i σ hσ
      have hsame : σ.job.message = delivery.message := (hopen i σ hσ).trans hmessage.symm
      unfold guardKey
      rw [hsame]
    · intro i delivery hmem
      have hcases : i = 1 ∧ delivery = first ∨ i = 2 ∧ delivery = second ∨
          i = 3 ∧ delivery = third := by simpa [acts] using hmem
      rcases hcases with ⟨-, rfl⟩ | ⟨-, rfl⟩ | ⟨-, rfl⟩
      all_goals rfl
  exact ⟨s, hattempts, hhistory, hcard, handlers_take_effect_once.2.2 ∅ s hattempts⟩

end CommercePlatform.Charge
