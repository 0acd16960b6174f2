/-
What the statements do when they run alone, each in one lemma.

Each lemma says exactly when a statement, or a transaction built from it, succeeds and
what it leaves.  Read one way they are what a commit has done; read the other way they
are why a handler does not raise.
-/
import CommercePlatform.Service.Rule

namespace CommercePlatform

open Js Txn

variable {β : Type} [DecidableEq β] {ρ : β → Type} {db db' : ServiceStore ρ}

/-! ### Rows after a write -/

section Rows

variable {key key' : β} {id id' eventId eventId' : String}

@[simp] theorem ownRow_insert_outbox (row : OutboxRow) :
    ownRow (db.insert (ServiceKey.outbox id) row) key = ownRow db key :=
  Finmap.lookup_insert_of_ne _ (by simp)

@[simp] theorem ownRow_insert_processed (row : ProcessedEvent) :
    ownRow (db.insert (ServiceKey.processed eventId) row) key = ownRow db key :=
  Finmap.lookup_insert_of_ne _ (by simp)

@[simp] theorem outboxAt_insert_own (row : ρ key) :
    outboxAt (db.insert (ServiceKey.own key) row) id = outboxAt db id :=
  Finmap.lookup_insert_of_ne _ (by simp)

@[simp] theorem outboxAt_insert_processed (row : ProcessedEvent) :
    outboxAt (db.insert (ServiceKey.processed eventId) row) id = outboxAt db id :=
  Finmap.lookup_insert_of_ne _ (by simp)

@[simp] theorem processedAt_insert_own (row : ρ key) :
    processedAt (db.insert (ServiceKey.own key) row) eventId = processedAt db eventId :=
  Finmap.lookup_insert_of_ne _ (by simp)

@[simp] theorem processedAt_insert_outbox (row : OutboxRow) :
    processedAt (db.insert (ServiceKey.outbox id) row) eventId = processedAt db eventId :=
  Finmap.lookup_insert_of_ne _ (by simp)

theorem ownRow_insert_of_ne (row : ρ key) (h : key' ≠ key) :
    ownRow (db.insert (ServiceKey.own key) row) key' = ownRow db key' :=
  Finmap.lookup_insert_of_ne _ (by simpa using h)

theorem outboxAt_insert_of_ne (row : OutboxRow) (h : id' ≠ id) :
    outboxAt (db.insert (ServiceKey.outbox id) row) id' = outboxAt db id' :=
  Finmap.lookup_insert_of_ne _ (by simpa using h)

theorem processedAt_insert_of_ne (row : ProcessedEvent) (h : eventId' ≠ eventId) :
    processedAt (db.insert (ServiceKey.processed eventId) row) eventId' =
      processedAt db eventId' :=
  Finmap.lookup_insert_of_ne _ (by simpa using h)

end Rows

/-! ### Statements -/

theorem run_selectRow_bind {α : Type} {key : β} {f : Option (ρ key) → ServiceTx ρ α} :
    ((selectRow key).bind f).run db = (f (ownRow db key)).run db := rfl

theorem run_selectForUpdate_bind {α : Type} {key : β} {f : Option (ρ key) → ServiceTx ρ α} :
    ((selectForUpdate key).bind f).run db = (f (ownRow db key)).run db := rfl

theorem run_insertInto_eq_ok {key : β} {row : ρ key} {constraint : String} :
    (insertInto key row constraint : ServiceTx ρ Unit).run db = .ok ((), db') ↔
      ownRow db key = none ∧ db' = db.insert (ServiceKey.own key) row := by
  unfold insertInto
  rw [Tx.run_insertRow_eq_ok, ownRow, Finmap.lookup_eq_none]

theorem run_updateWhere_eq_ok {key : β} {set : ρ key → Except Error (ρ key)} :
    (updateWhere key set : ServiceTx ρ Unit).run db = .ok ((), db') ↔
      (ownRow db key = none ∧ db' = db) ∨
        ∃ row row', ownRow db key = some row ∧ set row = .ok row' ∧
          db' = db.insert (ServiceKey.own key) row' :=
  Tx.run_updateRow_eq_ok

/-- An upsert inserts where there is no row, and then the row is checked, or updates. -/
theorem run_upsertInto_eq_ok {key : β} {row : ρ key} {set : ρ key → ρ key}
    {foreignKey : ServiceTx ρ Unit} :
    (upsertInto key row set foreignKey).run db = .ok ((), db') ↔
      (ownRow db key = none ∧
          foreignKey.run (db.insert (ServiceKey.own key) row) = .ok ((), db')) ∨
        ∃ old, ownRow db key = some old ∧ db' = db.insert (ServiceKey.own key) (set old) := by
  unfold upsertInto Tx.upsertRow ownRow
  cases hrow : db.lookup (ServiceKey.own key) with
  | none => simp [hrow]
  | some old =>
      simp only [Tx.bind_eq, Tx.claimKey_bind, Tx.run_claim, hrow, Option.isSome_some, if_true]
      rw [Tx.run_updateRow_eq_ok, hrow]
      simp

variable [Platform]

theorem run_insertOutbox_eq_ok {choices : Choices} {topic : String} {event : EventEnvelope} :
    (insertOutbox choices topic event : ServiceTx ρ Unit).run db = .ok ((), db') ↔
      ∃ id row, outboxRow choices topic event = .ok (id, row) ∧ outboxAt db id = none ∧
        db' = db.insert (ServiceKey.outbox id) row := by
  unfold insertOutbox
  rw [Tx.bind_eq, Tx.run_ofExcept_bind_eq_ok]
  constructor
  · intro ⟨entry, hentry, hrun⟩
    obtain ⟨hfree, hdb⟩ := Tx.run_insertRow_eq_ok.mp hrun
    exact ⟨entry.1, entry.2, hentry, Finmap.lookup_eq_none.mpr hfree, hdb⟩
  · intro ⟨id, row, hentry, hfree, hdb⟩
    exact ⟨(id, row), hentry, Tx.run_insertRow_eq_ok.mpr ⟨Finmap.lookup_eq_none.mp hfree, hdb⟩⟩

/-- A processed event is left alone, and any other is marked before its effect. -/
theorem run_processOnce_eq_ok {eventId : Json} {message : KafkaMessage}
    {effect : ServiceTx ρ Unit} :
    (processOnce eventId message effect).run db = .ok ((), db') ↔
      ∃ key topic routingKey, processedKey eventId = .ok key ∧ textIn message.topic = .ok topic ∧
        textIn (consumedRoutingKey message) = .ok routingKey ∧
        ((processedAt db key ≠ none ∧ db' = db) ∨
          (processedAt db key = none ∧
            effect.run (db.insert (ServiceKey.processed key)
              { topic := topic, routingKey := routingKey }) = .ok ((), db'))) := by
  rw [processOnce_eq]
  simp only [Tx.run_ofExcept_bind_eq_ok, Tx.run_claim]
  constructor
  · intro ⟨key, hkey, topic, htopic, routingKey, hrouting, hrun⟩
    refine ⟨key, topic, routingKey, hkey, htopic, hrouting, ?_⟩
    cases hrow : db.lookup (ServiceKey.processed key) with
    | none =>
        rw [hrow] at hrun
        exact Or.inr ⟨hrow, hrun⟩
    | some row =>
        rw [hrow] at hrun
        have hdb : db' = db := by simpa [eq_comm] using hrun
        exact Or.inl ⟨by simp [processedAt, hrow], hdb⟩
  · intro ⟨key, topic, routingKey, hkey, htopic, hrouting, hcases⟩
    refine ⟨key, hkey, topic, htopic, routingKey, hrouting, ?_⟩
    rcases hcases with ⟨hdone, rfl⟩ | ⟨hnew, hrun⟩
    · have htaken : (db'.lookup (ServiceKey.processed key)).isSome = true :=
        Option.isSome_iff_ne_none.mpr hdone
      rw [htaken]
      rfl
    · have hfree : db.lookup (ServiceKey.processed key) = none := hnew
      rw [hfree]
      exact hrun

end CommercePlatform
