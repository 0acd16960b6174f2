/-
What the transactions of a service may do, as a lock discipline.

A handler claims the event it processes before it reads or writes anything else, and
puts no row in the outbox but a fresh one, under an identifier it has just claimed.
What differs between the services, and between their events, is which of the service's
own rows are read, written, missed and inserted; that is what a `Rule` says.
-/
import CommercePlatform.Txn.Discipline
import CommercePlatform.Service.Schema

namespace CommercePlatform

open Js Txn

/-- A row as it is inserted: not published, with a header for nothing but what the row says. -/
structure OutboxRow.Fresh (row : OutboxRow) : Prop where
  unpublished : row.publishedAt = none
  noRoutingKey : "routingKey" ∉ row.headers.map Prod.fst
  nodup : (row.headers.map Prod.fst).Nodup

/-- What a transaction may do to the tables of its service. -/
structure Rule (β : Type) where
  /-- The event that has to be claimed first. -/
  guard : Option String
  puts : β → Prop
  reads : β → Prop
  misses : β → Prop
  claims : β → Prop

namespace Rule

variable {β : Type} {ρ : β → Type}

/-- The event of the rule, if it has one, is claimed. -/
def Guarded (R : Rule β) (g : Grip (ServiceKey β)) : Prop :=
  ∀ eventId, R.guard = some eventId → ServiceKey.processed eventId ∈ g.claimed

theorem Guarded.mono {R : Rule β} {g g' : Grip (ServiceKey β)} (h : R.Guarded g) (hle : g.Le g') :
    R.Guarded g' := fun e he => hle.claimed _ (h e he)

/-- The rows that may be written. -/
def mayPut (R : Rule β) (g : Grip (ServiceKey β)) : (k : ServiceKey β) → ServiceRow ρ k → Prop
  | .own key, _ => R.puts key
  | .outbox id, row => ServiceKey.outbox id ∈ g.claimed ∧ OutboxRow.Fresh row
  | .processed _, _ => True

/-- The keys that may be inserted. -/
def mayClaim (R : Rule β) : ServiceKey β → Prop
  | .own key => R.claims key
  | .outbox _ => True
  | .processed eventId => R.guard = some eventId

def discipline (R : Rule β) : Discipline (ServiceRow ρ) where
  mayPut g k row := R.Guarded g ∧ R.mayPut g k row
  mayRead g k := R.Guarded g ∧ ∃ key, k = .own key ∧ R.reads key
  mayMiss g k := R.Guarded g ∧ ∃ key, k = .own key ∧ R.misses key
  mayClaim := R.mayClaim
  put_mono := by
    intro g g' k row hle h
    refine ⟨h.1.mono hle, ?_⟩
    have hput := h.2
    cases k with
    | own key => exact hput
    | outbox id => exact ⟨hle.claimed _ hput.1, hput.2⟩
    | processed eventId => trivial
  read_mono hle h := ⟨h.1.mono hle, h.2⟩
  miss_mono hle h := ⟨h.1.mono hle, h.2⟩

end Rule

/-! ### The rows of an outbox are fresh -/

theorem eventEnvelope_headers (eventId routingKey : String) (payload : Fields)
    (correlationId : Option String) :
    (eventEnvelope eventId routingKey payload correlationId).headers.defined.map Prod.fst =
        ["eventId"] ∨
      (eventEnvelope eventId routingKey payload correlationId).headers.defined.map Prod.fst =
        ["eventId", "correlationId"] := by
  cases correlationId with
  | none => exact Or.inl rfl
  | some id =>
      by_cases hid : id = ""
      · exact Or.inl (by simp [eventEnvelope, hid, Fields.defined])
      · exact Or.inr (by simp [eventEnvelope, hid, Fields.defined])

variable [Platform]

/-- What an insert into an outbox leaves under its identifier. -/
theorem outboxRow_eq_ok {choices : Choices} {topic : String} {event : EventEnvelope} {id : String}
    {row : OutboxRow} (h : outboxRow choices topic event = .ok (id, row)) :
    uuidParam (some (.str choices.rowId)) = .ok (some id) ∧
      jsonb (.obj event.payload.defined) = .ok row.payload ∧
      jsonbFields event.headers.defined = .ok row.headers ∧
      row.topic = topic ∧ row.routingKey = event.routingKey ∧
      row.publishedAt = none ∧ row.createdAt = choices.now := by
  obtain ⟨id', huuid, h⟩ := bind_eq_ok.mp h
  obtain ⟨id'', hnotNull, h⟩ := bind_eq_ok.mp h
  obtain ⟨topic', htopic, h⟩ := bind_eq_ok.mp h
  obtain ⟨key', hkey, h⟩ := bind_eq_ok.mp h
  obtain ⟨payload', hpayload, h⟩ := bind_eq_ok.mp h
  obtain ⟨headers', hheaders, h⟩ := bind_eq_ok.mp h
  obtain ⟨rfl, rfl⟩ := Prod.mk.inj (Except.ok.inj h)
  rw [notNull_eq_ok hnotNull] at huuid
  exact ⟨huuid, hpayload, hheaders, textIn_eq_ok htopic, textIn_eq_ok hkey, rfl, rfl⟩

theorem outboxRow_fresh {choices : Choices} {topic eventId routingKey id : String} {payload : Fields}
    {correlationId : Option String} {row : OutboxRow}
    (h : outboxRow choices topic (eventEnvelope eventId routingKey payload correlationId) =
      .ok (id, row)) : row.Fresh := by
  obtain ⟨-, -, hheaders, -, -, hpublished, -⟩ := outboxRow_eq_ok h
  have hkeys := jsonbFields_keys hheaders
  refine ⟨hpublished, ?_, ?_⟩
  · rw [hkeys]
    rcases eventEnvelope_headers eventId routingKey payload correlationId with h | h <;> simp [h]
  · rw [hkeys]
    rcases eventEnvelope_headers eventId routingKey payload correlationId with h | h <;> simp [h]

/-! ### What a message is about -/

/-- The event that a message is processed as, if it names one. -/
def eventKey (message : KafkaMessage) : Option String :=
  match requireEventId message >>= processedKey with
  | .ok key => some key
  | .error _ => none

theorem eventKey_eq {message : KafkaMessage} {eventId : Json} {key : String}
    (hid : requireEventId message = .ok eventId) (hkey : processedKey eventId = .ok key) :
    eventKey message = some key := by
  simp [eventKey, hid, hkey, bind, Except.bind]

theorem of_eventKey {message : KafkaMessage} {key : String} (h : eventKey message = some key) :
    ∃ eventId, requireEventId message = .ok eventId ∧ processedKey eventId = .ok key := by
  unfold eventKey at h
  split at h
  · rename_i key' hkey'
    obtain rfl := Option.some.inj h
    exact bind_eq_ok.mp hkey'
  · simp at h

/-- The order that a payload is about, if it names one. -/
def orderIdOf (payload : Json) : Option String :=
  match payload.get "orderId" >>= uuidParam with
  | .ok id => id
  | .error _ => none

theorem orderIdOf_eq {payload : Json} {orderId : Option Json} {id : Option String}
    (hget : payload.get "orderId" = .ok orderId) (hid : uuidParam orderId = .ok id) :
    orderIdOf payload = id := by
  simp [orderIdOf, hget, hid, bind, Except.bind]

theorem of_orderIdOf {payload : Json} {id : String} (h : orderIdOf payload = some id) :
    ∃ orderId, payload.get "orderId" = .ok orderId ∧ uuidParam orderId = .ok (some id) := by
  unfold orderIdOf at h
  split at h
  · rename_i id' hid'
    subst h
    exact bind_eq_ok.mp hid'
  · simp at h

/-! ### Checking the shared statements -/

section Obeys

variable {β : Type} {ρ : β → Type} {R : Rule β} {g : Grip (ServiceKey β)}

theorem obeys_insertOutbox {choices : Choices} {topic eventId routingKey : String}
    {payload : Fields} {correlationId : Option String} (hg : R.Guarded g) :
    (insertOutbox choices topic (eventEnvelope eventId routingKey payload correlationId) :
      ServiceTx ρ Unit).Obeys R.discipline g := by
  unfold insertOutbox
  refine Tx.obeys_ofExcept_bind.mpr fun entry hentry => ?_
  refine Tx.Obeys.insertRow trivial ⟨hg.mono (g.le_claim _), ?_, outboxRow_fresh hentry⟩
  simp [Grip.claim]

omit [Platform] in
theorem obeys_updateWhere {key : β} {set : ρ key → Except Error (ρ key)} (hg : R.Guarded g)
    (hputs : R.puts key) (hmisses : ServiceKey.own key ∈ g.seen ∨ R.misses key) :
    (updateWhere key set : ServiceTx ρ Unit).Obeys R.discipline g := by
  refine Tx.Obeys.updateRow ?_ fun row => ⟨hg.mono (g.le_lock _), hputs⟩
  exact hmisses.imp id fun hm => ⟨hg, key, rfl, hm⟩

omit [Platform] in
theorem obeys_insertInto {key : β} {row : ρ key} {constraint : String} (hg : R.Guarded g)
    (hclaims : R.claims key) (hputs : R.puts key) :
    (insertInto key row constraint : ServiceTx ρ Unit).Obeys R.discipline g :=
  Tx.Obeys.insertRow hclaims ⟨hg.mono (g.le_claim _), hputs⟩

omit [Platform] in
theorem obeys_upsertInto {key : β} {row : ρ key} {set : ρ key → ρ key}
    {foreignKey : ServiceTx ρ Unit} (hg : R.Guarded g) (hclaims : R.claims key)
    (hputs : R.puts key) (hcheck : foreignKey.Obeys R.discipline (g.claim (.own key))) :
    (upsertInto key row set foreignKey : ServiceTx ρ Unit).Obeys R.discipline g := by
  refine Tx.Obeys.upsertRow hclaims ⟨hg.mono (g.le_claim _), hputs⟩ (fun row => ⟨?_, hputs⟩) hcheck
  exact (hg.mono (g.le_see _)).mono ((g.see _).le_lock _)

/-- Marking the event first is what guards the effect. -/
theorem obeys_processOnce {eventId : Json} {message : KafkaMessage} {effect : ServiceTx ρ Unit}
    (hguard : ∀ key, processedKey eventId = .ok key → R.guard = some key)
    (heffect : ∀ g, R.Guarded g → effect.Obeys R.discipline g) :
    (processOnce eventId message effect).Obeys R.discipline .none := by
  rw [processOnce_eq]
  refine Tx.obeys_ofExcept_bind.mpr fun key hkey => ?_
  refine Tx.obeys_ofExcept_bind.mpr fun topic _ => ?_
  refine Tx.obeys_ofExcept_bind.mpr fun routingKey _ => ?_
  have hclaimed : (ServiceKey.processed key : ServiceKey β) ∈
      (Grip.none.claim (ServiceKey.processed key)).claimed := by
    simp [Grip.claim]
  have hguarded : R.Guarded (Grip.none.claim (ServiceKey.processed key)) := by
    intro e he
    rw [hguard key hkey] at he
    obtain rfl := Option.some.inj he
    exact hclaimed
  refine Tx.obeys_claim.mpr ⟨hguard key hkey, trivial, ?_⟩
  exact Tx.obeys_put.mpr ⟨⟨Or.inl hclaimed, hguarded, trivial⟩, heffect _ hguarded⟩

end Obeys

end CommercePlatform
