/-
How much an order can cause.

Messages are published again and handed over again without limit, and each effective
handling of one makes an event with an identifier of its own, which nobody could tell
from a repetition.  But a saga consumes an event once, so there is at most one event of
a kind, and at most one transaction that decides the payment or moves the stock.
-/
import CommercePlatform.Saga.Safety

namespace CommercePlatform

open Js Txn

namespace System

variable [Platform]

/-- The row is the event of this kind for the order. -/
def IsEvent (kind : EventKind) (orderId : String) (row : OutboxRow) : Prop :=
  row.payload.get "eventType" = .ok (some (.str kind.eventType)) ∧
    orderIdOf row.payload = some orderId

/-- There is such an event in one of the outboxes. -/
def HasEvent (s : System) (kind : EventKind) (orderId : String) : Prop :=
  ∃ service id row, s.outbox service id = some row ∧ IsEvent kind orderId row

omit [Platform] in
/-- The step commits a transaction that has decided the payment of the order. -/
def Decides (s : System) (act : SystemAct) (orderId : String) : Prop :=
  ∃ i σ, act = .work .payments (.commit i) ∧ s.payments.server.sessions i = some σ ∧
    ServiceKey.own (Payments.Key.attempt orderId) ∈ σ.writes

omit [Platform] in
/-- The step commits a transaction that has reserved, or released, the stock of the order. -/
def Restocks (s : System) (act : SystemAct) (orderId : String)
    (status : Inventory.ReservationStatus) : Prop :=
  ∃ i σ reservation, act = .work .inventory (.commit i) ∧
    s.inventory.server.sessions i = some σ ∧
    σ.writes.lookup (ServiceKey.own (Inventory.Key.reservation orderId)) = some reservation ∧
    reservation.status = status

end System

variable [Platform]

/-! ### Events -/

namespace Law

variable {stock : ServiceStore Inventory.Row} {sagas : Sagas} {owner : String → Option Owner}
  {s s' : System} {o : String} {saga : Saga}

/-- A row for an order is an event of its saga. -/
theorem event_of_order (h : Law stock sagas owner s) {service : Service} {id : String}
    {row : OutboxRow} (hrow : s.outbox service id = some row)
    (horder : orderIdOf row.payload = some o) :
    ∃ saga kind, sagas o = some saga ∧ kind ∈ saga.phase.emitted ∧ kind.producer = service ∧
      saga.rowId kind = id ∧ row.payload.get "eventType" = .ok (some (.str kind.eventType)) := by
  obtain ⟨o', saga, kind, hsaga, hkind, hproducer, hid, hdescribes⟩ := h.event hrow
  have hannounces := hdescribes.announces
  have horder' : orderIdOf row.payload = some saga.orderId := hannounces.orderIdOf
  rw [horder', h.owned.keyed o' saga hsaga] at horder
  obtain rfl := Option.some.inj horder
  have htype : row.payload.get "eventType" = _ := hannounces.get "eventType"
  rw [Placed.payload_eventType] at htype
  exact ⟨saga, kind, hsaga, hkind, hproducer, hid, htype⟩

/-- What kind of an event a row is. -/
theorem emitted_of_event (h : Law stock sagas owner s) {service : Service} {id : String}
    {row : OutboxRow} {kind : EventKind} (hrow : s.outbox service id = some row)
    (hevent : System.IsEvent kind o row) :
    ∃ saga, sagas o = some saga ∧ kind ∈ saga.phase.emitted ∧ kind.producer = service ∧
      saga.rowId kind = id := by
  obtain ⟨htype, horder⟩ := hevent
  obtain ⟨saga, kind', hsaga, hkind, hproducer, hid, htype'⟩ := h.event_of_order hrow horder
  rw [htype] at htype'
  have hsame : kind.eventType = kind'.eventType := by simpa using htype'
  obtain rfl := EventKind.eventType_injective hsame
  exact ⟨saga, hsaga, hkind, hproducer, hid⟩

theorem not_both (h : Law stock sagas owner s) {kind kind' : EventKind}
    (hexclude : ∀ p : Phase, kind ∈ p.emitted → kind' ∉ p.emitted) :
    ¬ (s.HasEvent kind o ∧ s.HasEvent kind' o) := by
  intro ⟨⟨_, _, _, hrow, hevent⟩, _, _, _, hrow', hevent'⟩
  obtain ⟨saga, hsaga, hkind, -, -⟩ := h.emitted_of_event hrow hevent
  obtain ⟨saga', hsaga', hkind', -, -⟩ := h.emitted_of_event hrow' hevent'
  obtain rfl := Option.some.inj (hsaga.symm.trans hsaga')
  exact hexclude _ hkind hkind'

/-- All rows for an order together. -/
theorem card_rows (h : Law stock sagas owner s) (rows : Finset (Service × String))
    (hrows : ∀ entry ∈ rows, ∃ row, s.outbox entry.1 entry.2 = some row ∧
      orderIdOf row.payload = some o) : rows.card ≤ 5 := by
  cases hsaga : sagas o with
  | none =>
      have hempty : rows = ∅ := by
        refine Finset.eq_empty_of_forall_notMem fun entry hentry => ?_
        obtain ⟨row, hrow, horder⟩ := hrows entry hentry
        obtain ⟨saga, -, hsaga', -⟩ := h.event_of_order hrow horder
        rw [hsaga] at hsaga'
        simp at hsaga'
      rw [hempty]
      simp
  | some saga =>
      let entries := saga.phase.emitted.map fun kind => (kind.producer, saga.rowId kind)
      have hsubset : rows ⊆ entries.toFinset := by
        intro entry hentry
        obtain ⟨row, hrow, horder⟩ := hrows entry hentry
        obtain ⟨saga', kind, hsaga', hkind, hproducer, hid, -⟩ := h.event_of_order hrow horder
        obtain rfl := Option.some.inj (hsaga.symm.trans hsaga')
        refine List.mem_toFinset.mpr (List.mem_map.mpr ⟨kind, hkind, ?_⟩)
        exact Prod.ext hproducer hid
      calc rows.card ≤ entries.toFinset.card := Finset.card_le_card hsubset
        _ ≤ entries.length := List.toFinset_card_le _
        _ = saga.phase.emitted.length := List.length_map _
        _ ≤ 5 := saga.phase.length_emitted

end Law

/-! ### Decisions -/

/-- A step consumes the event, which was not consumed before. -/
structure Consumes (sagas sagas' : Sagas) (o : String) (kind : EventKind) : Prop where
  before : ∃ saga, sagas o = some saga ∧ kind ∈ saga.phase.emitted ∧ kind ∉ saga.phase.consumed
  after : ∃ saga, sagas' o = some saga ∧ kind ∈ saga.phase.consumed

/-- Once consumed, an event is not consumed again. -/
theorem Consumes.once {sagas sagas' sagas₂ sagas₂' : Sagas} {o : String} {kind : EventKind}
    (h : Consumes sagas sagas' o kind)
    (hnext : Relation.ReflTransGen Saga.Next (sagas' o) (sagas₂ o)) :
    ¬ Consumes sagas₂ sagas₂' o kind := by
  intro h₂
  obtain ⟨saga', hsaga', hconsumed⟩ := h.after
  obtain ⟨saga₂, hsaga₂, -, hnot⟩ := h₂.before
  rw [hsaga', hsaga₂] at hnext
  obtain ⟨saga₁, heq, -, hconsumed₁⟩ := Saga.Next.keeps
    (fun _ _ _ _ hadv hp => (hadv.mem_consumed kind).mpr (Or.inl hp)) hnext hconsumed
  obtain rfl := Option.some.inj heq
  exact hnot hconsumed₁

/-- The event that leaves a reservation with this status. -/
def EventKind.leaving : Inventory.ReservationStatus → EventKind
  | .reserved => .reserveRequested
  | .released => .releaseRequested

namespace ServiceLaw

variable {β : Type} [DecidableEq β] {ρ : β → Type} {service : Service}
  {prog : Delivery → ServiceTx ρ Unit} {rule : Delivery → Rule β} {sagas sagas' : Sagas}
  {owner owner' : String → Option Owner} {n n' : Node ρ Delivery} {i : ℕ}
  {σ : Session (ServiceRow ρ) Error Unit Delivery}

/-- A transaction that has written a row of its service is for an event that is new. -/
theorem new_of_write (h : ServiceLaw service prog rule some sagas owner n)
    (hguard : ∀ delivery, (rule delivery).guard = eventKey delivery.message)
    (hσ : n.server.sessions i = some σ) {key : β} (hwrite : ServiceKey.own key ∈ σ.writes) :
    (rule σ.job).puts key ∧
      ∀ eventId, eventKey σ.job.message = some eventId → processedAt n.server.db eventId = none := by
  obtain ⟨g, hg⟩ := h.outbox.disciplined i σ hσ
  obtain ⟨row, hrow⟩ := Finmap.mem_iff.mp hwrite
  obtain ⟨-, hguarded, hputs⟩ := hg.writes (ServiceKey.own key) row hrow
  refine ⟨hputs, fun eventId hevent => ?_⟩
  rw [← hguard] at hevent
  exact Finmap.lookup_eq_none.mpr (hg.claimed _ (hguarded eventId hevent)).2.1

/-- When it commits, the event is consumed. -/
theorem consumes (h : ServiceLaw service prog rule some sagas owner n)
    (h' : ServiceLaw service prog rule some sagas' owner' n')
    (hrecords : Records service sagas n.server.db) (hdistinct : Distinct sagas)
    (hs : n.step prog (Work.commit i).act = some n') (hσ : n.server.sessions i = some σ)
    (hnew : ∀ eventId, eventKey σ.job.message = some eventId →
      processedAt n.server.db eventId = none) {o : String}
    (horder : orderIdOf σ.job.message.value = some o) :
    ∃ kind : EventKind, kind.consumer = service ∧ Consumes sagas sagas' o kind := by
  obtain ⟨-, o', saga, kind, htold⟩ := h.handling i σ σ.job hσ rfl
  rw [htold.announces.orderIdOf, htold.order] at horder
  obtain rfl := Option.some.inj horder
  have hfree := hnew _ (htold.announces.eventKey (saga.uuids kind htold.emitted))
  refine ⟨kind, htold.consumer, ⟨saga, htold.known, htold.emitted, fun hconsumed => ?_⟩, ?_⟩
  · exact (hrecords.processed_iff hdistinct htold).mpr hconsumed hfree
  · obtain ⟨server, hserver, rfl⟩ := Option.map_eq_some_iff.mp hs
    obtain ⟨τ, a, hτ, -, rfl⟩ := Server.commit_cases hserver
    obtain rfl := Option.some.inj (hσ.symm.trans hτ)
    obtain ⟨o'', saga'', kind'', htold'', hconsumed⟩ :=
      h'.handled σ.job (List.mem_append_right _ (List.mem_singleton.mpr rfl)) _ rfl
    obtain ⟨rfl, -, heq⟩ := htold.announces.unique htold''.announces
    rw [htold''.order, htold.order] at heq
    subst heq
    exact ⟨saga'', htold''.known, hconsumed⟩

end ServiceLaw

namespace Law

variable {stock : ServiceStore Inventory.Row} {sagas sagas' : Sagas}
  {owner owner' : String → Option Owner} {s s' : System} {o : String} {act : SystemAct}

/-- A payment is decided by the one event that asks for it. -/
theorem decides (h : Law stock sagas owner s) (h' : Law stock sagas' owner' s')
    (hs : s.step act = some s') (hdecides : s.Decides act o) :
    Consumes sagas sagas' o .paymentRequested := by
  obtain ⟨i, σ, rfl, hσ, hwrite⟩ := hdecides
  obtain ⟨hputs, hnew⟩ := h.payments.law.new_of_write (fun _ => rfl) hσ hwrite
  obtain ⟨payments, hpayments, rfl⟩ := Option.map_eq_some_iff.mp hs
  obtain ⟨kind, hconsumer, hconsumes⟩ := h.payments.law.consumes h'.payments.law
    h.payments.view.records h.owned.distinct hpayments hσ hnew hputs
  obtain rfl : kind = .paymentRequested := by
    cases kind <;> first | rfl | exact absurd hconsumer (by decide)
  exact hconsumes

/-- Stock is reserved by the one event that asks for it, and released by the other one. -/
theorem restocks (h : Law stock sagas owner s) (h' : Law stock sagas' owner' s')
    (hnext : Saga.Next (sagas o) (sagas' o)) (hs : s.step act = some s')
    {status : Inventory.ReservationStatus} (hrestocks : s.Restocks act o status) :
    Consumes sagas sagas' o (EventKind.leaving status) := by
  obtain ⟨i, σ, reservation, rfl, hσ, hrow, rfl⟩ := hrestocks
  obtain ⟨hputs, hnew⟩ := h.inventory.law.new_of_write (fun _ => rfl) hσ
    (Finmap.mem_iff.mpr ⟨reservation, hrow⟩)
  obtain ⟨inventory, hinventory, rfl⟩ := Option.map_eq_some_iff.mp hs
  obtain ⟨kind, hconsumer, hconsumes⟩ := h.inventory.law.consumes h'.inventory.law
    h.inventory.view.records h.owned.distinct hinventory hσ hnew hputs
  -- What was written is what is there now, so it tells which event it was.
  have hnow : ownRow inventory.server.db (.reservation o) = some reservation := by
    obtain ⟨server, hserver, rfl⟩ := Option.map_eq_some_iff.mp hinventory
    obtain ⟨τ, a, hτ, -, rfl⟩ := Server.commit_cases hserver
    obtain rfl := Option.some.inj (hσ.symm.trans hτ)
    exact (Finmap.lookup_union_left (Finmap.mem_iff.mpr ⟨reservation, hrow⟩)).trans hrow
  obtain ⟨saga', hsaga', hstatus⟩ := h'.saga_of_reservation hnow
  obtain ⟨saga, hsaga, hemitted, hnot⟩ := hconsumes.before
  obtain ⟨saga'', hsaga'', hconsumed⟩ := hconsumes.after
  obtain rfl := Option.some.inj (hsaga''.symm.trans hsaga')
  have hphase := Phase.pending_of_emitted hemitted hnot
  rw [hsaga, hsaga'] at hnext
  have hkind : kind = EventKind.leaving reservation.status := by
    cases hnext with
    | same => exact absurd hconsumed hnot
    | advance hplaced hids hadv =>
        rw [hphase] at hadv
        generalize saga''.phase = p' at hadv hstatus
        generalize reservation.status = status at hstatus ⊢
        cases kind <;> cases hadv <;> cases status <;>
          first | rfl | exact absurd hstatus (by decide) | exact absurd hconsumer (by decide)
  exact hkind ▸ hconsumes

end Law

/--
**A bounded saga.**  Whatever is repeated, an order has at most one event of each kind in
the three outboxes, never two outcomes of one thing, and at most five events in all; its
payment is decided by at most one transaction, and its stock is reserved by at most one
and released by at most one.
-/
theorem bounded_saga (stock : ServiceStore Inventory.Row) (hstock : OnlyItems stock) {s : System}
    (hreach : System.Reach stock s) (o : String) :
    (∀ (kind : EventKind) service id row service' id' row', s.outbox service id = some row →
      s.outbox service' id' = some row' → System.IsEvent kind o row →
      System.IsEvent kind o row' → service' = service ∧ id' = id) ∧
    ¬ (s.HasEvent .reserved o ∧ s.HasEvent .rejected o) ∧
    ¬ (s.HasEvent .succeeded o ∧ s.HasEvent .failed o) ∧
    (∀ rows : Finset (Service × String),
      (∀ entry ∈ rows, ∃ row, s.outbox entry.1 entry.2 = some row ∧
        orderIdOf row.payload = some o) → rows.card ≤ 5) ∧
    ∀ act s₁ s₂ act₂ s₂', s.step act = some s₁ → Relation.ReflTransGen System.Steps s₁ s₂ →
      s₂.step act₂ = some s₂' →
        ¬ (s.Decides act o ∧ s₂.Decides act₂ o) ∧
        ∀ status, ¬ (s.Restocks act o status ∧ s₂.Restocks act₂ o status) := by
  obtain ⟨sagas, owner, hlaw⟩ := Law.of_reach hstock hreach
  refine ⟨?_, hlaw.not_both fun p => ?_, hlaw.not_both fun p => ?_, fun rows => hlaw.card_rows rows,
    ?_⟩
  · intro kind service id row service' id' row' hrow hrow' hevent hevent'
    obtain ⟨saga, hsaga, -, hproducer, hid⟩ := hlaw.emitted_of_event hrow hevent
    obtain ⟨saga', hsaga', -, hproducer', hid'⟩ := hlaw.emitted_of_event hrow' hevent'
    obtain rfl := Option.some.inj (hsaga.symm.trans hsaga')
    exact ⟨hproducer'.symm.trans hproducer, hid'.symm.trans hid⟩
  · cases p <;> decide
  · cases p <;> decide
  · intro act s₁ s₂ act₂ s₂' hs hrun hs₂
    obtain ⟨sagas₁, owner₁, hlaw₁, hnext₁⟩ := hlaw.step hs
    obtain ⟨sagas₂, owner₂, hlaw₂, hnext₂⟩ := hlaw₁.run hrun
    obtain ⟨sagas₂', owner₂', hlaw₂', hnext₂'⟩ := hlaw₂.step hs₂
    constructor
    · intro ⟨hdecides, hdecides₂⟩
      exact (hlaw.decides hlaw₁ hs hdecides).once (hnext₂ o)
        (hlaw₂.decides hlaw₂' hs₂ hdecides₂)
    · intro status ⟨hrestocks, hrestocks₂⟩
      exact (hlaw.restocks hlaw₁ (hnext₁ o) hs hrestocks).once (hnext₂ o)
        (hlaw₂.restocks hlaw₂' (hnext₂' o) hs₂ hrestocks₂)

end CommercePlatform

namespace CommercePlatform.Sale

open Js Txn

attribute [local instance] platform

theorem bounded : ∃ s, System.run acts (System.start stock) = some s ∧
    (∀ (kind : EventKind) service id row service' id' row', s.outbox service id = some row →
      s.outbox service' id' = some row' → System.IsEvent kind (uuid 1) row →
      System.IsEvent kind (uuid 1) row' → service' = service ∧ id' = id) ∧
    ¬ (s.HasEvent .reserved (uuid 1) ∧ s.HasEvent .rejected (uuid 1)) ∧
    ¬ (s.HasEvent .succeeded (uuid 1) ∧ s.HasEvent .failed (uuid 1)) ∧
    (∀ rows : Finset (Service × String),
      (∀ entry ∈ rows, ∃ row, s.outbox entry.1 entry.2 = some row ∧
        orderIdOf row.payload = some (uuid 1)) → rows.card ≤ 5) ∧
    ∀ act s₁ s₂ act₂ s₂', s.step act = some s₁ → Relation.ReflTransGen System.Steps s₁ s₂ →
      s₂.step act₂ = some s₂' →
        ¬ (s.Decides act (uuid 1) ∧ s₂.Decides act₂ (uuid 1)) ∧
        ∀ status, ¬ (s.Restocks act (uuid 1) status ∧ s₂.Restocks act₂ (uuid 1) status) := by
  obtain ⟨s, hs, -⟩ := exists_sold
  exact ⟨s, hs, bounded_saga stock onlyItems (System.steps_of_run hs) (uuid 1)⟩

end CommercePlatform.Sale
