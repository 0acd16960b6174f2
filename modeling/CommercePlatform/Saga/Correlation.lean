/-
How far the correlation identifier goes.

The order service writes the identifier of a call into the headers of the first event, and what it
reads from the headers of an event it writes into those of its answer.  The inventory and the
payment service write nothing but the identifier of the event.  So the identifier gets no further
than the first event: as soon as a reserve command is carried out there is a row without it.  An
identifier that is empty is not even written into the first.
-/
import CommercePlatform.Saga.Idempotency

namespace CommercePlatform

open Js Txn

variable [Platform]

/-! ### What is claimed of a state, and what of a step -/

namespace System

/-- Every row for an order has the identifier of the call that the order was created for. -/
def Correlated (s : System) : Prop :=
  ∀ service id row o call, s.outbox service id = some row → orderIdOf row.payload = some o →
    s.CreatedFor o call → row.headers.lookup "correlationId" = some (.str call.correlationId)

omit [Platform] in
/-- The message is a reserve command. -/
def IsReserve (message : KafkaMessage) : Prop :=
  message.value.get "eventType" = .ok (some (.str EventKind.reserveRequested.eventType))

omit [Platform] in
/-- The step creates no order for an empty identifier, and carries out no reserve command. -/
structure Traces (s : System) (act : SystemAct) : Prop where
  created : ∀ o call, s.creates act = some (o, call) → call.correlationId ≠ ""
  reserved : ∀ i σ, act = .work .inventory (.commit i) → s.inventory.server.sessions i = some σ →
    ¬ IsReserve σ.job.message

/-- Every step of a run is such a step. -/
def TracedRun : List SystemAct → System → Prop
  | [], _ => True
  | act :: rest, s => s.Traces act ∧ ∀ s', s.step act = some s' → TracedRun rest s'

instance (message : KafkaMessage) : Decidable (IsReserve message) :=
  inferInstanceAs (Decidable (_ = _))

/-- What a step would carry out. -/
def carriedOut (s : System) : SystemAct → Option KafkaMessage
  | .work .inventory (.commit i) => (s.inventory.server.sessions i).map fun σ => σ.job.message
  | _ => none

omit [Platform] in
theorem traces_iff {s : System} {act : SystemAct} : s.Traces act ↔
    (∀ created ∈ s.creates act, created.2.correlationId ≠ "") ∧
      ∀ message ∈ s.carriedOut act, ¬ IsReserve message := by
  constructor
  · intro h
    refine ⟨fun created hcreated => h.created created.1 created.2 hcreated, fun message hmessage => ?_⟩
    unfold carriedOut at hmessage
    split at hmessage
    · obtain ⟨σ, hσ, rfl⟩ := Option.map_eq_some_iff.mp hmessage
      exact h.reserved _ σ rfl hσ
    · simp at hmessage
  · rintro ⟨hcreated, hreserved⟩
    refine ⟨fun o call hcreates => hcreated (o, call) hcreates, ?_⟩
    rintro i σ rfl hσ
    exact hreserved _ (Option.map_eq_some_iff.mpr ⟨σ, hσ, rfl⟩)

instance (s : System) (act : SystemAct) : Decidable (s.Traces act) := decidable_of_iff _ traces_iff.symm

instance decidableTracedRun : (acts : List SystemAct) → (s : System) → Decidable (TracedRun acts s)
  | [], _ => .isTrue trivial
  | act :: rest, s =>
      have := decidableTracedRun rest
      inferInstanceAs (Decidable (s.Traces act ∧ ∀ s' ∈ s.step act, TracedRun rest s'))

end System

/-! ### Rows -/

omit [Platform] in
theorem eventHeaders_correlationId (eventId : String) (correlationId : Option String) (text : String) :
    ((eventHeaders eventId correlationId).map fun field => (field.1, Json.str field.2)).lookup
        "correlationId" = some (.str text) ↔ correlationId = some text ∧ text ≠ "" := by
  cases correlationId with
  | none => simp [eventHeaders, List.lookup_cons]
  | some id =>
      by_cases hid : id = ""
      · simp [eventHeaders, hid, List.lookup_cons]
      · simp only [eventHeaders, hid, if_false, List.map_cons, List.map_nil, List.lookup_cons]
        constructor
        · intro h
          obtain rfl : id = text := by simpa using h
          exact ⟨rfl, hid⟩
        · rintro ⟨hsome, -⟩
          simpa using hsome

/-- Only the first event has the identifier. -/
theorem Placed.Describes.correlationId_iff {o : Placed} {kind : EventKind} {eventId : String}
    {row : OutboxRow} (h : o.Describes kind eventId row) :
    row.headers.lookup "correlationId" = some (.str o.call.correlationId) ↔
      kind = .reserveRequested ∧ o.call.correlationId ≠ "" := by
  rw [h.headers, eventHeaders_correlationId]
  cases kind <;> simp [Placed.correlationId]

omit [Platform] in
theorem Phase.eq_requested {p : Phase} (h : ∀ kind ∈ p.emitted, kind = .reserveRequested) :
    p = .requested := by
  revert h
  cases p <;> decide

omit [Platform] in
theorem Phase.Advance.ne_requested {p p' : Phase} {kind : EventKind} {out : Option EventKind}
    (h : Phase.Advance p kind out p') : p' ≠ .requested := by
  cases h <;> decide

/-! ### Orders, and the steps that create them -/

namespace System

variable {s s' : System} {act : SystemAct} {o : String} {call : Orders.CreateOrderCall}

/-- An order that is said to be created is new only after the step that creates it. -/
theorem creates_of_createdFor (hapart : s.orders.Apart) (hs : s.step act = some s')
    (hcreated : s'.CreatedFor o call) : s.CreatedFor o call ∨ s.creates act = some (o, call) := by
  obtain ⟨new, hturn, hlog⟩ := turn hapart hs
  obtain ⟨c, hevent⟩ := hcreated
  rw [hlog, List.mem_append] at hevent
  rcases hevent with hold | hnew
  · exact Or.inl ⟨c, hold⟩
  · refine Or.inr ?_
    cases hturn with
    | quiet hact hcalls hcreates => simp at hnew
    | @found c' call' outcome hidle hcalls hanswer =>
        obtain ⟨rfl, rfl, rfl⟩ : c = c' ∧ call = call' ∧
            .answered (.created o) = outcome := by simpa using hnew
        rcases hanswer with ⟨e, -, hraised⟩ | ⟨existing, -, hexisting⟩
        · simp at hraised
        · unfold Orders.answerExisting at hexisting
          split at hexisting
          · simp at hexisting
          · split at hexisting <;> simp at hexisting
    | missed hidle hfind hcalls => simp at hnew
    | @created c' call' o' choices hjob hcall hcalls =>
        obtain ⟨rfl, rfl, rfl⟩ : c = c' ∧ call = call' ∧ o = o' := by simpa using hnew
        simp [creates, Orders.Desk.creates, hjob]
    | raised hjob hcall hcalls => simp at hnew

end System

namespace Law

variable {stock : ServiceStore Inventory.Row} {sagas : Sagas} {owner : String → Option Owner}
  {s s' : System}

/-- **The identifiers are where they should be as long as no saga has begun.** -/
theorem correlated_iff (h : Law stock sagas owner s) : s.Correlated ↔
    ∀ o saga, sagas o = some saga → saga.phase = .requested ∧ saga.call.correlationId ≠ "" := by
  constructor
  · intro hcorrelated o saga hsaga
    have hfirst : ∀ kind ∈ saga.phase.emitted,
        kind = .reserveRequested ∧ saga.call.correlationId ≠ "" := by
      intro kind hkind
      obtain ⟨row, hrow, hdescribes⟩ := h.row hsaga hkind
      have horder : orderIdOf row.payload = some o := by
        have hid : orderIdOf row.payload = some saga.orderId := hdescribes.announces.orderIdOf
        rw [hid, h.owned.keyed o saga hsaga]
      have hheader := hcorrelated _ _ row o saga.call hrow horder (h.desk.placed o saga hsaga)
      exact hdescribes.correlationId_iff.mp hheader
    have hphase := Phase.eq_requested fun kind hkind => (hfirst kind hkind).1
    refine ⟨hphase, (hfirst .reserveRequested ?_).2⟩
    rw [hphase]
    decide
  · intro hsagas service id row o call hrow horder hcreated
    obtain ⟨o', saga, kind, hsaga, hkind, -, -, hdescribes⟩ := h.event hrow
    have hid : orderIdOf row.payload = some saga.orderId := hdescribes.announces.orderIdOf
    rw [hid, h.owned.keyed o' saga hsaga] at horder
    obtain rfl := Option.some.inj horder
    obtain ⟨saga', hsaga', rfl⟩ := h.call_of_created hcreated
    obtain rfl := Option.some.inj (hsaga.symm.trans hsaga')
    obtain ⟨hphase, hcall⟩ := hsagas o' saga hsaga
    rw [hphase] at hkind
    have hfirst : kind = .reserveRequested := by simpa [Phase.emitted] using hkind
    exact hdescribes.correlationId_iff.mpr ⟨hfirst, hcall⟩

/-- As long as no saga has begun, the inventory service has processed nothing. -/
theorem processed_eq_none (h : Law stock sagas owner s)
    (hphase : ∀ o saga, sagas o = some saga → saga.phase = .requested) (eventId : String) :
    processedAt s.inventoryDb eventId = none := by
  by_contra hne
  obtain ⟨o, saga, kind, hsaga, hkind, -⟩ := (h.inventory.view.records.processed eventId).mp hne
  rw [hphase o saga hsaga] at hkind
  simp [Phase.consumed, Phase.emitted, Phase.pending] at hkind

/-- What the inventory service has processed changes with its commits only. -/
theorem processed_step (h : Law stock sagas owner s) {act : SystemAct}
    (hs : s.step act = some s') :
    (∃ i σ, act = .work .inventory (.commit i) ∧ s.inventory.server.sessions i = some σ) ∨
      ∀ eventId, processedAt s'.inventoryDb eventId = processedAt s.inventoryDb eventId := by
  cases act with
  | lookUp c call =>
      obtain ⟨-, hinventory, -⟩ := System.lookUp_cases hs
      exact Or.inr fun eventId => by rw [System.inventoryDb, hinventory]
  | insert c orderId choices =>
      obtain ⟨-, -, hinventory, -⟩ := System.insert_cases hs
      exact Or.inr fun eventId => by rw [System.inventoryDb, hinventory]
  | deliver service i source offset choices =>
      obtain ⟨message, -, s₁, -, -, hdeliver, rfl⟩ := System.deliver_cases hs
      refine Or.inr fun eventId => ?_
      cases service with
      | orders =>
          obtain ⟨orders, -, rfl⟩ := Option.map_eq_some_iff.mp hdeliver
          rfl
      | inventory =>
          obtain ⟨inventory, hinventory, rfl⟩ := Option.map_eq_some_iff.mp hdeliver
          obtain ⟨hdb, -⟩ := Node.begin_cases hinventory
          show processedAt inventory.server.db eventId = _
          rw [hdb]
      | payments =>
          obtain ⟨payments, -, rfl⟩ := Option.map_eq_some_iff.mp hdeliver
          rfl
  | work service w =>
      cases service with
      | orders =>
          obtain ⟨orders, -, rfl⟩ := Option.map_eq_some_iff.mp hs
          exact Or.inr fun _ => rfl
      | payments =>
          obtain ⟨payments, -, rfl⟩ := Option.map_eq_some_iff.mp hs
          exact Or.inr fun _ => rfl
      | inventory =>
          obtain ⟨inventory, hinventory, rfl⟩ := Option.map_eq_some_iff.mp hs
          rcases Node.work_cases h.inventory.law.sound hinventory with
            ⟨i, σ, rfl, hσ, -⟩ | ⟨halike, -⟩
          · exact Or.inl ⟨i, σ, rfl, hσ⟩
          · exact Or.inr halike.processed

/-- The message that a commit of the inventory service handles is an event of a saga. -/
theorem handled_of_commit (h : Law stock sagas owner s) {i : ℕ}
    {σ : Session (ServiceRow Inventory.Row) Error Unit Delivery}
    (hσ : s.inventory.server.sessions i = some σ)
    (hs : s.step (.work .inventory (.commit i)) = some s') :
    (∃ o saga kind, Told .inventory sagas o saga kind σ.job.message) ∧ ∃ sagas' owner',
      Law stock sagas' owner' s' ∧ (∀ o, Saga.Next (sagas o) (sagas' o)) ∧
      ∃ o saga kind, Told .inventory sagas' o saga kind σ.job.message ∧
        kind ∈ saga.phase.consumed := by
  obtain ⟨sagas', owner', hlaw, hnext⟩ := h.work hs
  refine ⟨(h.inventory.law.handling i σ σ.job hσ rfl).2, sagas', owner', hlaw, hnext, ?_⟩
  refine hlaw.inventory.law.handled σ.job ?_ σ.job rfl
  obtain ⟨inventory, hinventory, rfl⟩ := Option.map_eq_some_iff.mp hs
  rcases Node.work_cases h.inventory.law.sound hinventory with
    ⟨j, τ, hj, hτ, -, hhistory⟩ | ⟨-, -, hcommit⟩
  · obtain rfl : i = j := by simpa using hj
    obtain rfl := Option.some.inj (hσ.symm.trans hτ)
    show σ.job ∈ inventory.server.history
    rw [hhistory]
    simp
  · exact absurd rfl (hcommit i)

theorem reserve_of_told {service : Service} {o : String} {saga : Saga}
    {kind : EventKind} {message : KafkaMessage} (h : Told service sagas o saga kind message) :
    System.IsReserve message ↔ kind = .reserveRequested := by
  have htype := h.announces.get "eventType"
  rw [Placed.payload_eventType] at htype
  rw [System.IsReserve, htype]
  constructor
  · intro hsame
    exact EventKind.eventType_injective (by simpa using hsame)
  · rintro rfl
    rfl

/-- A step that keeps the identifiers where they should be is one that traces them. -/
theorem correlated_step (h : Law stock sagas owner s) {act : SystemAct}
    (hs : s.step act = some s') (hcorrelated : s.Correlated) :
    s'.Correlated ↔ s.Traces act := by
  have hsagas := h.correlated_iff.mp hcorrelated
  constructor
  · intro hcorrelated'
    refine ⟨fun o call hcreates => ?_, fun i σ hact hσ hreserve => ?_⟩
    · obtain ⟨sagas', owner', hlaw, -⟩ := h.step hs
      obtain ⟨saga, hsaga, rfl⟩ := hlaw.call_of_created (System.createdFor_of_creates hs hcreates)
      exact (hlaw.correlated_iff.mp hcorrelated' o saga hsaga).2
    · subst hact
      obtain ⟨-, sagas', owner', hlaw, -, o, saga, kind, htold, hconsumed⟩ :=
        h.handled_of_commit hσ hs
      have hphase := (hlaw.correlated_iff.mp hcorrelated' o saga htold.known).1
      rw [hphase] at hconsumed
      simp [Phase.consumed, Phase.emitted, Phase.pending] at hconsumed
  · intro htraces
    obtain ⟨sagas', owner', hlaw, hnext⟩ := h.step hs
    have hnone : ∀ eventId, processedAt s'.inventoryDb eventId = none := by
      intro eventId
      rcases h.processed_step hs with ⟨i, σ, rfl, hσ⟩ | hsame
      · obtain ⟨⟨o, saga, kind, htold⟩, -⟩ := h.handled_of_commit hσ hs
        have hkind := htold.emitted
        rw [(hsagas o saga htold.known).1] at hkind
        have hfirst : kind = .reserveRequested := by simpa [Phase.emitted] using hkind
        exact absurd ((reserve_of_told htold).mpr hfirst) (htraces.reserved i σ rfl hσ)
      · rw [hsame, h.processed_eq_none (fun o saga hsaga => (hsagas o saga hsaga).1)]
    refine hlaw.correlated_iff.mpr fun o saga hsaga => ?_
    have hcall : saga.call.correlationId ≠ "" := by
      have hcreated' := hlaw.desk.placed o saga hsaga
      rcases System.creates_of_createdFor h.desk.apart hs hcreated' with hcreated | hcreates
      · obtain ⟨before, hbefore, hsame⟩ := h.call_of_created hcreated
        rw [← hsame]
        exact (hsagas o before hbefore).2
      · exact htraces.created o saga.call hcreates
    refine ⟨?_, hcall⟩
    have hstep := hnext o
    rw [hsaga] at hstep
    cases hstep' : sagas o with
    | none =>
        rw [hstep'] at hstep
        cases hstep with
        | opened hphase => exact hphase
    | some before =>
        rw [hstep'] at hstep
        cases hstep with
        | same => exact (hsagas o saga hstep').1
        | @advance _ _ kind out hplaced hids hadv =>
            -- The saga would have begun, and so the inventory service would have processed it.
            have hphase := (hsagas o before hstep').1
            rw [hphase] at hadv
            have hkind : kind = .reserveRequested := by
              have hpending := hadv.pending
              simpa [Phase.pending, eq_comm] using hpending
            subst hkind
            have hconsumed : EventKind.reserveRequested ∈ saga.phase.consumed :=
              (hadv.mem_consumed _).mpr (Or.inr rfl)
            have hprocessed := (hlaw.inventory.view.records.processed
              (saga.eventId .reserveRequested)).mpr ⟨o, saga, _, hsaga, hconsumed, rfl, rfl⟩
            exact absurd (hnone _) hprocessed

/-- An identifier that is missing stays missing. -/
theorem correlated_of_step (h : Law stock sagas owner s) {act : SystemAct}
    (hs : s.step act = some s') (hcorrelated' : s'.Correlated) : s.Correlated := by
  obtain ⟨sagas', owner', hlaw, hnext⟩ := h.step hs
  refine h.correlated_iff.mpr fun o saga hsaga => ?_
  have hstep := hnext o
  rw [hsaga] at hstep
  generalize hafter : sagas' o = after at hstep
  cases hstep with
  | same => exact hlaw.correlated_iff.mp hcorrelated' o saga hafter
  | @advance _ saga' kind out hplaced hids hadv =>
      exact absurd (hlaw.correlated_iff.mp hcorrelated' o saga' hafter).1 hadv.ne_requested

end Law

theorem System.correlated_start (stock : ServiceStore Inventory.Row) (hstock : OnlyItems stock) :
    (System.start stock).Correlated := by
  refine (Law.start hstock).correlated_iff.mpr fun o saga hsaga => ?_
  simp at hsaga

theorem System.correlated_of_run {stock : ServiceStore Inventory.Row} (hstock : OnlyItems stock)
    {acts : List SystemAct} {s s' : System} (hreach : System.Reach stock s)
    (hrun : System.run acts s = some s') (hcorrelated' : s'.Correlated) : s.Correlated := by
  induction acts generalizing s with
  | nil =>
      obtain rfl := Option.some.inj hrun
      exact hcorrelated'
  | cons act rest ih =>
      obtain ⟨s₁, hs, hrest⟩ := Option.bind_eq_some_iff.mp hrun
      obtain ⟨sagas, owner, hlaw⟩ := Law.of_reach hstock hreach
      exact hlaw.correlated_of_step hs (ih (hreach.tail ⟨act, hs⟩) hrest)

theorem System.correlated_run_iff {stock : ServiceStore Inventory.Row} (hstock : OnlyItems stock)
    {acts : List SystemAct} {s s' : System} (hreach : System.Reach stock s)
    (hcorrelated : s.Correlated) (hrun : System.run acts s = some s') :
    s'.Correlated ↔ System.TracedRun acts s := by
  induction acts generalizing s with
  | nil =>
      obtain rfl := Option.some.inj hrun
      exact ⟨fun _ => trivial, fun _ => hcorrelated⟩
  | cons act rest ih =>
      obtain ⟨s₁, hs, hrest⟩ := Option.bind_eq_some_iff.mp hrun
      obtain ⟨sagas, owner, hlaw⟩ := Law.of_reach hstock hreach
      have hreach₁ : System.Reach stock s₁ := hreach.tail ⟨act, hs⟩
      constructor
      · intro hcorrelated'
        have hcorrelated₁ := System.correlated_of_run hstock hreach₁ hrest hcorrelated'
        refine ⟨(hlaw.correlated_step hs hcorrelated).mp hcorrelated₁, fun s₂ hs₂ => ?_⟩
        obtain rfl := Option.some.inj (hs.symm.trans hs₂)
        exact (ih hreach₁ hcorrelated₁ hrest).mp hcorrelated'
      · intro ⟨htraces, htraced⟩
        have hcorrelated₁ := (hlaw.correlated_step hs hcorrelated).mpr htraces
        exact (ih hreach₁ hcorrelated₁ hrest).mpr (htraced s₁ hs)

/--
**How far the identifier goes.**  After a run every row for an order has the identifier of its
call exactly if no step of the run has created an order for an empty identifier, or carried out
a reserve command.
-/
theorem correlated_runs (stock : ServiceStore Inventory.Row) (hstock : OnlyItems stock)
    {acts : List SystemAct} {s : System} (hrun : System.run acts (System.start stock) = some s) :
    s.Correlated ↔ System.TracedRun acts (System.start stock) :=
  System.correlated_run_iff hstock .refl (System.correlated_start stock hstock) hrun

end CommercePlatform

/-! ### A sale, and the answer to its first command -/

namespace CommercePlatform.Sale

open Js Txn

attribute [local instance] platform

/-- All is well until the stock is reserved, and no longer. -/
theorem correlated_runs_sold : ∃ s s', System.run (acts.take 23) (System.start stock) = some s ∧
    System.run acts (System.start stock) = some s' ∧ s.CreatedFor (uuid 1) call ∧
    s.Correlated ∧ ¬ s'.Correlated := by
  have hcreated : ((System.run (acts.take 23) (System.start stock)).any fun s =>
      .ended 1 call (.answered (.created (uuid 1))) ∈ s.orders.log) = true := by decide +kernel
  have htraced : System.TracedRun (acts.take 23) (System.start stock) := by decide +kernel
  have hcut : ¬ System.TracedRun acts (System.start stock) := by decide +kernel
  obtain ⟨s, hs, hcreated⟩ := (Option.any_eq_true _ _).mp hcreated
  obtain ⟨s', hs', -⟩ := exists_sold
  exact ⟨s, s', hs, hs', ⟨1, of_decide_eq_true hcreated⟩,
    (correlated_runs stock onlyItems hs).mpr htraced,
    fun h => hcut ((correlated_runs stock onlyItems hs').mp h)⟩

/-- The event that the stock is reserved has no header but the identifier of the event. -/
theorem dropped : ∃ s row, System.run acts (System.start stock) = some s ∧
    s.outbox .inventory (uuid 5) = some row ∧ orderIdOf row.payload = some (uuid 1) ∧
    s.CreatedFor (uuid 1) call ∧ row.headers = [("eventId", .str (uuid 4))] ∧
    row.headers.lookup "correlationId" ≠ some (.str call.correlationId) := by
  have hends : ((System.run acts (System.start stock)).any fun s =>
      .ended 1 call (.answered (.created (uuid 1))) ∈ s.orders.log &&
        (s.outbox .inventory (uuid 5)).any fun row =>
          orderIdOf row.payload = some (uuid 1) ∧
            row.headers = [("eventId", .str (uuid 4))]) = true := by
    decide +kernel
  obtain ⟨s, hs, hends⟩ := (Option.any_eq_true _ _).mp hends
  obtain ⟨hcreated, hends⟩ := (Bool.and_eq_true ..).mp hends
  obtain ⟨row, hrow, hends⟩ := (Option.any_eq_true _ _).mp hends
  obtain ⟨horder, hheaders⟩ := of_decide_eq_true hends
  refine ⟨s, row, hs, hrow, horder, ⟨1, of_decide_eq_true hcreated⟩, hheaders, ?_⟩
  rw [hheaders]
  simp [List.lookup_cons]

end CommercePlatform.Sale
