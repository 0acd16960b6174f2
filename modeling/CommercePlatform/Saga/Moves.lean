/-
What one transaction does to the sagas.

A transaction that commits either leaves the sagas alone, as its event was consumed
before, or takes one of them on, or opens a new one.  Whichever it is, the other two
services see nothing of it but a saga that has gone on.
-/
import CommercePlatform.Inventory.Concurrent
import CommercePlatform.Saga.Law

namespace CommercePlatform

open Js Txn

variable [Platform]

/-- What attempt `i` of a service makes of the sagas, and of the owners of identifiers. -/
inductive Moves (service : Service) (i : ℕ) (sagas : Sagas) (owner : String → Option Owner) :
    Sagas → (String → Option Owner) → Prop where
  | stay : Moves service i sagas owner sagas owner
  | advance {o : String} {saga : Saga} {kind : EventKind} {out : Option EventKind} {p' : Phase}
      {choices : Choices} (hsaga : sagas o = some saga) (hconsumer : kind.consumer = service)
      (hadv : Phase.Advance saga.phase kind out p') (hdrawn : Drawn owner service i choices) :
      Moves service i sagas owner
        (Function.update sagas o (some (saga.advance hadv choices hdrawn.event)))
        (settle owner o choices out)
  | opened {o : String} {placed : Placed} {choices : Choices} (hservice : service = .orders)
      (hnone : sagas o = none) (hkeyed : placed.orderId = o)
      (hdrawn : Drawn owner service i choices) (howner : owner o = some (.attempt service i))
      (hevent : o ≠ choices.eventId) (hrow : o ≠ choices.rowId) :
      Moves service i sagas owner
        (Function.update sagas o (some (.opened placed choices hdrawn.event)))
        (settle (Function.update owner o (some (.order o))) o choices (some .reserveRequested))

/-- What a step makes of the saga of one order. -/
inductive Saga.Next : Option Saga → Option Saga → Prop where
  | same (saga : Option Saga) : Next saga saga
  | opened {saga : Saga} (hphase : saga.phase = .requested) : Next none (some saga)
  | advance {saga saga' : Saga} {kind : EventKind} {out : Option EventKind}
      (hplaced : saga'.toPlaced = saga.toPlaced)
      (hids : ∀ k ∈ saga.phase.emitted, saga'.eventId k = saga.eventId k)
      (hadv : Phase.Advance saga.phase kind out saga'.phase) : Next (some saga) (some saga')

namespace Moves

variable {service : Service} {i : ℕ} {sagas sagas' : Sagas} {owner owner' : String → Option Owner}
  {uuids : List String}

theorem owned (h : Moves service i sagas owner sagas' owner') (howned : Owned sagas owner uuids) :
    Owned sagas' owner' uuids := by
  cases h with
  | stay => exact howned
  | advance hsaga hconsumer hadv hdrawn => exact howned.advance hsaga hadv hdrawn
  | opened hservice hnone hkeyed hdrawn howner hevent hrow =>
      exact howned.opened hnone hkeyed hdrawn howner hevent hrow

theorem extends_sagas (h : Moves service i sagas owner sagas' owner') : Extends sagas sagas' := by
  cases h with
  | stay => exact .refl sagas
  | advance hsaga hconsumer hadv hdrawn =>
      exact .of_grows (hsaga ▸ Saga.grows_advance _ hadv _ hdrawn.event)
  | opened hservice hnone hkeyed hdrawn =>
      exact .of_grows (hnone ▸ Saga.grows_opened _ _ hdrawn.event)

/-- No other attempt loses an identifier. -/
theorem keeps (h : Moves service i sagas owner sagas' owner') {service' : Service} {j : ℕ}
    (hother : service' = service → j ≠ i) {id : String}
    (hid : owner id = some (.attempt service' j)) : owner' id = some (.attempt service' j) := by
  have hne : Owner.attempt service' j ≠ .attempt service i := by
    intro heq
    simp only [Owner.attempt.injEq] at heq
    exact hother heq.1 heq.2
  cases h with
  | stay => exact hid
  | advance hsaga hconsumer hadv hdrawn => exact hdrawn.settle hne hid
  | @opened o placed choices hservice hnone hkeyed hdrawn howner hevent hrow =>
      have hido : id ≠ o := by
        intro heq
        rw [heq, howner] at hid
        exact hne (Option.some.inj hid).symm
      have hidevent : id ≠ choices.eventId := by
        intro heq
        rw [heq, hdrawn.ownsEvent] at hid
        exact hne (Option.some.inj hid).symm
      have hidrow : id ≠ choices.rowId := by
        intro heq
        rw [heq, hdrawn.ownsRow] at hid
        exact hne (Option.some.inj hid).symm
      rw [settle_of_ne id hidevent hidrow, Function.update_of_ne hido, hid]

theorem next (h : Moves service i sagas owner sagas' owner') (o : String) :
    Saga.Next (sagas o) (sagas' o) := by
  cases h with
  | stay => exact .same _
  | @advance o' saga kind out p' choices hsaga hconsumer hadv hdrawn =>
      by_cases ho : o = o'
      · subst ho
        rw [Function.update_self, hsaga]
        refine .advance rfl (fun k hk => ?_) hadv
        exact ((saga.grows_advance hadv choices hdrawn.event).ids saga k rfl hk).1
      · rw [Function.update_of_ne ho]
        exact .same _
  | @opened o' placed choices hservice hnone hkeyed hdrawn =>
      by_cases ho : o = o'
      · subst ho
        rw [Function.update_self, hnone]
        exact .opened rfl
      · rw [Function.update_of_ne ho]
        exact .same _

end Moves

/-- Which saga there is after a step that was not there before. -/
structure Opens (sagas sagas' : Sagas) (new : Option (String × Orders.CreateOrderCall)) : Prop where
  only : ∀ o saga, sagas o = none → sagas' o = some saga → new = some (o, saga.call)
  present : ∀ o call, new = some (o, call) → ∃ saga, sagas' o = some saga ∧ saga.call = call

namespace Opens

variable {sagas : Sagas}

theorem stay : Opens sagas sagas none where
  only o saga hnone hsaga := by simp [hnone] at hsaga
  present o call hnew := by simp at hnew

theorem advance {o : String} {saga saga' : Saga} (hsaga : sagas o = some saga) :
    Opens sagas (Function.update sagas o (some saga')) none where
  only o' after hnone hafter := by
    by_cases ho : o' = o
    · rw [ho, hsaga] at hnone
      simp at hnone
    · rw [Function.update_of_ne ho, hnone] at hafter
      simp at hafter
  present o' call hnew := by simp at hnew

theorem opened {o : String} {saga : Saga} :
    Opens sagas (Function.update sagas o (some saga)) (some (o, saga.call)) where
  only o' after hnone hafter := by
    by_cases ho : o' = o
    · subst ho
      rw [Function.update_self] at hafter
      obtain rfl := Option.some.inj hafter
      rfl
    · rw [Function.update_of_ne ho, hnone] at hafter
      simp at hafter
  present o' call hnew := by
    obtain ⟨rfl, rfl⟩ := Prod.mk.inj (Option.some.inj hnew)
    exact ⟨saga, Function.update_self _ _ _, rfl⟩

end Opens

/-- Only the order service opens sagas. -/
theorem Moves.opens {service : Service} {i : ℕ} {sagas sagas' : Sagas}
    {owner owner' : String → Option Owner} (h : Moves service i sagas owner sagas' owner')
    (hservice : service ≠ .orders) : Opens sagas sagas' none := by
  cases h with
  | stay => exact .stay
  | advance hsaga => exact .advance hsaga
  | opened horders => exact absurd horders hservice

/-- An event that takes a saga on is one that it has then consumed. -/
theorem Told.advance {service : Service} {sagas : Sagas} {o : String} {saga : Saga}
    {kind : EventKind} {message : KafkaMessage} (h : Told service sagas o saga kind message)
    {out : Option EventKind} {p' : Phase} (hadv : Phase.Advance saga.phase kind out p')
    {choices : Choices} (hevent : IsUuid choices.eventId) :
    Told service (Function.update sagas o (some (saga.advance hadv choices hevent))) o
        (saga.advance hadv choices hevent) kind message ∧
      kind ∈ (saga.advance hadv choices hevent).phase.consumed := by
  have hext := Extends.of_grows (h.known ▸ saga.grows_advance hadv choices hevent)
  obtain ⟨saga', htold, -⟩ := h.mono hext
  have hknown := htold.known
  rw [Function.update_self] at hknown
  obtain rfl := Option.some.inj hknown
  exact ⟨htold, (hadv.mem_consumed kind).mpr (Or.inr rfl)⟩

/-! ### The order service -/

def Orders.Job.delivery : Orders.Job → Option Delivery
  | .create _ _ _ => none
  | .saga delivery => some delivery

/-- The identifiers that were drawn for a new order. -/
structure Creating (owner : String → Option Owner) (i : ℕ) (o : String) (choices : Choices) :
    Prop where
  drawn : Drawn owner .orders i choices
  order : IsUuid o
  owns : owner o = some (.attempt .orders i)
  ne_event : o ≠ choices.eventId
  ne_row : o ≠ choices.rowId

theorem Creating.mono {owner owner' : String → Option Owner} {i : ℕ} {o : String}
    {choices : Choices} (h : Creating owner i o choices)
    (howner : ∀ id, owner id = some (.attempt .orders i) → owner' id = some (.attempt .orders i)) :
    Creating owner' i o choices where
  drawn := ⟨h.drawn.event, h.drawn.row, howner _ h.drawn.ownsEvent, howner _ h.drawn.ownsRow,
    h.drawn.ne⟩
  order := h.order
  owns := howner _ h.owns
  ne_event := h.ne_event
  ne_row := h.ne_row

/-- What holds of the order service. -/
structure OrdersLaw (sagas : Sagas) (owner : String → Option Owner)
    (n : Node Orders.Row Orders.Job) : Prop where
  view : OrdersView sagas n.server.db
  law : ServiceLaw .orders Orders.Job.body Orders.Job.rule Orders.Job.delivery sagas owner n
  creating : ∀ i σ call o choices, n.server.sessions i = some σ →
    σ.job = .create call o choices → Creating owner i o choices
  misses : n.server.MissesNothing

namespace OrdersLaw

variable {sagas sagas' : Sagas} {owner owner' : String → Option Owner}
  {n n' : Node Orders.Row Orders.Job} {uuids : List String}

theorem unshadowed (h : OrdersLaw sagas owner n) (i : ℕ) : n.server.Unshadowed i := by
  intro σ hσ j τ hj hτ k hpeek
  obtain ⟨g, hg⟩ := h.law.outbox.disciplined j τ hτ
  rcases List.mem_append.mp hpeek with hread | hmiss
  · obtain ⟨-, key, -, hreads⟩ := hg.reads k hread
    cases hjob : τ.job <;> simp only [hjob] at hreads <;> exact hreads.elim
  · rw [h.misses j τ hτ] at hmiss
    simp at hmiss

/-- The order that a saga event is about is there. -/
theorem present (h : OrdersLaw sagas owner n) {job : Orders.Job}
    (htold : ∀ d, job.delivery = some d → ∃ o saga kind, Told .orders sagas o saga kind d.message)
    (key : Orders.Key) (hkey : job.rule.misses key) : ownRow n.server.db key ≠ none := by
  cases job with
  | create call o choices => exact hkey.elim
  | saga delivery =>
      obtain ⟨orderId, rfl, horder⟩ := hkey
      obtain ⟨o, saga, kind, htold⟩ := htold delivery rfl
      rw [htold.announces.orderIdOf, htold.order] at horder
      obtain rfl := Option.some.inj horder
      rw [h.view.order, htold.known]
      simp

/-- The service is not concerned when the sagas go on elsewhere. -/
theorem elsewhere (h : OrdersLaw sagas owner n) {service : Service} {i : ℕ}
    (hmoves : Moves service i sagas owner sagas' owner') (hservice : service ≠ .orders) :
    OrdersLaw sagas' owner' n where
  view := by
    cases hmoves with
    | stay => exact h.view
    | advance hsaga hconsumer hadv hdrawn =>
        exact h.view.elsewhere hsaga hadv hdrawn.event (hconsumer ▸ hservice)
    | opened horders => exact absurd horders hservice
  law := h.law.mono hmoves.extends_sagas fun j id hid =>
    hmoves.keeps (fun heq => absurd heq.symm hservice) hid
  creating j τ call o choices hτ hjob := (h.creating j τ call o choices hτ hjob).mono fun id hid =>
    hmoves.keeps (fun heq => absurd heq.symm hservice) hid
  misses := h.misses

theorem mono_owner (h : OrdersLaw sagas owner n)
    (howner : ∀ id who, owner id = some who → owner' id = some who) :
    OrdersLaw sagas owner' n where
  view := h.view
  law := h.law.mono (.refl sagas) fun _ id hid => howner id _ hid
  creating j τ call o choices hτ hjob :=
    (h.creating j τ call o choices hτ hjob).mono fun id hid => howner id _ hid
  misses := h.misses

theorem begin (h : OrdersLaw sagas owner n) {i : ℕ} {job : Orders.Job}
    (hs : n.step Orders.Job.body (.business (.begin i job)) = some n')
    (hcreate : ∀ call o choices, job = .create call o choices → Creating owner i o choices)
    (hsaga : ∀ d, job.delivery = some d → Drawn owner .orders i d.choices ∧
      ∃ o saga kind, Told .orders sagas o saga kind d.message) :
    OrdersLaw sagas owner n' := by
  obtain ⟨hdb, -, -, hsessions⟩ := Node.begin_cases hs
  have hlaw := h.law.begin Orders.obeys_body h.unshadowed hs hsaga
  refine ⟨hdb ▸ h.view, hlaw, fun j τ call o choices hτ hjob => ?_, ?_⟩
  · rcases hsessions j τ hτ with hold | ⟨rfl, hnew⟩
    · exact h.creating j τ call o choices hold hjob
    · exact hcreate call o choices (hnew.symm.trans hjob)
  · refine Node.missesNothing_step h.misses hlaw.outbox (fun j τ hτ key hkey => ?_) hs
    exact h.present (fun d hd => (hlaw.handling j τ d hτ hd).2) key hkey

theorem misses_work (h : OrdersLaw sagas owner n) {w : Work}
    (hs : n.step Orders.Job.body w.act = some n') : n'.server.MissesNothing := by
  refine Node.missesNothing_step h.misses (h.law.outbox.step Orders.obeys_body hs)
    (fun j τ hτ key hkey => ?_) hs
  obtain ⟨σ, hσ, hjob⟩ := Node.work_sessions hs hτ
  rw [← hjob] at hkey
  exact h.present (fun d hd => (h.law.handling j σ d hσ hd).2) key hkey

theorem commit (h : OrdersLaw sagas owner n) {i : ℕ}
    (hs : n.step Orders.Job.body (Work.commit i).act = some n')
    (hmoves : Moves .orders i sagas owner sagas' owner') (hview : OrdersView sagas' n'.server.db)
    {σ : Session (ServiceRow Orders.Row) Error Unit Orders.Job}
    (hhistory : n'.server.history = n.server.history ++ [σ.job])
    (hdone : ∀ d, σ.job.delivery = some d →
      ∃ o saga kind, Told .orders sagas' o saga kind d.message ∧ kind ∈ saga.phase.consumed) :
    OrdersLaw sagas' owner' n' where
  view := hview
  law := h.law.commit Orders.obeys_body h.unshadowed hs hhistory hmoves.extends_sagas
    (fun _ _ hj hid => hmoves.keeps (fun _ => hj) hid) hdone
  creating j τ call o choices hτ hjob := by
    have hj : j ≠ i := by
      intro heq
      rw [heq, Node.commit_sessions hs] at hτ
      simp at hτ
    obtain ⟨υ, hυ, hjob'⟩ := Node.work_sessions hs hτ
    exact (h.creating j υ call o choices hυ (hjob'.trans hjob)).mono
      fun id hid => hmoves.keeps (fun _ => hj) hid
  misses := h.misses_work hs

theorem work (h : OrdersLaw sagas owner n) (howned : Owned sagas owner uuids) {w : Work}
    (hs : n.step Orders.Job.body w.act = some n') :
    ∃ i sagas' owner', Moves .orders i sagas owner sagas' owner' ∧ OrdersLaw sagas' owner' n' ∧
      Opens sagas sagas' (Orders.Desk.creates n w) := by
  rcases Node.work_cases h.law.sound hs with
    ⟨i, σ, rfl, hσ, hrun, hhistory⟩ | ⟨halike, hhistory, hcommit⟩
  · refine ⟨i, ?_⟩
    cases hjob : σ.job with
    | create call o choices =>
        have hc := h.creating i σ call o choices hσ hjob
        have hnew : Orders.Desk.creates n (.commit i) = some (o, call) := by
          simp [Orders.Desk.creates, Orders.Desk.jobOf, hσ, hjob]
        rw [hjob] at hrun
        obtain ⟨hnone, placed, rfl, hkeyed, hview⟩ :=
          h.view.create hc.order hc.drawn.event hc.drawn.row hrun
        have hmoves := Moves.opened rfl hnone hkeyed hc.drawn hc.owns hc.ne_event hc.ne_row
        refine ⟨_, _, hmoves, h.commit hs hmoves hview hhistory fun d hd => ?_, hnew ▸ .opened⟩
        simp [hjob, Orders.Job.delivery] at hd
    | saga delivery =>
        obtain ⟨hdrawn, o, saga, kind, htold⟩ :=
          h.law.handling i σ delivery hσ (by rw [hjob]; rfl)
        have hdelivery : ∀ d, σ.job.delivery = some d → d = delivery := by
          intro d hd
          rw [hjob] at hd
          exact (Option.some.inj hd).symm
        have hnew : Orders.Desk.creates n (.commit i) = none := by
          simp [Orders.Desk.creates, Orders.Desk.jobOf, hσ, hjob]
        rw [hjob] at hrun
        rw [hnew]
        rcases (h.view.run_handleSagaEvent howned.distinct htold).mp hrun with
          ⟨hconsumed, hdb⟩ | ⟨out, p', hadv, hemits⟩
        · refine ⟨_, _, .stay, h.commit hs .stay (hdb ▸ h.view) hhistory fun d hd => ?_, .stay⟩
          rw [hdelivery d hd]
          exact ⟨o, saga, kind, htold, hconsumed⟩
        · have hmoves := Moves.advance htold.known htold.consumer hadv hdrawn
          refine ⟨_, _, hmoves, h.commit hs hmoves
            (h.view.advance htold hadv hdrawn.event hdrawn.row hemits) hhistory fun d hd => ?_,
            .advance htold.known⟩
          rw [hdelivery d hd]
          exact ⟨o, _, kind, htold.advance hadv hdrawn.event⟩
  · have hnew : Orders.Desk.creates n w = none := by
      cases w <;> first | rfl | exact absurd rfl (hcommit _)
    refine ⟨0, sagas, owner, .stay, ⟨h.view.alike halike,
      h.law.work Orders.obeys_body h.unshadowed hs hhistory,
      fun j τ call o choices hτ hjob => ?_, h.misses_work hs⟩, hnew ▸ .stay⟩
    obtain ⟨υ, hυ, hjob'⟩ := Node.work_sessions hs hτ
    exact h.creating j υ call o choices hυ (hjob'.trans hjob)

end OrdersLaw

/-! ### The inventory service -/

/-- What holds of the inventory service. -/
structure InventoryLaw (stock : String → Option Inventory.Item) (sagas : Sagas)
    (owner : String → Option Owner) (n : Node Inventory.Row Delivery) : Prop where
  view : InventoryView stock sagas n.server.db
  law : ServiceLaw .inventory (Handler.serve Inventory.handleInventoryCommand)
    (fun delivery => Inventory.commandRule delivery.message) some sagas owner n
  misses : n.server.MissesAbsent Inventory.IsItem

namespace InventoryLaw

variable {stock : String → Option Inventory.Item} {sagas sagas' : Sagas}
  {owner owner' : String → Option Owner} {n n' : Node Inventory.Row Delivery} {uuids : List String}

/-- Before an order asks for a release, its reserve has been processed. -/
theorem unshadowed (h : InventoryLaw stock sagas owner n) (i : ℕ) : n.server.Unshadowed i := by
  refine Inventory.unshadowed h.law.outbox.disciplined h.misses ?_ i
  intro i σ j τ orderId hσ hτ hrelease horderτ horderσ
  obtain ⟨-, o, saga, kind, htold⟩ := h.law.handling i σ σ.job hσ rfl
  obtain ⟨-, o', saga', kind', htold'⟩ := h.law.handling j τ τ.job hτ rfl
  rw [htold.announces.orderIdOf, htold.order] at horderσ
  rw [htold'.announces.orderIdOf, htold'.order] at horderτ
  obtain rfl : o' = o := Option.some.inj (horderτ.trans horderσ.symm)
  obtain rfl : saga' = saga := Option.some.inj (htold'.known.symm.trans htold.known)
  obtain rfl := htold'.announces.isRelease_iff.mp hrelease
  have hkey := htold.announces.eventKey (saga'.uuids kind htold.emitted)
  refine ⟨_, hkey, ?_⟩
  by_cases hkind : kind = .releaseRequested
  · subst hkind
    exact Or.inl (htold'.announces.eventKey (saga'.uuids _ htold'.emitted))
  · refine Or.inr ?_
    have hconsumer := htold.consumer
    have hconsumed : kind ∈ saga'.phase.consumed := by
      obtain rfl : kind = .reserveRequested := by
        cases kind <;> first | rfl | exact absurd hconsumer (by decide) | exact absurd rfl hkind
      exact Phase.reserved_of_release htold'.emitted
    refine (h.view.records.processed _).mpr ?_
    exact ⟨o', saga', kind, htold.known, hconsumed, hconsumer, rfl⟩

theorem elsewhere (h : InventoryLaw stock sagas owner n) {service : Service} {i : ℕ}
    (hmoves : Moves service i sagas owner sagas' owner') (hservice : service ≠ .inventory) :
    InventoryLaw stock sagas' owner' n where
  view := by
    cases hmoves with
    | stay => exact h.view
    | advance hsaga hconsumer hadv hdrawn =>
        exact h.view.elsewhere hsaga hadv hdrawn.event (hconsumer ▸ hservice)
    | opened horders hnone hkeyed hdrawn => exact h.view.opened hnone _ hdrawn.event
  law := h.law.mono hmoves.extends_sagas fun _ _ hid =>
    hmoves.keeps (fun heq => absurd heq.symm hservice) hid
  misses := h.misses

theorem mono_owner (h : InventoryLaw stock sagas owner n)
    (howner : ∀ id who, owner id = some who → owner' id = some who) :
    InventoryLaw stock sagas owner' n where
  view := h.view
  law := h.law.mono (.refl sagas) fun _ id hid => howner id _ hid
  misses := h.misses

theorem misses_step (h : InventoryLaw stock sagas owner n) {act : NodeAct Delivery}
    (hs : n.step (Handler.serve Inventory.handleInventoryCommand) act = some n') :
    n'.server.MissesAbsent Inventory.IsItem := by
  refine Node.missesAbsent_step h.misses h.law.outbox (fun k hk => ?_) hs
  obtain ⟨sku, rfl⟩ := hk
  exact ⟨_, rfl, fun _ hclaims => hclaims⟩

theorem begin (h : InventoryLaw stock sagas owner n) {i : ℕ} {delivery : Delivery}
    (hs : n.step (Handler.serve Inventory.handleInventoryCommand)
      (.business (.begin i delivery)) = some n')
    (hsaga : Drawn owner .inventory i delivery.choices ∧
      ∃ o saga kind, Told .inventory sagas o saga kind delivery.message) :
    InventoryLaw stock sagas owner n' := by
  obtain ⟨hdb, -, -, -⟩ := Node.begin_cases hs
  refine ⟨hdb ▸ h.view, h.law.begin Inventory.obeys_serve h.unshadowed hs fun d hd => ?_,
    h.misses_step hs⟩
  obtain rfl := Option.some.inj hd
  exact hsaga

theorem work (h : InventoryLaw stock sagas owner n) (howned : Owned sagas owner uuids) {w : Work}
    (hs : n.step (Handler.serve Inventory.handleInventoryCommand) w.act = some n') :
    ∃ i sagas' owner', Moves .inventory i sagas owner sagas' owner' ∧
      InventoryLaw stock sagas' owner' n' := by
  rcases Node.work_cases h.law.sound hs with ⟨i, σ, rfl, hσ, hrun, hhistory⟩ | ⟨halike, hhistory, -⟩
  · refine ⟨i, ?_⟩
    obtain ⟨hdrawn, o, saga, kind, htold⟩ := h.law.handling i σ σ.job hσ rfl
    have hlaw : ∀ sagas' owner', Moves .inventory i sagas owner sagas' owner' →
        (∃ o saga kind, Told .inventory sagas' o saga kind σ.job.message ∧
          kind ∈ saga.phase.consumed) →
        InventoryView stock sagas' n'.server.db → InventoryLaw stock sagas' owner' n' := by
      intro sagas' owner' hmoves hdone hview
      refine ⟨hview, h.law.commit Inventory.obeys_serve h.unshadowed hs hhistory
        hmoves.extends_sagas (fun _ _ hj hid => hmoves.keeps (fun _ => hj) hid) fun d hd => ?_,
        h.misses_step hs⟩
      obtain rfl := Option.some.inj hd
      exact hdone
    rcases (h.view.run_handleInventoryCommand howned.distinct htold).mp hrun with
      ⟨hconsumed, hdb⟩ | ⟨out, p', db₁, hadv, hstock, hemits⟩
    · exact ⟨_, _, .stay, hlaw _ _ .stay ⟨o, saga, kind, htold, hconsumed⟩ (hdb ▸ h.view)⟩
    · have haccounts : Inventory.Accounts stock n'.server.db :=
        h.view.accounts.handleInventoryCommand (htold.sane h.view howned.distinct) hrun
      have hmoves := Moves.advance htold.known htold.consumer hadv hdrawn
      exact ⟨_, _, hmoves, hlaw _ _ hmoves ⟨o, _, kind, htold.advance hadv hdrawn.event⟩
        (h.view.advance htold hadv hdrawn.event hdrawn.row hstock hemits haccounts)⟩
  · exact ⟨0, sagas, owner, .stay, h.view.alike halike,
      h.law.work Inventory.obeys_serve h.unshadowed hs hhistory, h.misses_step hs⟩

end InventoryLaw

/-! ### The payment service -/

/-- What holds of the payment service. -/
structure PaymentsLaw (sagas : Sagas) (owner : String → Option Owner)
    (n : Node Payments.Row Delivery) : Prop where
  view : PaymentsView sagas n.server.db
  law : ServiceLaw .payments (Handler.serve Payments.handlePaymentCommand)
    (fun delivery => Payments.commandRule delivery.message) some sagas owner n

namespace PaymentsLaw

variable {sagas sagas' : Sagas} {owner owner' : String → Option Owner}
  {n n' : Node Payments.Row Delivery} {uuids : List String}

/-- A payment command peeks at nothing. -/
theorem unshadowed (h : PaymentsLaw sagas owner n) (i : ℕ) : n.server.Unshadowed i := by
  intro σ hσ j τ hj hτ k hpeek
  obtain ⟨g, hg⟩ := h.law.outbox.disciplined j τ hτ
  rcases List.mem_append.mp hpeek with hread | hmiss
  · obtain ⟨-, key, -, hreads⟩ := hg.reads k hread
    exact hreads.elim
  · obtain ⟨-, key, -, hmisses⟩ := hg.misses k hmiss
    exact hmisses.elim

theorem elsewhere (h : PaymentsLaw sagas owner n) {service : Service} {i : ℕ}
    (hmoves : Moves service i sagas owner sagas' owner') (hservice : service ≠ .payments) :
    PaymentsLaw sagas' owner' n where
  view := by
    cases hmoves with
    | stay => exact h.view
    | advance hsaga hconsumer hadv hdrawn =>
        exact h.view.elsewhere hsaga hadv hdrawn.event (hconsumer ▸ hservice)
    | opened horders hnone hkeyed hdrawn => exact h.view.opened hnone _ hdrawn.event
  law := h.law.mono hmoves.extends_sagas fun _ _ hid =>
    hmoves.keeps (fun heq => absurd heq.symm hservice) hid

theorem mono_owner (h : PaymentsLaw sagas owner n)
    (howner : ∀ id who, owner id = some who → owner' id = some who) :
    PaymentsLaw sagas owner' n where
  view := h.view
  law := h.law.mono (.refl sagas) fun _ id hid => howner id _ hid

theorem begin (h : PaymentsLaw sagas owner n) {i : ℕ} {delivery : Delivery}
    (hs : n.step (Handler.serve Payments.handlePaymentCommand)
      (.business (.begin i delivery)) = some n')
    (hsaga : Drawn owner .payments i delivery.choices ∧
      ∃ o saga kind, Told .payments sagas o saga kind delivery.message) :
    PaymentsLaw sagas owner n' := by
  obtain ⟨hdb, -, -, -⟩ := Node.begin_cases hs
  refine ⟨hdb ▸ h.view, h.law.begin Payments.obeys_serve h.unshadowed hs fun d hd => ?_⟩
  obtain rfl := Option.some.inj hd
  exact hsaga

theorem work (h : PaymentsLaw sagas owner n) (howned : Owned sagas owner uuids) {w : Work}
    (hs : n.step (Handler.serve Payments.handlePaymentCommand) w.act = some n') :
    ∃ i sagas' owner', Moves .payments i sagas owner sagas' owner' ∧
      PaymentsLaw sagas' owner' n' := by
  rcases Node.work_cases h.law.sound hs with ⟨i, σ, rfl, hσ, hrun, hhistory⟩ | ⟨halike, hhistory, -⟩
  · refine ⟨i, ?_⟩
    obtain ⟨hdrawn, o, saga, kind, htold⟩ := h.law.handling i σ σ.job hσ rfl
    have hlaw : ∀ sagas' owner', Moves .payments i sagas owner sagas' owner' →
        (∃ o saga kind, Told .payments sagas' o saga kind σ.job.message ∧
          kind ∈ saga.phase.consumed) →
        PaymentsView sagas' n'.server.db → PaymentsLaw sagas' owner' n' := by
      intro sagas' owner' hmoves hdone hview
      refine ⟨hview, h.law.commit Payments.obeys_serve h.unshadowed hs hhistory
        hmoves.extends_sagas (fun _ _ hj hid => hmoves.keeps (fun _ => hj) hid) fun d hd => ?_⟩
      obtain rfl := Option.some.inj hd
      exact hdone
    rcases (h.view.run_handlePaymentCommand howned.distinct htold).mp hrun with
      ⟨hconsumed, hdb⟩ | ⟨out, p', status, hadv, hattempt, hdecided, hemits⟩
    · exact ⟨_, _, .stay, hlaw _ _ .stay ⟨o, saga, kind, htold, hconsumed⟩ (hdb ▸ h.view)⟩
    · have hmoves := Moves.advance htold.known htold.consumer hadv hdrawn
      exact ⟨_, _, hmoves, hlaw _ _ hmoves ⟨o, _, kind, htold.advance hadv hdrawn.event⟩
        (h.view.advance htold hadv hattempt hdecided hdrawn.event hdrawn.row hemits)⟩
  · exact ⟨0, sagas, owner, .stay, h.view.alike halike,
      h.law.work Payments.obeys_serve h.unshadowed hs hhistory⟩

end PaymentsLaw

end CommercePlatform
