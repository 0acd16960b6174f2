/-
What holds of each service, given the sagas.

Nobody else has an identifier that was drawn for a transaction: every identifier has
one owner, first the attempt it was drawn for and then the event, the row or the order
that it became.  That is all that is needed of their being random.
-/
import CommercePlatform.Saga.Stock

namespace CommercePlatform

open Js Txn

variable [Platform]

/-! ### Sagas over time -/

/-- The sagas `sagas'` are those of `sagas`, or have gone on from there. -/
def Extends (sagas sagas' : Sagas) : Prop :=
  ∀ o before, sagas o = some before → ∃ after, sagas' o = some after ∧
    after.toPlaced = before.toPlaced ∧
    (∀ k ∈ before.phase.emitted, k ∈ after.phase.emitted ∧
      after.eventId k = before.eventId k ∧ after.rowId k = before.rowId k) ∧
    ∀ k ∈ before.phase.consumed, k ∈ after.phase.consumed

theorem Extends.refl (sagas : Sagas) : Extends sagas sagas :=
  fun _ before hbefore => ⟨before, hbefore, rfl, fun _ hk => ⟨hk, rfl, rfl⟩, fun _ hk => hk⟩

theorem Extends.of_grows {sagas : Sagas} {o : String} {saga : Saga} {done new : Option EventKind}
    (h : Saga.Grows (sagas o) saga done new) :
    Extends sagas (Function.update sagas o (some saga)) :=
  fun _ _ hbefore => Records.kept h hbefore

/-- A message stays the event it is. -/
theorem Told.mono {sagas sagas' : Sagas} {service : Service} {o : String} {saga : Saga}
    {kind : EventKind} {message : KafkaMessage} (h : Told service sagas o saga kind message)
    (hext : Extends sagas sagas') :
    ∃ saga', Told service sagas' o saga' kind message ∧
      (kind ∈ saga.phase.consumed → kind ∈ saga'.phase.consumed) := by
  obtain ⟨after, hafter, hplaced, hemitted, hconsumed⟩ := hext o saga h.known
  obtain ⟨hkind, heventId, -⟩ := hemitted kind h.emitted
  refine ⟨after, ⟨hafter, ?_, hkind, h.consumer, ?_⟩, hconsumed kind⟩
  · rw [hplaced, h.order]
  · rw [hplaced, heventId]
    exact h.announces

/-! ### Identifiers -/

/-- What an identifier belongs to. -/
inductive Owner where
  | attempt (service : Service) (i : ℕ)
  | event (o : String) (kind : EventKind)
  | row (o : String) (kind : EventKind)
  | order (o : String)
  deriving DecidableEq

/-- The identifiers drawn for a transaction are still its own. -/
structure Drawn (owner : String → Option Owner) (service : Service) (i : ℕ) (choices : Choices) :
    Prop where
  event : IsUuid choices.eventId
  row : IsUuid choices.rowId
  ownsEvent : owner choices.eventId = some (.attempt service i)
  ownsRow : owner choices.rowId = some (.attempt service i)
  ne : choices.eventId ≠ choices.rowId

/-- Identifiers drawn for an attempt. -/
def claim (owner : String → Option Owner) (service : Service) (i : ℕ) (ids : List String) :
    String → Option Owner :=
  fun id => if id ∈ ids then some (.attempt service i) else owner id

/-- The identifiers of an attempt become an event and its row. -/
def settle (owner : String → Option Owner) (o : String) (choices : Choices)
    (out : Option EventKind) : String → Option Owner :=
  match out with
  | none => owner
  | some kind => Function.update (Function.update owner choices.eventId (some (.event o kind)))
      choices.rowId (some (.row o kind))

/-- Every identifier of a saga is its own. -/
structure Owned (sagas : Sagas) (owner : String → Option Owner) (uuids : List String) : Prop where
  keyed : ∀ o saga, sagas o = some saga → saga.orderId = o
  used : ∀ id, owner id ≠ none → id ∈ uuids
  orders : ∀ o, sagas o ≠ none → owner o = some (.order o)
  events : ∀ o saga kind, sagas o = some saga → kind ∈ saga.phase.emitted →
    owner (saga.eventId kind) = some (.event o kind)
  rows : ∀ o saga kind, sagas o = some saga → kind ∈ saga.phase.emitted →
    owner (saga.rowId kind) = some (.row o kind)

section Settle

variable {owner : String → Option Owner} {service : Service} {i : ℕ} {choices : Choices}
  {out : Option EventKind} {o : String}

omit [Platform] in
theorem settle_of_ne (id : String) (hevent : id ≠ choices.eventId) (hrow : id ≠ choices.rowId) :
    settle owner o choices out id = owner id := by
  cases out with
  | none => rfl
  | some kind =>
      exact (Function.update_of_ne hrow _ _).trans (Function.update_of_ne hevent _ _)

/-- Only the attempt itself has its identifiers settled. -/
theorem Drawn.settle (h : Drawn owner service i choices) {id : String} {who : Owner}
    (hwho : who ≠ .attempt service i) (hid : owner id = some who) :
    settle owner o choices out id = some who := by
  refine (settle_of_ne id ?_ ?_).trans hid
  · intro heq
    rw [heq, h.ownsEvent] at hid
    exact hwho (Option.some.inj hid).symm
  · intro heq
    rw [heq, h.ownsRow] at hid
    exact hwho (Option.some.inj hid).symm

theorem Drawn.settle_event (h : Drawn owner service i choices) (kind : EventKind) :
    CommercePlatform.settle owner o choices (some kind) choices.eventId =
      some (.event o kind) :=
  (Function.update_of_ne h.ne _ _).trans (Function.update_self _ _ _)

omit [Platform] in
theorem settle_row (kind : EventKind) :
    settle owner o choices (some kind) choices.rowId = some (.row o kind) :=
  Function.update_self _ _ _

theorem Drawn.settle_used (h : Drawn owner service i choices) {id : String}
    (hid : CommercePlatform.settle owner o choices out id ≠ none) : owner id ≠ none := by
  by_cases hevent : id = choices.eventId
  · rw [hevent, h.ownsEvent]
    simp
  by_cases hrow : id = choices.rowId
  · rw [hrow, h.ownsRow]
    simp
  rwa [settle_of_ne id hevent hrow] at hid

end Settle

namespace Owned

variable {sagas : Sagas} {owner : String → Option Owner} {uuids : List String}

/-- Events are told apart by their identifiers. -/
theorem distinct (h : Owned sagas owner uuids) : Distinct sagas := by
  intro o saga kind o' saga' kind' hsaga hkind hsaga' hkind' hid
  have hevent := h.events o saga kind hsaga hkind
  rw [hid, h.events o' saga' kind' hsaga' hkind'] at hevent
  simp only [Option.some.injEq, Owner.event.injEq] at hevent
  exact ⟨hevent.1.symm, hevent.2.symm⟩

/-- An identifier that was never used is nobody's. -/
theorem unowned (h : Owned sagas owner uuids) {id : String} (hid : id ∉ uuids) :
    owner id = none := by
  by_contra hne
  exact hid (h.used id hne)

/-- Identifiers that nobody has are drawn by an attempt, and nobody loses any. -/
theorem claim (h : Owned sagas owner uuids) (service : Service) (i : ℕ) {ids : List String}
    (hfresh : System.Fresh uuids ids) :
    Owned sagas (claim owner service i ids) (ids ++ uuids) ∧
      ∀ id who, owner id = some who → CommercePlatform.claim owner service i ids id = some who := by
  have hkeep : ∀ id who, owner id = some who →
      CommercePlatform.claim owner service i ids id = some who := by
    intro id who hid
    have hmem : id ∉ ids := by
      intro hmem
      rw [h.unowned (hfresh.2 id hmem).2] at hid
      simp at hid
    unfold CommercePlatform.claim
    rw [if_neg hmem, hid]
  refine ⟨⟨h.keyed, fun id hid => ?_, fun o hsaga => hkeep _ _ (h.orders o hsaga),
    fun o saga kind hsaga hkind => hkeep _ _ (h.events o saga kind hsaga hkind),
    fun o saga kind hsaga hkind => hkeep _ _ (h.rows o saga kind hsaga hkind)⟩, hkeep⟩
  unfold CommercePlatform.claim at hid
  split at hid
  · exact List.mem_append.mpr (Or.inl ‹_›)
  · exact List.mem_append.mpr (Or.inr (h.used id hid))

omit [Platform] in
theorem claim_of_mem {service : Service} {i : ℕ} {ids : List String} {id : String} (hid : id ∈ ids) :
    CommercePlatform.claim owner service i ids id = some (.attempt service i) := if_pos hid

/-- The identifiers after one saga has grown. -/
theorem grow (h : Owned sagas owner uuids) {owner' : String → Option Owner} {o : String}
    {saga : Saga} {done new : Option EventKind} (hgrow : Saga.Grows (sagas o) saga done new)
    (hkeyed : saga.orderId = o) (horder : owner' o = some (.order o))
    (hkeep : ∀ id who, owner id = some who → (∀ service i, who ≠ .attempt service i) →
      owner' id = some who)
    (hused : ∀ id, owner' id ≠ none → id ∈ uuids)
    (hevent : ∀ k, new = some k → owner' (saga.eventId k) = some (.event o k))
    (hrow : ∀ k, new = some k → owner' (saga.rowId k) = some (.row o k)) :
    Owned (Function.update sagas o (some saga)) owner' uuids := by
  have hcases : ∀ o' after, Function.update sagas o (some saga) o' = some after →
      (o' = o ∧ after = saga) ∨ sagas o' = some after := by
    intro o' after hafter
    by_cases ho : o' = o
    · subst ho
      rw [Function.update_self] at hafter
      exact Or.inl ⟨rfl, (Option.some.inj hafter).symm⟩
    · rw [Function.update_of_ne ho] at hafter
      exact Or.inr hafter
  refine ⟨fun o' after hafter => ?_, hused, fun o' hafter => ?_,
    fun o' after kind hafter hkind => ?_, fun o' after kind hafter hkind => ?_⟩
  · rcases hcases o' after hafter with ⟨rfl, rfl⟩ | hold
    · exact hkeyed
    · exact h.keyed o' after hold
  · obtain ⟨after, hafter⟩ := Option.ne_none_iff_exists'.mp hafter
    rcases hcases o' after hafter with ⟨rfl, -⟩ | hold
    · exact horder
    · exact hkeep _ _ (h.orders o' (by simp [hold])) (by simp)
  · rcases hcases o' after hafter with ⟨rfl, rfl⟩ | hold
    · rcases (hgrow.emitted kind).mp hkind with ⟨before, hbefore, hkind'⟩ | hnew
      · rw [(hgrow.ids before kind hbefore hkind').1]
        exact hkeep _ _ (h.events o' before kind hbefore hkind') (by simp)
      · exact hevent kind hnew
    · exact hkeep _ _ (h.events o' after kind hold hkind) (by simp)
  · rcases hcases o' after hafter with ⟨rfl, rfl⟩ | hold
    · rcases (hgrow.emitted kind).mp hkind with ⟨before, hbefore, hkind'⟩ | hnew
      · rw [(hgrow.ids before kind hbefore hkind').2]
        exact hkeep _ _ (h.rows o' before kind hbefore hkind') (by simp)
      · exact hrow kind hnew
    · exact hkeep _ _ (h.rows o' after kind hold hkind) (by simp)

/-- A saga that goes on takes its new identifiers from the attempt that took it on. -/
theorem advance (h : Owned sagas owner uuids) {service : Service} {i : ℕ} {o : String} {saga : Saga}
    (hsaga : sagas o = some saga) {kind : EventKind} {out : Option EventKind} {p' : Phase}
    (hadv : Phase.Advance saga.phase kind out p') {choices : Choices}
    (hdrawn : Drawn owner service i choices) :
    Owned (Function.update sagas o (some (saga.advance hadv choices hdrawn.event)))
      (settle owner o choices out) uuids := by
  refine h.grow (hsaga ▸ saga.grows_advance hadv choices hdrawn.event) (h.keyed o saga hsaga)
    (hdrawn.settle (by simp) (h.orders o (by simp [hsaga])))
    (fun id who hid hwho => hdrawn.settle (hwho service i) hid)
    (fun id hid => h.used id (hdrawn.settle_used hid)) (fun k hk => ?_) fun k hk => ?_
  · subst hk
    rw [show (saga.advance hadv choices hdrawn.event).eventId k = choices.eventId from
      Function.update_self _ _ _]
    exact hdrawn.settle_event k
  · subst hk
    rw [show (saga.advance hadv choices hdrawn.event).rowId k = choices.rowId from
      Function.update_self _ _ _]
    exact settle_row k

/-- A new order takes its identifiers from the attempt that placed it. -/
theorem opened (h : Owned sagas owner uuids) {service : Service} {i : ℕ} {o : String}
    (hnone : sagas o = none) {placed : Placed} (hkeyed : placed.orderId = o) {choices : Choices}
    (hdrawn : Drawn owner service i choices) (howner : owner o = some (.attempt service i))
    (hevent : o ≠ choices.eventId) (hrow : o ≠ choices.rowId) :
    Owned (Function.update sagas o (some (.opened placed choices hdrawn.event)))
      (settle (Function.update owner o (some (.order o))) o choices (some .reserveRequested))
      uuids := by
  have hdrawn' : Drawn (Function.update owner o (some (.order o))) service i choices :=
    ⟨hdrawn.event, hdrawn.row, (Function.update_of_ne hevent.symm _ _).trans hdrawn.ownsEvent,
      (Function.update_of_ne hrow.symm _ _).trans hdrawn.ownsRow, hdrawn.ne⟩
  refine h.grow (hnone ▸ Saga.grows_opened placed choices hdrawn.event) hkeyed ?_ ?_ ?_
    (fun k hk => ?_) fun k hk => ?_
  · exact (settle_of_ne o hevent hrow).trans (Function.update_self _ _ _)
  · intro id who hid hwho
    refine hdrawn'.settle (hwho service i) ?_
    have hne : id ≠ o := by
      intro heq
      rw [heq, howner] at hid
      exact hwho service i (Option.some.inj hid).symm
    rw [Function.update_of_ne hne, hid]
  · intro id hid
    have hused := hdrawn'.settle_used hid
    by_cases hne : id = o
    · exact h.used id (by rw [hne, howner]; simp)
    · rw [Function.update_of_ne hne] at hused
      exact h.used id hused
  · obtain rfl := Option.some.inj hk
    exact hdrawn'.settle_event _
  · obtain rfl := Option.some.inj hk
    exact settle_row _

end Owned

/-! ### One service -/

/-- What holds of a service whose transactions are `prog`, and handle what `delivery` says. -/
structure ServiceLaw {β : Type} [DecidableEq β] {ρ : β → Type} {ι : Type} (service : Service)
    (prog : ι → ServiceTx ρ Unit) (rule : ι → Rule β) (delivery : ι → Option Delivery)
    (sagas : Sagas) (owner : String → Option Owner) (n : Node ρ ι) : Prop where
  sound : n.server.Sound prog
  outbox : OutboxLaw rule n
  /-- Whatever is being handled is an event of a saga. -/
  handling : ∀ i σ d, n.server.sessions i = some σ → delivery σ.job = some d →
    Drawn owner service i d.choices ∧ ∃ o saga kind, Told service sagas o saga kind d.message
  /-- Whatever has been handled is consumed. -/
  handled : ∀ job ∈ n.server.history, ∀ d, delivery job = some d →
    ∃ o saga kind, Told service sagas o saga kind d.message ∧ kind ∈ saga.phase.consumed

namespace ServiceLaw

variable {β : Type} [DecidableEq β] {ρ : β → Type} {ι : Type} {service : Service}
  {prog : ι → ServiceTx ρ Unit} {rule : ι → Rule β} {delivery : ι → Option Delivery}
  {sagas sagas' : Sagas} {owner owner' : String → Option Owner} {n n' : Node ρ ι}

theorem start {db : ServiceStore ρ} (hempty : ∀ id, outboxAt db id = none) :
    ServiceLaw service prog rule delivery sagas owner (Node.start db : Node ρ ι) where
  sound := Server.sound_start db
  outbox := .start hempty
  handling i σ d hσ := by simp [Node.start, Server.start] at hσ
  handled job hjob := by simp [Node.start, Server.start] at hjob

/-- The sagas go on elsewhere, and no attempt of this service loses an identifier. -/
theorem mono (h : ServiceLaw service prog rule delivery sagas owner n)
    (hext : Extends sagas sagas')
    (howner : ∀ i id, owner id = some (.attempt service i) →
      owner' id = some (.attempt service i)) :
    ServiceLaw service prog rule delivery sagas' owner' n where
  sound := h.sound
  outbox := h.outbox
  handling i σ d hσ hd := by
    obtain ⟨hdrawn, o, saga, kind, htold⟩ := h.handling i σ d hσ hd
    obtain ⟨saga', htold', -⟩ := htold.mono hext
    refine ⟨?_, o, saga', kind, htold'⟩
    exact ⟨hdrawn.event, hdrawn.row, howner i _ hdrawn.ownsEvent, howner i _ hdrawn.ownsRow,
      hdrawn.ne⟩
  handled job hjob d hd := by
    obtain ⟨o, saga, kind, htold, hconsumed⟩ := h.handled job hjob d hd
    obtain ⟨saga', htold', hmono⟩ := htold.mono hext
    exact ⟨o, saga', kind, htold', hmono hconsumed⟩

theorem begin (h : ServiceLaw service prog rule delivery sagas owner n)
    (hobeys : ∀ job, (prog job).Obeys (rule job).discipline .none)
    (hun : ∀ i, n.server.Unshadowed i) {i : ℕ} {job : ι}
    (hs : n.step prog (.business (.begin i job)) = some n')
    (hjob : ∀ d, delivery job = some d →
      Drawn owner service i d.choices ∧ ∃ o saga kind, Told service sagas o saga kind d.message) :
    ServiceLaw service prog rule delivery sagas owner n' := by
  obtain ⟨-, hhistory, -, hsessions⟩ := Node.begin_cases hs
  refine ⟨Node.sound_step h.sound h.outbox hun hs, h.outbox.step hobeys hs, ?_, ?_⟩
  · intro j τ d hτ hd
    rcases hsessions j τ hτ with hold | ⟨rfl, hnew⟩
    · exact h.handling j τ d hold hd
    · exact hjob d (hnew ▸ hd)
  · rw [hhistory]
    exact h.handled

theorem work (h : ServiceLaw service prog rule delivery sagas owner n)
    (hobeys : ∀ job, (prog job).Obeys (rule job).discipline .none)
    (hun : ∀ i, n.server.Unshadowed i) {w : Work} (hs : n.step prog w.act = some n')
    (hhistory : n'.server.history = n.server.history) :
    ServiceLaw service prog rule delivery sagas owner n' := by
  refine ⟨Node.sound_step h.sound h.outbox hun hs, h.outbox.step hobeys hs, ?_, ?_⟩
  · intro j τ d hτ hd
    obtain ⟨σ, hσ, hjob⟩ := Node.work_sessions hs hτ
    exact h.handling j σ d hσ (hjob ▸ hd)
  · rw [hhistory]
    exact h.handled

/-- A commit takes the sagas on, and its identifiers to what they are from then on. -/
theorem commit (h : ServiceLaw service prog rule delivery sagas owner n)
    (hobeys : ∀ job, (prog job).Obeys (rule job).discipline .none)
    (hun : ∀ i, n.server.Unshadowed i) {i : ℕ}
    (hs : n.step prog (Work.commit i).act = some n')
    {σ : Session (ServiceRow ρ) Error Unit ι}
    (hhistory : n'.server.history = n.server.history ++ [σ.job]) (hext : Extends sagas sagas')
    (howner : ∀ j id, j ≠ i → owner id = some (.attempt service j) →
      owner' id = some (.attempt service j))
    (hdone : ∀ d, delivery σ.job = some d →
      ∃ o saga kind, Told service sagas' o saga kind d.message ∧ kind ∈ saga.phase.consumed) :
    ServiceLaw service prog rule delivery sagas' owner' n' := by
  refine ⟨Node.sound_step h.sound h.outbox hun hs, h.outbox.step hobeys hs, ?_, ?_⟩
  · intro j τ d hτ hd
    have hj : j ≠ i := by
      intro heq
      rw [heq, Node.commit_sessions hs] at hτ
      simp at hτ
    obtain ⟨υ, hυ, hjob⟩ := Node.work_sessions hs hτ
    obtain ⟨hdrawn, o, saga, kind, htold⟩ := h.handling j υ d hυ (hjob ▸ hd)
    obtain ⟨saga', htold', -⟩ := htold.mono hext
    refine ⟨?_, o, saga', kind, htold'⟩
    exact ⟨hdrawn.event, hdrawn.row, howner j _ hj hdrawn.ownsEvent, howner j _ hj hdrawn.ownsRow,
      hdrawn.ne⟩
  · intro job hjob d hd
    rw [hhistory] at hjob
    rcases List.mem_append.mp hjob with hold | hnew
    · obtain ⟨o, saga, kind, htold, hconsumed⟩ := h.handled job hold d hd
      obtain ⟨saga', htold', hmono⟩ := htold.mono hext
      exact ⟨o, saga', kind, htold', hmono hconsumed⟩
    · obtain rfl := List.mem_singleton.mp hnew
      exact hdone d hd

end ServiceLaw

end CommercePlatform
