/-
Calls under one idempotency key that race.

A call that finds no order goes on to insert one, and if another call has committed in
the meantime the insert raises on the unique index; nobody looks again.  So the answers
are the documented ones exactly as long as no call comes in while another one under its
key is under way.
-/
import CommercePlatform.Saga.Fitting
import CommercePlatform.Saga.Idempotency

namespace CommercePlatform

open Js Txn

namespace Orders

/-- The call is of the user, under the key. -/
def CreateOrderCall.IsFor (call : CreateOrderCall) (userSub key : String) : Prop :=
  call.userSub = userSub ∧ call.idempotencyKey = key

instance (call : CreateOrderCall) (userSub key : String) : Decidable (call.IsFor userSub key) :=
  inferInstanceAs (Decidable (_ ∧ _))

def DeskEvent.call : DeskEvent → CreateOrderCall
  | .lookedUp _ call => call
  | .ended _ call _ => call

def DeskEvent.isCreated : DeskEvent → Bool
  | .ended _ _ (.answered (.created _)) => true
  | _ => false

def DeskEvent.isRaised : DeskEvent → Bool
  | .ended _ _ .raised => true
  | _ => false

/-- A call that finds an order creates none. -/
theorem isCreated_answerExisting [Platform] (c : ℕ) (call : CreateOrderCall)
    (existing : String × OrderRow) :
    (DeskEvent.ended c call (.answered (answerExisting call existing))).isCreated = false := by
  unfold answerExisting
  split
  · rfl
  · split <;> rfl

end Orders

/-- A violation of a constraint, and no other failure of the database. -/
def Error.IsConstraint : Error → Prop
  | .notNull _ | .unique _ | .foreignKey _ => True
  | _ => False

namespace System

/-- What the clients could tell of the calls of the user under the key. -/
def callLog (s : System) (userSub key : String) : List Orders.DeskEvent :=
  s.orders.log.filter fun event => event.call.IsFor userSub key

/-- A call comes in while another one is under way. -/
def Races (s : System) (userSub key : String) (act : SystemAct) : Prop :=
  ∃ c call c' call', act = .lookUp c call ∧ call.IsFor userSub key ∧
    s.orders.callOf c' = some call' ∧ call'.IsFor userSub key

/-- No call is under way. -/
def Quiet (s : System) (userSub key : String) : Prop :=
  ∀ c call, s.orders.callOf c = some call → ¬ call.IsFor userSub key

variable [Platform]

/-- The values of the calls fit, and the database fails them on constraints only. -/
structure Clean (s : System) (userSub key : String) (act : SystemAct) : Prop where
  fits : ∀ c call, act = .lookUp c call → call.IsFor userSub key → call.Fits
  fails : ∀ i σ call o choices, act = .work .orders (.rollback i) →
    s.orders.node.server.sessions i = some σ → σ.job = .create call o choices →
    call.IsFor userSub key → ∃ e, σ.rest = .throw e ∧ e.IsConstraint

/-- The states after such runs, and whether any two calls have raced. -/
inductive CallRun (stock : ServiceStore Inventory.Row) (userSub key : String) :
    Prop → System → Prop where
  | start : CallRun stock userSub key False (start stock)
  | step {raced : Prop} {s s' : System} {act : SystemAct} (h : CallRun stock userSub key raced s)
      (hclean : s.Clean userSub key act) (hs : s.step act = some s') :
      CallRun stock userSub key (raced ∨ s.Races userSub key act) s'

/-- The outcome is one that is documented, given the order that is stored. -/
def IsDocumented (s : System) (call : Orders.CreateOrderCall) : Orders.Outcome → Prop
  | .answered (.created o) => s.OrderOf call.userSub call.idempotencyKey o
  | .answered (.replayed o _) => s.OrderOf call.userSub call.idempotencyKey o ∧
      ∃ row, ownRow s.ordersDb (.order o) = some row ∧ row.requestHash = some call.bodyHash
  | .answered .conflict => ∃ o row, s.OrderOf call.userSub call.idempotencyKey o ∧
      ownRow s.ordersDb (.order o) = some row ∧ row.requestHash ≠ some call.bodyHash
  | .raised => False

/-- Every call has ended as documented, one of them with a new order. -/
structure Documented (s : System) (userSub key : String) : Prop where
  ends : ∀ c call, .lookedUp c call ∈ s.callLog userSub key →
    ∃ outcome, .ended c call outcome ∈ s.callLog userSub key
  answers : ∀ c call outcome, .ended c call outcome ∈ s.callLog userSub key →
    s.IsDocumented call outcome
  once : ((s.callLog userSub key).filter Orders.DeskEvent.isCreated).length = 1

end System

variable [Platform]

/-! ### Orders and look-ups -/

namespace Law

variable {stock : ServiceStore Inventory.Row} {sagas : Sagas} {owner : String → Option Owner}
  {s : System} {userSub key : String}

/-- There is an order under the key exactly if a call has been told that it was created. -/
theorem created_iff (h : Law stock sagas owner s) :
    (∃ o saga, sagas o = some saga ∧ saga.IsFor userSub key) ↔
      ∃ event ∈ s.callLog userSub key, event.isCreated := by
  constructor
  · intro ⟨o, saga, hsaga, huser, hkey⟩
    obtain ⟨c, hevent⟩ := h.desk.placed o saga hsaga
    obtain ⟨hcallUser, hcallKey⟩ := saga.isFor_call
    rw [hkey] at hcallKey
    have hfor : saga.call.IsFor userSub key :=
      ⟨hcallUser.symm.trans huser, (Option.some.inj hcallKey).symm⟩
    exact ⟨_, List.mem_filter.mpr ⟨hevent, decide_eq_true hfor⟩, rfl⟩
  · intro ⟨event, hevent, hcreated⟩
    obtain ⟨hlog, hfor⟩ := List.mem_filter.mp hevent
    unfold Orders.DeskEvent.isCreated at hcreated
    split at hcreated
    · rename_i c call o
      obtain ⟨-, saga, hsaga, rfl⟩ := h.desk.ended c call _ hlog
      obtain ⟨rfl, rfl⟩ : saga.call.IsFor userSub key := of_decide_eq_true hfor
      exact ⟨o, saga, hsaga, saga.isFor_call⟩
    · simp at hcreated

theorem created_of_found (h : Law stock sagas owner s) {existing : String × Orders.OrderRow}
    (hfind : Orders.findOrderByIdempotency userSub key s.ordersDb = .ok (some existing)) :
    ∃ event ∈ s.callLog userSub key, event.isCreated := by
  obtain ⟨saga, hsaga, -, hfor⟩ := h.orders.view.of_find hfind
  exact h.created_iff.mp ⟨_, saga, hsaga, hfor⟩

theorem not_created_of_missed (h : Law stock sagas owner s)
    (hfind : Orders.findOrderByIdempotency userSub key s.ordersDb = .ok none) :
    ¬ ∃ event ∈ s.callLog userSub key, event.isCreated := by
  intro hcreated
  obtain ⟨o, saga, hsaga, hfor⟩ := h.created_iff.mpr hcreated
  have hentry := (h.orders.view.idempotency userSub key o).mpr ⟨saga, hsaga, hfor⟩
  rw [h.orders.view.of_find_none hfind] at hentry
  simp at hentry

/-- The transaction of a call that fits violates a constraint only if its key is taken. -/
theorem not_constraint (h : Law stock sagas owner s) {i : ℕ}
    {σ : Session (ServiceRow Orders.Row) Error Unit Orders.Job} {call : Orders.CreateOrderCall}
    {o : String} {choices : Choices} (hσ : s.orders.node.server.sessions i = some σ)
    (hjob : σ.job = .create call o choices) (hfits : call.Fits)
    (hnone : ¬ ∃ event ∈ s.callLog call.userSub call.idempotencyKey, event.isCreated) {e : Error}
    (hrest : σ.rest = .throw e) : ¬ e.IsConstraint := by
  have hcreating := h.orders.creating i σ call o choices hσ hjob
  have hsaga : sagas o = none := by
    by_contra hne
    have howner := h.owned.orders o hne
    rw [hcreating.owns] at howner
    simp at howner
  have hfree : outboxAt s.ordersDb choices.rowId = none := by
    refine h.outbox_free (fun o kind => ?_) .orders
    rw [hcreating.drawn.ownsRow]
    simp
  have hrun := h.orders.law.sound.run_of_throw hσ hrest
  rw [hjob] at hrun
  rcases h.orders.view.run_create_or hfits hcreating.order hcreating.drawn.event
    hcreating.drawn.row hsaga (fun o saga hsaga hfor => hnone (h.created_iff.mp ⟨o, saga, hsaga, hfor⟩))
    hfree with ⟨db', hok⟩ | herror
  · exact absurd (hrun.symm.trans hok) (by simp)
  · obtain rfl := Except.error.inj (hrun.symm.trans herror)
    exact fun hconstraint => hconstraint

end Law

/-! ### Turns that concern the key -/

namespace System

variable {s s' : System} {userSub key : String} {act : SystemAct}
  {new : List Orders.DeskEvent}

omit [Platform] in
theorem callLog_append (userSub key : String) (hlog : s'.orders.log = s.orders.log ++ new) :
    s'.callLog userSub key =
      s.callLog userSub key ++ new.filter fun event => event.call.IsFor userSub key := by
  rw [callLog, hlog, List.filter_append]
  rfl

/-- A turn of other calls leaves those under the key where they were. -/
theorem Turn.unconcerned (hturn : Turn s s' act new)
    (hother : ∀ event ∈ new, ¬ event.call.IsFor userSub key) :
    ¬ s.Races userSub key act ∧ ∀ c call, call.IsFor userSub key →
      (s'.orders.callOf c = some call ↔ s.orders.callOf c = some call) := by
  have hupdate : ∀ {c' : ℕ} {call' : Orders.CreateOrderCall} {now : Option Orders.CreateOrderCall},
      (s.orders.callOf c' = none ∧ now = some call' ∨ s.orders.callOf c' = some call' ∧ now = none) →
      s'.orders.callOf = Function.update s.orders.callOf c' now → ¬ call'.IsFor userSub key →
      ∀ c call, call.IsFor userSub key →
        (s'.orders.callOf c = some call ↔ s.orders.callOf c = some call) := by
    intro c' call' now hnow hcalls hnot c call hfor
    have hne : call' ≠ call := fun heq => hnot (heq ▸ hfor)
    rw [hcalls]
    by_cases hc : c = c'
    · subst hc
      rw [Function.update_self]
      rcases hnow with ⟨hold, rfl⟩ | ⟨hold, rfl⟩
      · simp [hold, hne]
      · simp [hold, hne]
    · rw [Function.update_of_ne hc]
  cases hturn with
  | quiet hact hcalls =>
      refine ⟨fun ⟨c, call, _, _, heq, _⟩ => hact c call heq, fun c call _ => by rw [hcalls]⟩
  | found hidle hcalls =>
      have hnot := hother _ (List.mem_cons_self ..)
      refine ⟨fun ⟨c, call, _, _, heq, hfor, _⟩ => ?_, fun c call _ => by rw [hcalls]⟩
      obtain ⟨rfl, rfl⟩ := SystemAct.lookUp.inj heq
      exact hnot hfor
  | missed hidle hfind hcalls =>
      have hnot := hother _ (List.mem_cons_self ..)
      refine ⟨fun ⟨c, call, _, _, heq, hfor, _⟩ => ?_, hupdate (Or.inl ⟨hidle, rfl⟩) hcalls hnot⟩
      obtain ⟨rfl, rfl⟩ := SystemAct.lookUp.inj heq
      exact hnot hfor
  | created hjob hcall hcalls =>
      have hnot := hother _ (List.mem_cons_self ..)
      exact ⟨fun ⟨_, _, _, _, heq, _⟩ => by simp at heq,
        hupdate (Or.inr ⟨hcall, rfl⟩) hcalls hnot⟩
  | raised hjob hcall hcalls =>
      have hnot := hother _ (List.mem_cons_self ..)
      exact ⟨fun ⟨_, _, _, _, heq, _⟩ => by simp at heq,
        hupdate (Or.inr ⟨hcall, rfl⟩) hcalls hnot⟩

/-! ### Stages -/

omit [Platform] in
/-- The call has found no order: it is under way, or it has ended one way or the other. -/
def Inserting (s : System) (c : ℕ) (call : Orders.CreateOrderCall) : Prop :=
  s.orders.callOf c = some call ∨ .ended c call .raised ∈ s.orders.log ∨
    ∃ o, .ended c call (.answered (.created o)) ∈ s.orders.log

theorem Inserting.turn {c : ℕ} {call : Orders.CreateOrderCall} (h : s.Inserting c call)
    (hturn : Turn s s' act new) (hlog : s'.orders.log = s.orders.log ++ new) :
    s'.Inserting c call := by
  have hend : ∀ c' outcome, (∀ call', s.orders.callOf c' = some call' →
      .ended c' call' outcome ∈ new) → (outcome = .raised ∨ ∃ o, outcome = .answered (.created o)) →
      s'.orders.callOf = Function.update s.orders.callOf c' none →
      s.orders.callOf c = some call → s'.Inserting c call := by
    intro c' outcome hended houtcome hcalls hcall
    by_cases hc : c = c'
    · subst hc
      have hevent : .ended c call outcome ∈ s'.orders.log := by
        rw [hlog]
        exact List.mem_append_right _ (hended call hcall)
      rcases houtcome with rfl | ⟨o, rfl⟩
      · exact Or.inr (Or.inl hevent)
      · exact Or.inr (Or.inr ⟨o, hevent⟩)
    · exact Or.inl (by rw [hcalls, Function.update_of_ne hc, hcall])
  rcases h with hcall | hraised | ⟨o, hcreated⟩
  · cases hturn with
    | quiet hact hcalls => exact Or.inl (hcalls ▸ hcall)
    | found hidle hcalls => exact Or.inl (hcalls ▸ hcall)
    | @missed c' call' hidle hfind hcalls =>
        have hc : c ≠ c' := by
          intro heq
          rw [heq, hidle] at hcall
          simp at hcall
        exact Or.inl (by rw [hcalls, Function.update_of_ne hc, hcall])
    | @created c' call' o choices hjob hcall' hcalls =>
        refine hend c' _ (fun call'' hcall'' => ?_) (Or.inr ⟨o, rfl⟩) hcalls hcall
        obtain rfl := Option.some.inj (hcall'.symm.trans hcall'')
        exact List.mem_singleton.mpr rfl
    | @raised c' call' o choices hjob hcall' hcalls =>
        refine hend c' _ (fun call'' hcall'' => ?_) (Or.inl rfl) hcalls hcall
        obtain rfl := Option.some.inj (hcall'.symm.trans hcall'')
        exact List.mem_singleton.mpr rfl
  · rw [Inserting, hlog]
    exact Or.inr (Or.inl (List.mem_append_left _ hraised))
  · rw [Inserting, hlog]
    exact Or.inr (Or.inr ⟨o, List.mem_append_left _ hcreated⟩)

/-- How far the calls under the key have got. -/
inductive Stage (s : System) (userSub key : String) (raced : Prop) : Prop where
  /-- Nobody has called. -/
  | fresh (hraced : ¬ raced) (hlog : s.callLog userSub key = []) (hquiet : s.Quiet userSub key)
  /-- The first call is under way, alone. -/
  | first (hraced : ¬ raced) {c : ℕ} {call : Orders.CreateOrderCall}
      (hlog : s.callLog userSub key = [.lookedUp c call]) (hcall : s.orders.callOf c = some call)
      (hfor : call.IsFor userSub key) (hfits : call.Fits)
      (honly : ∀ c' call', s.orders.callOf c' = some call' → call'.IsFor userSub key → c' = c)
  /-- The first call has created the order, and all others have found it. -/
  | served (hraced : ¬ raced) {c : ℕ} {call : Orders.CreateOrderCall} {o : String}
      {rest : List Orders.DeskEvent}
      (hlog : s.callLog userSub key =
        .lookedUp c call :: .ended c call (.answered (.created o)) :: rest)
      (hrest : ∀ event ∈ rest, event.isCreated = false ∧ event.isRaised = false)
      (hquiet : s.Quiet userSub key)
  /-- Two calls have found no order. -/
  | raced (hraced : raced) {c c' : ℕ} {call call' : Orders.CreateOrderCall} (hne : c ≠ c')
      (hfor : call.IsFor userSub key) (hfor' : call'.IsFor userSub key)
      (hinserting : s.Inserting c call) (hinserting' : s.Inserting c' call')

namespace Stage

variable {raced : Prop}

/-- A turn of other calls changes no stage. -/
theorem unconcerned (h : s.Stage userSub key raced) (hturn : Turn s s' act new)
    (hlog : s'.orders.log = s.orders.log ++ new)
    (hother : ∀ event ∈ new, ¬ event.call.IsFor userSub key) :
    s'.Stage userSub key (raced ∨ s.Races userSub key act) := by
  obtain ⟨hraces, hcalls⟩ := hturn.unconcerned hother
  have hsame : s'.callLog userSub key = s.callLog userSub key := by
    have hnone : (new.filter fun event => event.call.IsFor userSub key) = [] := by
      refine List.filter_eq_nil_iff.mpr fun event hevent => ?_
      simpa using hother event hevent
    rw [callLog_append userSub key hlog, hnone, List.append_nil]
  have hquiet : s.Quiet userSub key → s'.Quiet userSub key := by
    intro hquiet c call hcall hfor
    exact hquiet c call ((hcalls c call hfor).mp hcall) hfor
  have hnot : ¬ raced → ¬ (raced ∨ s.Races userSub key act) := by
    intro hraced hor
    exact hor.elim hraced hraces
  cases h with
  | fresh hraced hnil hidle => exact .fresh (hnot hraced) (hsame.trans hnil) (hquiet hidle)
  | first hraced hfirst hcall hfor hfits honly =>
      refine .first (hnot hraced) (hsame.trans hfirst) ((hcalls _ _ hfor).mpr hcall) hfor hfits ?_
      intro c' call' hcall' hfor'
      exact honly c' call' ((hcalls c' call' hfor').mp hcall') hfor'
  | served hraced hserved hrest hidle =>
      exact .served (hnot hraced) (hsame.trans hserved) hrest (hquiet hidle)
  | raced hraced hne hfor hfor' h₁ h₂ =>
      exact .raced (Or.inl hraced) hne hfor hfor' (h₁.turn hturn hlog) (h₂.turn hturn hlog)

omit [Platform] in
/-- When the only call is over, nobody is under way. -/
theorem quiet_of_update {c : ℕ} (h : ∀ c' call', s.orders.callOf c' = some call' →
      call'.IsFor userSub key → c' = c)
    (hcalls : s'.orders.callOf = Function.update s.orders.callOf c none) :
    s'.Quiet userSub key := by
  intro c' call' hcall hfor
  by_cases hc : c' = c
  · simp [hcalls, hc] at hcall
  · rw [hcalls, Function.update_of_ne hc] at hcall
    exact hc (h c' call' hcall hfor)

variable {stock : ServiceStore Inventory.Row} {sagas : Sagas} {owner : String → Option Owner}

/-- **Every step goes on from stage to stage.** -/
theorem step (h : s.Stage userSub key raced) (hlaw : Law stock sagas owner s)
    (hclean : s.Clean userSub key act) (hs : s.step act = some s') :
    s'.Stage userSub key (raced ∨ s.Races userSub key act) := by
  obtain ⟨new, hturn, hlog⟩ := turn hlaw.desk.apart hs
  by_cases hother : ∀ event ∈ new, ¬ event.call.IsFor userSub key
  · exact h.unconcerned hturn hlog hother
  -- All that a turn adds to the log is about one call.
  have hwhole : ∀ call, (∀ event ∈ new, event.call = call) → call.IsFor userSub key ∧
      s'.callLog userSub key = s.callLog userSub key ++ new := by
    intro call hsame
    have hfor : call.IsFor userSub key := by
      by_contra hnot
      exact hother fun event hevent => hsame event hevent ▸ hnot
    refine ⟨hfor, ?_⟩
    rw [callLog_append userSub key hlog, List.filter_eq_self.mpr]
    exact fun event hevent => decide_eq_true (hsame event hevent ▸ hfor)
  by_cases hraced : raced
  · cases h with
    | raced _ hne hfor hfor' h₁ h₂ =>
        exact .raced (Or.inl hraced) hne hfor hfor' (h₁.turn hturn hlog) (h₂.turn hturn hlog)
    | fresh hnot | first hnot | served hnot => exact absurd hraced hnot
  have hended : (∀ c call, act ≠ .lookUp c call) → ¬ (raced ∨ s.Races userSub key act) := by
    intro hact hor
    rcases hor with hold | ⟨c, call, _, _, heq, _⟩
    · exact hraced hold
    · exact hact c call heq
  have halone : s.Quiet userSub key → ¬ (raced ∨ s.Races userSub key act) := by
    intro hquiet hor
    rcases hor with hold | ⟨_, _, c', call', _, _, hcall', hfor'⟩
    · exact hraced hold
    · exact hquiet c' call' hcall' hfor'
  cases hturn with
  | quiet => exact absurd (by simp) hother
  | @found c call outcome hidle hcalls hanswer =>
      obtain ⟨hfor, hnew⟩ := hwhole call (by simp [Orders.DeskEvent.call])
      obtain ⟨rfl, rfl⟩ := hfor
      -- A call that fits is not refused, so it has found an order.
      rcases hanswer with ⟨e, herror, -⟩ | ⟨existing, hfind, rfl⟩
      · exact absurd herror ((hclean.fits c call rfl ⟨rfl, rfl⟩).find_ne_error _ e)
      obtain ⟨event, hevent, hcreated⟩ := hlaw.created_of_found hfind
      cases h with
      | raced hyes => exact absurd hyes hraced
      | fresh _ hnil => simp [hnil] at hevent
      | first _ hfirst =>
          rw [hfirst, List.mem_singleton] at hevent
          subst hevent
          simp [Orders.DeskEvent.isCreated] at hcreated
      | @served _ first firstCall o rest hserved hrest hquiet =>
          rw [hserved] at hnew
          have hmore : ∀ event ∈ rest ++ [.lookedUp c call, .ended c call
              (.answered (Orders.answerExisting call existing))],
              event.isCreated = false ∧ event.isRaised = false := by
            intro event hevent
            simp only [List.mem_append, List.mem_cons, List.not_mem_nil, or_false] at hevent
            rcases hevent with hold | rfl | rfl
            · exact hrest event hold
            · exact ⟨rfl, rfl⟩
            · exact ⟨Orders.isCreated_answerExisting c call existing, rfl⟩
          refine .served (halone hquiet) hnew hmore ?_
          intro c' call' hcall'
          exact hquiet c' call' (hcalls ▸ hcall')
  | @missed c call hidle hfind hcalls =>
      obtain ⟨hfor, hnew⟩ := hwhole call (by simp [Orders.DeskEvent.call])
      obtain ⟨rfl, rfl⟩ := hfor
      have hnone := hlaw.not_created_of_missed hfind
      have hcall : s'.orders.callOf c = some call := by rw [hcalls, Function.update_self]
      cases h with
      | raced hyes => exact absurd hyes hraced
      | fresh _ hnil hquiet =>
          rw [hnil] at hnew
          refine .first (halone hquiet) hnew hcall ⟨rfl, rfl⟩ (hclean.fits c call rfl ⟨rfl, rfl⟩) ?_
          intro c' call' hcall' hfor'
          by_contra hc
          rw [hcalls, Function.update_of_ne hc] at hcall'
          exact hquiet c' call' hcall' hfor'
      | @first _ first firstCall hfirst hfirstCall hfor' =>
          have hne : first ≠ c := by
            intro heq
            rw [heq, hidle] at hfirstCall
            simp at hfirstCall
          refine .raced (Or.inr ⟨c, call, first, firstCall, rfl, ⟨rfl, rfl⟩, hfirstCall, hfor'⟩) hne
            hfor' ⟨rfl, rfl⟩ (Or.inl ?_) (Or.inl hcall)
          rw [hcalls, Function.update_of_ne hne, hfirstCall]
      | @served _ first firstCall o rest hserved =>
          have hevent : .ended first firstCall (.answered (.created o)) ∈
              s.callLog call.userSub call.idempotencyKey := by
            rw [hserved]
            simp
          exact absurd ⟨_, hevent, rfl⟩ hnone
  | @created c call o choices hjob hcall hcalls =>
      obtain ⟨hfor, hnew⟩ := hwhole call (by simp [Orders.DeskEvent.call])
      cases h with
      | raced hyes => exact absurd hyes hraced
      | fresh _ _ hquiet => exact absurd hfor (hquiet c call hcall)
      | first _ hfirst hfirstCall _ _ honly =>
          obtain rfl := honly c call hcall hfor
          obtain rfl := Option.some.inj (hcall.symm.trans hfirstCall)
          rw [hfirst] at hnew
          exact .served (hended (by simp)) hnew (by simp) (quiet_of_update honly hcalls)
      | served _ _ _ hquiet => exact absurd hfor (hquiet c call hcall)
  | @raised c call o choices hjob hcall hcalls =>
      obtain ⟨hfor, hnew⟩ := hwhole call (by simp [Orders.DeskEvent.call])
      cases h with
      | raced hyes => exact absurd hyes hraced
      | fresh _ _ hquiet => exact absurd hfor (hquiet c call hcall)
      | first _ hfirst hfirstCall _ hfits honly =>
          -- Alone, the transaction of the first call violates no constraint.
          obtain rfl := honly c call hcall hfor
          obtain rfl := Option.some.inj (hcall.symm.trans hfirstCall)
          obtain ⟨σ, hσ, hσjob⟩ := Option.map_eq_some_iff.mp hjob
          obtain ⟨e, hrest, hconstraint⟩ := hclean.fails c σ call o choices rfl hσ hσjob hfor
          obtain ⟨rfl, rfl⟩ := hfor
          refine absurd hconstraint (hlaw.not_constraint hσ hσjob hfits ?_ hrest)
          rw [hfirst]
          simp [Orders.DeskEvent.isCreated]
      | served _ _ _ hquiet => exact absurd hfor (hquiet c call hcall)

theorem of_run (hstock : OnlyItems stock) (hrun : CallRun stock userSub key raced s) :
    (∃ sagas owner, Law stock sagas owner s) ∧ s.Stage userSub key raced := by
  induction hrun with
  | start => exact ⟨⟨_, _, Law.start hstock⟩, .fresh id rfl fun c call hcall => by
      simp [System.start, Orders.Desk.start, Orders.Desk.callOf, Orders.Desk.jobOf, Node.start,
        Server.start] at hcall⟩
  | step _ hclean hs ih =>
      obtain ⟨⟨sagas, owner, hlaw⟩, hstage⟩ := ih
      obtain ⟨sagas', owner', hlaw', -⟩ := hlaw.step hs
      exact ⟨⟨sagas', owner', hlaw'⟩, hstage.step hlaw hclean hs⟩

/-- As long as no calls have raced, none has raised and at most one has created an order. -/
theorem unraced (h : s.Stage userSub key raced) (hraced : ¬ raced) :
    (∀ event ∈ s.callLog userSub key, event.isRaised = false) ∧
      ((s.callLog userSub key).filter Orders.DeskEvent.isCreated).length ≤ 1 := by
  cases h with
  | raced hyes => exact absurd hyes hraced
  | fresh _ hnil => simp [hnil]
  | first _ hfirst => simp [hfirst, Orders.DeskEvent.isRaised, Orders.DeskEvent.isCreated]
  | @served _ c call o rest hserved hrest =>
      have hnone : rest.filter Orders.DeskEvent.isCreated = [] := by
        refine List.filter_eq_nil_iff.mpr fun event hevent => ?_
        rw [(hrest event hevent).1]
        simp
      rw [hserved]
      refine ⟨fun event hevent => ?_, ?_⟩
      · simp only [List.mem_cons] at hevent
        rcases hevent with rfl | rfl | hevent
        · rfl
        · rfl
        · exact (hrest event hevent).2
      · rw [List.filter_cons_of_neg (by simp [Orders.DeskEvent.isCreated]),
          List.filter_cons_of_pos rfl, hnone]
        simp

/-- Once they are over, one of them has. -/
theorem created_once (h : s.Stage userSub key raced) (hraced : ¬ raced)
    (hquiet : s.Quiet userSub key) (hcalled : s.callLog userSub key ≠ []) :
    ((s.callLog userSub key).filter Orders.DeskEvent.isCreated).length = 1 := by
  have hle := (h.unraced hraced).2
  have hpos : 0 < ((s.callLog userSub key).filter Orders.DeskEvent.isCreated).length := by
    cases h with
    | raced hyes => exact absurd hyes hraced
    | fresh _ hnil => exact absurd hnil hcalled
    | first _ _ hcall hfor => exact absurd hfor (hquiet _ _ hcall)
    | served _ hserved =>
        rw [hserved]
        simp [Orders.DeskEvent.isCreated]
  omega

/-- Two calls that have raced and are over have not both been answered as documented. -/
theorem not_raced (h : s.Stage userSub key raced) (hquiet : s.Quiet userSub key)
    (hdocumented : s.Documented userSub key) : ¬ raced := by
  intro hraced
  have hcreated : ∀ c call, call.IsFor userSub key → s.Inserting c call →
      ∃ o, .ended c call (.answered (.created o)) ∈
        (s.callLog userSub key).filter Orders.DeskEvent.isCreated := by
    intro c call hfor hinserting
    have hmem : ∀ outcome, .ended c call outcome ∈ s.orders.log →
        .ended c call outcome ∈ s.callLog userSub key :=
      fun outcome hevent => List.mem_filter.mpr ⟨hevent, decide_eq_true hfor⟩
    rcases hinserting with hcall | hraised | ⟨o, hevent⟩
    · exact absurd hfor (hquiet c call hcall)
    · exact (hdocumented.answers c call .raised (hmem _ hraised)).elim
    · exact ⟨o, List.mem_filter.mpr ⟨hmem _ hevent, rfl⟩⟩
  cases h with
  | fresh hnot | first hnot | served hnot => exact hnot hraced
  | raced _ hne hfor hfor' h₁ h₂ =>
      obtain ⟨o, hevent⟩ := hcreated _ _ hfor h₁
      obtain ⟨o', hevent'⟩ := hcreated _ _ hfor' h₂
      obtain ⟨event, hevents⟩ := List.length_eq_one_iff.mp hdocumented.once
      rw [hevents, List.mem_singleton] at hevent hevent'
      have hsame := hevent.trans hevent'.symm
      simp only [Orders.DeskEvent.ended.injEq] at hsame
      exact hne hsame.1

end Stage

end System

/-- An answer is about the order that is stored. -/
theorem Law.isDocumented {stock : ServiceStore Inventory.Row} {sagas : Sagas}
    {owner : String → Option Owner} {s : System} (h : Law stock sagas owner s) {c : ℕ}
    {call : Orders.CreateOrderCall} {outcome : Orders.Outcome}
    (hevent : .ended c call outcome ∈ s.orders.log) (hanswered : outcome ≠ .raised) :
    s.IsDocumented call outcome := by
  obtain ⟨-, hvouched⟩ := h.desk.ended c call outcome hevent
  cases outcome with
  | raised => exact absurd rfl hanswered
  | answered result =>
      cases result with
      | created o =>
          obtain ⟨saga, hsaga, rfl⟩ := hvouched
          exact h.orderOf_iff.mpr ⟨saga, hsaga, saga.isFor_call⟩
      | replayed o status =>
          obtain ⟨saga, hsaga, hfor, hhash⟩ := hvouched
          refine ⟨h.orderOf_iff.mpr ⟨saga, hsaga, hfor⟩, _, h.orderRow hsaga, ?_⟩
          rw [← hhash]
          exact saga.stored.requestHash
      | conflict =>
          obtain ⟨o, saga, hsaga, hfor, hhash⟩ := hvouched
          refine ⟨o, _, h.orderOf_iff.mpr ⟨saga, hsaga, hfor⟩, h.orderRow hsaga, fun heq => ?_⟩
          exact hhash (Option.some.inj (saga.stored.requestHash.symm.trans heq))

/--
**Documented answers, if nobody races.**  In every run in which the database fails calls
under the key on constraints only: as long as no call comes in while another one is under
way, every answer is as documented and at most one is a new order.  Once no call is under
way, all calls have ended as documented, and exactly one with a new order, if and only if
no two of them have raced.
-/
theorem documented_iff_not_raced (stock : ServiceStore Inventory.Row) (hstock : OnlyItems stock)
    (userSub key : String) {raced : Prop} {s : System}
    (hrun : System.CallRun stock userSub key raced s) :
    (¬ raced →
      (∀ c call outcome, .ended c call outcome ∈ s.callLog userSub key →
        s.IsDocumented call outcome) ∧
      ((s.callLog userSub key).filter Orders.DeskEvent.isCreated).length ≤ 1) ∧
    (s.Quiet userSub key → s.callLog userSub key ≠ [] →
      (s.Documented userSub key ↔ ¬ raced)) := by
  obtain ⟨⟨sagas, owner, hlaw⟩, hstage⟩ := System.Stage.of_run hstock hrun
  have hanswers : ¬ raced → ∀ c call outcome, .ended c call outcome ∈ s.callLog userSub key →
      s.IsDocumented call outcome := by
    intro hraced c call outcome hevent
    refine hlaw.isDocumented (List.mem_filter.mp hevent).1 ?_
    rintro rfl
    have hnot := (hstage.unraced hraced).1 _ hevent
    simp [Orders.DeskEvent.isRaised] at hnot
  refine ⟨fun hraced => ⟨hanswers hraced, (hstage.unraced hraced).2⟩, fun hquiet hcalled => ?_⟩
  refine ⟨hstage.not_raced hquiet, fun hraced => ⟨fun c call hevent => ?_, hanswers hraced,
    hstage.created_once hraced hquiet hcalled⟩⟩
  obtain ⟨hlooked, hfor⟩ := List.mem_filter.mp hevent
  rcases hlaw.desk.accounted c call hlooked with hcall | ⟨outcome, hended⟩
  · exact absurd (of_decide_eq_true hfor) (hquiet c call hcall)
  · exact ⟨outcome, List.mem_filter.mpr ⟨hended, hfor⟩⟩

end CommercePlatform

/-! ### Two calls that race -/

namespace CommercePlatform.Sale

open Js Txn

attribute [local instance] platform

theorem fits : call.Fits := by
  have hok : (Orders.newOrderRow call (uuid 1)).toOption.isSome = true := by decide +kernel
  cases hentry : Orders.newOrderRow call (uuid 1) with
  | error e => simp [hentry, Except.toOption] at hok
  | ok entry => exact ⟨uuid 1, entry, hentry⟩

/-- Runs of this one call, as long as no transaction fails. -/
theorem callRun_of_run (userSub key : String) {acts : List SystemAct} {raced : Prop}
    {s s' : System} (h : System.CallRun stock userSub key raced s)
    (hcalls : ∀ c call', .lookUp c call' ∈ acts → call' = call)
    (hfails : ∀ i, .work .orders (.rollback i) ∉ acts) (hrun : System.run acts s = some s') :
    ∃ raced', System.CallRun stock userSub key raced' s' := by
  induction acts generalizing s raced with
  | nil =>
      obtain rfl := Option.some.inj hrun
      exact ⟨raced, h⟩
  | cons act rest ih =>
      obtain ⟨s₁, hstep, hrest⟩ := Option.bind_eq_some_iff.mp hrun
      have hclean : s.Clean userSub key act := by
        refine ⟨?_, ?_⟩
        · rintro c call' rfl -
          rw [hcalls c call' (List.mem_cons_self ..)]
          exact fits
        · rintro i σ call' o choices rfl
          exact absurd (List.mem_cons_self ..) (hfails i)
      refine ih (h.step hclean hstep) ?_ ?_ hrest
      · intro c call' hmem
        exact hcalls c call' (List.mem_cons_of_mem _ hmem)
      · intro i hmem
        exact hfails i (List.mem_cons_of_mem _ hmem)

/-- There have been two calls, and none of them is under way. -/
theorem quiet_of_idle {s : System} (hreach : System.Reach stock s) {userSub key : String}
    (hlog : ∀ c call', .lookedUp c call' ∈ s.orders.log → c = 1 ∨ c = 2)
    (hidle₁ : s.orders.callOf 1 = none) (hidle₂ : s.orders.callOf 2 = none) :
    s.Quiet userSub key := by
  obtain ⟨sagas, owner, hlaw⟩ := Law.of_reach onlyItems hreach
  intro c call' hcall
  rcases hlog c call' (hlaw.desk.called c call' hcall) with rfl | rfl
  · simp [hidle₁] at hcall
  · simp [hidle₂] at hcall

/-- Both calls look their key up before either inserts, and the first one commits. -/
def racing : List SystemAct :=
  [.lookUp 1 call, .lookUp 2 call, .insert 1 (uuid 1) (choices 2 3),
    .insert 2 (uuid 4) (choices 5 6)] ++ transaction .orders 1 6 ++
  List.replicate 3 (.work .orders (.exec 2))

def racingLog : List Orders.DeskEvent :=
  [.lookedUp 1 call, .lookedUp 2 call, .ended 1 call (.answered (.created (uuid 1))),
    .ended 2 call .raised]

/-- The insert of session 2 has violated the unique index. -/
def violated (s : System) : Bool :=
  match s.orders.node.server.sessions 2 with
  | none => false
  | some σ =>
      match σ.rest with
      | .throw (.unique constraint) => constraint = "orders_orders_user_id_idempotency_key_idx"
      | _ => false

/-- **A retry that races is refused.** -/
theorem retry_raises : ∃ raced s, System.CallRun stock "auth0|alice" "order-001" raced s ∧
    s.Quiet "auth0|alice" "order-001" ∧ s.callLog "auth0|alice" "order-001" = racingLog ∧
      ¬ s.Documented "auth0|alice" "order-001" := by
  have hends : ((System.run racing (System.start stock)).any fun s => violated s ∧
      (s.step (.work .orders (.rollback 2))).any fun s' => s'.orders.log = racingLog ∧
        s'.orders.callOf 1 = none ∧ s'.orders.callOf 2 = none) = true := by decide +kernel
  obtain ⟨s, hs, hends⟩ := (Option.any_eq_true _ _).mp hends
  obtain ⟨hviolated, hends⟩ := of_decide_eq_true hends
  obtain ⟨s', hs', hends⟩ := (Option.any_eq_true _ _).mp hends
  obtain ⟨hlog, hidle₁, hidle₂⟩ := of_decide_eq_true hends
  have hcalls : ∀ c call', .lookUp c call' ∈ racing → call' = call := by
    intro c call' hmem
    have hcall : c = 1 ∧ call' = call ∨ c = 2 ∧ call' = call := by
      simpa [racing, transaction] using hmem
    exact hcall.elim And.right And.right
  obtain ⟨raced, hrun⟩ := callRun_of_run "auth0|alice" "order-001" .start hcalls
    (by simp [racing, transaction]) hs
  have hclean : s.Clean "auth0|alice" "order-001" (.work .orders (.rollback 2)) := by
    refine ⟨by simp, ?_⟩
    rintro i σ call' o choices hact hσ - -
    obtain rfl : i = 2 := by simpa using hact.symm
    simp only [violated, hσ] at hviolated
    split at hviolated
    · rename_i constraint hrest
      exact ⟨.unique constraint, hrest, trivial⟩
    · simp at hviolated
  have hreach : System.Reach stock s' := (System.steps_of_run hs).tail ⟨_, hs'⟩
  have hcallLog : s'.callLog "auth0|alice" "order-001" = racingLog := by
    rw [System.callLog, hlog]
    decide +kernel
  refine ⟨_, s', hrun.step hclean hs', quiet_of_idle hreach ?_ hidle₁ hidle₂, hcallLog, ?_⟩
  · intro c call' hmem
    have hcall : c = 1 ∧ call' = call ∨ c = 2 ∧ call' = call := by
      simpa [hlog, racingLog] using hmem
    exact hcall.imp And.left And.left
  · intro hdocumented
    refine hdocumented.answers 2 call .raised ?_
    rw [hcallLog]
    simp [racingLog]

theorem retry_answered : ∃ raced s, System.CallRun stock "auth0|alice" "order-001" raced s ∧
    s.orders.log = retriedLog ∧ (s.Documented "auth0|alice" "order-001" ↔ ¬ raced) := by
  have hlog : ((System.run retried (System.start stock)).any fun s =>
      s.orders.log = retriedLog ∧ s.orders.callOf 1 = none ∧ s.orders.callOf 2 = none) = true := by
    decide +kernel
  obtain ⟨s, hs, hends⟩ := (Option.any_eq_true _ _).mp hlog
  obtain ⟨hlog, hidle₁, hidle₂⟩ := of_decide_eq_true hends
  have hcalls : ∀ c call', .lookUp c call' ∈ retried → call' = call := by
    intro c call' hmem
    have hcall : c = 1 ∧ call' = call ∨ c = 2 ∧ call' = call := by
      simpa [retried, transaction] using hmem
    exact hcall.elim And.right And.right
  obtain ⟨raced, hrun⟩ := callRun_of_run "auth0|alice" "order-001" .start hcalls
    (by simp [retried, transaction]) hs
  refine ⟨raced, s, hrun, hlog, (documented_iff_not_raced stock onlyItems "auth0|alice"
    "order-001" hrun).2 (quiet_of_idle (System.steps_of_run hs) ?_ hidle₁ hidle₂) ?_⟩
  · intro c call' hmem
    have hcall : c = 1 ∧ call' = call ∨ c = 2 ∧ call' = call := by
      simpa [hlog, retriedLog] using hmem
    exact hcall.imp And.left And.left
  · rw [System.callLog, hlog]
    decide +kernel

end CommercePlatform.Sale
