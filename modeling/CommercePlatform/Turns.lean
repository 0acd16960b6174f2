/-
What a step of the system means to the calls of `createOrder`.

Most steps mean nothing to them.  A call comes in with its look-up, which either ends it
or leaves it under way; and what ends a call under way is the end of its transaction.
-/
import CommercePlatform.System
import CommercePlatform.Service.Steps

namespace CommercePlatform

open Js Txn

namespace Orders.Desk

variable {d d' : Desk} {n n' : Node Row Job}

/-- Call `c`, if it is under way: it has found no order, and its transaction is not over. -/
def callOf (d : Desk) (c : ℕ) : Option CreateOrderCall :=
  match d.waiting c, jobOf d.node c with
  | some call, _ => some call
  | none, some (.create call _ _) => some call
  | none, _ => none

/-- A call that waits for its transaction has none. -/
def Apart (d : Desk) : Prop :=
  ∀ c call call' orderId choices, d.waiting c = some call →
    jobOf d.node c ≠ some (.create call' orderId choices)

/-! ### Jobs -/

variable [Platform]

theorem jobOf_begin {i : ℕ} {job : Job}
    (hs : n.step Job.body (.business (.begin i job)) = some n') :
    jobOf n i = none ∧ jobOf n' = Function.update (jobOf n) i (some job) := by
  obtain ⟨server, hserver, rfl⟩ := Option.map_eq_some_iff.mp hs
  obtain ⟨hnone, rfl⟩ := Server.begin_cases hserver
  refine ⟨by rw [jobOf, hnone]; rfl, ?_⟩
  funext j
  by_cases hj : j = i
  · subst hj
    simp [jobOf, Session.opened]
  · simp [jobOf, Function.update_of_ne hj]

theorem jobOf_commit {i : ℕ} (hs : n.step Job.body (Work.commit i).act = some n') :
    jobOf n' = Function.update (jobOf n) i none := by
  obtain ⟨server, hserver, rfl⟩ := Option.map_eq_some_iff.mp hs
  obtain ⟨σ, a, hσ, ha, rfl⟩ := Server.commit_cases hserver
  funext j
  by_cases hj : j = i
  · subst hj
    simp [jobOf]
  · simp [jobOf, Function.update_of_ne hj]

theorem jobOf_rollback {i : ℕ} (hs : n.step Job.body (Work.rollback i).act = some n') :
    jobOf n' = Function.update (jobOf n) i none := by
  obtain ⟨server, hserver, rfl⟩ := Option.map_eq_some_iff.mp hs
  obtain ⟨σ, hσ, rfl⟩ := Server.rollback_cases hserver
  funext j
  by_cases hj : j = i
  · subst hj
    simp [jobOf]
  · simp [jobOf, Function.update_of_ne hj]

theorem jobOf_exec {i : ℕ} (hs : n.step Job.body (Work.exec i).act = some n') :
    jobOf n' = jobOf n := by
  obtain ⟨server, hserver, rfl⟩ := Option.map_eq_some_iff.mp hs
  obtain ⟨σ, σ', need, hσ, hadv, -, -, -, hsessions, -⟩ := Server.exec_cases hserver
  funext j
  show (server.sessions j).map (fun σ => σ.job) = (n.server.sessions j).map fun σ => σ.job
  rw [hsessions]
  by_cases hj : j = i
  · subst hj
    simp [hσ, Session.advance_job hadv]
  · rw [Function.update_of_ne hj]

/-- The publisher has no sessions. -/
theorem jobOf_publisher {w : Work} (hs : n.step Job.body w.act = some n')
    (hexec : ∀ i, w ≠ .exec i) (hcommit : ∀ i, w ≠ .commit i) (hrollback : ∀ i, w ≠ .rollback i) :
    jobOf n' = jobOf n := by
  have hsessions : n'.server.sessions = n.server.sessions := by
    rcases Node.server_cases hs with ⟨act, hact, -⟩ |
      ⟨-, hserver | ⟨-, id, -, -, now, -, -, hserver⟩⟩
    · rcases Work.act_eq_business hact with ⟨i, hw, -⟩ | ⟨i, hw, -⟩ | ⟨i, hw, -⟩
      · exact absurd hw (hexec i)
      · exact absurd hw (hcommit i)
      · exact absurd hw (hrollback i)
    · rw [hserver]
    · rw [hserver]
  funext j
  rw [jobOf, jobOf, hsessions]

/-! ### Calls under way -/

omit [Platform]

theorem callOf_of_waiting {c : ℕ} {call : CreateOrderCall} (h : d.waiting c = some call) :
    d.callOf c = some call := by
  simp [callOf, h]

theorem callOf_of_job {c : ℕ} {call : CreateOrderCall} {orderId : String} {choices : Choices}
    (hapart : d.Apart) (h : jobOf d.node c = some (.create call orderId choices)) :
    d.callOf c = some call := by
  have hwaiting : d.waiting c = none := by
    by_contra hne
    obtain ⟨call', hcall'⟩ := Option.ne_none_iff_exists'.mp hne
    exact hapart c call' call orderId choices hcall' h
  simp [callOf, hwaiting, h]

theorem callOf_congr {c : ℕ} (hwaiting : d'.waiting c = d.waiting c)
    (hjob : jobOf d'.node c = jobOf d.node c) : d'.callOf c = d.callOf c := by
  simp [callOf, hwaiting, hjob]

/-- Where there is no transaction of a call, there is only what waits. -/
theorem callOf_of_none {c : ℕ}
    (h : ∀ call orderId choices, jobOf d.node c ≠ some (.create call orderId choices)) :
    d.callOf c = d.waiting c := by
  cases hw : d.waiting c with
  | some call => exact callOf_of_waiting hw
  | none =>
      cases hj : jobOf d.node c with
      | none => simp [callOf, hw, hj]
      | some job =>
          cases job with
          | create call orderId choices => exact absurd hj (h call orderId choices)
          | saga delivery => simp [callOf, hw, hj]

end Orders.Desk

/-! ### Turns -/

namespace System

/-- The order that a step creates, and the call it is created for. -/
def creates (s : System) : SystemAct → Option (String × Orders.CreateOrderCall)
  | .work .orders w => Orders.Desk.creates s.orders.node w
  | _ => none

variable [Platform]

/-- What a step means to the calls, and what it adds to the log. -/
inductive Turn (s s' : System) : SystemAct → List Orders.DeskEvent → Prop where
  | quiet {act : SystemAct} (hact : ∀ c call, act ≠ .lookUp c call)
      (hcalls : s'.orders.callOf = s.orders.callOf) (hcreates : s.creates act = none) :
      Turn s s' act []
  | found {c : ℕ} {call : Orders.CreateOrderCall} {outcome : Orders.Outcome}
      (hidle : s.orders.callOf c = none) (hcalls : s'.orders.callOf = s.orders.callOf)
      (hanswer : (∃ e, Orders.findOrderByIdempotency call.userSub call.idempotencyKey s.ordersDb =
          .error e ∧ outcome = .raised) ∨
        ∃ existing, Orders.findOrderByIdempotency call.userSub call.idempotencyKey s.ordersDb =
          .ok (some existing) ∧ outcome = .answered (Orders.answerExisting call existing)) :
      Turn s s' (.lookUp c call) [.lookedUp c call, .ended c call outcome]
  | missed {c : ℕ} {call : Orders.CreateOrderCall} (hidle : s.orders.callOf c = none)
      (hfind : Orders.findOrderByIdempotency call.userSub call.idempotencyKey s.ordersDb = .ok none)
      (hcalls : s'.orders.callOf = Function.update s.orders.callOf c (some call)) :
      Turn s s' (.lookUp c call) [.lookedUp c call]
  | created {c : ℕ} {call : Orders.CreateOrderCall} {o : String} {choices : Choices}
      (hjob : Orders.Desk.jobOf s.orders.node c = some (.create call o choices))
      (hcall : s.orders.callOf c = some call)
      (hcalls : s'.orders.callOf = Function.update s.orders.callOf c none) :
      Turn s s' (.work .orders (.commit c)) [.ended c call (.answered (.created o))]
  | raised {c : ℕ} {call : Orders.CreateOrderCall} {o : String} {choices : Choices}
      (hjob : Orders.Desk.jobOf s.orders.node c = some (.create call o choices))
      (hcall : s.orders.callOf c = some call)
      (hcalls : s'.orders.callOf = Function.update s.orders.callOf c none) :
      Turn s s' (.work .orders (.rollback c)) [.ended c call .raised]

variable {s s' : System}

theorem turn_lookUp {c : ℕ} {call : Orders.CreateOrderCall}
    (hs : s.step (.lookUp c call) = some s') :
    ∃ new, Turn s s' (.lookUp c call) new ∧ s'.orders.log = s.orders.log ++ new := by
  obtain ⟨horders, -⟩ := lookUp_cases hs
  obtain ⟨hwaiting, hsession, hnode, hcases⟩ := Orders.Desk.lookUp_cases horders
  have hidle : s.orders.callOf c = none := by
    simp [Orders.Desk.callOf, Orders.Desk.jobOf, hwaiting, hsession]
  have hsame : s'.orders.waiting = s.orders.waiting → s'.orders.callOf = s.orders.callOf := by
    intro h
    funext j
    exact Orders.Desk.callOf_congr (by rw [h]) (by rw [hnode])
  rcases hcases with ⟨e, hfind, hw, hlog⟩ | ⟨existing, hfind, hw, hlog⟩ | ⟨hfind, hw, hlog⟩
  · exact ⟨_, .found hidle (hsame hw) (Or.inl ⟨e, hfind, rfl⟩), hlog⟩
  · exact ⟨_, .found hidle (hsame hw) (Or.inr ⟨existing, hfind, rfl⟩), hlog⟩
  · refine ⟨_, .missed hidle hfind ?_, hlog⟩
    funext j
    by_cases hj : j = c
    · subst hj
      rw [Function.update_self]
      exact Orders.Desk.callOf_of_waiting (by rw [hw, Function.update_self])
    · rw [Function.update_of_ne hj]
      exact Orders.Desk.callOf_congr (by rw [hw, Function.update_of_ne hj]) (by rw [hnode])

/-- A call whose transaction is opened goes on. -/
theorem turn_insert {c : ℕ} {orderId : String} {choices : Choices}
    (hs : s.step (.insert c orderId choices) = some s') :
    ∃ new, Turn s s' (.insert c orderId choices) new ∧
      s'.orders.log = s.orders.log ++ new := by
  obtain ⟨-, horders, -⟩ := insert_cases hs
  obtain ⟨call, hcall, hnode, hw, hlog⟩ := Orders.Desk.insert_cases horders
  obtain ⟨-, hjobs⟩ := Orders.Desk.jobOf_begin hnode
  refine ⟨_, .quiet (by simp) ?_ rfl, by rw [hlog, List.append_nil]⟩
  funext j
  by_cases hj : j = c
  · subst hj
    rw [Orders.Desk.callOf_of_waiting hcall]
    simp [Orders.Desk.callOf, hw, hjobs]
  · refine Orders.Desk.callOf_congr ?_ ?_
    · rw [hw, Function.update_of_ne hj]
    · rw [hjobs, Function.update_of_ne hj]

theorem turn_deliver {service source : Service} {i offset : ℕ} {choices : Choices}
    (hs : s.step (.deliver service i source offset choices) = some s') :
    ∃ new, Turn s s' (.deliver service i source offset choices) new ∧
      s'.orders.log = s.orders.log ++ new := by
  obtain ⟨message, -, s₁, -, -, hdeliver, rfl⟩ := deliver_cases hs
  refine ⟨[], .quiet (by simp) ?_ rfl, ?_⟩
  · cases service with
    | orders =>
        obtain ⟨orders, horders, rfl⟩ := Option.map_eq_some_iff.mp hdeliver
        obtain ⟨hnode, hw, -⟩ := Orders.Desk.deliver_cases horders
        obtain ⟨hnone, hjobs⟩ := Orders.Desk.jobOf_begin hnode
        funext j
        show orders.callOf j = s.orders.callOf j
        by_cases hj : j = i
        · subst hj
          rw [Orders.Desk.callOf_of_none (by simp [hjobs]),
            Orders.Desk.callOf_of_none (by simp [hnone]), hw]
        · exact Orders.Desk.callOf_congr (by rw [hw]) (by rw [hjobs, Function.update_of_ne hj])
    | inventory =>
        obtain ⟨inventory, -, rfl⟩ := Option.map_eq_some_iff.mp hdeliver
        rfl
    | payments =>
        obtain ⟨payments, -, rfl⟩ := Option.map_eq_some_iff.mp hdeliver
        rfl
  · rw [List.append_nil]
    cases service with
    | orders =>
        obtain ⟨orders, horders, rfl⟩ := Option.map_eq_some_iff.mp hdeliver
        obtain ⟨-, -, hlog⟩ := Orders.Desk.deliver_cases horders
        exact hlog
    | inventory =>
        obtain ⟨inventory, -, rfl⟩ := Option.map_eq_some_iff.mp hdeliver
        rfl
    | payments =>
        obtain ⟨payments, -, rfl⟩ := Option.map_eq_some_iff.mp hdeliver
        rfl

/-- Of what the order service does by itself, a call notices the end of its transaction. -/
theorem turn_orders (hapart : s.orders.Apart) {w : Work}
    (hs : s.step (.work .orders w) = some s') :
    ∃ new, Turn s s' (.work .orders w) new ∧ s'.orders.log = s.orders.log ++ new := by
  obtain ⟨orders, horders, rfl⟩ := Option.map_eq_some_iff.mp hs
  obtain ⟨hnode, hw, hlog⟩ := Orders.Desk.work_cases horders
  refine ⟨_, ?_, hlog⟩
  have hsame : Orders.Desk.jobOf orders.node = Orders.Desk.jobOf s.orders.node →
      orders.callOf = s.orders.callOf := by
    intro hjobs
    funext j
    exact Orders.Desk.callOf_congr (by rw [hw]) (by rw [hjobs])
  -- The end of a session is the end of its call, if it has one.
  have hover : ∀ i, Orders.Desk.jobOf orders.node =
      Function.update (Orders.Desk.jobOf s.orders.node) i none →
      (∀ call o choices, Orders.Desk.jobOf s.orders.node i = some (.create call o choices) →
        orders.callOf = Function.update s.orders.callOf i none) ∧
      ((∀ call o choices, Orders.Desk.jobOf s.orders.node i ≠ some (.create call o choices)) →
        orders.callOf = s.orders.callOf) := by
    intro i hjobs
    have hi : orders.callOf i = s.orders.waiting i := by
      rw [Orders.Desk.callOf_of_none (by simp [hjobs]), hw]
    have hother : ∀ j, j ≠ i → orders.callOf j = s.orders.callOf j := by
      intro j hj
      exact Orders.Desk.callOf_congr (by rw [hw]) (by rw [hjobs, Function.update_of_ne hj])
    constructor
    · intro call o choices hjob
      have hwaiting : s.orders.waiting i = none := by
        by_contra hne
        obtain ⟨call', hcall'⟩ := Option.ne_none_iff_exists'.mp hne
        exact hapart i call' call o choices hcall' hjob
      funext j
      by_cases hj : j = i
      · subst hj
        rw [hi, hwaiting, Function.update_self]
      · rw [hother j hj, Function.update_of_ne hj]
    · intro hjob
      funext j
      by_cases hj : j = i
      · subst hj
        rw [hi, Orders.Desk.callOf_of_none hjob]
      · exact hother j hj
  cases w with
  | commit i =>
      obtain ⟨hcreate, hidle⟩ := hover i (Orders.Desk.jobOf_commit hnode)
      cases hjob : Orders.Desk.jobOf s.orders.node i with
      | none =>
          simp only [Orders.Desk.ends, hjob]
          exact .quiet (by simp) (hidle (by simp [hjob]))
            (by simp [creates, Orders.Desk.creates, hjob])
      | some job =>
          cases job with
          | create call o choices =>
              simp only [Orders.Desk.ends, hjob]
              exact .created hjob (Orders.Desk.callOf_of_job hapart hjob)
                (hcreate call o choices hjob)
          | saga delivery =>
              simp only [Orders.Desk.ends, hjob]
              exact .quiet (by simp) (hidle (by simp [hjob]))
                (by simp [creates, Orders.Desk.creates, hjob])
  | rollback i =>
      obtain ⟨hcreate, hidle⟩ := hover i (Orders.Desk.jobOf_rollback hnode)
      cases hjob : Orders.Desk.jobOf s.orders.node i with
      | none =>
          simp only [Orders.Desk.ends, hjob]
          exact .quiet (by simp) (hidle (by simp [hjob])) rfl
      | some job =>
          cases job with
          | create call o choices =>
              simp only [Orders.Desk.ends, hjob]
              exact .raised hjob (Orders.Desk.callOf_of_job hapart hjob)
                (hcreate call o choices hjob)
          | saga delivery =>
              simp only [Orders.Desk.ends, hjob]
              exact .quiet (by simp) (hidle (by simp [hjob])) rfl
  | exec i => exact .quiet (by simp) (hsame (Orders.Desk.jobOf_exec hnode)) rfl
  | startTick t scan =>
      have hjobs := Orders.Desk.jobOf_publisher hnode (by simp) (by simp) (by simp)
      exact .quiet (by simp) (hsame hjobs) rfl
  | send t outcome =>
      have hjobs := Orders.Desk.jobOf_publisher hnode (by simp) (by simp) (by simp)
      exact .quiet (by simp) (hsame hjobs) rfl
  | mark t now outcome =>
      have hjobs := Orders.Desk.jobOf_publisher hnode (by simp) (by simp) (by simp)
      exact .quiet (by simp) (hsame hjobs) rfl
  | kill t =>
      have hjobs := Orders.Desk.jobOf_publisher hnode (by simp) (by simp) (by simp)
      exact .quiet (by simp) (hsame hjobs) rfl

/-- **Every step is a turn, and the log goes on by what the turn adds.** -/
theorem turn (hapart : s.orders.Apart) {act : SystemAct} (hs : s.step act = some s') :
    ∃ new, Turn s s' act new ∧ s'.orders.log = s.orders.log ++ new := by
  cases act with
  | lookUp c call => exact turn_lookUp hs
  | insert c orderId choices => exact turn_insert hs
  | deliver service i source offset choices => exact turn_deliver hs
  | work service w =>
      cases service with
      | orders => exact turn_orders hapart hs
      | inventory =>
          obtain ⟨inventory, -, rfl⟩ := Option.map_eq_some_iff.mp hs
          exact ⟨[], .quiet (by simp) rfl rfl, by rw [List.append_nil]⟩
      | payments =>
          obtain ⟨payments, -, rfl⟩ := Option.map_eq_some_iff.mp hs
          exact ⟨[], .quiet (by simp) rfl rfl, by rw [List.append_nil]⟩

/-- A call is opened under a number that no session has. -/
theorem apart_step (hapart : s.orders.Apart) {act : SystemAct} (hs : s.step act = some s') :
    s'.orders.Apart := by
  cases act with
  | lookUp c call =>
      obtain ⟨horders, -⟩ := lookUp_cases hs
      obtain ⟨-, hsession, hnode, hcases⟩ := Orders.Desk.lookUp_cases horders
      intro j call₁ call₂ o choices hw
      rw [hnode]
      rcases hcases with ⟨-, -, hw', -⟩ | ⟨-, -, hw', -⟩ | ⟨-, hw', -⟩
      · exact hapart j call₁ call₂ o choices (hw' ▸ hw)
      · exact hapart j call₁ call₂ o choices (hw' ▸ hw)
      · rw [hw'] at hw
        by_cases hj : j = c
        · subst hj
          simp [Orders.Desk.jobOf, hsession]
        · rw [Function.update_of_ne hj] at hw
          exact hapart j call₁ call₂ o choices hw
  | insert c orderId choices =>
      obtain ⟨-, horders, -⟩ := insert_cases hs
      obtain ⟨call, hcall, hnode, hw', -⟩ := Orders.Desk.insert_cases horders
      obtain ⟨-, hjobs⟩ := Orders.Desk.jobOf_begin hnode
      intro j call₁ call₂ o choices₂ hw
      rw [hw'] at hw
      by_cases hj : j = c
      · subst hj
        simp at hw
      · rw [Function.update_of_ne hj] at hw
        rw [hjobs, Function.update_of_ne hj]
        exact hapart j call₁ call₂ o choices₂ hw
  | deliver service i source offset choices =>
      obtain ⟨message, -, s₁, -, -, hdeliver, rfl⟩ := deliver_cases hs
      cases service with
      | orders =>
          obtain ⟨orders, horders, rfl⟩ := Option.map_eq_some_iff.mp hdeliver
          obtain ⟨hnode, hw', -⟩ := Orders.Desk.deliver_cases horders
          obtain ⟨-, hjobs⟩ := Orders.Desk.jobOf_begin hnode
          intro j call₁ call₂ o choices₂ hw
          show Orders.Desk.jobOf orders.node j ≠ _
          by_cases hj : j = i
          · subst hj
            simp [hjobs]
          · rw [hjobs, Function.update_of_ne hj]
            exact hapart j call₁ call₂ o choices₂ (hw' ▸ hw)
      | inventory =>
          obtain ⟨inventory, -, rfl⟩ := Option.map_eq_some_iff.mp hdeliver
          exact hapart
      | payments =>
          obtain ⟨payments, -, rfl⟩ := Option.map_eq_some_iff.mp hdeliver
          exact hapart
  | work service w =>
      cases service with
      | orders =>
          obtain ⟨orders, horders, rfl⟩ := Option.map_eq_some_iff.mp hs
          obtain ⟨hnode, hw', -⟩ := Orders.Desk.work_cases horders
          intro j call₁ call₂ o choices hw hjob
          obtain ⟨τ, hτ, hτjob⟩ := Option.map_eq_some_iff.mp hjob
          obtain ⟨σ, hσ, hsame⟩ := Node.work_sessions hnode hτ
          refine hapart j call₁ call₂ o choices (hw' ▸ hw) ?_
          rw [Orders.Desk.jobOf, hσ]
          exact congrArg some (hsame.trans hτjob)
      | inventory =>
          obtain ⟨inventory, -, rfl⟩ := Option.map_eq_some_iff.mp hs
          exact hapart
      | payments =>
          obtain ⟨payments, -, rfl⟩ := Option.map_eq_some_iff.mp hs
          exact hapart

end System

end CommercePlatform
