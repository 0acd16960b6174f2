/-
The calls of `createOrder`, and the sagas they have opened.

Every answer in the log of the desk is about a saga: one that the call has opened, or
one that it has found under its idempotency key.
-/
import CommercePlatform.Turns
import CommercePlatform.Saga.Moves

namespace CommercePlatform

open Js Txn

variable [Platform]

/-- The order is that of the user, under the key. -/
def Placed.IsFor (o : Placed) (userId key : String) : Prop :=
  o.row.userId = userId ∧ o.row.idempotencyKey = some key

/-- An order is found by the pair it was placed under. -/
theorem Placed.isFor_call (o : Placed) : o.IsFor o.call.userSub o.call.idempotencyKey := by
  obtain ⟨key, hkey, hstored⟩ := o.stored.idempotencyKey
  refine ⟨textIn_eq_ok o.stored.userId, ?_⟩
  rw [hstored, textIn_eq_ok hkey]

/-! ### What a look-up finds -/

section Find

variable {sagas : Sagas} {db : ServiceStore Orders.Row} {userSub key : String}

theorem OrdersView.of_find (hview : OrdersView sagas db) {existing : String × Orders.OrderRow}
    (h : Orders.findOrderByIdempotency userSub key db = .ok (some existing)) :
    ∃ saga, sagas existing.1 = some saga ∧ existing.2 = saga.orderRow saga.phase ∧
      saga.IsFor userSub key := by
  obtain ⟨userId', huser, hrest⟩ := bind_eq_ok.mp h
  obtain ⟨key', hkey, hfound⟩ := bind_eq_ok.mp hrest
  rw [← textIn_eq_ok huser, ← textIn_eq_ok hkey]
  cases hentry : ownRow db (.idempotency userId' key') with
  | none =>
      rw [hentry] at hfound
      simp [pure, Except.pure] at hfound
  | some o =>
      obtain ⟨saga, hsaga, hfor⟩ := (hview.idempotency userId' key' o).mp hentry
      have horder : ownRow db (.order o) = some (saga.orderRow saga.phase) := by
        rw [hview.order, hsaga]
        rfl
      rw [hentry] at hfound
      simp only [horder, pure, Except.pure, Except.ok.injEq, Option.some.injEq] at hfound
      subst hfound
      exact ⟨saga, hsaga, rfl, hfor⟩

theorem OrdersView.of_find_none (hview : OrdersView sagas db)
    (h : Orders.findOrderByIdempotency userSub key db = .ok none) :
    ownRow db (.idempotency userSub key) = none := by
  obtain ⟨userId', huser, hrest⟩ := bind_eq_ok.mp h
  obtain ⟨key', hkey, hfound⟩ := bind_eq_ok.mp hrest
  rw [← textIn_eq_ok huser, ← textIn_eq_ok hkey]
  cases hentry : ownRow db (.idempotency userId' key') with
  | none => rfl
  | some o =>
      obtain ⟨saga, hsaga, -⟩ := (hview.idempotency userId' key' o).mp hentry
      have horder : ownRow db (.order o) = some (saga.orderRow saga.phase) := by
        rw [hview.order, hsaga]
        rfl
      rw [hentry] at hfound
      simp [horder, pure, Except.pure] at hfound

/-- A call that finds an order is answered by the hash of its body. -/
theorem Saga.answerExisting (saga : Saga) (call : Orders.CreateOrderCall) (o : String) :
    Orders.answerExisting call (o, saga.orderRow saga.phase) =
      if saga.call.bodyHash = call.bodyHash then .replayed o saga.phase.status else .conflict := by
  have hhash : (saga.orderRow saga.phase).requestHash = some saga.call.bodyHash :=
    saga.stored.requestHash
  have hne : saga.call.bodyHash ≠ "" := Platform.sha256_ne_empty _
  unfold Orders.answerExisting
  simp only [hhash]
  by_cases heq : saga.call.bodyHash = call.bodyHash
  · rw [if_pos heq, if_neg (fun hc => hc.2 heq)]
    rfl
  · rw [if_neg heq, if_pos ⟨hne, heq⟩]

end Find

/-! ### The law of the desk -/

/-- What an outcome says of the orders is so. -/
def Vouched (sagas : Sagas) (call : Orders.CreateOrderCall) : Orders.Outcome → Prop
  | .answered (.created o) => ∃ saga, sagas o = some saga ∧ saga.call = call
  | .answered (.replayed o _) =>
      ∃ saga, sagas o = some saga ∧ saga.IsFor call.userSub call.idempotencyKey ∧
        saga.call.bodyHash = call.bodyHash
  | .answered .conflict =>
      ∃ o saga, sagas o = some saga ∧ saga.IsFor call.userSub call.idempotencyKey ∧
        saga.call.bodyHash ≠ call.bodyHash
  | .raised => True

theorem Vouched.mono {sagas sagas' : Sagas} (hext : Extends sagas sagas')
    {call : Orders.CreateOrderCall} {outcome : Orders.Outcome} (h : Vouched sagas call outcome) :
    Vouched sagas' call outcome := by
  cases outcome with
  | raised => trivial
  | answered result =>
      cases result with
      | created o =>
          obtain ⟨saga, hsaga, rfl⟩ := h
          obtain ⟨after, hafter, hplaced, -⟩ := hext o saga hsaga
          exact ⟨after, hafter, by rw [hplaced]⟩
      | replayed o status =>
          obtain ⟨saga, hsaga, hfor, hhash⟩ := h
          obtain ⟨after, hafter, hplaced, -⟩ := hext o saga hsaga
          exact ⟨after, hafter, by rw [hplaced]; exact hfor, by rw [hplaced]; exact hhash⟩
      | conflict =>
          obtain ⟨o, saga, hsaga, hfor, hhash⟩ := h
          obtain ⟨after, hafter, hplaced, -⟩ := hext o saga hsaga
          exact ⟨o, after, hafter, by rw [hplaced]; exact hfor, by rw [hplaced]; exact hhash⟩

/-- What is answered about an order that was found is so. -/
theorem OrdersView.vouched_existing {sagas : Sagas} {db : ServiceStore Orders.Row}
    (hview : OrdersView sagas db) {call : Orders.CreateOrderCall}
    {existing : String × Orders.OrderRow}
    (hfind : Orders.findOrderByIdempotency call.userSub call.idempotencyKey db =
      .ok (some existing)) :
    Vouched sagas call (.answered (Orders.answerExisting call existing)) := by
  obtain ⟨o, row⟩ := existing
  obtain ⟨saga, hsaga, hrow, hfor⟩ := hview.of_find hfind
  rw [show row = saga.orderRow saga.phase from hrow, saga.answerExisting]
  split
  · rename_i hhash
    exact ⟨saga, hsaga, hfor, hhash⟩
  · rename_i hhash
    exact ⟨o, saga, hsaga, hfor, hhash⟩

/-- The log of the desk, given the sagas. -/
structure DeskLaw (sagas : Sagas) (d : Orders.Desk) : Prop where
  apart : d.Apart
  called : ∀ c call, d.callOf c = some call → .lookedUp c call ∈ d.log
  /-- Every call is under way or has ended. -/
  accounted : ∀ c call, .lookedUp c call ∈ d.log →
    d.callOf c = some call ∨ ∃ outcome, .ended c call outcome ∈ d.log
  ended : ∀ c call outcome, .ended c call outcome ∈ d.log →
    .lookedUp c call ∈ d.log ∧ Vouched sagas call outcome
  /-- Every order was created by a call. -/
  placed : ∀ o saga, sagas o = some saga →
    ∃ c, .ended c saga.call (.answered (.created o)) ∈ d.log

namespace DeskLaw

variable {sagas sagas' : Sagas} {d d' : Orders.Desk}

theorem start (db : ServiceStore Orders.Row) : DeskLaw (fun _ => none) (Orders.Desk.start db) where
  apart c call call' o choices h := by simp [Orders.Desk.start] at h
  called c call h := by
    simp [Orders.Desk.start, Orders.Desk.callOf, Orders.Desk.jobOf, Node.start, Server.start] at h
  accounted c call h := by simp [Orders.Desk.start] at h
  ended c call outcome h := by simp [Orders.Desk.start] at h
  placed o saga h := by simp at h

/-- Only what is new in the log has to be looked at. -/
theorem append (h : DeskLaw sagas d) (hext : Extends sagas sagas') (hapart : d'.Apart)
    {new : List Orders.DeskEvent} (hlog : d'.log = d.log ++ new)
    (hcalled : ∀ c call, d'.callOf c = some call →
      d.callOf c = some call ∨ .lookedUp c call ∈ new)
    (haccounted : ∀ c call, d.callOf c = some call ∨ .lookedUp c call ∈ new →
      d'.callOf c = some call ∨ ∃ outcome, .ended c call outcome ∈ new)
    (hended : ∀ c call outcome, .ended c call outcome ∈ new →
      (.lookedUp c call ∈ d.log ∨ .lookedUp c call ∈ new) ∧ Vouched sagas' call outcome)
    (hplaced : ∀ o saga, sagas o = none → sagas' o = some saga →
      ∃ c, .ended c saga.call (.answered (.created o)) ∈ new) : DeskLaw sagas' d' where
  apart := hapart
  called c call hc := by
    rw [hlog, List.mem_append]
    exact (hcalled c call hc).imp (h.called c call) id
  accounted c call hc := by
    rw [hlog, List.mem_append] at hc
    have hnew : d.callOf c = some call ∨ .lookedUp c call ∈ new →
        d'.callOf c = some call ∨ ∃ outcome, .ended c call outcome ∈ d'.log := by
      intro hwas
      refine (haccounted c call hwas).imp id fun ⟨outcome, hevent⟩ => ⟨outcome, ?_⟩
      rw [hlog]
      exact List.mem_append_right _ hevent
    rcases hc with hold | hlooked
    · rcases h.accounted c call hold with hwas | ⟨outcome, hevent⟩
      · exact hnew (Or.inl hwas)
      · rw [hlog]
        exact Or.inr ⟨outcome, List.mem_append_left _ hevent⟩
    · exact hnew (Or.inr hlooked)
  ended c call outcome hevent := by
    rw [hlog, List.mem_append] at hevent
    rw [hlog, List.mem_append]
    rcases hevent with hold | hnew
    · obtain ⟨hlooked, hvouched⟩ := h.ended c call outcome hold
      exact ⟨Or.inl hlooked, hvouched.mono hext⟩
    · exact hended c call outcome hnew
  placed o saga hsaga := by
    rw [hlog]
    cases hbefore : sagas o with
    | none =>
        obtain ⟨c, hevent⟩ := hplaced o saga hbefore hsaga
        exact ⟨c, List.mem_append_right _ hevent⟩
    | some before =>
        obtain ⟨after, hafter, hsame, -⟩ := hext o before hbefore
        obtain rfl := Option.some.inj (hafter.symm.trans hsaga)
        obtain ⟨c, hevent⟩ := h.placed o before hbefore
        rw [hsame]
        exact ⟨c, List.mem_append_left _ hevent⟩

/-- A call that ends is all that is new in the log. -/
theorem close (h : DeskLaw sagas d) (hext : Extends sagas sagas') (hapart : d'.Apart) {c : ℕ}
    {call : Orders.CreateOrderCall} {outcome : Orders.Outcome} (hcall : d.callOf c = some call)
    (hlog : d'.log = d.log ++ [.ended c call outcome])
    (hcalls : d'.callOf = Function.update d.callOf c none)
    (hvouched : Vouched sagas' call outcome)
    (hplaced : ∀ o saga, sagas o = none → sagas' o = some saga →
      ∃ c', .ended c' saga.call (.answered (.created o)) ∈
        [Orders.DeskEvent.ended c call outcome]) :
    DeskLaw sagas' d' := by
  refine h.append hext hapart hlog ?_ ?_ ?_ hplaced
  · intro c' call' hc
    by_cases heq : c' = c
    · simp [hcalls, heq] at hc
    · rw [hcalls, Function.update_of_ne heq] at hc
      exact Or.inl hc
  · rintro c' call' (hc | hc)
    · by_cases heq : c' = c
      · rw [heq, hcall] at hc
        obtain rfl := Option.some.inj hc
        exact Or.inr ⟨outcome, by rw [heq]; exact List.mem_singleton.mpr rfl⟩
      · exact Or.inl (by rw [hcalls, Function.update_of_ne heq, hc])
    · simp at hc
  · intro c' call' outcome' hevent
    obtain ⟨rfl, rfl, rfl⟩ : c' = c ∧ call' = call ∧ outcome' = outcome := by simpa using hevent
    exact ⟨Or.inl (h.called c' call' hcall), hvouched⟩

/-- **Every step keeps the law of the desk.** -/
theorem step {s s' : System} (h : DeskLaw sagas s.orders) (hview : OrdersView sagas s.ordersDb)
    {act : SystemAct} (hs : s.step act = some s') (hext : Extends sagas sagas')
    (hopens : Opens sagas sagas' (s.creates act)) : DeskLaw sagas' s'.orders := by
  obtain ⟨new, hturn, hlog⟩ := System.turn h.apart hs
  have hapart := System.apart_step h.apart hs
  have hnone : s.creates act = none → ∀ o saga, sagas o = none → sagas' o = some saga →
      ∃ c, .ended c saga.call (.answered (.created o)) ∈ new := by
    intro hcreates o saga hbefore hafter
    have hnew := hopens.only o saga hbefore hafter
    rw [hcreates] at hnew
    simp at hnew
  cases hturn with
  | quiet hact hcalls hcreates =>
      refine h.append hext hapart hlog ?_ ?_ (by simp) (hnone hcreates)
      · intro c call hc
        exact Or.inl (hcalls ▸ hc)
      · intro c call hc
        exact Or.inl (hcalls ▸ hc.resolve_right (by simp))
  | @found c call outcome hidle hcalls hanswer =>
      refine h.append hext hapart hlog ?_ ?_ ?_ (hnone rfl)
      · intro c' call' hc
        exact Or.inl (hcalls ▸ hc)
      · rintro c' call' (hc | hc)
        · exact Or.inl (hcalls ▸ hc)
        · obtain ⟨rfl, rfl⟩ : c' = c ∧ call' = call := by simpa using hc
          exact Or.inr ⟨outcome, by simp⟩
      · intro c' call' outcome' hevent
        obtain ⟨rfl, rfl, rfl⟩ : c' = c ∧ call' = call ∧ outcome' = outcome := by
          simpa using hevent
        refine ⟨Or.inr (by simp), ?_⟩
        rcases hanswer with ⟨-, -, rfl⟩ | ⟨existing, hfind, rfl⟩
        · trivial
        · exact (hview.vouched_existing hfind).mono hext
  | @missed c call hidle hfind hcalls =>
      refine h.append hext hapart hlog ?_ ?_ (by simp) (hnone rfl)
      · intro c' call' hc
        rw [hcalls] at hc
        by_cases heq : c' = c
        · subst heq
          rw [Function.update_self] at hc
          obtain rfl := Option.some.inj hc
          exact Or.inr (by simp)
        · rw [Function.update_of_ne heq] at hc
          exact Or.inl hc
      · rintro c' call' (hc | hc)
        · have hne : c' ≠ c := by
            intro heq
            rw [heq, hidle] at hc
            simp at hc
          exact Or.inl (by rw [hcalls, Function.update_of_ne hne, hc])
        · obtain ⟨rfl, rfl⟩ : c' = c ∧ call' = call := by simpa using hc
          exact Or.inl (by rw [hcalls, Function.update_self])
  | @created c call o choices hjob hcall hcalls =>
      have hcreates : s.creates (.work .orders (.commit c)) = some (o, call) := by
        simp [System.creates, Orders.Desk.creates, hjob]
      refine h.close hext hapart hcall hlog hcalls (hopens.present o call hcreates) ?_
      intro o' saga hbefore hafter
      have hnew := (hopens.only o' saga hbefore hafter).symm.trans hcreates
      obtain ⟨rfl, rfl⟩ := Prod.mk.inj (Option.some.inj hnew)
      exact ⟨c, by simp⟩
  | @raised c call o choices hjob hcall hcalls =>
      exact h.close hext hapart hcall hlog hcalls trivial (hnone rfl)

end DeskLaw

end CommercePlatform
