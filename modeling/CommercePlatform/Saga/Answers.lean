/-
What the callers of `createOrder` are told.

A call looks its key up and inserts its order in two transactions, and the orders go on
meanwhile.  Still all the answers there are could have been given by a book of requests
that serves one call after the other, each at the moment at which it ends; and the book
has in it what the tables have.
-/
import CommercePlatform.Machine.Book
import CommercePlatform.Saga.Idempotency
import CommercePlatform.Saga.Safety

namespace CommercePlatform

open Js Txn

/-! ### The book -/

namespace Orders

/-- How an order goes on. -/
def OrderStatus.Goes (a b : OrderStatus) : Prop := StatusEdge (some a) (some b)

abbrev OrderBook := Machine.Book (String × String) String (Option String) OrderStatus

/-- The orders that are found by a user and a key. -/
def bookOf (db : ServiceStore Row) : OrderBook := fun key =>
  (ownRow db (.idempotency key.1 key.2)).bind fun o =>
    (ownRow db (.order o)).map fun row =>
      { name := o, print := row.requestHash, state := row.status }

def Outcome.answer : Outcome → Machine.Answer String OrderStatus
  | .answered (.created o) => .made o
  | .answered (.replayed o status) => .found o status
  | .answered .conflict => .refused
  | .raised => .failed

theorem Outcome.answer_injective : Function.Injective Outcome.answer := by
  intro a b h
  cases a with
  | raised =>
      cases b with
      | raised => rfl
      | answered result => cases result <;> simp [Outcome.answer] at h
  | answered result =>
      cases b with
      | raised => cases result <;> simp [Outcome.answer] at h
      | answered result' => cases result <;> cases result' <;> simp_all [Outcome.answer]

variable [Platform]

def CreateOrderCall.request (call : CreateOrderCall) :
    Machine.Request (String × String) (Option String) where
  key := (call.userSub, call.idempotencyKey)
  print := some call.bodyHash

/-- How a call ended, if the event is the end of one. -/
def DeskEvent.answer? :
    DeskEvent → Option (Machine.Request (String × String) (Option String) ×
      Machine.Answer String OrderStatus)
  | .lookedUp _ _ => none
  | .ended _ call outcome => some (call.request, outcome.answer)

end Orders

variable [Platform]

/-- The history of the book: the calls as they ended, one after the other. -/
abbrev Orders.BookRun (book : Orders.OrderBook) (log : List Orders.DeskEvent)
    (book' : Orders.OrderBook) : Prop :=
  Machine.Book.Run .pendingInventory Orders.OrderStatus.Goes book
    (log.filterMap Orders.DeskEvent.answer?) book'

/-- No call ends before it has begun. -/
def Orders.InOrder (log : List Orders.DeskEvent) : Prop :=
  ∀ before c call outcome after, log = before ++ .ended c call outcome :: after →
    .lookedUp c call ∈ before

/-! ### The book of the sagas -/

/-- The entry of a saga. -/
def Saga.entry (saga : Saga) (o : String) : Machine.Entry String (Option String) Orders.OrderStatus where
  name := o
  print := some saga.call.bodyHash
  state := saga.phase.status

theorem OrdersView.bookOf_eq_some {sagas : Sagas} {db : ServiceStore Orders.Row}
    (h : OrdersView sagas db) {key : String × String}
    {entry : Machine.Entry String (Option String) Orders.OrderStatus} :
    Orders.bookOf db key = some entry ↔
      ∃ o saga, sagas o = some saga ∧ saga.IsFor key.1 key.2 ∧ entry = saga.entry o := by
  have hrow : ∀ o saga, sagas o = some saga →
      ownRow db (.order o) = some (saga.orderRow saga.phase) := by
    intro o saga hsaga
    rw [h.order, hsaga]
    rfl
  have hentry : ∀ (saga : Saga) (o : String), ({ name := o
                                                 print := (saga.orderRow saga.phase).requestHash
                                                 state := (saga.orderRow saga.phase).status } :
      Machine.Entry String (Option String) Orders.OrderStatus) = saga.entry o := by
    intro saga o
    have hhash : (saga.orderRow saga.phase).requestHash = some saga.call.bodyHash :=
      saga.stored.requestHash
    rw [hhash]
    rfl
  unfold Orders.bookOf
  constructor
  · intro hbook
    obtain ⟨o, hindex, hbook⟩ := Option.bind_eq_some_iff.mp hbook
    obtain ⟨row, horder, rfl⟩ := Option.map_eq_some_iff.mp hbook
    obtain ⟨saga, hsaga, hfor⟩ := (h.idempotency key.1 key.2 o).mp hindex
    obtain rfl := Option.some.inj (horder.symm.trans (hrow o saga hsaga))
    exact ⟨o, saga, hsaga, hfor, hentry saga o⟩
  · intro ⟨o, saga, hsaga, hfor, heq⟩
    rw [(h.idempotency key.1 key.2 o).mpr ⟨saga, hsaga, hfor⟩, Option.bind_some,
      hrow o saga hsaga, Option.map_some, hentry, heq]

/-- No two orders are found by the same user and key. -/
theorem OrdersView.found_unique {sagas : Sagas} {db : ServiceStore Orders.Row}
    (h : OrdersView sagas db) {userSub key o o' : String} {saga saga' : Saga}
    (hsaga : sagas o = some saga) (hfor : saga.IsFor userSub key) (hsaga' : sagas o' = some saga')
    (hfor' : saga'.IsFor userSub key) : o' = o := by
  have hindex := (h.idempotency userSub key o).mpr ⟨saga, hsaga, hfor⟩
  have hindex' := (h.idempotency userSub key o').mpr ⟨saga', hsaga', hfor'⟩
  exact Option.some.inj (hindex'.symm.trans hindex)

theorem Saga.Next.later {saga : Saga} {after : Option Saga} (h : Saga.Next (some saga) after)
    (o : String) : ∃ saga', after = some saga' ∧ saga'.toPlaced = saga.toPlaced ∧
      (saga.entry o).Later Orders.OrderStatus.Goes (saga'.entry o) := by
  cases h with
  | same => exact ⟨saga, rfl, rfl, rfl, rfl, .refl⟩
  | @advance _ saga' kind out hplaced hids hadv =>
      have hprint : (saga'.entry o).print = (saga.entry o).print := by
        show some saga'.call.bodyHash = some saga.call.bodyHash
        rw [hplaced]
      refine ⟨saga', rfl, hplaced, rfl, hprint, ?_⟩
      rcases hadv.status_edge with hsame | hedge
      · show Relation.ReflTransGen _ saga.phase.status saga'.phase.status
        rw [hsame]
      · exact .single hedge

theorem Saga.Next.failureReason {saga saga' : Saga} (h : Saga.Next (some saga) (some saga'))
    (hreason : saga.phase.failureReason ≠ none) :
    saga'.phase.failureReason = saga.phase.failureReason := by
  cases h with
  | same => rfl
  | advance hplaced hids hadv => exact hadv.failureReason hreason

namespace Law

variable {stock : ServiceStore Inventory.Row} {sagas sagas' : Sagas}
  {owner owner' : String → Option Owner} {s s' : System} {act : SystemAct}

/-- Every step keeps the law, and opens the sagas of the orders that it creates. -/
theorem step_opens (h : Law stock sagas owner s) (hs : s.step act = some s') :
    ∃ sagas' owner', Law stock sagas' owner' s' ∧ (∀ o, Saga.Next (sagas o) (sagas' o)) ∧
      Opens sagas sagas' (s.creates act) := by
  cases act with
  | lookUp c call => exact ⟨sagas, owner, h.lookUp hs, fun _ => .same _, .stay⟩
  | insert c orderId choices =>
      obtain ⟨owner', hlaw⟩ := h.insert hs
      exact ⟨sagas, owner', hlaw, fun _ => .same _, .stay⟩
  | deliver service i source offset choices =>
      obtain ⟨owner', hlaw⟩ := h.deliver hs
      exact ⟨sagas, owner', hlaw, fun _ => .same _, .stay⟩
  | work service w =>
      cases service with
      | orders =>
          obtain ⟨orders, horders, rfl⟩ := Option.map_eq_some_iff.mp hs
          obtain ⟨hnode, -, -⟩ := Orders.Desk.work_cases horders
          obtain ⟨i, sagas', owner', hmoves, hlaw, hopens⟩ := h.orders.work h.owned hnode
          exact ⟨sagas', owner', ⟨hmoves.owned h.owned, hlaw,
            h.inventory.elsewhere hmoves (by decide), h.payments.elsewhere hmoves (by decide),
            h.desk.step h.orders.view hs hmoves.extends_sagas hopens⟩, hmoves.next, hopens⟩
      | inventory =>
          obtain ⟨inventory, hinventory, rfl⟩ := Option.map_eq_some_iff.mp hs
          obtain ⟨i, sagas', owner', hmoves, hlaw⟩ := h.inventory.work h.owned hinventory
          have hopens := hmoves.opens (by decide)
          exact ⟨sagas', owner', ⟨hmoves.owned h.owned, h.orders.elsewhere hmoves (by decide), hlaw,
            h.payments.elsewhere hmoves (by decide),
            h.desk.step h.orders.view hs hmoves.extends_sagas hopens⟩, hmoves.next, hopens⟩
      | payments =>
          obtain ⟨payments, hpayments, rfl⟩ := Option.map_eq_some_iff.mp hs
          obtain ⟨i, sagas', owner', hmoves, hlaw⟩ := h.payments.work h.owned hpayments
          have hopens := hmoves.opens (by decide)
          exact ⟨sagas', owner', ⟨hmoves.owned h.owned, h.orders.elsewhere hmoves (by decide),
            h.inventory.elsewhere hmoves (by decide), hlaw,
            h.desk.step h.orders.view hs hmoves.extends_sagas hopens⟩, hmoves.next, hopens⟩

/-- An entry goes on, and where no order is new none comes. -/
theorem book_goesOn (h : Law stock sagas owner s) (h' : Law stock sagas' owner' s')
    (hnext : ∀ o, Saga.Next (sagas o) (sagas' o)) (key : String × String)
    (hold : ∀ o saga, sagas' o = some saga → saga.IsFor key.1 key.2 → sagas o ≠ none) :
    Option.Rel (Machine.Entry.Later Orders.OrderStatus.Goes) (Orders.bookOf s.ordersDb key)
      (Orders.bookOf s'.ordersDb key) := by
  cases hbook : Orders.bookOf s.ordersDb key with
  | some entry =>
      obtain ⟨o, saga, hsaga, hfor, rfl⟩ := h.orders.view.bookOf_eq_some.mp hbook
      obtain ⟨saga', hsaga', hplaced, hlater⟩ := (hsaga ▸ hnext o).later o
      have hbook' : Orders.bookOf s'.ordersDb key = some (saga'.entry o) := by
        refine h'.orders.view.bookOf_eq_some.mpr ⟨o, saga', hsaga', ?_, rfl⟩
        rw [hplaced]
        exact hfor
      rw [hbook']
      exact .some hlater
  | none =>
      cases hbook' : Orders.bookOf s'.ordersDb key with
      | none => exact .none
      | some entry =>
          exfalso
          obtain ⟨o, saga', hsaga', hfor', -⟩ := h'.orders.view.bookOf_eq_some.mp hbook'
          obtain ⟨saga, hsaga⟩ := Option.ne_none_iff_exists'.mp (hold o saga' hsaga' hfor')
          obtain ⟨after, hafter, hplaced, -⟩ := (hsaga ▸ hnext o).later o
          obtain rfl := Option.some.inj (hafter.symm.trans hsaga')
          have hentry := h.orders.view.bookOf_eq_some.mpr ⟨o, saga, hsaga, hplaced ▸ hfor', rfl⟩
          rw [hbook] at hentry
          simp at hentry

/-- What a look-up finds is in the book, and is answered from it. -/
theorem serves_found (h : Law stock sagas owner s) {call : Orders.CreateOrderCall}
    {existing : String × Orders.OrderRow}
    (hfind : Orders.findOrderByIdempotency call.userSub call.idempotencyKey s.ordersDb =
      .ok (some existing)) :
    (Orders.bookOf s.ordersDb).Serves .pendingInventory call.request
      (Orders.Outcome.answer (.answered (Orders.answerExisting call existing)))
      (Orders.bookOf s.ordersDb) := by
  obtain ⟨o, row⟩ := existing
  obtain ⟨saga, hsaga, hrow, hfor⟩ := h.orders.view.of_find hfind
  obtain rfl : row = saga.orderRow saga.phase := hrow
  have hentry : Orders.bookOf s.ordersDb call.request.key = some (saga.entry o) :=
    h.orders.view.bookOf_eq_some.mpr ⟨o, saga, hsaga, hfor, rfl⟩
  rw [saga.answerExisting]
  by_cases hhash : saga.call.bodyHash = call.bodyHash
  · rw [if_pos hhash]
    exact .found hentry (congrArg some hhash)
  · rw [if_neg hhash]
    exact .refused hentry fun heq => hhash (Option.some.inj heq)

/-- What a call creates is new in the book. -/
theorem serves_made (h : Law stock sagas owner s) (h' : Law stock sagas' owner' s')
    (hnext : ∀ o, Saga.Next (sagas o) (sagas' o)) {o : String} {call : Orders.CreateOrderCall}
    (hnone : sagas o = none) (hcreated : ∃ saga, sagas' o = some saga ∧ saga.call = call) :
    (Orders.bookOf s.ordersDb).Serves .pendingInventory call.request (.made o)
      ((Orders.bookOf s.ordersDb).write call.request.key
        { name := o, print := call.request.print, state := .pendingInventory }) := by
  obtain ⟨saga, hsaga, rfl⟩ := hcreated
  have hnew : ∀ o' before, sagas o' = some before → o' ≠ o := by
    intro o' before hbefore heq
    rw [heq, hnone] at hbefore
    simp at hbefore
  refine .made ?_ ?_
  · cases hbook : Orders.bookOf s.ordersDb saga.call.request.key with
    | none => rfl
    | some entry =>
        obtain ⟨o', before, hbefore, hfor, -⟩ := h.orders.view.bookOf_eq_some.mp hbook
        obtain ⟨after, hafter, hplaced, -⟩ := (hbefore ▸ hnext o').later o'
        have hfor' : after.IsFor saga.call.userSub saga.call.idempotencyKey := by
          rw [hplaced]
          exact hfor
        exact absurd (h'.orders.view.found_unique hsaga saga.isFor_call hafter hfor')
          (hnew o' before hbefore)
  · intro key entry hentry
    obtain ⟨o', before, hbefore, -, rfl⟩ := h.orders.view.bookOf_eq_some.mp hentry
    exact hnew o' before hbefore

/-- From what a call has created in it, the book goes on. -/
theorem book_created (h : Law stock sagas owner s) (h' : Law stock sagas' owner' s')
    (hnext : ∀ o, Saga.Next (sagas o) (sagas' o)) {o : String} {saga : Saga}
    (hnone : sagas o = none) (hsaga : sagas' o = some saga)
    (honly : ∀ o' saga', sagas o' = none → sagas' o' = some saga' → saga'.call = saga.call) :
    ((Orders.bookOf s.ordersDb).write saga.call.request.key
      { name := o, print := saga.call.request.print, state := .pendingInventory }).GoesOn
        Orders.OrderStatus.Goes (Orders.bookOf s'.ordersDb) := by
  intro key
  by_cases hkey : key = saga.call.request.key
  · subst hkey
    have hphase : saga.phase = .requested := by
      have hmove := hnext o
      rw [hnone, hsaga] at hmove
      cases hmove with
      | opened hphase => exact hphase
    have hbook : Orders.bookOf s'.ordersDb saga.call.request.key = some (saga.entry o) :=
      h'.orders.view.bookOf_eq_some.mpr ⟨o, saga, hsaga, saga.isFor_call, rfl⟩
    rw [Machine.Book.write_self, hbook]
    refine .some ⟨rfl, rfl, ?_⟩
    show Relation.ReflTransGen _ _ saga.phase.status
    rw [hphase]
    exact .refl
  · rw [Machine.Book.write_of_ne hkey]
    refine h.book_goesOn h' hnext key fun o' saga' hsaga' hfor hnone' => hkey ?_
    rw [← honly o' saga' hnone' hsaga']
    obtain ⟨huser, hidem⟩ := saga'.isFor_call
    obtain ⟨huser', hidem'⟩ := hfor
    exact Prod.ext (huser'.symm.trans huser) (Option.some.inj (hidem'.symm.trans hidem))

/-- **What a step adds to the log is served by the book, and in order.** -/
theorem book_step (h : Law stock sagas owner s) (hs : s.step act = some s') :
    ∃ new, s'.orders.log = s.orders.log ++ new ∧
      Orders.BookRun (Orders.bookOf s.ordersDb) new (Orders.bookOf s'.ordersDb) ∧
      ∀ before c call outcome after, new = before ++ .ended c call outcome :: after →
        .lookedUp c call ∈ s.orders.log ++ before := by
  obtain ⟨new, hturn, hlog⟩ := System.turn h.desk.apart hs
  obtain ⟨sagas', owner', h', hnext, hopens⟩ := h.step_opens hs
  refine ⟨new, hlog, ?_⟩
  have hgo : s.creates act = none →
      (Orders.bookOf s.ordersDb).GoesOn Orders.OrderStatus.Goes (Orders.bookOf s'.ordersDb) := by
    intro hcreates key
    refine h.book_goesOn h' hnext key fun o saga hsaga _ hnone => ?_
    have hnew := hopens.only o saga hnone hsaga
    rw [hcreates] at hnew
    simp at hnew
  -- The end of a call under way comes long after its beginning.
  have hended : ∀ {c call outcome}, s.orders.callOf c = some call →
      ∀ before c' call' outcome' after, [Orders.DeskEvent.ended c call outcome] =
        before ++ .ended c' call' outcome' :: after → .lookedUp c' call' ∈ s.orders.log ++ before := by
    intro c call outcome hcall before c' call' outcome' after heq
    cases before with
    | nil =>
        obtain ⟨⟨rfl, rfl, rfl⟩, -⟩ : (c = c' ∧ call = call' ∧ outcome = outcome') ∧ after = [] := by
          simpa using heq
        exact List.mem_append_left _ (h.desk.called _ _ hcall)
    | cons first rest => simp at heq
  cases hturn with
  | quiet hact hcalls hcreates => exact ⟨.goOn .start (hgo hcreates), by simp⟩
  | @found c call outcome hidle hcalls hanswer =>
      refine ⟨.goOn (.serve .start ?_) (hgo rfl), ?_⟩
      · rcases hanswer with ⟨e, -, rfl⟩ | ⟨existing, hfind, rfl⟩
        · exact .failed
        · exact h.serves_found hfind
      · intro before c' call' outcome' after heq
        rcases before with _ | ⟨first, _ | ⟨second, rest⟩⟩
        · simp at heq
        · obtain ⟨rfl, ⟨rfl, rfl, rfl⟩, -⟩ : .lookedUp c call = first ∧
              (c = c' ∧ call = call' ∧ outcome = outcome') ∧ after = [] := by simpa using heq
          simp
        · simp at heq
  | missed hidle hfind hcalls =>
      refine ⟨.goOn .start (hgo rfl), fun before c call outcome after heq => ?_⟩
      rcases before with _ | ⟨first, rest⟩
      · simp at heq
      · simp at heq
  | @created c call o choices hjob hcall hcalls =>
      have hcreates : s.creates (.work .orders (.commit c)) = some (o, call) := by
        simp [System.creates, Orders.Desk.creates, hjob]
      have hnone : sagas o = none := by
        obtain ⟨σ, hσ, hσjob⟩ := Option.map_eq_some_iff.mp hjob
        by_contra hsome
        have howns := (h.orders.creating c σ call o choices hσ hσjob).owns
        rw [h.owned.orders o hsome] at howns
        simp at howns
      have hcreated := hopens.present o call hcreates
      refine ⟨.goOn (.serve .start (h.serves_made h' hnext hnone hcreated)) ?_, hended hcall⟩
      obtain ⟨saga, hsaga, rfl⟩ := hcreated
      refine h.book_created h' hnext hnone hsaga fun o' saga' hnone' hsaga' => ?_
      have hnew := (hopens.only o' saga' hnone' hsaga').symm.trans hcreates
      exact (Prod.mk.inj (Option.some.inj hnew)).2
  | raised hjob hcall hcalls =>
      exact ⟨.goOn (.serve .start .failed) (hgo rfl), hended hcall⟩

end Law

omit [Platform] in
theorem Orders.InOrder.append {log new : List Orders.DeskEvent} (h : Orders.InOrder log)
    (hnew : ∀ before c call outcome after, new = before ++ .ended c call outcome :: after →
      .lookedUp c call ∈ log ++ before) : Orders.InOrder (log ++ new) := by
  intro before c call outcome after heq
  rcases List.append_eq_append_iff.mp heq with ⟨rest, rfl, hrest⟩ | ⟨rest, hlog, hrest⟩
  · exact hnew rest c call outcome after hrest
  · cases rest with
    | nil =>
        rw [List.append_nil] at hlog
        subst hlog
        have hmem := hnew [] c call outcome after hrest.symm
        rwa [List.append_nil] at hmem
    | cons event rest =>
        obtain ⟨rfl, -⟩ := List.cons.inj hrest
        exact h before c call outcome rest hlog

variable {stock : ServiceStore Inventory.Row} {s : System}

/-- The log is a run of the book, at whose end the book has what is in the tables. -/
theorem System.Reach.bookRun (hstock : OnlyItems stock) (hreach : System.Reach stock s) :
    Orders.BookRun (fun _ => none) s.orders.log (Orders.bookOf s.ordersDb) := by
  induction hreach with
  | refl => exact .start
  | @tail s s' hreach hstep ih =>
      obtain ⟨sagas, owner, hlaw⟩ := Law.of_reach hstock hreach
      obtain ⟨act, hact⟩ := hstep
      obtain ⟨new, hlog, hnew, -⟩ := hlaw.book_step hact
      show Machine.Book.Run _ _ _ (s'.orders.log.filterMap _) _
      rw [hlog, List.filterMap_append]
      exact ih.append hnew

theorem System.Reach.inOrder (hstock : OnlyItems stock) (hreach : System.Reach stock s) :
    Orders.InOrder s.orders.log := by
  induction hreach with
  | refl =>
      intro before c call outcome after heq
      simp [System.start, Orders.Desk.start] at heq
  | @tail s s' hreach hstep ih =>
      obtain ⟨sagas, owner, hlaw⟩ := Law.of_reach hstock hreach
      obtain ⟨act, hact⟩ := hstep
      obtain ⟨new, hlog, -, hnew⟩ := hlaw.book_step hact
      rw [hlog]
      exact ih.append hnew

/--
**All calls could have been served one after the other.**  Whatever the look-ups, the
inserts and the sagas do between one another: in the order in which the calls ended, each
after it had begun, their answers are those of a book that serves each call at once, in
which the orders go on along the edges of their status; and what is in the book in the
end is in the tables.
-/
theorem answers_linearizable (stock : ServiceStore Inventory.Row) (hstock : OnlyItems stock)
    {s : System} (hreach : System.Reach stock s) :
    Orders.BookRun (fun _ => none) s.orders.log (Orders.bookOf s.ordersDb) ∧
      Orders.InOrder s.orders.log :=
  ⟨hreach.bookRun hstock, hreach.inOrder hstock⟩

/--
**No retry is told an earlier status.**  After a call that was told of an order, a call
with the same user and key is told of that order, in the same status or one that it goes
on to, if it asks for the same, and of a conflict if not; it may also raise.
-/
theorem retries_never_go_back (stock : ServiceStore Inventory.Row) (hstock : OnlyItems stock)
    {s : System} (hreach : System.Reach stock s) {before between after : List Orders.DeskEvent}
    {c c' : ℕ} {call call' : Orders.CreateOrderCall} {outcome outcome' : Orders.Outcome}
    (hlog : s.orders.log =
      before ++ .ended c call outcome :: (between ++ .ended c' call' outcome' :: after))
    (huser : call'.userSub = call.userSub) (hkey : call'.idempotencyKey = call.idempotencyKey)
    {o : String} {status : Orders.OrderStatus}
    (htold : outcome = .answered (.created o) ∧ status = .pendingInventory ∨
      outcome = .answered (.replayed o status)) :
    outcome' = .raised ∨
      (call'.bodyHash = call.bodyHash ∧ ∃ status', outcome' = .answered (.replayed o status') ∧
        Relation.ReflTransGen Orders.OrderStatus.Goes status status') ∨
      (call'.bodyHash ≠ call.bodyHash ∧ outcome' = .answered .conflict) := by
  have hrun : Machine.Book.Run .pendingInventory Orders.OrderStatus.Goes (fun _ => none)
      (s.orders.log.filterMap Orders.DeskEvent.answer?) (Orders.bookOf s.ordersDb) :=
    hreach.bookRun hstock
  have hhistory : s.orders.log.filterMap Orders.DeskEvent.answer? =
      before.filterMap Orders.DeskEvent.answer? ++ (call.request, outcome.answer) ::
        (between.filterMap Orders.DeskEvent.answer? ++ (call'.request, outcome'.answer) ::
          after.filterMap Orders.DeskEvent.answer?) := by
    rw [hlog]
    simp [List.filterMap_append, Orders.DeskEvent.answer?]
  rw [hhistory] at hrun
  have htells : outcome.answer.tells .pendingInventory = some (o, status) := by
    rcases htold with ⟨rfl, rfl⟩ | rfl
    · rfl
    · rfl
  have hsame : call'.request.key = call.request.key := by
    simp [Orders.CreateOrderCall.request, huser, hkey]
  rcases hrun.answers_go_on hsame htells with hfailed | ⟨hprint, status', hfound, hgoes⟩ |
    ⟨hprint, hrefused⟩
  · exact Or.inl (Orders.Outcome.answer_injective hfailed)
  · exact Or.inr (Or.inl ⟨Option.some.inj hprint, status',
      Orders.Outcome.answer_injective hfound, hgoes⟩)
  · exact Or.inr (Or.inr ⟨fun heq => hprint (congrArg some heq),
      Orders.Outcome.answer_injective hrefused⟩)

end CommercePlatform

namespace CommercePlatform.Sale

open Js Txn

attribute [local instance] platform

theorem exists_retried : ∃ s, System.run retried (System.start stock) = some s ∧
    s.orders.log = retriedLog := by
  have hlog : ((System.run retried (System.start stock)).any fun s =>
      s.orders.log = retriedLog) = true := by decide +kernel
  obtain ⟨s, hs, hlog⟩ := (Option.any_eq_true _ _).mp hlog
  exact ⟨s, hs, of_decide_eq_true hlog⟩

theorem linearized : ∃ s, System.run retried (System.start stock) = some s ∧
    s.orders.log = retriedLog ∧
    Orders.BookRun (fun _ => none) s.orders.log (Orders.bookOf s.ordersDb) ∧
      Orders.InOrder s.orders.log := by
  obtain ⟨s, hs, hlog⟩ := exists_retried
  exact ⟨s, hs, hlog, answers_linearizable stock onlyItems (System.steps_of_run hs)⟩

/-- The second call could not have been told less than that the order is waiting for stock. -/
theorem retried_later : ∃ s, System.run retried (System.start stock) = some s ∧
    ((.answered (.replayed (uuid 1) .pendingInventory) : Orders.Outcome) = .raised ∨
      (call.bodyHash = call.bodyHash ∧ ∃ status',
        (.answered (.replayed (uuid 1) .pendingInventory) : Orders.Outcome) =
          .answered (.replayed (uuid 1) status') ∧
        Relation.ReflTransGen Orders.OrderStatus.Goes .pendingInventory status') ∨
      (call.bodyHash ≠ call.bodyHash ∧
        (.answered (.replayed (uuid 1) .pendingInventory) : Orders.Outcome) = .answered .conflict)) := by
  obtain ⟨s, hs, hlog⟩ := exists_retried
  have hsplit : s.orders.log = [.lookedUp 1 call] ++ .ended 1 call (.answered (.created (uuid 1))) ::
      ([.lookedUp 2 call] ++
        .ended 2 call (.answered (.replayed (uuid 1) .pendingInventory)) :: []) := hlog
  exact ⟨s, hs, retries_never_go_back stock onlyItems (System.steps_of_run hs) hsplit rfl rfl
    (Or.inl ⟨rfl, rfl⟩)⟩

end CommercePlatform.Sale
