/-
One order for an idempotency key.

The look-up of a key and the insert of its order are two transactions, and any number of
calls can be between them.  All but one of their inserts fail on the unique index, and
with the insert of the order goes that of its event; so the one order there is answers
every call that is answered at all.
-/
import CommercePlatform.Saga.Bounded

namespace CommercePlatform

open Js Txn

namespace System

variable [Platform]

omit [Platform] in
/-- The order is that of the user, under the key. -/
def OrderOf (s : System) (userSub key o : String) : Prop :=
  ∃ row, ownRow s.ordersDb (.order o) = some row ∧ row.userId = userSub ∧
    row.idempotencyKey = some key

omit [Platform] in
/-- The order was created for the call. -/
def CreatedFor (s : System) (o : String) (call : Orders.CreateOrderCall) : Prop :=
  ∃ c, .ended c call (.answered (.created o)) ∈ s.orders.log

omit [Platform] in
/-- A call was answered with the order, be it new or not. -/
def Answered (s : System) (call : Orders.CreateOrderCall) (o : String) : Prop :=
  s.CreatedFor o call ∨
    ∃ c status, .ended c call (.answered (.replayed o status)) ∈ s.orders.log

omit [Platform] in
/-- The row asks for the stock of an order that was created for the user, under the key. -/
def RequestOf (s : System) (userSub key : String) (service : Service) (id : String) : Prop :=
  ∃ row o call, s.outbox service id = some row ∧ IsEvent .reserveRequested o row ∧
    s.CreatedFor o call ∧ call.userSub = userSub ∧ call.idempotencyKey = key

/-- Of the bodies that were hashed, no two have the same hash. -/
def CollisionFree (s : System) : Prop :=
  ∀ c call c' call', .lookedUp c call ∈ s.orders.log → .lookedUp c' call' ∈ s.orders.log →
    call'.bodyHash = call.bodyHash → call'.normalizedBody = call.normalizedBody

variable {s s' : System} {act : SystemAct} {o : String} {call : Orders.CreateOrderCall}

/-- A step that creates an order says so. -/
theorem createdFor_of_creates (hs : s.step act = some s')
    (hcreates : s.creates act = some (o, call)) : s'.CreatedFor o call := by
  cases act with
  | work service w =>
      cases service with
      | orders =>
          cases w with
          | commit i =>
              obtain ⟨orders, horders, rfl⟩ := Option.map_eq_some_iff.mp hs
              obtain ⟨-, -, hlog⟩ := Orders.Desk.work_cases horders
              have hends : s.orders.ends (.commit i) =
                  [.ended i call (.answered (.created o))] := by
                simp only [creates, Orders.Desk.creates] at hcreates
                split at hcreates
                · rename_i hjob
                  obtain ⟨rfl, rfl⟩ := Prod.mk.inj (Option.some.inj hcreates)
                  simp [Orders.Desk.ends, hjob]
                · simp at hcreates
              refine ⟨i, ?_⟩
              show _ ∈ orders.log
              rw [hlog, hends]
              simp
          | _ => simp [creates, Orders.Desk.creates] at hcreates
      | _ => simp [creates] at hcreates
  | _ => simp [creates] at hcreates

end System

variable [Platform]

/-- The two calls ask for the same. -/
structure SameRequest (call call' : Orders.CreateOrderCall) : Prop where
  itemSku : call'.body.itemSku = call.body.itemSku
  quantity : call'.body.quantity = call.body.quantity
  totalAmount : call'.body.totalAmount = call.body.totalAmount
  currency : call'.normalizedCurrency = call.normalizedCurrency

/-- What is hashed is what is asked for. -/
theorem SameRequest.of_body {call call' : Orders.CreateOrderCall}
    (h : call'.normalizedBody = call.normalizedBody) : SameRequest call call' := by
  have hfields : ∀ c : Orders.CreateOrderCall, c.normalizedBody = .obj [
      ("itemSku", .str c.body.itemSku), ("quantity", .num (.finite c.body.quantity)),
      ("totalAmount", .num c.body.totalAmount), ("currency", .str c.normalizedCurrency)] := by
    intro c
    simp [Orders.CreateOrderCall.normalizedBody, OrderCreateInput.toFields, Fields.set,
      Fields.defined]
  rw [hfields call, hfields call'] at h
  simp only [Json.obj.injEq, List.cons.injEq, Prod.mk.injEq, Json.str.injEq, Json.num.injEq,
    Number.finite.injEq, Int.cast_inj, true_and, and_true] at h
  exact ⟨h.1, h.2.1, h.2.2.1, h.2.2.2⟩

namespace Law

variable {stock : ServiceStore Inventory.Row} {sagas : Sagas} {owner : String → Option Owner}
  {s : System} {userSub key o o' : String} {call : Orders.CreateOrderCall}

theorem orderOf_iff (h : Law stock sagas owner s) :
    s.OrderOf userSub key o ↔ ∃ saga, sagas o = some saga ∧ saga.IsFor userSub key := by
  constructor
  · intro ⟨row, hrow, huser, hkey⟩
    obtain ⟨saga, hsaga, rfl⟩ := h.saga_of_order hrow
    exact ⟨saga, hsaga, huser, hkey⟩
  · intro ⟨saga, hsaga, huser, hkey⟩
    exact ⟨_, h.orderRow hsaga, huser, hkey⟩

/-- The unique index has one order for a pair. -/
theorem orderOf_unique (h : Law stock sagas owner s) (ho : s.OrderOf userSub key o)
    (ho' : s.OrderOf userSub key o') : o' = o := by
  have hentry := (h.orders.view.idempotency userSub key o).mpr (h.orderOf_iff.mp ho)
  have hentry' := (h.orders.view.idempotency userSub key o').mpr (h.orderOf_iff.mp ho')
  exact Option.some.inj (hentry'.symm.trans hentry)

theorem call_of_created (h : Law stock sagas owner s) (hcreated : s.CreatedFor o call) :
    ∃ saga, sagas o = some saga ∧ saga.call = call := by
  obtain ⟨c, hevent⟩ := hcreated
  exact (h.desk.ended c call _ hevent).2

/-- Who was created for a call is under its pair. -/
theorem orderOf_created (h : Law stock sagas owner s) (hcreated : s.CreatedFor o call) :
    s.OrderOf call.userSub call.idempotencyKey o := by
  obtain ⟨saga, hsaga, rfl⟩ := h.call_of_created hcreated
  exact h.orderOf_iff.mpr ⟨saga, hsaga, saga.isFor_call⟩

/-- A call that is answered is answered with the order of its pair, which is for the same. -/
theorem answered (h : Law stock sagas owner s) (hanswered : s.Answered call o) :
    ∃ saga, sagas o = some saga ∧ saga.IsFor call.userSub call.idempotencyKey ∧
      saga.call.bodyHash = call.bodyHash ∧ ∃ c, .lookedUp c call ∈ s.orders.log := by
  rcases hanswered with ⟨c, hevent⟩ | ⟨c, status, hevent⟩
  · obtain ⟨hlooked, saga, hsaga, rfl⟩ := h.desk.ended c call _ hevent
    exact ⟨saga, hsaga, saga.isFor_call, rfl, c, hlooked⟩
  · obtain ⟨hlooked, saga, hsaga, hfor, hhash⟩ := h.desk.ended c call _ hevent
    exact ⟨saga, hsaga, hfor, hhash, c, hlooked⟩

/-- There is an order exactly if its stock was asked for. -/
theorem requested_iff (h : Law stock sagas owner s) :
    (∃ row, ownRow s.ordersDb (.order o) = some row) ↔ s.HasEvent .reserveRequested o := by
  constructor
  · intro ⟨row, hrow⟩
    obtain ⟨saga, hsaga, -⟩ := h.saga_of_order hrow
    have hkind : EventKind.reserveRequested ∈ saga.phase.emitted := by
      cases saga.phase <;> decide
    obtain ⟨event, hevent, hdescribes⟩ := h.row hsaga hkind
    have hannounces := hdescribes.announces
    refine ⟨_, _, event, hevent, ?_, ?_⟩
    · have htype : event.payload.get "eventType" = _ := hannounces.get "eventType"
      rw [htype, Placed.payload_eventType]
    · have horder : orderIdOf event.payload = some saga.orderId := hannounces.orderIdOf
      rw [horder, h.owned.keyed o saga hsaga]
  · intro ⟨service, id, row, hrow, hevent⟩
    obtain ⟨saga, hsaga, -⟩ := h.emitted_of_event hrow hevent
    exact ⟨_, h.orderRow hsaga⟩

end Law

/--
**One order for an idempotency key.**  Whatever the calls of `createOrder` do between one
another, a user has at most one order under a key; there is one exactly if its stock was
asked for, once; and every call that is answered with an order is answered with that one,
which is the caller's, and was created for the same request.
-/
theorem one_order_per_key (stock : ServiceStore Inventory.Row) (hstock : OnlyItems stock)
    {s : System} (hreach : System.Reach stock s) (hcollision : s.CollisionFree)
    (userSub key : String) :
    (∀ o o', s.OrderOf userSub key o → s.OrderOf userSub key o' → o' = o) ∧
    (∀ service id service' id', s.RequestOf userSub key service id →
      s.RequestOf userSub key service' id' → service' = service ∧ id' = id) ∧
    ((∃ o, s.OrderOf userSub key o) ↔ ∃ service id, s.RequestOf userSub key service id) ∧
    (∀ o, (∃ row, ownRow s.ordersDb (.order o) = some row) ↔ s.HasEvent .reserveRequested o) ∧
    (∀ call call' o o', call.userSub = userSub → call.idempotencyKey = key →
      call'.userSub = userSub → call'.idempotencyKey = key → s.Answered call o →
      s.Answered call' o' → o' = o) ∧
    (∀ call o, s.Answered call o → s.OrderOf call.userSub call.idempotencyKey o) ∧
    ∀ call o, s.Answered call o → ∃ first, s.CreatedFor o first ∧ SameRequest first call := by
  obtain ⟨sagas, owner, hlaw⟩ := Law.of_reach hstock hreach
  have hown : ∀ call o, s.Answered call o → s.OrderOf call.userSub call.idempotencyKey o := by
    intro call o hanswered
    obtain ⟨saga, hsaga, hfor, -⟩ := hlaw.answered hanswered
    exact hlaw.orderOf_iff.mpr ⟨saga, hsaga, hfor⟩
  refine ⟨fun o o' ho ho' => hlaw.orderOf_unique ho ho', ?_, ⟨?_, ?_⟩, fun o => hlaw.requested_iff,
    ?_, hown, ?_⟩
  · rintro service id service' id' ⟨row, o, call, hrow, hevent, hcreated, rfl, rfl⟩
      ⟨row', o', call', hrow', hevent', hcreated', huser, hkey⟩
    have ho' := hlaw.orderOf_created hcreated'
    rw [huser, hkey] at ho'
    obtain rfl := hlaw.orderOf_unique (hlaw.orderOf_created hcreated) ho'
    obtain ⟨saga, hsaga, -, hproducer, hid⟩ := hlaw.emitted_of_event hrow hevent
    obtain ⟨saga', hsaga', -, hproducer', hid'⟩ := hlaw.emitted_of_event hrow' hevent'
    obtain rfl := Option.some.inj (hsaga.symm.trans hsaga')
    exact ⟨hproducer'.symm.trans hproducer, hid'.symm.trans hid⟩
  · intro ⟨o, ho⟩
    obtain ⟨saga, hsaga, huser, hkey⟩ := hlaw.orderOf_iff.mp ho
    obtain ⟨service, id, row, hrow, hevent⟩ := hlaw.requested_iff.mp ⟨_, hlaw.orderRow hsaga⟩
    obtain ⟨hcallUser, hcallKey⟩ := saga.isFor_call
    refine ⟨service, id, row, o, saga.call, hrow, hevent, hlaw.desk.placed o saga hsaga, ?_, ?_⟩
    · rw [← hcallUser, huser]
    · rw [hcallKey] at hkey
      exact Option.some.inj hkey
  · rintro ⟨service, id, row, o, call, -, -, hcreated, rfl, rfl⟩
    exact ⟨o, hlaw.orderOf_created hcreated⟩
  · rintro call call' o o' rfl rfl huser hkey hanswered hanswered'
    have ho' := hown call' o' hanswered'
    rw [huser, hkey] at ho'
    exact hlaw.orderOf_unique (hown call o hanswered) ho'
  · intro call o hanswered
    obtain ⟨saga, hsaga, -, hhash, c, hcall⟩ := hlaw.answered hanswered
    obtain ⟨first, hfirst⟩ := hlaw.desk.placed o saga hsaga
    have hlooked := (hlaw.desk.ended first _ _ hfirst).1
    exact ⟨saga.call, ⟨first, hfirst⟩,
      SameRequest.of_body (hcollision first _ c _ hlooked hcall hhash.symm)⟩

end CommercePlatform

/-! ### One retry -/

namespace CommercePlatform.Sale

open Js Txn

attribute [local instance] platform

/-- The order of two chairs is placed, and its request is repeated. -/
def retried : List SystemAct :=
  [.lookUp 1 call, .insert 1 (uuid 1) (choices 2 3)] ++ transaction .orders 1 6 ++
  [.lookUp 2 call]

def retriedLog : List Orders.DeskEvent :=
  [.lookedUp 1 call, .ended 1 call (.answered (.created (uuid 1))), .lookedUp 2 call,
    .ended 2 call (.answered (.replayed (uuid 1) .pendingInventory))]

theorem answered_once : ∃ s, System.run retried (System.start stock) = some s ∧
    s.orders.log = retriedLog ∧ ∀ o, s.Answered call o → o = uuid 1 := by
  have hlog : ((System.run retried (System.start stock)).any fun s =>
      s.orders.log = retriedLog) = true := by decide +kernel
  obtain ⟨s, hs, hlog⟩ := (Option.any_eq_true _ _).mp hlog
  have hlog : s.orders.log = retriedLog := of_decide_eq_true hlog
  have hcalls : ∀ c call', .lookedUp c call' ∈ s.orders.log → call' = call := by
    intro c call' hmem
    have hcall : c = 1 ∧ call' = call ∨ c = 2 ∧ call' = call := by
      simpa [hlog, retriedLog] using hmem
    exact hcall.elim And.right And.right
  have hcollision : s.CollisionFree := by
    intro c first c' second hfirst hsecond _
    rw [hcalls c first hfirst, hcalls c' second hsecond]
  obtain ⟨-, -, -, -, hsame, -⟩ := one_order_per_key stock onlyItems (System.steps_of_run hs)
    hcollision "auth0|alice" "order-001"
  have hfirst : s.Answered call (uuid 1) := by
    refine Or.inl ⟨1, ?_⟩
    rw [hlog]
    simp [retriedLog]
  exact ⟨s, hs, hlog, fun o ho => hsame call call (uuid 1) o rfl rfl rfl rfl hfirst ho⟩

end CommercePlatform.Sale
