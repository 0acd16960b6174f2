/-
What the clients are told.

The order service answers with a status code and a JSON text, and the gateway and the BFF
hand both on as they are.  Each of these asks through a circuit breaker and with a time
limit, so an answer may be lost on the way; the process that has lost it then answers for
itself, with `500`.  What is said of orders in spite of that is so, at any time after; and
a request that was refused, by a handler, by `requireSession` or by a framework, has never
come to a call.

What a process writes where no handler answers is the framework's affair, and so is a
parameter.
-/
import CommercePlatform.Edge.Passage
import CommercePlatform.Js.Interchange
import CommercePlatform.Saga.Answers

namespace CommercePlatform

open Js

/-! ### Answers -/

structure HttpReply where
  status : ℕ
  contentType : Option String
  body : String
  deriving DecidableEq

/-- `reply.code(status).send(payload)`. -/
def HttpReply.send (status : ℕ) (payload : Fields) : HttpReply where
  status := status
  contentType := some "application/json; charset=utf-8"
  body := payload.text

/-- An error that nothing catches, with what is written for it. -/
def HttpReply.raised (body : String) : HttpReply where
  status := 500
  contentType := some "application/json; charset=utf-8"
  body := body

def Refusal.sent (errorBody : String) : Refusal → HttpReply
  | .reply status message => .send status [("message", some (.str message))]
  | .raised => .raised errorBody

namespace Orders

/-- The values of the column `status`. -/
def OrderStatus.text : OrderStatus → String
  | .pendingInventory => "PENDING_INVENTORY"
  | .pendingPayment => "PENDING_PAYMENT"
  | .confirmed => "CONFIRMED"
  | .failed => "FAILED"

namespace CreateOrderResult

/-- The `payload` that `createOrder` returns. -/
def payload : CreateOrderResult → Fields
  | .conflict => [
      ("message",
        some (.str "Idempotency-Key reuse with different request payload is not allowed"))]
  | .replayed orderId status => [
      ("orderId", some (.str orderId)),
      ("status", some (.str status.text)),
      ("replayed", some (.bool true))]
  | .created orderId => [
      ("orderId", some (.str orderId)),
      ("status", some (.str "PENDING_INVENTORY"))]

/-- The code that `createOrderController` chooses. -/
def code : CreateOrderResult → ℕ
  | .conflict => 409
  | .replayed _ _ => 200
  | .created _ => 202

end CreateOrderResult

def Outcome.sent (errorBody : String) : Outcome → HttpReply
  | .answered result => .send result.code result.payload
  | .raised => .raised errorBody

end Orders

/-- `createOrderController` of the gateway, once `forward` has returned, or raised. -/
def Gateway.handOn (errorBody : String) : Option HttpReply → HttpReply
  | none => .raised errorBody
  | some forwarded => {
      status := forwarded.status
      contentType := some (forwarded.contentType.getD "application/json")
      body := forwarded.body }

/-- `proxyToGateway`, once its breaker has returned, or raised. -/
def Bff.handOn (errorBody : String) : Option HttpReply → HttpReply
  | none => .raised errorBody
  | some response =>
      if response.body = "" then
        { status := response.status, contentType := none, body := "" }
      else {
        status := response.status
        contentType := some (response.contentType.getD "application/json")
        body := response.body }

/-! ### The way back -/

/-- The process in which a request ends. -/
inductive Hop where
  | bff
  | gateway
  | orders

/-- How a request ends. -/
inductive PostEnd where
  | refused (hop : Hop) (refusal : Refusal)
  /-- The framework has turned the request away. -/
  | turnedAway (hop : Hop) (status : ℕ)
  /-- The process has not waited for the next one, which may go on. -/
  | gaveUp (hop : Hop)
  | called (call : Orders.CreateOrderCall) (outcome : Orders.Outcome)

/-- What becomes of an answer on its way back. -/
structure WayBack where
  /-- Is it in time, and is the breaker closed? -/
  reachesGateway : Bool
  reachesBff : Bool
  /-- What the framework of each process writes. -/
  errorBody : Hop → String

namespace WayBack

variable (way : WayBack)

/-- An answer of the gateway, as the client gets it. -/
def fromGateway (origin : Origin) (reply : HttpReply) : HttpReply :=
  match origin with
  | .gateway => reply
  | .bff => Bff.handOn (way.errorBody .bff) (if way.reachesBff then some reply else none)

/-- An answer of the order service, as the client gets it. -/
def fromOrders (origin : Origin) (reply : HttpReply) : HttpReply :=
  way.fromGateway origin
    (Gateway.handOn (way.errorBody .gateway) (if way.reachesGateway then some reply else none))

/-- An answer of a process, as the client gets it. -/
def fromHop (origin : Origin) (reply : HttpReply) : Hop → HttpReply
  | .bff => reply
  | .gateway => way.fromGateway origin reply
  | .orders => way.fromOrders origin reply

def reply (origin : Origin) : PostEnd → HttpReply
  | .refused hop refusal => way.fromHop origin (refusal.sent (way.errorBody hop)) hop
  | .turnedAway hop status =>
      way.fromHop origin { HttpReply.raised (way.errorBody hop) with status := status } hop
  | .gaveUp hop => way.fromHop origin (.raised (way.errorBody hop)) hop
  | .called _ outcome => way.fromHop origin (outcome.sent (way.errorBody .orders)) .orders

/-- The answer says what was answered, or nothing. -/
def Carries (sent got : HttpReply) : Prop :=
  got.status = 500 ∨ got.status = sent.status ∧ got.body = sent.body

theorem carries_fromGateway (origin : Origin) (reply : HttpReply) :
    Carries reply (way.fromGateway origin reply) := by
  unfold fromGateway
  cases origin with
  | gateway => exact Or.inr ⟨rfl, rfl⟩
  | bff =>
      by_cases hreaches : way.reachesBff = true
      · rw [if_pos hreaches]
        by_cases hempty : reply.body = ""
        · simp [Bff.handOn, Carries, hempty]
        · simp [Bff.handOn, Carries, hempty]
      · rw [if_neg hreaches]
        exact Or.inl rfl

theorem carries_fromOrders (origin : Origin) (reply : HttpReply) :
    Carries reply (way.fromOrders origin reply) := by
  unfold fromOrders
  by_cases hreaches : way.reachesGateway = true
  · rw [if_pos hreaches]
    exact way.carries_fromGateway origin (Gateway.handOn _ (some reply))
  · rw [if_neg hreaches]
    rcases way.carries_fromGateway origin (Gateway.handOn (way.errorBody .gateway) none) with
      hlost | ⟨hstatus, -⟩
    · exact Or.inl hlost
    · exact Or.inl hstatus

theorem carries_fromHop (origin : Origin) (reply : HttpReply) (hop : Hop) :
    Carries reply (way.fromHop origin reply hop) := by
  cases hop with
  | bff => exact Or.inr ⟨rfl, rfl⟩
  | gateway => exact way.carries_fromGateway origin reply
  | orders => exact way.carries_fromOrders origin reply

end WayBack

/-- What is written for a payload is read back. -/
theorem Orders.CreateOrderResult.ofText_payload (result : CreateOrderResult) :
    Json.ofText result.payload.text = some (.obj result.payload.defined) := by
  cases result with
  | conflict =>
      refine Fields.ofText_text (by decide) (by decide) ?_
      simp [payload, Fields.defined, Json.Travels]
  | replayed orderId status =>
      refine Fields.ofText_text ?_ ?_ ?_
      · simp [payload, Fields.defined]
      · simp [payload, Fields.defined, IsIndex]
      · simp [payload, Fields.defined, Json.Travels]
  | created orderId =>
      refine Fields.ofText_text ?_ ?_ ?_
      · simp [payload, Fields.defined]
      · simp [payload, Fields.defined, IsIndex]
      · simp [payload, Fields.defined, Json.Travels]

theorem Refusal.ofText_message (message : String) :
    Json.ofText (Fields.text [("message", some (.str message))]) =
      some (.obj [("message", .str message)]) := by
  refine Fields.ofText_text ?_ ?_ ?_
  · simp [Fields.defined]
  · simp [Fields.defined, IsIndex]
  · simp [Fields.defined, Json.Travels]

/-! ### The codes of a refusal -/

/-- A handler refuses with one of these, or raises. -/
def Refusal.Coded : Refusal → Prop
  | .reply status _ => status ∈ [400, 401, 403]
  | .raised => True

section Coded

variable {ε α β : Type}

theorem bind_eq_error {x : Except ε α} {f : α → Except ε β} {e : ε} (h : x >>= f = .error e) :
    x = .error e ∨ ∃ a, x = .ok a ∧ f a = .error e := by
  cases x with
  | error e' =>
      obtain rfl := Except.error.inj h
      exact Or.inl rfl
  | ok a => exact Or.inr ⟨a, rfl, h⟩

end Coded

namespace HttpRequest

variable {request : HttpRequest} {name message : String} {refusal : Refusal}

theorem coded_requireHeader (h : request.requireHeader name message = .error refusal) :
    refusal.Coded := by
  unfold requireHeader at h
  split at h
  · obtain rfl := Except.error.inj h
    simp [Refusal.Coded]
  · split at h
    · obtain rfl := Except.error.inj h
      simp [Refusal.Coded]
    · simp at h

theorem coded_parseOrder (h : request.parseOrder = .error refusal) : refusal.Coded := by
  unfold parseOrder at h
  split at h
  · obtain rfl := Except.error.inj h
    trivial
  · simp at h

/-- Sending raises, if it fails. -/
theorem coded_carryHeaders {edge : Edge} {headers : List (String × Json)}
    (h : edge.carryHeaders headers = .error refusal) : refusal.Coded := by
  induction headers with
  | nil => simp [Edge.carryHeaders] at h
  | cons header rest ih =>
      obtain ⟨name, value⟩ := header
      rw [Edge.carryHeaders] at h
      cases hgot : edge.carry (textOf (some value)) with
      | none =>
          rw [hgot] at h
          obtain rfl := Except.error.inj h
          trivial
      | some got =>
          rw [hgot] at h
          rcases bind_eq_error h with hrest | ⟨carried, -, h⟩
          · exact ih hrest
          · simp [pure, Except.pure] at h

theorem coded_sent {edge : Edge} {headers : Fields} {body : OrderCreateInput}
    (h : sent edge headers body = .error refusal) : refusal.Coded := by
  rcases bind_eq_error h with hheaders | ⟨carried, -, h⟩
  · exact coded_carryHeaders hheaders
  · simp [pure, Except.pure] at h

end HttpRequest

section Controllers

variable {edge : Edge} {request : HttpRequest} {id : String} {refusal : Refusal}

theorem Bff.coded_createOrderController {session : AppSession}
    (h : createOrderController edge request session id = .error refusal) : refusal.Coded := by
  unfold createOrderController at h
  split at h
  · obtain rfl := Except.error.inj h
    simp [Refusal.Coded]
  · rcases bind_eq_error h with hkey | ⟨key, -, h⟩
    · exact HttpRequest.coded_requireHeader hkey
    · rcases bind_eq_error h with hbody | ⟨body, -, hsent⟩
      · exact HttpRequest.coded_parseOrder hbody
      · exact HttpRequest.coded_sent hsent

theorem Gateway.coded_authorize {tables : Bff.Tables}
    (h : authorize edge tables request = .error refusal) : refusal.Coded := by
  unfold authorize at h
  split at h
  · obtain rfl := Except.error.inj h
    simp [Refusal.Coded]
  · split at h
    · obtain rfl := Except.error.inj h
      trivial
    · split at h
      · obtain rfl := Except.error.inj h
        trivial
      · simp at h

theorem Gateway.coded_postOrders {tables : Bff.Tables}
    (h : postOrders edge tables request id = .error refusal) : refusal.Coded := by
  rcases bind_eq_error h with hauth | ⟨auth, -, h⟩
  · exact coded_authorize hauth
  rcases bind_eq_error h with hprivilege | ⟨⟨⟩, -, h⟩
  · unfold requirePrivilege at hprivilege
    split at hprivilege
    · simp at hprivilege
    · obtain rfl := Except.error.inj hprivilege
      simp [Refusal.Coded]
  rcases bind_eq_error h with hbody | ⟨body, -, h⟩
  · exact HttpRequest.coded_parseOrder hbody
  rcases bind_eq_error h with hkey | ⟨key, -, hsent⟩
  · exact HttpRequest.coded_requireHeader hkey
  · exact HttpRequest.coded_sent hsent

theorem Orders.coded_createOrderController
    (h : createOrderController request id = .error refusal) : refusal.Coded := by
  rcases bind_eq_error h with hbody | ⟨body, -, h⟩
  · exact HttpRequest.coded_parseOrder hbody
  rcases bind_eq_error h with huser | ⟨user, -, h⟩
  · exact HttpRequest.coded_requireHeader huser
  rcases bind_eq_error h with hkey | ⟨key, -, h⟩
  · exact HttpRequest.coded_requireHeader hkey
  · simp [pure, Except.pure] at h

end Controllers

/-! ### What the desk has told -/

variable [Platform]

/-- What a call was told of an order is so, and the order may have gone on. -/
theorem System.Reach.told {stock : ServiceStore Inventory.Row} {s : System}
    (hstock : OnlyItems stock) (hreach : System.Reach stock s) {c : ℕ}
    {call : Orders.CreateOrderCall} {outcome : Orders.Outcome}
    (hended : .ended c call outcome ∈ s.orders.log) {o : String} {status : Orders.OrderStatus}
    (htells : outcome.answer.tells .pendingInventory = some (o, status)) :
    ∃ row, ownRow s.ordersDb (.order o) = some row ∧ row.userId = call.userSub ∧
      row.idempotencyKey = some call.idempotencyKey ∧ row.requestHash = some call.bodyHash ∧
      Relation.ReflTransGen Orders.OrderStatus.Goes status row.status := by
  obtain ⟨before, after, hlog⟩ := List.append_of_mem hended
  have hrun : Machine.Book.Run .pendingInventory Orders.OrderStatus.Goes (fun _ => none)
      (s.orders.log.filterMap Orders.DeskEvent.answer?) (Orders.bookOf s.ordersDb) :=
    hreach.bookRun hstock
  have hhistory : s.orders.log.filterMap Orders.DeskEvent.answer? =
      before.filterMap Orders.DeskEvent.answer? ++ (call.request, outcome.answer) ::
        after.filterMap Orders.DeskEvent.answer? := by
    rw [hlog]
    simp [List.filterMap_append, Orders.DeskEvent.answer?]
  rw [hhistory] at hrun
  obtain ⟨entry, hentry, hlater⟩ := hrun.told htells
  obtain ⟨sagas, owner, hlaw⟩ := Law.of_reach hstock hreach
  obtain ⟨o', saga, hsaga, ⟨huser, hkey⟩, rfl⟩ := hlaw.orders.view.bookOf_eq_some.mp hentry
  obtain rfl : o' = o := hlater.name
  refine ⟨_, hlaw.orderRow hsaga, huser, hkey, ?_, hlater.state⟩
  have hhash : (saga.orderRow saga.phase).requestHash = some saga.call.bodyHash :=
    saga.stored.requestHash
  rw [hhash]
  exact hlater.print

/-- A conflict is with an order of the same user and key. -/
theorem Law.conflict {stock : ServiceStore Inventory.Row} {sagas : Sagas}
    {owner : String → Option Owner} {s : System} (h : Law stock sagas owner s) {c : ℕ}
    {call : Orders.CreateOrderCall}
    (hended : .ended c call (.answered .conflict) ∈ s.orders.log) :
    ∃ o row, ownRow s.ordersDb (.order o) = some row ∧ row.userId = call.userSub ∧
      row.idempotencyKey = some call.idempotencyKey ∧ row.requestHash ≠ some call.bodyHash := by
  obtain ⟨o, saga, hsaga, ⟨huser, hkey⟩, hhash⟩ := (h.desk.ended c call _ hended).2
  refine ⟨o, _, h.orderRow hsaga, huser, hkey, fun heq => hhash ?_⟩
  have hsame : (saga.orderRow saga.phase).requestHash = some saga.call.bodyHash :=
    saga.stored.requestHash
  exact Option.some.inj (hsame.symm.trans heq)

/-- The text with which `requireSession` answers. -/
def Bff.Request.unauthenticatedMessage (request : Bff.Request) : String :=
  if request.sessionCookie.getD "" = "" then "Unauthenticated" else "Session expired"

namespace Storefront

/-! ### A refused request -/

/-- The step at which a handler, or a framework, refuses the request. -/
inductive RefusedBy (edge : Edge) (i : ℕ) : Storefront × Act → PostEnd → Prop where
  | bff {s : Storefront} {drawn : String} {post : Post} {admission : Bff.Admission}
      {refusal : Refusal} (hpost : s.posts i = some post) (hstage : post.stage = .bff)
      (hfind : (s.bff.admissions.find? fun admission => admission.call = i) = some admission)
      (hrefused : Bff.createOrderController edge post.request admission.session
        (post.request.genReqId drawn) = .error refusal) :
      RefusedBy edge i (s, .proxyToGateway i drawn) (.refused .bff refusal)
  | gateway {s : Storefront} {drawn : String} {post : Post} {sent : HttpRequest}
      {refusal : Refusal} (hpost : s.posts i = some post) (hstage : post.stage = .gateway sent)
      (hrefused : Gateway.postOrders edge s.bff.tables sent (sent.genReqId drawn) =
        .error refusal) :
      RefusedBy edge i (s, .postOrders i drawn) (.refused .gateway refusal)
  | orders {s : Storefront} {drawn : String} {post : Post} {sent : HttpRequest}
      {refusal : Refusal} (hpost : s.posts i = some post) (hstage : post.stage = .orders sent)
      (hrefused : Orders.createOrderController sent (sent.genReqId drawn) = .error refusal) :
      RefusedBy edge i (s, .createOrder i drawn) (.refused .orders refusal)
  | turnedAway {s : Storefront} {request : HttpRequest} {status : ℕ}
      (haway : TurnsAway status) :
      RefusedBy edge i (s, .turnedAway i request status) (.turnedAway .bff status)
  | unhandledByGateway {s : Storefront} {post : Post} {sent : HttpRequest} {status : ℕ}
      (hpost : s.posts i = some post) (hstage : post.stage = .gateway sent)
      (haway : TurnsAway status) :
      RefusedBy edge i (s, .unhandled i status) (.turnedAway .gateway status)
  | unhandledByOrders {s : Storefront} {post : Post} {sent : HttpRequest} {status : ℕ}
      (hpost : s.posts i = some post) (hstage : post.stage = .orders sent)
      (haway : TurnsAway status) :
      RefusedBy edge i (s, .unhandled i status) (.turnedAway .orders status)

/-- How the handling of request `i` has ended. -/
inductive Ends (edge : Edge) (steps : List (Storefront × Act)) (s : Storefront) (i : ℕ) :
    PostEnd → Prop where
  | refused {entry : Storefront × Act} {ending : PostEnd} (hmem : entry ∈ steps)
      (hrefused : RefusedBy edge i entry ending) : Ends edge steps s i ending
  /-- `requireSession` has found no session. -/
  | unauthenticated {post : Post} {call : Bff.Call} (hpost : s.posts i = some post)
      (hstage : post.stage = .bff) (hcall : s.bff.calls i = some call)
      (hended : call.stage = .ended .unauthenticated) :
      Ends edge steps s i (.refused .bff (.reply 401 call.request.unauthenticatedMessage))
  /-- `requireSession` has raised. -/
  | raised {post : Post} {call : Bff.Call} (hpost : s.posts i = some post)
      (hstage : post.stage = .bff) (hcall : s.bff.calls i = some call)
      (hended : call.stage = .ended .raised) : Ends edge steps s i (.refused .bff .raised)
  /-- The time is up, or the breaker is open. -/
  | gaveUp {hop : Hop} : Ends edge steps s i (.gaveUp hop)
  | called {call : Orders.CreateOrderCall} {outcome : Orders.Outcome}
      (hended : .ended i call outcome ∈ s.system.orders.log) :
      Ends edge steps s i (.called call outcome)

/-- It is through with, and has come to no call. -/
def Settled (s : Storefront) (i : ℕ) : Prop :=
  ∃ post, s.posts i = some post ∧ post.stage = .ended ∧
    ∀ call, .lookedUp i call ∉ s.system.orders.log

section Step

variable {edge : Edge} {s s' : Storefront} {act : Act} {i : ℕ}

theorem RefusedBy.step {ending : PostEnd} (h : RefusedBy edge i (s, act) ending)
    (hs : s.step edge act = some s') :
    (∃ post, s' = s.put i post ∧ post.stage = .ended) ∧
      ∀ post, s.posts i = some post → post.stage ≠ .ended := by
  have hstays : ∀ {post : Post}, s.posts i = some post → post.stage ≠ .ended →
      ∀ post', s.posts i = some post' → post'.stage ≠ .ended := by
    intro post hpost hne post' hpost'
    obtain rfl := Option.some.inj (hpost.symm.trans hpost')
    exact hne
  cases h with
  | @bff _ drawn post admission refusal hpost hstage hfind hrefused =>
      simp only [Storefront.step, hpost, hfind, hstage, hrefused] at hs
      exact ⟨⟨_, (Option.some.inj hs).symm, rfl⟩, hstays hpost (by simp [hstage])⟩
  | @gateway _ drawn post sent refusal hpost hstage hrefused =>
      simp only [Storefront.step, hpost, hstage, hrefused] at hs
      exact ⟨⟨_, (Option.some.inj hs).symm, rfl⟩, hstays hpost (by simp [hstage])⟩
  | @orders _ drawn post sent refusal hpost hstage hrefused =>
      simp only [Storefront.step, hpost, hstage, hrefused] at hs
      exact ⟨⟨_, (Option.some.inj hs).symm, rfl⟩, hstays hpost (by simp [hstage])⟩
  | turnedAway haway =>
      obtain ⟨⟨hnone, -⟩, hs⟩ := (Option.ite_none_right_eq_some ..).mp hs
      exact ⟨⟨_, (Option.some.inj hs).symm, rfl⟩, by simp [hnone]⟩
  | @unhandledByGateway _ post sent status hpost hstage haway =>
      simp only [Storefront.step, hpost, hstage, if_pos haway] at hs
      exact ⟨⟨_, (Option.some.inj hs).symm, rfl⟩, hstays hpost (by simp [hstage])⟩
  | @unhandledByOrders _ post sent status hpost hstage haway =>
      simp only [Storefront.step, hpost, hstage, if_pos haway] at hs
      exact ⟨⟨_, (Option.some.inj hs).symm, rfl⟩, hstays hpost (by simp [hstage])⟩

/-- What is through with stays so. -/
theorem ended_step (hs : s.step edge act = some s') {post : Post} (hpost : s.posts i = some post)
    (hstage : post.stage = .ended) : ∃ post', s'.posts i = some post' ∧ post'.stage = .ended := by
  have hput : ∀ {t : Storefront} {j : ℕ} {post' : Post}, t.posts = s.posts →
      (j = i → post'.stage = .ended) →
      ∃ post'', (t.put j post').posts i = some post'' ∧ post''.stage = .ended := by
    intro t j post' hposts hended
    by_cases hji : i = j
    · exact ⟨post', by simp [Storefront.put, hji], hended hji.symm⟩
    · exact ⟨post, by simpa [Storefront.put, hji, hposts] using hpost, hstage⟩
  have hother : ∀ {j : ℕ} {post' : Post}, s.posts j = some post' → post'.stage ≠ .ended →
      j ≠ i := by
    rintro j post' hpost' hne rfl
    obtain rfl := Option.some.inj (hpost.symm.trans hpost')
    exact hne hstage
  have hnew : ∀ {j : ℕ}, s.posts j = none → j ≠ i := by
    rintro j hnone rfl
    rw [hnone] at hpost
    simp at hpost
  cases turn_of_step hs with
  | tables => exact ⟨post, hpost, hstage⟩
  | bff hbff => exact ⟨post, hpost, hstage⟩
  | post hnone hbff => exact hput rfl fun heq => absurd heq (hnew hnone)
  | turnedAway hnone => exact hput rfl fun heq => absurd heq (hnew hnone)
  | postToGateway hnone => exact hput rfl fun heq => absurd heq (hnew hnone)
  | refused hact hpost' => exact hput rfl fun _ => rfl
  | proxied hpost' hstage' =>
      exact hput rfl fun heq => absurd heq (hother hpost' (by simp [hstage']))
  | forwarded hpost' hstage' =>
      exact hput rfl fun heq => absurd heq (hother hpost' (by simp [hstage']))
  | called hpost' hstage' hcall hlookUp => exact hput rfl fun _ => rfl
  | system hact hsystem => exact ⟨post, hpost, hstage⟩

/-- A call begins with the end of the way of its request. -/
theorem lookedUp_step (hs : s.step edge act = some s') {call : Orders.CreateOrderCall}
    (hlog : .lookedUp i call ∈ s'.system.orders.log) :
    .lookedUp i call ∈ s.system.orders.log ∨
      (∃ post, s.posts i = some post ∧ post.stage ≠ .ended) ∧
        ∃ post', s'.posts i = some post' ∧ post'.stage = .ended := by
  cases turn_of_step hs with
  | @called j drawn post sent call' system hpost hstage hcall hlookUp =>
      rcases lookedUp_of_lookUp hlookUp hlog with hold | ⟨rfl, rfl⟩
      · exact Or.inl hold
      · exact Or.inr ⟨⟨post, hpost, by simp [hstage]⟩, { post with stage := .ended },
          by simp [Storefront.put], rfl⟩
  | system hact hsystem => exact Or.inl (lookedUp_of_step hsystem hact hlog)
  | _ => exact Or.inl hlog

theorem Settled.step (h : s.Settled i) (hs : s.step edge act = some s') : s'.Settled i := by
  obtain ⟨post, hpost, hstage, hcalls⟩ := h
  obtain ⟨post', hpost', hstage'⟩ := ended_step hs hpost hstage
  refine ⟨post', hpost', hstage', fun call hlog => ?_⟩
  rcases lookedUp_step hs hlog with hold | ⟨⟨before, hbefore, hne⟩, -⟩
  · exact hcalls call hold
  · obtain rfl := Option.some.inj (hpost.symm.trans hbefore)
    exact hne hstage

end Step

structure RefusalLaw (edge : Edge) (steps : List (Storefront × Act)) (s : Storefront) : Prop where
  /-- A request on its way has come to no call. -/
  waiting : ∀ i post, s.posts i = some post → post.stage ≠ .ended →
    ∀ call, .lookedUp i call ∉ s.system.orders.log
  refused : ∀ entry ∈ steps, ∀ i ending, RefusedBy edge i entry ending → s.Settled i

theorem RefusalLaw.of_run {edge : Edge} {tables : Bff.Tables} {stock : ServiceStore Inventory.Row}
    {steps : List (Storefront × Act)} {s : Storefront}
    (h : Run edge (Storefront.start tables stock) steps s) : RefusalLaw edge steps s := by
  induction h with
  | start => exact ⟨by simp [Storefront.start], by simp⟩
  | @step steps s s' act hrun hs ih =>
      refine ⟨fun i post hpost hstage call hlog => ?_, fun entry hmem i ending hrefused => ?_⟩
      · rcases lookedUp_step hs hlog with hold | ⟨-, post', hpost', hstage'⟩
        · obtain ⟨before, hbefore, -⟩ := (MediationLaw.of_run hrun).lookedUp i call hold
          by_cases hended : before.stage = .ended
          · obtain ⟨post', hpost', hstage'⟩ := ended_step hs hbefore hended
            obtain rfl := Option.some.inj (hpost.symm.trans hpost')
            exact hstage hstage'
          · exact ih.waiting i before hbefore hended call hold
        · obtain rfl := Option.some.inj (hpost.symm.trans hpost')
          exact hstage hstage'
      · rcases List.mem_cons.mp hmem with rfl | hbefore
        · obtain ⟨⟨post, rfl, hended⟩, hbefore⟩ := hrefused.step hs
          refine ⟨post, by simp [Storefront.put], hended, fun call hlog => ?_⟩
          obtain ⟨post', hpost', -⟩ := (MediationLaw.of_run hrun).lookedUp i call hlog
          exact ih.waiting i post' hpost' (hbefore post' hpost') call hlog
        · exact (ih.refused entry hbefore i ending hrefused).step hs

/-! ### What is so when a client is told it -/

/-- What an answer means for the client that gets it. -/
inductive Told (edge : Edge) (steps : List (Storefront × Act)) (s : Storefront) (i : ℕ)
    (post : Post) (got : HttpReply) : Prop where
  /-- The order was created for the request, and may have gone on. -/
  | created {o : String} {row : Orders.OrderRow} {call : Orders.CreateOrderCall}
      (hcode : got.status = 202)
      (hbody : Json.ofText got.body = some (.obj [("orderId", .str o),
        ("status", .str Orders.OrderStatus.pendingInventory.text)]))
      (hrow : ownRow s.system.ordersDb (.order o) = some row)
      (hpassed : Passed edge steps i post.origin post.request call)
      (hplaced : PlacedBy row call post.request)
  /-- The order is one that was created before, for the same user, key and body. -/
  | replayed {o : String} {status : Orders.OrderStatus} {row : Orders.OrderRow}
      {call : Orders.CreateOrderCall} (hcode : got.status = 200)
      (hbody : Json.ofText got.body = some (.obj [("orderId", .str o),
        ("status", .str status.text), ("replayed", .bool true)]))
      (hrow : ownRow s.system.ordersDb (.order o) = some row)
      (hpassed : Passed edge steps i post.origin post.request call)
      (huser : row.userId = call.userSub) (hkey : row.idempotencyKey = some call.idempotencyKey)
      (hhash : row.requestHash = some call.bodyHash)
      (hgoes : Relation.ReflTransGen Orders.OrderStatus.Goes status row.status)
  /-- There is an order of the same user and key, for another body. -/
  | conflict {o : String} {row : Orders.OrderRow} {call : Orders.CreateOrderCall}
      (hcode : got.status = 409)
      (hrow : ownRow s.system.ordersDb (.order o) = some row)
      (hpassed : Passed edge steps i post.origin post.request call)
      (huser : row.userId = call.userSub) (hkey : row.idempotencyKey = some call.idempotencyKey)
      (hhash : row.requestHash ≠ some call.bodyHash)
  /-- The request has come to no call, and so to no order: a handler has said why. -/
  | refused {message : String} (hcode : got.status ∈ [400, 401, 403])
      (hbody : Json.ofText got.body = some (.obj [("message", .str message)]))
      (hcalls : ∀ call, .lookedUp i call ∉ s.system.orders.log)
  /-- It has come to no call, since a framework has turned it away. -/
  | turnedAway (hcode : 400 ≤ got.status ∧ got.status < 500 ∧ got.status ≠ 409)
      (hcalls : ∀ call, .lookedUp i call ∉ s.system.orders.log)
  /-- The client cannot tell. -/
  | failed (hcode : 500 ≤ got.status)

section Told

variable {edge : Edge} {steps : List (Storefront × Act)} {s : Storefront} {i : ℕ} {post : Post}
  {got : HttpReply}

theorem Told.of_lost (hlost : got.status = 500) : Told edge steps s i post got :=
  .failed hlost.ge

/-- A refusal, as the client gets it. -/
theorem Told.of_refusal {refusal : Refusal} {errorBody : String} (hcoded : refusal.Coded)
    (hcalls : ∀ call, .lookedUp i call ∉ s.system.orders.log)
    (hcarries : WayBack.Carries (refusal.sent errorBody) got) : Told edge steps s i post got := by
  rcases hcarries with hlost | ⟨hstatus, hbody⟩
  · exact .of_lost hlost
  cases refusal with
  | raised => exact .of_lost hstatus
  | reply status message =>
      have hcode : got.status ∈ [400, 401, 403] := by
        rw [hstatus]
        exact hcoded
      have hread : Json.ofText got.body = some (.obj [("message", .str message)]) := by
        rw [hbody]
        exact Refusal.ofText_message message
      exact .refused hcode hread hcalls

/-- So it is with what a framework says. -/
theorem Told.of_turnedAway {reply : HttpReply} (haway : TurnsAway reply.status)
    (hcalls : ∀ call, .lookedUp i call ∉ s.system.orders.log)
    (hcarries : WayBack.Carries reply got) : Told edge steps s i post got := by
  rcases hcarries with hlost | ⟨hstatus, -⟩
  · exact .of_lost hlost
  by_cases hcode : got.status < 500
  · rw [← hstatus] at haway
    exact .turnedAway ⟨haway.1, hcode, haway.2⟩ hcalls
  · exact .failed (by omega)

end Told

/-- What a refused request is told. -/
theorem RefusedBy.told {edge : Edge} {steps : List (Storefront × Act)} {s : Storefront} {i : ℕ}
    {post : Post} {entry : Storefront × Act} {ending : PostEnd} (h : RefusedBy edge i entry ending)
    (hcalls : ∀ call, .lookedUp i call ∉ s.system.orders.log) (way : WayBack) :
    Told edge steps s i post (way.reply post.origin ending) := by
  cases h with
  | bff hpost hstage hfind hrefused =>
      exact .of_refusal (Bff.coded_createOrderController hrefused) hcalls (way.carries_fromHop ..)
  | gateway hpost hstage hrefused =>
      exact .of_refusal (Gateway.coded_postOrders hrefused) hcalls (way.carries_fromHop ..)
  | orders hpost hstage hrefused =>
      exact .of_refusal (Orders.coded_createOrderController hrefused) hcalls
        (way.carries_fromHop ..)
  | turnedAway haway => exact .of_turnedAway haway hcalls (way.carries_fromHop ..)
  | unhandledByGateway hpost hstage haway =>
      exact .of_turnedAway haway hcalls (way.carries_fromHop ..)
  | unhandledByOrders hpost hstage haway =>
      exact .of_turnedAway haway hcalls (way.carries_fromHop ..)

/--
**What a client is told is so.**  Whichever processes ask, refuse, raise, give up or lose an
answer: if the client is told of a new order, there is that order, for what the client has
sent; if it is told of an order and its status, the order was placed under the same user, key
and hash, and has gone on from that status, if at all; if it is told of a conflict, the order
under its key is another one; and if its request was turned away with any other code below
`500`, it has come to no call.  Otherwise it is told nothing but that something has failed.
-/
theorem replies_true (edge : Edge) (hfetch : edge.carry = Fetch.headerValue) (tables : Bff.Tables)
    (stock : ServiceStore Inventory.Row) (hstock : OnlyItems stock)
    {steps : List (Storefront × Act)} {s : Storefront}
    (hrun : Run edge (Storefront.start tables stock) steps s) {i : ℕ} {post : Post}
    (hpost : s.posts i = some post) {ending : PostEnd} (hends : Ends edge steps s i ending)
    (way : WayBack) : Told edge steps s i post (way.reply post.origin ending) := by
  have hreach : System.Reach stock s.system := (MediationLaw.of_run hrun).reach
  have hrefusal := RefusalLaw.of_run hrun
  obtain ⟨sagas, owner, hlaw⟩ := Law.of_reach hstock hreach
  cases hends with
  | @refused entry ending hmem hrefused =>
      obtain ⟨-, -, -, hcalls⟩ := hrefusal.refused entry hmem i ending hrefused
      exact hrefused.told hcalls way
  | unauthenticated hpost' hstage hcall hended =>
      have hcalls := hrefusal.waiting i _ hpost' (by simp [hstage])
      exact .of_refusal (by simp [Refusal.Coded]) hcalls (way.carries_fromHop ..)
  | raised hpost' hstage hcall hended =>
      have hcalls := hrefusal.waiting i _ hpost' (by simp [hstage])
      have hcoded : Refusal.Coded .raised := trivial
      exact .of_refusal hcoded hcalls (way.carries_fromHop ..)
  | @gaveUp hop =>
      rcases way.carries_fromHop post.origin (.raised (way.errorBody hop)) hop with
        hlost | ⟨hstatus, -⟩
      · exact .of_lost hlost
      · exact .of_lost hstatus
  | @called call outcome hended =>
      obtain ⟨post', hpost', hpassed⟩ :=
        (PassageLaw.of_run hfetch hrun).lookedUp i call (hlaw.desk.ended i call _ hended).1
      obtain rfl := Option.some.inj (hpost.symm.trans hpost')
      rcases way.carries_fromHop post.origin (outcome.sent (way.errorBody .orders)) .orders with
        hlost | ⟨hstatus, hbody⟩
      · exact .of_lost hlost
      cases outcome with
      | raised => exact .of_lost hstatus
      | answered result =>
          have hread := result.ofText_payload
          have hsent : Json.ofText (way.reply post.origin (.called call (.answered result))).body =
              some (.obj result.payload.defined) := (congrArg Json.ofText hbody).trans hread
          cases result with
          | created o =>
              obtain ⟨saga, hsaga, rfl⟩ := (hlaw.desk.ended i call _ hended).2
              exact .created hstatus hsent (hlaw.orderRow hsaga) hpassed
                (placedBy_of_saga hpassed.body)
          | replayed o status =>
              obtain ⟨row, hrow, huser, hkey, hhash, hgoes⟩ := hreach.told hstock hended rfl
              exact .replayed hstatus hsent hrow hpassed huser hkey hhash hgoes
          | conflict =>
              obtain ⟨o, row, hrow, huser, hkey, hhash⟩ := hlaw.conflict hended
              exact .conflict hstatus hrow hpassed huser hkey hhash

end Storefront

end CommercePlatform

/-! ### An order that its client hears of -/

namespace CommercePlatform.Forged

open Js

attribute [local instance] Sale.platform

/-- Everything arrives. -/
def wayBack : WayBack where
  reachesGateway := true
  reachesBff := true
  errorBody _ := "\x7b\x7d"

/-- The browser is told of its order, since the BFF and the gateway have heard of it in time. -/
theorem heard : ∃ steps s post call,
    Storefront.Run edge (Storefront.start tables Sale.stock) steps s ∧ s.posts 1 = some post ∧
    .ended 1 call (.answered (.created (Sale.uuid 1))) ∈ s.system.orders.log ∧
    (wayBack.reply post.origin (.called call (.answered (.created (Sale.uuid 1))))).status = 202 ∧
    Storefront.Told edge steps s 1 post
      (wayBack.reply post.origin (.called call (.answered (.created (Sale.uuid 1))))) := by
  have hout : ((Storefront.run edge acts (Storefront.start tables Sale.stock)).any fun s =>
      (s.posts 1).isSome && s.system.orders.log.any fun event => match event with
        | .ended i _ outcome => i = 1 && outcome = .answered (.created (Sale.uuid 1))
        | _ => false) = true := by decide +kernel
  obtain ⟨s, hs, hout⟩ := (Option.any_eq_true _ _).mp hout
  simp only [Bool.and_eq_true] at hout
  obtain ⟨hpost, hlog⟩ := hout
  obtain ⟨post, hpost⟩ := Option.isSome_iff_exists.mp hpost
  obtain ⟨event, hmem, hevent⟩ := List.any_eq_true.mp hlog
  obtain ⟨steps, hrun⟩ := Storefront.Run.start.of_run hs
  cases event with
  | lookedUp i call => simp at hevent
  | ended i call outcome =>
      obtain ⟨rfl, rfl⟩ : i = 1 ∧ outcome = .answered (.created (Sale.uuid 1)) := by
        simpa using hevent
      refine ⟨steps, s, post, call, hrun, hpost, hmem, ?_,
        Storefront.replies_true edge rfl tables Sale.stock Sale.onlyItems hrun hpost (.called hmem)
          wayBack⟩
      have hsent : (Bff.handOn "" (some (HttpReply.send 202
          (Orders.CreateOrderResult.created (Sale.uuid 1)).payload))).status = 202 := by
        decide +kernel
      cases post.origin with
      | gateway => rfl
      | bff => exact hsent

end CommercePlatform.Forged
