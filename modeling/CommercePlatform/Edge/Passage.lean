/-
What the gateway lets pass, whoever asks.

The gateway takes requests from the BFF, and from anyone else who reaches it.  It trusts
none of them: an order is made in the name of the subject of a token that it has verified
itself, if that subject may create orders when it looks.  From the request come the key,
the body and the correlation identifier, and the first event of the order carries that
identifier.  What `fetch` makes of a header value it makes once: the second hop does not
change it again.
-/
import CommercePlatform.Edge.Mediation
import CommercePlatform.Saga.Correlation

namespace CommercePlatform

open Js

open HttpRequest

/-! ### One hop -/

theorem Orders.correlationId_of_createOrderController {request : HttpRequest} {id : String}
    {call : CreateOrderCall} (h : Orders.createOrderController request id = .ok call) :
    call.correlationId = id := by
  obtain ⟨body, -, h⟩ := bind_eq_ok.mp h
  obtain ⟨userSub, -, h⟩ := bind_eq_ok.mp h
  obtain ⟨idempotencyKey, -, h⟩ := bind_eq_ok.mp h
  obtain rfl := Except.ok.inj h
  rfl

namespace Storefront

/-! ### What comes to the gateway -/

/-- The request comes to the gateway as it was sent, or as the BFF has made it. -/
inductive Reaches (edge : Edge) : Origin → HttpRequest → HttpRequest → Prop where
  | direct {request : HttpRequest} : Reaches edge .gateway request request
  | proxied {request sent : HttpRequest} {session : Bff.AppSession} {drawn : String}
      (hsent : Bff.createOrderController edge request session (request.genReqId drawn) = .ok sent) :
      Reaches edge .bff request sent

namespace Reaches

variable {edge : Edge} {origin : Origin} {request sent : HttpRequest} {value : String}

/-- What is sent on under the key is the client's, as one hop carries it. -/
theorem idempotencyKey (hfetch : edge.carry = Fetch.headerValue)
    (h : Reaches edge origin request sent) {key : String}
    (hkey : sent.header "idempotency-key" = some key) (hvalue : edge.carry key = some value) :
    ∃ own, request.header "idempotency-key" = some own ∧ edge.carry own = some value := by
  cases h with
  | direct => exact ⟨key, hkey, hvalue⟩
  | proxied hsent =>
      obtain ⟨-, own, body, hown, -, hproxied⟩ := Bff.of_createOrderController hsent
      obtain ⟨-, -, got, hgot, hheader⟩ := Bff.headers_proxyToGateway hproxied
      obtain rfl := Option.some.inj (hkey.symm.trans hheader)
      rw [hfetch] at hgot hvalue
      obtain rfl := Option.some.inj (hvalue.symm.trans (Fetch.headerValue_of_headerValue hgot))
      exact ⟨own, hown, by rw [hfetch, hgot]⟩

theorem body (h : Reaches edge origin request sent) {body : OrderCreateInput}
    (hbody : sent.parseOrder = .ok body) : request.body.bind orderCreateSchema = some body := by
  cases h with
  | direct => exact of_parseOrder hbody
  | proxied hsent =>
      obtain ⟨-, own, body₁, -, hbody₁, hproxied⟩ := Bff.of_createOrderController hsent
      rw [parseOrder_sent hproxied hbody]
      exact hbody₁

/-- So it is with the identifier. -/
theorem genReqId (hfetch : edge.carry = Fetch.headerValue)
    (h : Reaches edge origin request sent) {drawn : String}
    (hvalue : edge.carry (sent.genReqId drawn) = some value) :
    ∃ drawn', edge.carry (request.genReqId drawn') = some value := by
  cases h with
  | direct => exact ⟨drawn, hvalue⟩
  | @proxied _ _ session drawn₁ hsent =>
      obtain ⟨-, own, body, -, -, hproxied⟩ := Bff.of_createOrderController hsent
      obtain ⟨-, ⟨got, hgot, hheader⟩, -⟩ := Bff.headers_proxyToGateway hproxied
      rw [genReqId_of_header hheader, hfetch] at hvalue
      rw [hfetch] at hgot
      obtain rfl := Option.some.inj (hvalue.symm.trans (Fetch.headerValue_of_headerValue hgot))
      exact ⟨drawn₁, by rw [hfetch, hgot]⟩

end Reaches

/-! ### What has passed the gateway -/

/-- What the gateway has made of the request, when it came. -/
def Forwarded (edge : Edge) (steps : List (Storefront × Act)) (i : ℕ) (origin : Origin)
    (request sent : HttpRequest) : Prop :=
  ∃ received entry drawn, Reaches edge origin request received ∧ entry ∈ steps ∧
    entry.2 = .postOrders i drawn ∧
    Gateway.postOrders edge entry.1.bff.tables received (received.genReqId drawn) = .ok sent

/-- What is known of a call, whoever has sent its request. -/
structure Passed (edge : Edge) (steps : List (Storefront × Act)) (i : ℕ) (origin : Origin)
    (request : HttpRequest) (call : Orders.CreateOrderCall) : Prop where
  authorized : ∃ entry ∈ steps, (∃ drawn, entry.2 = .postOrders i drawn) ∧
    ∃ token payload, edge.verifyAccessToken token = some payload ∧
      edge.carry (textOf (payload.lookup "sub")) = some call.userSub ∧
      (origin = .gateway →
        (request.header "authorization").bind Gateway.bearerToken = some token) ∧
      entry.1.bff.tables.Holds (textOf (payload.lookup "sub")) "ORDER_CREATE"
  idempotencyKey : ∃ key, request.header "idempotency-key" = some key ∧
    edge.carry key = some call.idempotencyKey
  body : request.body.bind orderCreateSchema = some call.body
  /-- It is the client's own, if there is one. -/
  correlationId : ∃ drawn, edge.carry (request.genReqId drawn) = some call.correlationId

section Passing

variable {edge : Edge} {steps : List (Storefront × Act)} {entry : Storefront × Act} {i : ℕ}
  {origin : Origin} {request sent : HttpRequest} {call : Orders.CreateOrderCall}

theorem Forwarded.mono (h : Forwarded edge steps i origin request sent) :
    Forwarded edge (entry :: steps) i origin request sent := by
  obtain ⟨received, forwarding, drawn, hreaches, hmem, hforwards⟩ := h
  exact ⟨received, forwarding, drawn, hreaches, List.mem_cons_of_mem _ hmem, hforwards⟩

theorem Passed.mono (h : Passed edge steps i origin request call) :
    Passed edge (entry :: steps) i origin request call where
  authorized := by
    obtain ⟨checking, hmem, hchecks⟩ := h.authorized
    exact ⟨checking, List.mem_cons_of_mem _ hmem, hchecks⟩
  idempotencyKey := h.idempotencyKey
  body := h.body
  correlationId := h.correlationId

/-- **What comes to a call has passed the gateway's checks.** -/
theorem Forwarded.checked (hfetch : edge.carry = Fetch.headerValue)
    (h : Forwarded edge steps i origin request sent) {drawn : String}
    (hcall : Orders.createOrderController sent (sent.genReqId drawn) = .ok call) :
    Passed edge steps i origin request call := by
  obtain ⟨received, checking, drawn₁, hreaches, hmem, hact, hpost⟩ := h
  obtain ⟨token, payload, sub, key, body, htoken, hpayload, rfl, hholds, hkey, hbody, hsent⟩ :=
    Gateway.of_postOrders hpost
  obtain ⟨hbody', huser, hkey'⟩ := Orders.of_createOrderController hcall
  obtain ⟨⟨gotSub, hsub, hheaderSub⟩, ⟨gotKey, hgotKey, hheaderKey⟩, gotId, hgotId, hheaderId⟩ :=
    Gateway.headers_forward hsent
  obtain rfl : call.userSub = gotSub := Option.some.inj (huser.symm.trans hheaderSub)
  obtain rfl : call.idempotencyKey = gotKey := Option.some.inj (hkey'.symm.trans hheaderKey)
  refine ⟨⟨checking, hmem, ⟨drawn₁, hact⟩, token, payload, hpayload, hsub, fun horigin => ?_,
    hholds⟩, hreaches.idempotencyKey hfetch hkey hgotKey, ?_, ?_⟩
  · subst horigin
    cases hreaches with
    | direct => exact htoken
  · rw [parseOrder_sent hsent hbody']
    exact hreaches.body hbody
  · obtain ⟨drawn', hdrawn⟩ := hreaches.genReqId hfetch hgotId
    refine ⟨drawn', ?_⟩
    rw [Orders.correlationId_of_createOrderController hcall, genReqId_of_header hheaderId]
    exact hdrawn

end Passing

/-! ### Over a run -/

variable [Platform]

structure PassageLaw (edge : Edge) (steps : List (Storefront × Act)) (s : Storefront) : Prop where
  gateway : ∀ i post sent, s.posts i = some post → post.stage = .gateway sent →
    Reaches edge post.origin post.request sent
  /-- A request waits at the BFF only if it was sent there. -/
  bff : ∀ i post, s.posts i = some post → post.stage = .bff → post.origin = .bff
  orders : ∀ i post sent, s.posts i = some post → post.stage = .orders sent →
    Forwarded edge steps i post.origin post.request sent
  lookedUp : ∀ i call, .lookedUp i call ∈ s.system.orders.log → ∃ post, s.posts i = some post ∧
    Passed edge steps i post.origin post.request call

namespace PassageLaw

variable {edge : Edge} {stock : ServiceStore Inventory.Row} {steps : List (Storefront × Act)}
  {entry : Storefront × Act} {s s' : Storefront} {act : Act} {i : ℕ} {post : Post}

omit [Platform] in
theorem start (tables : Bff.Tables) : PassageLaw edge [] (Storefront.start tables stock) where
  gateway := by simp [Storefront.start]
  bff := by simp [Storefront.start]
  orders := by simp [Storefront.start]
  lookedUp := by simp [Storefront.start, System.start, Orders.Desk.start]

omit [Platform] in
theorem mono (h : PassageLaw edge steps s) : PassageLaw edge (entry :: steps) s where
  gateway := h.gateway
  bff := h.bff
  orders i post sent hpost hstage := (h.orders i post sent hpost hstage).mono
  lookedUp i call hlog := by
    obtain ⟨post, hpost, hpassed⟩ := h.lookedUp i call hlog
    exact ⟨post, hpost, hpassed.mono⟩

omit [Platform] in
/-- Only what is put somewhere has to be looked at. -/
theorem put (h : PassageLaw edge steps s)
    (hgateway : ∀ sent, post.stage = .gateway sent → Reaches edge post.origin post.request sent)
    (hbff : post.stage = .bff → post.origin = .bff)
    (horders : ∀ sent, post.stage = .orders sent →
      Forwarded edge steps i post.origin post.request sent)
    (hlookedUp : ∀ call, .lookedUp i call ∈ s.system.orders.log →
      Passed edge steps i post.origin post.request call) :
    PassageLaw edge steps (s.put i post) := by
  have hcases : ∀ j post', (s.put i post).posts j = some post' →
      (j = i ∧ post' = post) ∨ s.posts j = some post' := by
    intro j post' hj
    rcases Bff.update_eq_some hj with ⟨rfl, hnew⟩ | ⟨-, hbefore⟩
    · exact Or.inl ⟨rfl, (Option.some.inj hnew).symm⟩
    · exact Or.inr hbefore
  refine ⟨?_, ?_, ?_, ?_⟩
  · intro j post' sent hj hstage
    rcases hcases j post' hj with ⟨rfl, rfl⟩ | hbefore
    · exact hgateway sent hstage
    · exact h.gateway j post' sent hbefore hstage
  · intro j post' hj hstage
    rcases hcases j post' hj with ⟨rfl, rfl⟩ | hbefore
    · exact hbff hstage
    · exact h.bff j post' hbefore hstage
  · intro j post' sent hj hstage
    rcases hcases j post' hj with ⟨rfl, rfl⟩ | hbefore
    · exact horders sent hstage
    · exact h.orders j post' sent hbefore hstage
  · intro j call hlog
    by_cases hji : j = i
    · subst hji
      exact ⟨post, by simp [Storefront.put], hlookedUp call hlog⟩
    · obtain ⟨post', hj, hpassed⟩ := h.lookedUp j call hlog
      exact ⟨post', by simpa [Storefront.put, hji] using hj, hpassed⟩

omit [Platform] in
/-- A request that moves on stays the request it was. -/
theorem moveTo (h : PassageLaw edge steps s) (hpost : s.posts i = some post) {stage : PostStage}
    (hgateway : ∀ sent, stage = .gateway sent → Reaches edge post.origin post.request sent)
    (hbff : stage ≠ .bff)
    (horders : ∀ sent, stage = .orders sent →
      Forwarded edge steps i post.origin post.request sent) :
    PassageLaw edge steps (s.put i { post with stage := stage }) := by
  refine h.put hgateway (fun heq => absurd heq hbff) horders fun call hlog => ?_
  obtain ⟨post', hpost', hpassed⟩ := h.lookedUp i call hlog
  obtain rfl := Option.some.inj (hpost.symm.trans hpost')
  exact hpassed

/-- **Every step keeps the law.** -/
theorem step (hfetch : edge.carry = Fetch.headerValue) (h : PassageLaw edge steps s)
    (hfree : ∀ i, s.posts i = none → ∀ call, .lookedUp i call ∉ s.system.orders.log)
    (hs : s.step edge act = some s') : PassageLaw edge ((s, act) :: steps) s' := by
  cases turn_of_step hs with
  | tables => exact ⟨h.gateway, h.bff, h.mono.orders, h.mono.lookedUp⟩
  | bff hbff => exact ⟨h.gateway, h.bff, h.mono.orders, h.mono.lookedUp⟩
  | @post i request bff hnone hbff =>
      have hsame : PassageLaw edge ((s, .post i request) :: steps) { s with bff := bff } :=
        ⟨h.gateway, h.bff, h.mono.orders, h.mono.lookedUp⟩
      exact hsame.put (by simp) (fun _ => rfl) (by simp)
        fun call hlog => absurd hlog (hfree i hnone call)
  | @turnedAway i request status hnone =>
      exact h.mono.put (by simp) (by simp) (by simp)
        fun call hlog => absurd hlog (hfree i hnone call)
  | @postToGateway i request hnone =>
      refine h.mono.put ?_ (by simp) (by simp) fun call hlog => absurd hlog (hfree i hnone call)
      intro sent hstage
      obtain rfl := PostStage.gateway.inj hstage
      exact .direct
  | refused hact hpost => exact h.mono.moveTo hpost (by simp) (by simp) (by simp)
  | proxied hpost hstage hmem hcall hsent =>
      refine h.mono.moveTo hpost ?_ (by simp) (by simp)
      intro sent' heq
      obtain rfl := PostStage.gateway.inj heq
      rw [h.bff _ _ hpost hstage]
      exact .proxied hsent
  | forwarded hpost hstage hsent =>
      refine h.mono.moveTo hpost (by simp) (by simp) ?_
      intro sent'' heq
      obtain rfl := PostStage.orders.inj heq
      exact ⟨_, _, _, h.gateway _ _ _ hpost hstage, List.mem_cons_self, rfl, hsent⟩
  | @called i drawn post sent call system hpost hstage hcall hlookUp =>
      have hpassed := (h.orders i post sent hpost hstage).checked hfetch hcall
      have hbefore : PassageLaw edge ((s, .createOrder i drawn) :: steps)
          { s with system := system } := by
        refine PassageLaw.mono ⟨h.gateway, h.bff, h.orders, fun j call' hlog => ?_⟩
        rcases lookedUp_of_lookUp hlookUp hlog with hold | ⟨rfl, rfl⟩
        · exact h.lookedUp j call' hold
        · exact ⟨post, hpost, hpassed⟩
      exact hbefore.moveTo hpost (by simp) (by simp) (by simp)
  | system hact hsystem =>
      refine ⟨h.gateway, h.bff, h.mono.orders, fun i call hlog => ?_⟩
      exact h.mono.lookedUp i call (lookedUp_of_step hsystem hact hlog)

theorem of_run (hfetch : edge.carry = Fetch.headerValue) {tables : Bff.Tables}
    (h : Run edge (Storefront.start tables stock) steps s) : PassageLaw edge steps s := by
  induction h with
  | start => exact .start tables
  | step hrun hs ih =>
      exact ih.step hfetch (fun i hnone => (MediationLaw.of_run hrun).not_lookedUp hnone) hs

end PassageLaw

/--
**No order without a verified token whose subject may create orders.**  Whoever sends the
requests, to the BFF or to the gateway, and however the tables change: behind each order
there is a token that the gateway has verified, whose subject held the privilege when the
gateway looked, and is the order's user as `fetch` sends it.  The order is for what the
client sent under its key, and the first event of the order carries the client's
correlation identifier, or the one that was drawn for it.
-/
theorem every_order_authorized (edge : Edge) (hfetch : edge.carry = Fetch.headerValue)
    (tables : Bff.Tables) (stock : ServiceStore Inventory.Row) (hstock : OnlyItems stock)
    {steps : List (Storefront × Act)} {s : Storefront}
    (hrun : Run edge (Storefront.start tables stock) steps s) {o : String} {row : Orders.OrderRow}
    (hrow : ownRow s.system.ordersDb (.order o) = some row) :
    ∃ i post call, s.posts i = some post ∧
      .ended i call (.answered (.created o)) ∈ s.system.orders.log ∧
      Passed edge steps i post.origin post.request call ∧
      PlacedBy row call post.request ∧
      ∃ id first, s.system.outbox .orders id = some first ∧
        System.IsEvent .reserveRequested o first ∧
        (call.correlationId ≠ "" →
          first.headers.lookup "correlationId" = some (.str call.correlationId)) := by
  obtain ⟨sagas, owner, hlaw⟩ := Law.of_reach hstock (MediationLaw.of_run hrun).reach
  obtain ⟨saga, hsaga, rfl⟩ := hlaw.saga_of_order hrow
  obtain ⟨i, hended⟩ := hlaw.desk.placed o saga hsaga
  obtain ⟨post, hpost, hpassed⟩ :=
    (PassageLaw.of_run hfetch hrun).lookedUp i saga.call (hlaw.desk.ended i saga.call _ hended).1
  obtain ⟨service, id, first, hfirst, hevent⟩ := hlaw.requested_iff.mp ⟨_, hrow⟩
  obtain ⟨saga', hsaga', hemitted, hproducer, hid⟩ := hlaw.emitted_of_event hfirst hevent
  obtain rfl := Option.some.inj (hsaga.symm.trans hsaga')
  obtain ⟨first', hfirst', hdescribes⟩ := hlaw.row hsaga hemitted
  rw [hproducer, hid, hfirst] at hfirst'
  obtain rfl := Option.some.inj hfirst'
  refine ⟨i, post, saga.call, hpost, hended, hpassed, placedBy_of_saga hpassed.body, id, first, ?_,
    hevent, ?_⟩
  · have horders : service = .orders := hproducer.symm
    rw [← horders]
    exact hfirst
  · intro hne
    exact hdescribes.correlationId_iff.mpr ⟨rfl, hne⟩

end Storefront

end CommercePlatform

/-! ### An order that the BFF has not seen -/

namespace CommercePlatform.Forged

open Js

attribute [local instance] Sale.platform

/-- A client with a token of its own, who claims to be someone else. -/
def direct : HttpRequest where
  headers := [("x-user-sub", .str "auth0|mallory"), ("authorization", .str "Bearer ey.alice"),
    ("idempotency-key", .str "order-001"), ("x-correlation-id", .str "trace-7")]
  cookies := []
  body := request.body

def directActs : List Storefront.Act :=
  [.postToGateway 1 direct, .postOrders 1 "req-2", .createOrder 1 "req-3",
    .system (.insert 1 (Sale.uuid 1) (Sale.choices 2 3))] ++
    (Sale.transaction .orders 1 6).map .system

theorem ordered_directly : ∃ steps s row,
    Storefront.Run edge (Storefront.start tables Sale.stock) steps s ∧
    ownRow s.system.ordersDb (.order (Sale.uuid 1)) = some row ∧
    ∃ i post call, s.posts i = some post ∧
      .ended i call (.answered (.created (Sale.uuid 1))) ∈ s.system.orders.log ∧
      Storefront.Passed edge steps i post.origin post.request call ∧
      Storefront.PlacedBy row call post.request ∧
      ∃ id first, s.system.outbox .orders id = some first ∧
        System.IsEvent .reserveRequested (Sale.uuid 1) first ∧
        (call.correlationId ≠ "" →
          first.headers.lookup "correlationId" = some (.str call.correlationId)) := by
  have hout : ((Storefront.run edge directActs (Storefront.start tables Sale.stock)).any fun s =>
      (ownRow s.system.ordersDb (.order (Sale.uuid 1))).isSome) = true := by decide +kernel
  obtain ⟨s, hs, hout⟩ := (Option.any_eq_true _ _).mp hout
  obtain ⟨row, hrow⟩ := Option.isSome_iff_exists.mp hout
  obtain ⟨steps, hrun⟩ := Storefront.Run.start.of_run hs
  exact ⟨steps, s, row, hrun, hrow,
    Storefront.every_order_authorized edge rfl tables Sale.stock Sale.onlyItems hrun hrow⟩

end CommercePlatform.Forged
