/-
The way of an order from the browser to the order service.

Three processes handle it, one after the other.  Each makes a new request for the next one: of
what it was sent it takes the body, as far as its schema knows it, and one header by its name.
The handlers are functions here, from a request to the next one or to a refusal; what they await
in between is in `Edge/Mediation.lean`.

The headers of a request are values by their names in lower case, as Node.js has them.  What a
hop makes of them is a parameter: `fetch` takes the white space off their ends, and raises where a
character cannot be sent.  A body is written with `JSON.stringify` and read with `JSON.parse`, so a
number that JSON has no form for arrives as `null`.
-/
import CommercePlatform.Bff.Authorizations
import CommercePlatform.Bff.Calls
import CommercePlatform.Orders.Service

namespace CommercePlatform

open Js

/-! ### Requests -/

structure HttpRequest where
  headers : List (String × Json)
  /-- The cookies, by their names. -/
  cookies : List (String × String)
  /-- What the body was parsed to, if there is one. -/
  body : Option Json

/-- Why a request goes no further. -/
inductive Refusal where
  | reply (status : ℕ) (message : String)
  /-- An error that nothing catches. -/
  | raised
  deriving DecidableEq

/-- What the front takes from its configuration and from outside the repository. -/
structure Edge where
  /-- `SESSION_COOKIE_NAME`. -/
  sessionCookieName : String
  /-- `CSRF_COOKIE_NAME`. -/
  csrfCookieName : String
  refreshWindowMs : ℤ
  /-- The value of a cookie, if its signature is valid. -/
  unsignCookie : String → Option String
  /-- The claims of a token, if it is good. -/
  verifyAccessToken : String → Option (List (String × Json))
  /-- What the other side gets of a header value, or none if `fetch` raises. -/
  carry : String → Option String

namespace Js.Json

mutual

/-- `JSON.parse(JSON.stringify(value))`. -/
def carried : Json → Json
  | null => null
  | bool b => bool b
  | num (.finite q) => num (.finite q)
  | num _ => null
  | str s => str s
  | arr items => arr (carriedItems items)
  | obj fields => obj (carriedFields fields)

def carriedItems : List Json → List Json
  | [] => []
  | item :: rest => carried item :: carriedItems rest

def carriedFields : List (String × Json) → List (String × Json)
  | [] => []
  | (key, value) :: rest => (key, carried value) :: carriedFields rest

end

end Js.Json

/-- What the other side gets of the headers that are sent with `fetch`. -/
def Edge.carryHeaders (edge : Edge) : List (String × Json) →
    Except Refusal (List (String × Json))
  | [] => .ok []
  | (name, value) :: rest =>
      match edge.carry (textOf (some value)) with
      | none => .error .raised
      | some got => do
          let carried ← edge.carryHeaders rest
          return (name, .str got) :: carried

namespace HttpRequest

/-- A header that is a text. -/
def header (request : HttpRequest) (name : String) : Option String :=
  match request.headers.lookup name with
  | some (.str value) => some value
  | _ => none

/-- `genReqId`, with the identifier that is drawn where the client sent none. -/
def genReqId (request : HttpRequest) (drawn : String) : String :=
  (request.header "x-correlation-id").getD drawn

/-- `if (!value || typeof value !== "string")`, answered with `400`. -/
def requireHeader (request : HttpRequest) (name message : String) : Except Refusal String :=
  match request.header name with
  | none => .error (.reply 400 message)
  | some value => if value = "" then .error (.reply 400 message) else .ok value

def requireIdempotencyKey (request : HttpRequest) : Except Refusal String :=
  request.requireHeader "idempotency-key" "Missing Idempotency-Key header"

/-- `orderCreateSchema.parse(request.body)`. -/
def parseOrder (request : HttpRequest) : Except Refusal OrderCreateInput :=
  match request.body.bind orderCreateSchema with
  | none => .error .raised
  | some body => .ok body

/-- What the other side gets of a request that is sent with `fetch`. -/
def sent (edge : Edge) (headers : Fields) (body : OrderCreateInput) :
    Except Refusal HttpRequest := do
  let carried ← edge.carryHeaders headers.defined
  return {
    headers := carried
    cookies := []
    body := some (Json.carried (.obj body.toFields.defined)) }

/-- The request as `requireSession` and `requireCsrf` see it. -/
def toRequest (edge : Edge) (request : HttpRequest) : Bff.Request where
  sessionCookie := edge.unsignCookie ((request.cookies.lookup edge.sessionCookieName).getD "")
  csrfCookie := request.cookies.lookup edge.csrfCookieName
  csrfHeader := request.header "x-csrf-token"
  route := .other

end HttpRequest

/-! ### The BFF -/

namespace Bff

def proxyToGateway (edge : Edge) (session : AppSession) (id : String) (headers : Fields)
    (body : OrderCreateInput) : Except Refusal HttpRequest :=
  HttpRequest.sent edge (Fields.spread [
    ("authorization", some (.str ("Bearer " ++ session.accessToken))),
    ("content-type", some (.str "application/json")),
    ("x-correlation-id", some (.str id))] headers) body

/-- `createOrderController` of the BFF, for a request that was admitted with a session. -/
def createOrderController (edge : Edge) (request : HttpRequest) (session : AppSession)
    (id : String) : Except Refusal HttpRequest :=
  if ¬ requireCsrf (request.toRequest edge) session then
    .error (.reply 403 "CSRF validation failed")
  else do
    let idempotencyKey ← request.requireIdempotencyKey
    let body ← request.parseOrder
    proxyToGateway edge session id [("idempotency-key", some (.str idempotencyKey))] body

end Bff

/-! ### The gateway -/

namespace Gateway

structure Auth where
  sub : String
  privileges : List String
  groups : List String

/-- What follows `"Bearer "`. -/
def bearerToken (header : String) : Option String :=
  if "Bearer ".toList <+: header.toList then
    some (String.ofList (header.toList.drop "Bearer ".length))
  else none

/-- `authorize`, with the tables as they are when it reads them. -/
def authorize (edge : Edge) (tables : Bff.Tables) (request : HttpRequest) : Except Refusal Auth :=
  match (request.header "authorization").bind bearerToken with
  | none => .error (.reply 401 "Missing bearer token")
  | some token =>
      match edge.verifyAccessToken token with
      | none => .error .raised
      | some payload =>
          match textIn (textOf (payload.lookup "sub")) with
          | .error _ => .error .raised
          | .ok auth0Sub => .ok {
              sub := auth0Sub
              privileges := (tables.getUserAuthorizations auth0Sub).privileges
              groups := (tables.getUserAuthorizations auth0Sub).groups }

def requirePrivilege (privilege : String) (auth : Auth) : Except Refusal Unit :=
  if privilege ∈ auth.privileges then .ok ()
  else .error (.reply 403 ("Missing privilege: " ++ privilege))

def forward (edge : Edge) (correlationId : String) (headers : Fields) (body : OrderCreateInput) :
    Except Refusal HttpRequest :=
  HttpRequest.sent edge (headers.spread [("x-correlation-id", some (.str correlationId))]) body

/-- `createOrderController` of the gateway. -/
def createOrderController (edge : Edge) (request : HttpRequest) (auth : Auth) (id : String) :
    Except Refusal HttpRequest := do
  let body ← request.parseOrder
  let idempotencyKey ← request.requireIdempotencyKey
  forward edge id [
    ("content-type", some (.str "application/json")),
    ("x-user-sub", some (.str auth.sub)),
    ("idempotency-key", some (.str idempotencyKey))] body

/-- `POST /orders`, with its handlers in their order. -/
def postOrders (edge : Edge) (tables : Bff.Tables) (request : HttpRequest) (id : String) :
    Except Refusal HttpRequest := do
  let auth ← authorize edge tables request
  requirePrivilege "ORDER_CREATE" auth
  createOrderController edge request auth id

end Gateway

/-! ### The order service -/

/-- `createOrderController` of the order service, up to its call of `createOrder`. -/
def Orders.createOrderController (request : HttpRequest) (id : String) :
    Except Refusal CreateOrderCall := do
  let body ← request.parseOrder
  let userSub ← request.requireHeader "x-user-sub" "Missing x-user-sub"
  let idempotencyKey ← request.requireIdempotencyKey
  return { body := body, userSub := userSub, idempotencyKey := idempotencyKey, correlationId := id }

/-! ### What a handler reads -/

/-- A body that the schema accepts has the properties that it returns. -/
theorem orderCreateSchema_eq_some {value : Json} {body : OrderCreateInput}
    (h : orderCreateSchema value = some body) :
    ∃ fields, value = .obj fields ∧ fields.lookup "itemSku" = some (.str body.itemSku) ∧
      fields.lookup "quantity" = some (.num (.finite body.quantity)) ∧
      fields.lookup "totalAmount" = some (.num body.totalAmount) ∧
      fields.lookup "currency" = some (.str body.currency) := by
  unfold orderCreateSchema at h
  split at h
  · rename_i fields
    split at h
    · rename_i itemSku quantity totalAmount currency hsku hquantity hamount hcurrency
      split at h
      · rename_i hvalid
        obtain rfl := Option.some.inj h
        have hwhole : ((quantity.num : ℤ) : ℚ) = quantity :=
          Rat.coe_int_num_of_den_eq_one hvalid.2.1.1
        exact ⟨fields, rfl, hsku, by rw [hquantity, hwhole], hamount, hcurrency⟩
      · simp at h
    · simp at h
  · simp at h

/-- What arrives of a body is that body, if the schema accepts it again. -/
theorem orderCreateSchema_carried {body body' : OrderCreateInput}
    (h : orderCreateSchema (Json.carried (.obj body.toFields.defined)) = some body') :
    body' = body := by
  have hamount : ∃ q, body.totalAmount = .finite q := by
    obtain ⟨fields, hfields, -, -, hamount, -⟩ := orderCreateSchema_eq_some h
    obtain rfl := Json.obj.inj hfields
    cases htotal : body.totalAmount with
    | finite q => exact ⟨q, rfl⟩
    | _ =>
        simp [OrderCreateInput.toFields, Fields.defined, Json.carriedFields, Json.carried,
          List.lookup_cons, htotal] at hamount
  obtain ⟨q, hq⟩ := hamount
  have hsame : Json.carried (.obj body.toFields.defined) = .obj body.toFields.defined := by
    simp [OrderCreateInput.toFields, Fields.defined, Json.carriedFields, Json.carried, hq]
  rw [hsame, orderCreateSchema_toFields] at h
  exact (Option.some.inj h).symm

namespace HttpRequest

variable {request : HttpRequest} {name message value : String} {body : OrderCreateInput}

theorem of_requireHeader (h : request.requireHeader name message = .ok value) :
    request.header name = some value ∧ value ≠ "" := by
  unfold requireHeader at h
  split at h
  · simp at h
  · rename_i value' hvalue
    split at h
    · simp at h
    · rename_i hne
      obtain rfl := Except.ok.inj h
      exact ⟨hvalue, hne⟩

/-- A request that has an identifier keeps it. -/
theorem genReqId_of_header {id drawn : String} (h : request.header "x-correlation-id" = some id) :
    request.genReqId drawn = id := by
  rw [genReqId, h]
  rfl

theorem of_parseOrder (h : request.parseOrder = .ok body) :
    request.body.bind orderCreateSchema = some body := by
  unfold parseOrder at h
  split at h
  · simp at h
  · rename_i body' hbody
    obtain rfl := Except.ok.inj h
    exact hbody

end HttpRequest

/-! ### What a hop carries -/

section Carrying

variable {edge : Edge} {carried : List (String × Json)}

/-- The headers are carried one by one. -/
theorem Edge.carryHeaders_cons {name : String} {value : Json} {rest : List (String × Json)} :
    edge.carryHeaders ((name, value) :: rest) = .ok carried ↔
      ∃ got others, edge.carry (textOf (some value)) = some got ∧
        edge.carryHeaders rest = .ok others ∧ carried = (name, .str got) :: others := by
  rw [carryHeaders]
  cases hgot : edge.carry (textOf (some value)) with
  | none => simp
  | some got =>
      constructor
      · intro h
        obtain ⟨others, hothers, h⟩ := bind_eq_ok.mp h
        exact ⟨got, others, rfl, hothers, (Except.ok.inj h).symm⟩
      · rintro ⟨got, others, hsame, hothers, rfl⟩
        obtain rfl := Option.some.inj hsame
        exact bind_eq_ok.mpr ⟨others, hothers, rfl⟩

/-- A header arrives under its name, as it was carried. -/
theorem Edge.lookup_carryHeaders {headers : List (String × Json)} {name value : String}
    (h : edge.carryHeaders headers = .ok carried) (hvalue : headers.lookup name = some (.str value)) :
    ∃ got, edge.carry value = some got ∧ carried.lookup name = some (.str got) := by
  induction headers generalizing carried with
  | nil => simp at hvalue
  | cons header rest ih =>
      obtain ⟨first, value₁⟩ := header
      obtain ⟨got, others, hgot, hothers, rfl⟩ := carryHeaders_cons.mp h
      by_cases hname : name = first
      · subst hname
        rw [List.lookup_cons_self] at hvalue
        obtain rfl := Option.some.inj hvalue
        exact ⟨got, hgot, List.lookup_cons_self⟩
      · have hbeq : (name == first) = false := by simpa using hname
        rw [List.lookup_cons, hbeq] at hvalue ⊢
        exact ih hothers hvalue

variable {request : HttpRequest} {name value : String}

theorem HttpRequest.header_carried {headers : List (String × Json)}
    (h : edge.carryHeaders headers = .ok request.headers)
    (hvalue : headers.lookup name = some (.str value)) :
    ∃ got, edge.carry value = some got ∧ request.header name = some got := by
  obtain ⟨got, hgot, hlookup⟩ := edge.lookup_carryHeaders h hvalue
  refine ⟨got, hgot, ?_⟩
  unfold header
  rw [hlookup]

variable {headers : Fields} {body : OrderCreateInput}

theorem HttpRequest.header_sent (h : sent edge headers body = .ok request)
    (hvalue : headers.defined.lookup name = some (.str value)) :
    ∃ got, edge.carry value = some got ∧ request.header name = some got := by
  obtain ⟨carried, hcarried, h⟩ := bind_eq_ok.mp h
  obtain rfl := Except.ok.inj h
  exact header_carried hcarried hvalue

/-- The next handler reads the body that was sent, if it reads one. -/
theorem HttpRequest.parseOrder_sent {body' : OrderCreateInput}
    (h : sent edge headers body = .ok request) (hbody : request.parseOrder = .ok body') :
    body' = body := by
  obtain ⟨carried, -, h⟩ := bind_eq_ok.mp h
  obtain rfl := Except.ok.inj h
  exact orderCreateSchema_carried (of_parseOrder hbody)

end Carrying

/-! ### What a process lets through -/

open HttpRequest

theorem Bff.of_createOrderController {edge : Edge} {request sent : HttpRequest}
    {session : AppSession} {id : String}
    (h : Bff.createOrderController edge request session id = .ok sent) :
    requireCsrf (request.toRequest edge) session = true ∧
    ∃ idempotencyKey body, request.header "idempotency-key" = some idempotencyKey ∧
      request.body.bind orderCreateSchema = some body ∧
      proxyToGateway edge session id [("idempotency-key", some (.str idempotencyKey))] body =
        .ok sent := by
  unfold Bff.createOrderController at h
  split at h
  · simp at h
  · rename_i hcsrf
    obtain ⟨idempotencyKey, hkey, h⟩ := bind_eq_ok.mp h
    obtain ⟨body, hbody, hsent⟩ := bind_eq_ok.mp h
    exact ⟨not_not.mp hcsrf, idempotencyKey, body, (of_requireHeader hkey).1, of_parseOrder hbody,
      hsent⟩

/-- What the gateway gets of the headers that the BFF sends. -/
theorem Bff.headers_proxyToGateway {edge : Edge} {session : AppSession} {id key : String}
    {body : OrderCreateInput} {sent : HttpRequest}
    (h : proxyToGateway edge session id [("idempotency-key", some (.str key))] body = .ok sent) :
    (∃ got, edge.carry ("Bearer " ++ session.accessToken) = some got ∧
      sent.header "authorization" = some got) ∧
    (∃ got, edge.carry id = some got ∧ sent.header "x-correlation-id" = some got) ∧
    ∃ got, edge.carry key = some got ∧ sent.header "idempotency-key" = some got := by
  refine ⟨header_sent h ?_, header_sent h ?_, header_sent h ?_⟩
  all_goals simp [Fields.spread, Fields.set, Fields.defined, List.lookup_cons]

namespace Gateway

theorem bearerToken_bearer (token : String) : bearerToken ("Bearer " ++ token) = some token := by
  unfold bearerToken
  rw [String.toList_append, if_pos (List.prefix_append _ _)]
  have hdrop : List.drop "Bearer ".length ("Bearer ".toList ++ token.toList) = token.toList :=
    List.drop_left' rfl
  rw [hdrop, String.ofList_toList]

theorem of_authorize {edge : Edge} {tables : Bff.Tables} {request : HttpRequest} {auth : Auth}
    (h : authorize edge tables request = .ok auth) :
    ∃ token payload, (request.header "authorization").bind bearerToken = some token ∧
      edge.verifyAccessToken token = some payload ∧ auth.sub = textOf (payload.lookup "sub") ∧
      auth.privileges = (tables.getUserAuthorizations auth.sub).privileges := by
  unfold authorize at h
  split at h
  · simp at h
  · rename_i token htoken
    split at h
    · simp at h
    · rename_i payload hpayload
      split at h
      · simp at h
      · rename_i auth0Sub htext
        obtain rfl := Except.ok.inj h
        exact ⟨token, payload, htoken, hpayload, textIn_eq_ok htext, rfl⟩

/-- The gateway forwards in the name of the token's subject, which may create orders. -/
theorem of_postOrders {edge : Edge} {tables : Bff.Tables} {request sent : HttpRequest} {id : String}
    (h : postOrders edge tables request id = .ok sent) :
    ∃ token payload sub idempotencyKey body,
      (request.header "authorization").bind bearerToken = some token ∧
      edge.verifyAccessToken token = some payload ∧ sub = textOf (payload.lookup "sub") ∧
      tables.Holds sub "ORDER_CREATE" ∧
      request.header "idempotency-key" = some idempotencyKey ∧
      request.parseOrder = .ok body ∧
      forward edge id [
        ("content-type", some (.str "application/json")),
        ("x-user-sub", some (.str sub)),
        ("idempotency-key", some (.str idempotencyKey))] body = .ok sent := by
  obtain ⟨auth, hauth, h⟩ := bind_eq_ok.mp h
  obtain ⟨⟨⟩, hprivilege, h⟩ := bind_eq_ok.mp h
  obtain ⟨body, hbody, h⟩ := bind_eq_ok.mp h
  obtain ⟨idempotencyKey, hkey, hsent⟩ := bind_eq_ok.mp h
  obtain ⟨token, payload, htoken, hpayload, hsub, hprivileges⟩ := of_authorize hauth
  have hholds : tables.Holds auth.sub "ORDER_CREATE" := by
    unfold requirePrivilege at hprivilege
    split at hprivilege
    · rename_i hmem
      rw [hprivileges] at hmem
      exact hmem
    · simp at hprivilege
  exact ⟨token, payload, auth.sub, idempotencyKey, body, htoken, hpayload, hsub, hholds,
    (of_requireHeader hkey).1, hbody, hsent⟩

/-- What the order service gets of the headers that the gateway sends. -/
theorem headers_forward {edge : Edge} {id sub key : String} {body : OrderCreateInput}
    {sent : HttpRequest} (h : forward edge id [
      ("content-type", some (.str "application/json")),
      ("x-user-sub", some (.str sub)),
      ("idempotency-key", some (.str key))] body = .ok sent) :
    (∃ got, edge.carry sub = some got ∧ sent.header "x-user-sub" = some got) ∧
    (∃ got, edge.carry key = some got ∧ sent.header "idempotency-key" = some got) ∧
    ∃ got, edge.carry id = some got ∧ sent.header "x-correlation-id" = some got := by
  refine ⟨header_sent h ?_, header_sent h ?_, header_sent h ?_⟩
  all_goals simp [Fields.spread, Fields.set, Fields.defined, List.lookup_cons]

end Gateway

theorem Orders.of_createOrderController {request : HttpRequest} {id : String}
    {call : CreateOrderCall} (h : Orders.createOrderController request id = .ok call) :
    request.parseOrder = .ok call.body ∧ request.header "x-user-sub" = some call.userSub ∧
      request.header "idempotency-key" = some call.idempotencyKey := by
  obtain ⟨body, hbody, h⟩ := bind_eq_ok.mp h
  obtain ⟨userSub, huser, h⟩ := bind_eq_ok.mp h
  obtain ⟨idempotencyKey, hkey, h⟩ := bind_eq_ok.mp h
  obtain rfl := Except.ok.inj h
  exact ⟨hbody, (of_requireHeader huser).1, (of_requireHeader hkey).1⟩

/--
**What arrives at the order service is what the client sent, in the name of the token's subject.**
Of the headers only the idempotency key comes from the client.
-/
theorem order_of_hops {edge : Edge}
    (hcarry : ∀ value got, edge.carry value = some got → got = value)
    {request sent₁ sent₂ : HttpRequest} {session : Bff.AppSession} {tables : Bff.Tables}
    {id₁ id₂ id₃ : String} {call : Orders.CreateOrderCall}
    (h₁ : Bff.createOrderController edge request session id₁ = .ok sent₁)
    (h₂ : Gateway.postOrders edge tables sent₁ id₂ = .ok sent₂)
    (h₃ : Orders.createOrderController sent₂ id₃ = .ok call) :
    Bff.requireCsrf (request.toRequest edge) session = true ∧
    (∃ payload, edge.verifyAccessToken session.accessToken = some payload ∧
      call.userSub = textOf (payload.lookup "sub")) ∧
    tables.Holds call.userSub "ORDER_CREATE" ∧
    request.header "idempotency-key" = some call.idempotencyKey ∧
    request.body.bind orderCreateSchema = some call.body := by
  obtain ⟨hcsrf, key₁, body₁, hkey₁, hbody₁, hsent₁⟩ := Bff.of_createOrderController h₁
  obtain ⟨token, payload, sub, key₂, body₂, htoken, hpayload, hsub, hholds, hkey₂, hbody₂, hsent₂⟩ :=
    Gateway.of_postOrders h₂
  obtain ⟨hbody₃, huser₃, hkey₃⟩ := Orders.of_createOrderController h₃
  obtain ⟨⟨bearer, hbearer, hauthorization⟩, -, gotKey, hcarried, hgotKey⟩ :=
    Bff.headers_proxyToGateway hsent₁
  obtain ⟨⟨gotSub, hcarriedSub, hgotSub⟩, ⟨gotKey', hcarried', hgotKey'⟩, -⟩ :=
    Gateway.headers_forward hsent₂
  have hsession : token = session.accessToken := by
    rw [hauthorization, hcarry _ _ hbearer, Option.bind_some, Gateway.bearerToken_bearer] at htoken
    exact (Option.some.inj htoken).symm
  have huser : call.userSub = sub := by
    rw [Option.some.inj (huser₃.symm.trans hgotSub), hcarry _ _ hcarriedSub]
  have hkey : call.idempotencyKey = key₁ :=
    calc call.idempotencyKey = gotKey' := Option.some.inj (hkey₃.symm.trans hgotKey')
      _ = key₂ := hcarry _ _ hcarried'
      _ = gotKey := Option.some.inj (hkey₂.symm.trans hgotKey)
      _ = key₁ := hcarry _ _ hcarried
  have hbody : call.body = body₁ :=
    (parseOrder_sent hsent₂ hbody₃).trans (parseOrder_sent hsent₁ hbody₂)
  refine ⟨hcsrf, ⟨payload, ?_, ?_⟩, ?_, ?_, ?_⟩
  · rw [← hsession]
    exact hpayload
  · rw [huser]
    exact hsub
  · rw [huser]
    exact hholds
  · rw [hkey]
    exact hkey₁
  · rw [hbody]
    exact hbody₁

end CommercePlatform
