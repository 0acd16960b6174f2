/-
The report of the orders, from the browser to the order service.

Three processes read the limit, each out of a text: the client's query, and the queries
that the BFF and the gateway write.  What the client asked for is what the order service
hands to the database, whichever way the number was spelt.  The gateway asks for a
privilege; the order service lists the orders of all users.

The text after `?` is taken apart by the HTTP server, which is a parameter.  It is needed
only of `name=value` in letters and digits what it makes of it.  A row has the time of its
`INSERT`, which no statement changes; it is a parameter, since the order of the rows is all
that it is for.
-/
import CommercePlatform.Edge.Mediation
import CommercePlatform.Js.FormUrlencoded
import CommercePlatform.Js.ToNumber
import CommercePlatform.Pg.Listing
import CommercePlatform.Saga.Answers

namespace CommercePlatform

open Js

/-! ### The query -/

/-- What `reportQuerySchema` returns. -/
structure ReportQuery where
  limit : ℕ
  positive : 0 < limit
  max : limit ≤ 100
  deriving DecidableEq

def ReportQuery.default : ReportQuery where
  limit := 20
  positive := by omega
  max := by omega

def ReportQuery.ofInt (limit : ℤ) (h : 0 < limit ∧ limit ≤ 100) : ReportQuery where
  limit := limit.toNat
  positive := by omega
  max := by omega

/-- `z.coerce.number().int().positive().max(100).default(20)`, or none where it raises. -/
def reportQuerySchema (query : List (String × Json)) : Option ReportQuery :=
  match query.lookup "limit" with
  | none => some .default
  | some value =>
      match Number.ofJson value with
      | .finite q =>
          if q.den = 1 then
            if h : 0 < q.num ∧ q.num ≤ 100 then some (.ofInt q.num h) else none
          else none
      | _ => none

/-- `GET`, with the text after `?`. -/
structure HttpGet extends HttpRequest where
  queryText : String

/-- What the HTTP server makes of the text after `?`. -/
abbrev QueryParser := String → List (String × Json)

/-- A name and a value of letters and digits are themselves. -/
def QueryParser.Plain (parse : QueryParser) : Prop :=
  ∀ name value : String, name ≠ "" → (∀ c ∈ name.toList ++ value.toList, c.isAlphanum = true) →
    parse (name ++ "=" ++ value) = [(name, .str value)]

/-- `limit=${query.limit}`. -/
def ReportQuery.text (query : ReportQuery) : String :=
  "limit" ++ "=" ++ (Number.finite query.limit).toString

/-! ### The hops -/

variable (parse : QueryParser)

/-- What the other side gets of a request without a body. -/
def HttpGet.sent (edge : Edge) (headers : Fields) (query : ReportQuery) :
    Except Refusal HttpGet := do
  let carried ← edge.carryHeaders headers.defined
  return {
    headers := carried
    cookies := []
    body := none
    queryText := query.text }

/-- `proxyToGateway`, of a request without a body. -/
def Bff.proxyReport (edge : Edge) (session : AppSession) (id : String) (query : ReportQuery) :
    Except Refusal HttpGet :=
  HttpGet.sent edge [
    ("authorization", some (.str ("Bearer " ++ session.accessToken))),
    ("content-type", some (.str "application/json")),
    ("x-correlation-id", some (.str id))] query

/-- `listOrderReportsController` of the BFF, for a request that was admitted with a session. -/
def Bff.listOrderReportsController (edge : Edge) (request : HttpGet) (session : AppSession)
    (id : String) : Except Refusal HttpGet :=
  match reportQuerySchema (parse request.queryText) with
  | none => .error .raised
  | some query => proxyReport edge session id query

namespace Gateway

/-- `forward`, of a request without a body. -/
def forwardReport (edge : Edge) (sub id : String) (query : ReportQuery) : Except Refusal HttpGet :=
  HttpGet.sent edge [
    ("x-user-sub", some (.str sub)),
    ("x-correlation-id", some (.str id))] query

/-- `listOrderReportsController` of the gateway. -/
def listOrderReportsController (edge : Edge) (request : HttpGet) (auth : Auth) (id : String) :
    Except Refusal HttpGet :=
  match reportQuerySchema (parse request.queryText) with
  | none => .error .raised
  | some query => forwardReport edge auth.sub id query

/-- `GET /reports/orders`, with its handlers in their order. -/
def getReports (edge : Edge) (tables : Bff.Tables) (request : HttpGet) (id : String) :
    Except Refusal HttpGet := do
  let auth ← authorize edge tables request.toHttpRequest
  requirePrivilege "READ" auth
  listOrderReportsController parse edge request auth id

end Gateway

namespace Orders

/-- A row of the report. -/
structure ReportedOrder where
  id : String
  userId : String
  status : OrderStatus
  totalAmount : Numeric12_2
  currency : String
  itemSku : String
  quantity : Int4
  failureReason : Option String
  createdAt : ℕ
  updatedAt : ℕ
  deriving DecidableEq

/-- When the rows were written first and last. -/
structure RowTimes where
  createdAt : String → ℕ
  updatedAt : String → ℕ

def OrderRow.reported (row : OrderRow) (times : RowTimes) (id : String) : ReportedOrder where
  id := id
  userId := row.userId
  status := row.status
  totalAmount := row.totalAmount
  currency := row.currency
  itemSku := row.itemSku
  quantity := row.quantity
  failureReason := row.failureReason
  createdAt := times.createdAt id
  updatedAt := times.updatedAt id

/-- The rows, in the order in which the server comes upon them. -/
def reportRows (db : ServiceStore Row) (scan : List String) (times : RowTimes) :
    List ReportedOrder :=
  scan.filterMap fun id => (ownRow db (.order id)).map fun row => row.reported times id

/-- `ORDER BY created_at DESC`. -/
def Newer (a b : ReportedOrder) : Prop := b.createdAt ≤ a.createdAt

instance : DecidableRel Newer := fun a b => inferInstanceAs (Decidable (b.createdAt ≤ a.createdAt))

instance : Std.Total Newer := ⟨fun a b => Nat.le_total b.createdAt a.createdAt⟩

instance : IsTrans ReportedOrder Newer := ⟨fun _ _ _ hab hbc => Nat.le_trans hbc hab⟩

/-- The scan comes upon every order, and upon none twice. -/
def ScansOrders (db : ServiceStore Row) (scan : List String) : Prop :=
  scan.Nodup ∧ ∀ k ∈ db.keys, match k with
    | .own (.order id) => id ∈ scan
    | _ => True

instance (db : ServiceStore Row) (scan : List String) : Decidable (ScansOrders db scan) := by
  unfold ScansOrders
  have : DecidablePred fun k : ServiceKey Key => match k with
      | .own (.order id) => id ∈ scan
      | _ => True := by
    intro k
    cases k with
    | own key => cases key <;> infer_instance
    | _ => infer_instance
  infer_instance

variable [Platform]

/-- The parameter of `LIMIT`. -/
def limitParam (limit : Number) : Except Error ℕ :=
  match integerText (.num limit) with
  | none => .error (.invalidText "bigint")
  | some z =>
      if z < 0 then .error (.thrown "LIMIT must not be negative")
      else if 9223372036854775807 < z then .error .integerOutOfRange
      else .ok z.toNat

def listOrders (db : ServiceStore Row) (scan : List String) (times : RowTimes) (limit : Number) :
    Except Error (List ReportedOrder) :=
  (limitParam limit).map fun n => firstRows Newer n (reportRows db scan times)

/-- `query.limit ?? 20`. -/
def askedLimit (query : List (String × Json)) : Number :=
  match query.lookup "limit" with
  | none | some .null => .finite 20
  | some value => Number.ofJson value

def listOrdersController (db : ServiceStore Row) (scan : List String) (times : RowTimes)
    (request : HttpGet) : Except Refusal (List ReportedOrder) :=
  match listOrders db scan times (askedLimit (parse request.queryText)) with
  | .error _ => .error .raised
  | .ok rows => .ok rows

end Orders

variable [Platform]

/-- What a report is made from, hop by hop. -/
structure ReportCall where
  request : HttpGet
  session : Bff.AppSession
  /-- What the BFF and the gateway draw, for a request without an identifier. -/
  drawnByBff : String
  drawnByGateway : String
  /-- The tables when the gateway looks. -/
  tables : Bff.Tables
  scan : List String
  times : Orders.RowTimes

/-- `GET /bff/reports/orders`, for a request that was admitted with a session. -/
def ReportCall.answer (edge : Edge) (db : ServiceStore Orders.Row) (call : ReportCall) :
    Except Refusal (List Orders.ReportedOrder) := do
  let proxied ← Bff.listOrderReportsController parse edge call.request call.session
    (call.request.genReqId call.drawnByBff)
  let forwarded ← Gateway.getReports parse edge call.tables proxied
    (proxied.genReqId call.drawnByGateway)
  Orders.listOrdersController parse db call.scan call.times forwarded

/-! ### The limit -/

omit [Platform] in
/-- A limit is written in digits, and is read as itself. -/
theorem text_of_limit {n : ℕ} (h : n ≤ 100) :
    Number.ofText (Number.finite n).toString = .finite n ∧
      ∀ c ∈ (Number.finite n).toString.toList, c.isAlphanum = true := by
  have hall : ∀ n ∈ List.range 101, Number.ofText (Number.finite (n : ℚ)).toString = .finite n ∧
      (Number.finite (n : ℚ)).toString.toList.all Char.isAlphanum = true := by
    decide +kernel
  obtain ⟨hread, hletters⟩ := hall n (List.mem_range.mpr (by omega))
  exact ⟨hread, List.all_eq_true.mp hletters⟩

variable {parse}

namespace ReportQuery

omit [Platform]

variable (query : ReportQuery)

theorem parse_text (hparse : parse.Plain) :
    parse query.text = [("limit", .str (Number.finite query.limit).toString)] := by
  apply hparse
  · decide
  · intro c hc
    have hname : ∀ c ∈ "limit".toList, c.isAlphanum = true := List.all_eq_true.mp (by decide)
    rcases List.mem_append.mp hc with hc | hc
    · exact hname c hc
    · exact (text_of_limit query.max).2 c hc

/-- What the schema returns it accepts again, as it is. -/
theorem schema_parse_text (hparse : parse.Plain) :
    reportQuerySchema (parse query.text) = some query := by
  have hpos := query.positive
  have hmax := query.max
  rw [query.parse_text hparse, reportQuerySchema, List.lookup_cons_self]
  dsimp only
  rw [Number.ofJson_str, (text_of_limit hmax).1]
  dsimp only
  rw [if_pos (Rat.den_natCast _), dif_pos ⟨by simpa using hpos, by simpa using hmax⟩]
  simp [ofInt]

theorem askedLimit_text (hparse : parse.Plain) :
    Orders.askedLimit (parse query.text) = .finite query.limit := by
  rw [query.parse_text hparse, Orders.askedLimit, List.lookup_cons_self]
  exact (text_of_limit query.max).1

end ReportQuery

theorem Orders.limitParam_natCast {n : ℕ} (h : n ≤ 100) : limitParam (.finite n) = .ok n := by
  have hsmall : |(n : ℚ)| < 10 ^ 21 := by
    rw [abs_of_nonneg (Nat.cast_nonneg n)]
    calc (n : ℚ) ≤ 100 := by exact_mod_cast h
      _ < 10 ^ 21 := by norm_num
  have hinteger : integerText (.num (.finite (n : ℚ))) = some (n : ℤ) := by
    simp only [integerText]
    rw [if_pos ⟨Rat.den_natCast _, hsmall⟩, Rat.num_natCast]
  rw [limitParam, hinteger]
  dsimp only
  rw [if_neg (by omega), if_neg (by omega), Int.toNat_natCast]

/-! ### What a hop lets through -/

omit [Platform] in
theorem Gateway.authorize_eq_ok {edge : Edge} {tables : Bff.Tables} {request : HttpRequest}
    {auth : Auth} : authorize edge tables request = .ok auth ↔
      ∃ token payload, (request.header "authorization").bind bearerToken = some token ∧
        edge.verifyAccessToken token = some payload ∧
        '\x00' ∉ (textOf (payload.lookup "sub")).toList ∧
        auth = {
          sub := textOf (payload.lookup "sub")
          privileges := (tables.getUserAuthorizations (textOf (payload.lookup "sub"))).privileges
          groups := (tables.getUserAuthorizations (textOf (payload.lookup "sub"))).groups } := by
  unfold authorize
  cases htoken : (request.header "authorization").bind bearerToken with
  | none => simp
  | some token =>
      cases hpayload : edge.verifyAccessToken token with
      | none => simp [hpayload]
      | some payload =>
          by_cases hnul : '\x00' ∈ (textOf (payload.lookup "sub")).toList
          · simp [textIn, hpayload, hnul]
          · simp [textIn, hpayload, hnul, eq_comm]

omit [Platform] in
theorem Gateway.requirePrivilege_eq_ok {privilege : String} {auth : Auth} {u : Unit} :
    requirePrivilege privilege auth = .ok u ↔ privilege ∈ auth.privileges := by
  unfold requirePrivilege
  by_cases hmem : privilege ∈ auth.privileges
  · simp [hmem]
  · simp [hmem]

omit [Platform] in
/-- The gateway asks for a good token, and for a subject that may read. -/
theorem Gateway.getReports_eq_ok {edge : Edge} {tables : Bff.Tables} {request sent : HttpGet}
    {id : String} {query : ReportQuery}
    (hquery : reportQuerySchema (parse request.queryText) = some query) :
    getReports parse edge tables request id = .ok sent ↔
      ∃ token payload, (request.header "authorization").bind bearerToken = some token ∧
        edge.verifyAccessToken token = some payload ∧
        '\x00' ∉ (textOf (payload.lookup "sub")).toList ∧
        tables.Holds (textOf (payload.lookup "sub")) "READ" ∧
        forwardReport edge (textOf (payload.lookup "sub")) id query = .ok sent := by
  have hforward : ∀ auth, listOrderReportsController parse edge request auth id =
      forwardReport edge auth.sub id query := by
    intro auth
    unfold listOrderReportsController
    rw [hquery]
  constructor
  · intro h
    obtain ⟨auth, hauth, h⟩ := bind_eq_ok.mp h
    obtain ⟨⟨⟩, hprivilege, h⟩ := bind_eq_ok.mp h
    obtain ⟨token, payload, htoken, hpayload, hnul, rfl⟩ := authorize_eq_ok.mp hauth
    rw [hforward] at h
    exact ⟨token, payload, htoken, hpayload, hnul, requirePrivilege_eq_ok.mp hprivilege, h⟩
  · intro ⟨token, payload, htoken, hpayload, hnul, hholds, hsent⟩
    refine bind_eq_ok.mpr ⟨_, authorize_eq_ok.mpr ⟨token, payload, htoken, hpayload, hnul, rfl⟩,
      bind_eq_ok.mpr ⟨(), requirePrivilege_eq_ok.mpr hholds, ?_⟩⟩
    rw [hforward, hsent]

section Sending

omit [Platform]

variable {edge : Edge} {session : Bff.AppSession} {sub id : String} {query : ReportQuery}
  {request : HttpGet}

theorem HttpGet.sent_eq_ok {headers : Fields} : sent edge headers query = .ok request ↔
    ∃ carried, edge.carryHeaders headers.defined = .ok carried ∧
      request = { headers := carried, cookies := [], body := none, queryText := query.text } := by
  constructor
  · intro h
    obtain ⟨carried, hcarried, h⟩ := bind_eq_ok.mp h
    exact ⟨carried, hcarried, (Except.ok.inj h).symm⟩
  · rintro ⟨carried, hcarried, rfl⟩
    exact bind_eq_ok.mpr ⟨carried, hcarried, rfl⟩

theorem HttpGet.header_sent {headers : Fields} (h : sent edge headers query = .ok request)
    {name value : String} (hvalue : headers.defined.lookup name = some (.str value)) :
    ∃ got, edge.carry value = some got ∧ request.header name = some got := by
  obtain ⟨carried, hcarried, rfl⟩ := sent_eq_ok.mp h
  exact HttpRequest.header_carried hcarried hvalue

theorem HttpGet.queryText_sent {headers : Fields} (h : sent edge headers query = .ok request) :
    request.queryText = query.text := by
  obtain ⟨carried, -, rfl⟩ := sent_eq_ok.mp h
  rfl

/-- The BFF sends its request just if the token and the identifier can be sent. -/
theorem Bff.exists_proxyReport (hfetch : edge.carry = Fetch.headerValue) {bearer : String}
    (hbearer : edge.carry ("Bearer " ++ session.accessToken) = some bearer)
    {got : String} (hid : edge.carry id = some got) :
    ∃ sent, proxyReport edge session id query = .ok sent ∧
      sent.header "authorization" = some bearer ∧ sent.header "x-correlation-id" = some got := by
  have htype : edge.carry "application/json" = some "application/json" := by
    rw [hfetch]
    decide
  refine ⟨_, HttpGet.sent_eq_ok.mpr ⟨_, Edge.carryHeaders_cons.mpr ⟨bearer, _, hbearer,
    Edge.carryHeaders_cons.mpr ⟨_, _, htype, Edge.carryHeaders_cons.mpr ⟨got, _, hid, rfl, rfl⟩,
      rfl⟩, rfl⟩, rfl⟩, rfl, rfl⟩

theorem Bff.headers_proxyReport (h : proxyReport edge session id query = .ok request) :
    (∃ bearer, edge.carry ("Bearer " ++ session.accessToken) = some bearer ∧
      request.header "authorization" = some bearer) ∧
    ∃ got, edge.carry id = some got ∧ request.header "x-correlation-id" = some got := by
  refine ⟨HttpGet.header_sent h ?_, HttpGet.header_sent h ?_⟩
  all_goals simp [Fields.defined, List.lookup_cons]

/-- The gateway sends its request just if the subject and the identifier can be sent. -/
theorem Gateway.exists_forwardReport :
    (∃ sent, forwardReport edge sub id query = .ok sent) ↔
      (∃ got, edge.carry sub = some got) ∧ ∃ got, edge.carry id = some got := by
  constructor
  · rintro ⟨sent, hsent⟩
    have hsub : ∃ got, edge.carry sub = some got ∧ sent.header "x-user-sub" = some got :=
      HttpGet.header_sent hsent (by simp [Fields.defined])
    have hid : ∃ got, edge.carry id = some got ∧ sent.header "x-correlation-id" = some got :=
      HttpGet.header_sent hsent (by simp [Fields.defined, List.lookup_cons])
    exact ⟨hsub.imp fun _ h => h.1, hid.imp fun _ h => h.1⟩
  · rintro ⟨⟨gotSub, hsub⟩, gotId, hid⟩
    exact ⟨_, HttpGet.sent_eq_ok.mpr ⟨_, Edge.carryHeaders_cons.mpr ⟨gotSub, _, hsub,
      Edge.carryHeaders_cons.mpr ⟨gotId, _, hid, rfl, rfl⟩, rfl⟩, rfl⟩⟩

end Sending

/-- The order service hands the limit on. -/
theorem Orders.listOrdersController_text (hparse : parse.Plain) (db : ServiceStore Row)
    (scan : List String) (times : RowTimes) {request : HttpGet} {query : ReportQuery}
    (htext : request.queryText = query.text) :
    listOrdersController parse db scan times request =
      .ok (firstRows Newer query.limit (reportRows db scan times)) := by
  unfold listOrdersController listOrders
  rw [htext, query.askedLimit_text hparse, limitParam_natCast query.max]
  rfl

/-- What the three processes ask for, one after the other. -/
theorem ReportCall.answer_eq_ok {edge : Edge} (hparse : parse.Plain)
    {db : ServiceStore Orders.Row} {call : ReportCall} {rows : List Orders.ReportedOrder} :
    call.answer parse edge db = .ok rows ↔
      ∃ query proxied token payload forwarded,
        reportQuerySchema (parse call.request.queryText) = some query ∧
        Bff.proxyReport edge call.session (call.request.genReqId call.drawnByBff) query =
          .ok proxied ∧
        (proxied.header "authorization").bind Gateway.bearerToken = some token ∧
        edge.verifyAccessToken token = some payload ∧
        '\x00' ∉ (textOf (payload.lookup "sub")).toList ∧
        call.tables.Holds (textOf (payload.lookup "sub")) "READ" ∧
        Gateway.forwardReport edge (textOf (payload.lookup "sub"))
          (proxied.genReqId call.drawnByGateway) query = .ok forwarded ∧
        rows = firstRows Orders.Newer query.limit
          (Orders.reportRows db call.scan call.times) := by
  have hproxied : ∀ {query : ReportQuery} {sent : HttpGet},
      Bff.proxyReport edge call.session (call.request.genReqId call.drawnByBff) query = .ok sent →
        reportQuerySchema (parse sent.queryText) = some query := by
    intro query sent hsent
    rw [HttpGet.queryText_sent hsent]
    exact query.schema_parse_text hparse
  constructor
  · intro h
    obtain ⟨proxied, hsent, h⟩ := bind_eq_ok.mp h
    obtain ⟨forwarded, hforwarded, hrows⟩ := bind_eq_ok.mp h
    unfold Bff.listOrderReportsController at hsent
    split at hsent
    · simp at hsent
    · rename_i query hquery
      obtain ⟨token, payload, htoken, hpayload, hnul, hholds, hforward⟩ :=
        (Gateway.getReports_eq_ok (hproxied hsent)).mp hforwarded
      rw [Orders.listOrdersController_text hparse db call.scan call.times
        (HttpGet.queryText_sent hforward)] at hrows
      exact ⟨query, proxied, token, payload, forwarded, hquery, hsent, htoken, hpayload, hnul,
        hholds, hforward, (Except.ok.inj hrows).symm⟩
  · rintro ⟨query, proxied, token, payload, forwarded, hquery, hsent, htoken, hpayload, hnul, hholds,
      hforward, rfl⟩
    have hbff : Bff.listOrderReportsController parse edge call.request call.session
        (call.request.genReqId call.drawnByBff) = .ok proxied := by
      unfold Bff.listOrderReportsController
      rw [hquery]
      exact hsent
    refine bind_eq_ok.mpr ⟨proxied, hbff, bind_eq_ok.mpr ⟨forwarded, ?_, ?_⟩⟩
    · exact (Gateway.getReports_eq_ok (hproxied hsent)).mpr
        ⟨token, payload, htoken, hpayload, hnul, hholds, hforward⟩
    · exact Orders.listOrdersController_text hparse db call.scan call.times
        (HttpGet.queryText_sent hforward)

/--
**The limit passes every hop unchanged, and only a reader gets a report.**  The browser is
answered with rows just if its limit is a whole number from 1 to 100, or none, the token of
its session is good as it is sent, its subject may read when the gateway looks, and `fetch`
can send that subject and the identifier of the request; and the rows are then the newest
ones, as many as the browser has asked for.
-/
theorem report_of_hops (edge : Edge) (hfetch : edge.carry = Fetch.headerValue)
    (hparse : parse.Plain) (db : ServiceStore Orders.Row) (call : ReportCall)
    (rows : List Orders.ReportedOrder) :
    call.answer parse edge db = .ok rows ↔
      ∃ query token payload, reportQuerySchema (parse call.request.queryText) = some query ∧
        (Fetch.headerValue (call.request.genReqId call.drawnByBff)).isSome ∧
        (Fetch.headerValue ("Bearer " ++ call.session.accessToken)).bind Gateway.bearerToken =
          some token ∧
        edge.verifyAccessToken token = some payload ∧
        call.tables.Holds (textOf (payload.lookup "sub")) "READ" ∧
        (Fetch.headerValue (textOf (payload.lookup "sub"))).isSome ∧
        rows = firstRows Orders.Newer query.limit
          (Orders.reportRows db call.scan call.times) := by
  rw [ReportCall.answer_eq_ok hparse]
  constructor
  · rintro ⟨query, proxied, token, payload, forwarded, hquery, hsent, htoken, hpayload, -, hholds,
      hforward, rfl⟩
    obtain ⟨⟨bearer, hbearer, hheader⟩, got, hid, -⟩ := Bff.headers_proxyReport hsent
    obtain ⟨⟨sub, hsub⟩, -⟩ := Gateway.exists_forwardReport.mp ⟨forwarded, hforward⟩
    rw [hfetch] at hbearer hid hsub
    rw [hheader] at htoken
    refine ⟨query, token, payload, hquery, ?_, ?_, hpayload, hholds, ?_, rfl⟩
    · rw [hid, Option.isSome_some]
    · rw [hbearer]
      exact htoken
    · rw [hsub, Option.isSome_some]
  · rintro ⟨query, token, payload, hquery, hid, htoken, hpayload, hholds, hsub, rfl⟩
    obtain ⟨got, hid⟩ := Option.isSome_iff_exists.mp hid
    obtain ⟨sub, hsub⟩ := Option.isSome_iff_exists.mp hsub
    obtain ⟨bearer, hbearer, hbearerToken⟩ := Option.bind_eq_some_iff.mp htoken
    obtain ⟨proxied, hsent, hheader, hgot⟩ :
        ∃ proxied, Bff.proxyReport edge call.session (call.request.genReqId call.drawnByBff) query =
          .ok proxied ∧ proxied.header "authorization" = some bearer ∧
            proxied.header "x-correlation-id" = some got :=
      Bff.exists_proxyReport hfetch (hfetch ▸ hbearer) (hfetch ▸ hid)
    have hforward : ∃ forwarded, Gateway.forwardReport edge (textOf (payload.lookup "sub"))
        (proxied.genReqId call.drawnByGateway) query = .ok forwarded := by
      refine Gateway.exists_forwardReport.mpr ⟨⟨sub, hfetch ▸ hsub⟩, got, ?_⟩
      rw [HttpRequest.genReqId_of_header hgot, hfetch]
      exact Fetch.headerValue_of_headerValue hid
    obtain ⟨forwarded, hforward⟩ := hforward
    -- A subject with the character U+0000 cannot be sent either.
    refine ⟨query, proxied, token, payload, forwarded, hquery, hsent, ?_, hpayload,
      Fetch.not_mem_of_headerValue hsub (by decide) (by decide), hholds, hforward, rfl⟩
    rw [hheader]
    exact hbearerToken

/-! ### What a report shows -/

namespace Orders

/-- The newest orders of a database, as many as were asked for. -/
structure IsReport (db : ServiceStore Row) (times : RowTimes) (limit : ℕ)
    (rows : List ReportedOrder) : Prop where
  length : rows.length ≤ limit
  sorted : rows.Pairwise Newer
  /-- No order is in it twice. -/
  nodup : (rows.map ReportedOrder.id).Nodup
  stored : ∀ reported ∈ rows, ∃ row, ownRow db (.order reported.id) = some row ∧
    reported = row.reported times reported.id
  /-- An order that is not in it has given way to others that are no older. -/
  complete : ∀ id row, ownRow db (.order id) = some row →
    row.reported times id ∈ rows ∨
      rows.length = limit ∧ ∀ reported ∈ rows, times.createdAt id ≤ reported.createdAt

omit [Platform]

variable {db : ServiceStore Row} {scan : List String} {times : RowTimes}

theorem mem_reportRows {reported : ReportedOrder} (h : reported ∈ reportRows db scan times) :
    ∃ row, ownRow db (.order reported.id) = some row ∧ reported = row.reported times reported.id := by
  obtain ⟨id, -, hread⟩ := List.mem_filterMap.mp h
  obtain ⟨row, hrow, rfl⟩ := Option.map_eq_some_iff.mp hread
  exact ⟨row, hrow, rfl⟩

theorem ids_reportRows (db : ServiceStore Row) (scan : List String) (times : RowTimes) :
    (reportRows db scan times).map ReportedOrder.id =
      scan.filter fun id => (ownRow db (.order id)).isSome := by
  induction scan with
  | nil => rfl
  | cons id rest ih =>
      unfold reportRows at ih ⊢
      cases hrow : ownRow db (.order id) with
      | none => simp [hrow, ih]
      | some row =>
          have hid : (row.reported times id).id = id := rfl
          simp [hrow, ih, hid]

theorem isReport_firstRows (hscan : ScansOrders db scan) (limit : ℕ) :
    IsReport db times limit (firstRows Newer limit (reportRows db scan times)) where
  length := by
    rw [length_firstRows]
    omega
  sorted := pairwise_firstRows
  nodup := by
    have hrows : ((reportRows db scan times).map ReportedOrder.id).Nodup := by
      rw [ids_reportRows]
      exact hscan.1.filter _
    have hsorted := (List.perm_insertionSort Newer (reportRows db scan times)).map
      ReportedOrder.id
    exact (hsorted.nodup_iff.mpr hrows).sublist ((List.take_sublist _ _).map _)
  stored reported hmem := mem_reportRows (mem_of_mem_firstRows hmem)
  complete id row hrow := by
    have hmem : row.reported times id ∈ reportRows db scan times := by
      have hid : id ∈ scan := hscan.2 (ServiceKey.own (Key.order id))
        (Finmap.mem_keys.mpr (Finmap.mem_iff.mpr ⟨row, hrow⟩))
      refine List.mem_filterMap.mpr ⟨id, hid, ?_⟩
      rw [hrow]
      rfl
    exact mem_firstRows_or_full hmem

end Orders

/--
The row of an order goes on: of what the report shows only the status does, and the reason of a
failure, which is there once the order has failed and stays.
-/
structure Orders.ReportedOrder.GoesOn (a b : ReportedOrder) : Prop where
  id : b.id = a.id
  userId : b.userId = a.userId
  totalAmount : b.totalAmount = a.totalAmount
  currency : b.currency = a.currency
  itemSku : b.itemSku = a.itemSku
  quantity : b.quantity = a.quantity
  createdAt : b.createdAt = a.createdAt
  status : Relation.ReflTransGen OrderStatus.Goes a.status b.status
  failed : b.failureReason ≠ none ↔ b.status = .failed
  failureReason : a.failureReason ≠ none → b.failureReason = a.failureReason

/-- There is a reason just when the order has failed. -/
theorem System.Reach.failureReason_iff {stock : ServiceStore Inventory.Row} {s : System}
    (hstock : OnlyItems stock) (hreach : System.Reach stock s) {o : String} {row : Orders.OrderRow}
    (hrow : ownRow s.ordersDb (.order o) = some row) :
    row.failureReason ≠ none ↔ row.status = .failed := by
  obtain ⟨sagas, owner, hlaw⟩ := Law.of_reach hstock hreach
  obtain ⟨saga, -, rfl⟩ := hlaw.saga_of_order hrow
  exact saga.phase.failureReason_iff

/-- What any run does to an order. -/
theorem System.order_goes_on {stock : ServiceStore Inventory.Row} (hstock : OnlyItems stock)
    {s s' : System} (hreach : System.Reach stock s)
    (hsteps : Relation.ReflTransGen System.Steps s s') {o : String} {row : Orders.OrderRow}
    (hrow : ownRow s.ordersDb (.order o) = some row) {times times' : Orders.RowTimes}
    (htimes : times'.createdAt = times.createdAt) :
    ∃ row', ownRow s'.ordersDb (.order o) = some row' ∧
      (row.reported times o).GoesOn (row'.reported times' o) := by
  induction hsteps with
  | refl =>
      exact ⟨row, hrow, rfl, rfl, rfl, rfl, rfl, rfl, congrFun htimes o, .refl,
        hreach.failureReason_iff hstock hrow, fun _ => rfl⟩
  | @tail b c hsteps hstep ih =>
      obtain ⟨row₁, hrow₁, hgoes⟩ := ih
      obtain ⟨sagas, owner, hlaw⟩ := Law.of_reach hstock (hreach.trans hsteps)
      obtain ⟨act, hact⟩ := hstep
      obtain ⟨sagas', owner', hlaw', hnext, -⟩ := hlaw.step_opens hact
      obtain ⟨saga, hsaga, rfl⟩ := hlaw.saga_of_order hrow₁
      obtain ⟨saga', hsaga', hplaced, -, -, hstatus⟩ := (hsaga ▸ hnext o).later o
      have hsame : saga'.row = saga.row := by rw [hplaced]
      have hmove : Saga.Next (some saga) (some saga') := hsaga ▸ hsaga' ▸ hnext o
      have hreach' : System.Reach stock c := (hreach.trans hsteps).tail ⟨act, hact⟩
      refine ⟨_, hlaw'.orderRow hsaga', hgoes.id, ?_, ?_, ?_, ?_, ?_, hgoes.createdAt,
        hgoes.status.trans hstatus, hreach'.failureReason_iff hstock (hlaw'.orderRow hsaga'),
        fun hbefore => ?_⟩
      · exact (congrArg Orders.OrderRow.userId hsame).trans hgoes.userId
      · exact (congrArg Orders.OrderRow.totalAmount hsame).trans hgoes.totalAmount
      · exact (congrArg Orders.OrderRow.currency hsame).trans hgoes.currency
      · exact (congrArg Orders.OrderRow.itemSku hsame).trans hgoes.itemSku
      · exact (congrArg Orders.OrderRow.quantity hsame).trans hgoes.quantity
      · have hkept := hgoes.failureReason hbefore
        exact (hmove.failureReason fun hnone => hbefore (hkept.symm.trans hnone)).trans hkept

/--
**Reports go on.**  Of two reports in a run, whoever asks and for whatever limit, each shows
the newest orders of its moment; and an order of the first is in the second one, with what
the client ordered, in its status or one that it goes on to, and with the reason that it has
for a failure, unless the second one is full of orders that are no older.
-/
theorem reports_go_on (edge : Edge) (hparse : parse.Plain) {stock : ServiceStore Inventory.Row}
    (hstock : OnlyItems stock) {s s' : System} (hreach : System.Reach stock s)
    (hsteps : Relation.ReflTransGen System.Steps s s') {call call' : ReportCall}
    (htimes : call'.times.createdAt = call.times.createdAt)
    (hscan : Orders.ScansOrders s.ordersDb call.scan)
    (hscan' : Orders.ScansOrders s'.ordersDb call'.scan) {rows rows' : List Orders.ReportedOrder}
    (hanswer : call.answer parse edge s.ordersDb = .ok rows)
    (hanswer' : call'.answer parse edge s'.ordersDb = .ok rows') :
    ∃ query query', reportQuerySchema (parse call.request.queryText) = some query ∧
      reportQuerySchema (parse call'.request.queryText) = some query' ∧
      Orders.IsReport s.ordersDb call.times query.limit rows ∧
      Orders.IsReport s'.ordersDb call'.times query'.limit rows' ∧
      ∀ reported ∈ rows, (∃ later ∈ rows', reported.GoesOn later) ∨
        rows'.length = query'.limit ∧ ∀ other ∈ rows', reported.createdAt ≤ other.createdAt := by
  obtain ⟨query, -, -, -, -, hquery, -, -, -, -, -, -, rfl⟩ :=
    (ReportCall.answer_eq_ok hparse).mp hanswer
  obtain ⟨query', -, -, -, -, hquery', -, -, -, -, -, -, rfl⟩ :=
    (ReportCall.answer_eq_ok hparse).mp hanswer'
  have hfirst : Orders.IsReport s.ordersDb call.times query.limit _ :=
    Orders.isReport_firstRows hscan query.limit
  have hsecond : Orders.IsReport s'.ordersDb call'.times query'.limit _ :=
    Orders.isReport_firstRows hscan' query'.limit
  refine ⟨query, query', hquery, hquery', hfirst, hsecond, fun reported hmem => ?_⟩
  obtain ⟨row, hrow, hreported⟩ := hfirst.stored reported hmem
  obtain ⟨row', hrow', hgoes⟩ := System.order_goes_on hstock hreach hsteps hrow htimes
  rw [← hreported] at hgoes
  rcases hsecond.complete _ row' hrow' with hlisted | ⟨hfull, hnewer⟩
  · exact Or.inl ⟨_, hlisted, hgoes⟩
  · refine Or.inr ⟨hfull, fun other hother => ?_⟩
    have hcreated : call'.times.createdAt reported.id = reported.createdAt := hgoes.createdAt
    rw [← hcreated]
    exact hnewer other hother

end CommercePlatform

/-! ### Two reports of one sale -/

namespace CommercePlatform.Forged

open Js

attribute [local instance] Sale.platform

/-- A server that reads a query as `URLSearchParams` does. -/
def parseQuery : QueryParser := fun text =>
  (UrlSearchParams.parse text).map fun pair => (pair.1, .str pair.2)

theorem parseQuery_plain : parseQuery.Plain := by
  intro name value _ hplain
  unfold parseQuery
  rw [← UrlSearchParams.toString_alphanum hplain, UrlSearchParams.parse_toString]
  rfl

/-- The client spells the limit in its own way. -/
def report : ReportCall where
  request := {
    headers := []
    cookies := [("sid", sessionId ++ ".MTIz")]
    body := none
    queryText := "limit=+0x0A" }
  session := {
    id := sessionId
    accessToken := "ey.alice"
    accessTokenExpiresAt := 3600000
    refreshTokenCiphertext := Bff.encryptSecret "v1.alice"
    refreshTokenExpiresAt := none
    csrfToken := "77aa"
    auth0Sub := "auth0|alice"
    email := "alice@example.com"
    displayName := none }
  drawnByBff := "req-1"
  drawnByGateway := "req-2"
  tables := tables
  scan := [Sale.uuid 1]
  times := { createdAt := fun _ => 0, updatedAt := fun _ => 0 }

/-- The report shows one order, in this status. -/
def shows (answer : Except Refusal (List Orders.ReportedOrder)) (status : Orders.OrderStatus) :
    Bool :=
  match answer with
  | .ok [reported] => reported.status = status
  | _ => false

theorem of_shows {answer : Except Refusal (List Orders.ReportedOrder)} {status : Orders.OrderStatus}
    (h : shows answer status = true) :
    ∃ reported, answer = .ok [reported] ∧ reported.status = status := by
  unfold shows at h
  split at h
  · rename_i reported
    exact ⟨reported, rfl, of_decide_eq_true h⟩
  · simp at h

theorem exists_reports : ∃ s s' reported reported',
    System.run (Sale.acts.take 9) (System.start Sale.stock) = some s ∧
    System.run (Sale.acts.drop 9) s = some s' ∧
    Orders.ScansOrders s.ordersDb report.scan ∧ Orders.ScansOrders s'.ordersDb report.scan ∧
    report.answer parseQuery edge s.ordersDb = .ok [reported] ∧
    report.answer parseQuery edge s'.ordersDb = .ok [reported'] ∧
    reported.status = .pendingInventory ∧ reported'.status = .confirmed := by
  have hends : ((System.run (Sale.acts.take 9) (System.start Sale.stock)).any fun s =>
      decide (Orders.ScansOrders s.ordersDb report.scan) &&
      shows (report.answer parseQuery edge s.ordersDb) .pendingInventory &&
      (System.run (Sale.acts.drop 9) s).any fun s' =>
        decide (Orders.ScansOrders s'.ordersDb report.scan) &&
        shows (report.answer parseQuery edge s'.ordersDb) .confirmed) = true := by
    decide +kernel
  obtain ⟨s, hs, hends⟩ := (Option.any_eq_true _ _).mp hends
  simp only [Bool.and_eq_true, decide_eq_true_eq] at hends
  obtain ⟨⟨hscan, hshows⟩, hends⟩ := hends
  obtain ⟨s', hs', hends⟩ := (Option.any_eq_true _ _).mp hends
  simp only [Bool.and_eq_true, decide_eq_true_eq] at hends
  obtain ⟨hscan', hshows'⟩ := hends
  obtain ⟨reported, hanswer, hstatus⟩ := of_shows hshows
  obtain ⟨reported', hanswer', hstatus'⟩ := of_shows hshows'
  exact ⟨s, s', reported, reported', hs, hs', hscan, hscan', hanswer, hanswer', hstatus, hstatus'⟩

/-- The first report lists up to ten orders, since its client may read. -/
theorem listed : ∃ s reported, System.run (Sale.acts.take 9) (System.start Sale.stock) = some s ∧
    ∃ query token payload, reportQuerySchema (parseQuery report.request.queryText) = some query ∧
      (Fetch.headerValue (report.request.genReqId report.drawnByBff)).isSome ∧
      (Fetch.headerValue ("Bearer " ++ report.session.accessToken)).bind Gateway.bearerToken =
        some token ∧
      edge.verifyAccessToken token = some payload ∧
      report.tables.Holds (textOf (payload.lookup "sub")) "READ" ∧
      (Fetch.headerValue (textOf (payload.lookup "sub"))).isSome ∧
      [reported] = firstRows Orders.Newer query.limit
        (Orders.reportRows s.ordersDb report.scan report.times) := by
  obtain ⟨s, s', reported, -, hs, -, -, -, hanswer, -⟩ := exists_reports
  exact ⟨s, reported, hs, (report_of_hops edge rfl parseQuery_plain _ report _).mp hanswer⟩

/-- The order of the first report is confirmed in the second one. -/
theorem listed_again : ∃ s s' reported reported',
    System.run (Sale.acts.take 9) (System.start Sale.stock) = some s ∧
    System.run (Sale.acts.drop 9) s = some s' ∧
    reported.status = .pendingInventory ∧ reported'.status = .confirmed ∧
    ∃ query query', reportQuerySchema (parseQuery report.request.queryText) = some query ∧
      reportQuerySchema (parseQuery report.request.queryText) = some query' ∧
      Orders.IsReport s.ordersDb report.times query.limit [reported] ∧
      Orders.IsReport s'.ordersDb report.times query'.limit [reported'] ∧
      ∀ listed ∈ [reported], (∃ later ∈ [reported'], listed.GoesOn later) ∨
        [reported'].length = query'.limit ∧
          ∀ other ∈ [reported'], listed.createdAt ≤ other.createdAt := by
  obtain ⟨s, s', reported, reported', hs, hs', hscan, hscan', hanswer, hanswer', hstatus,
    hstatus'⟩ := exists_reports
  exact ⟨s, s', reported, reported', hs, hs', hstatus, hstatus',
    reports_go_on edge parseQuery_plain Sale.onlyItems (System.steps_of_run hs)
      (System.steps_of_run hs') rfl hscan hscan' hanswer hanswer'⟩

end CommercePlatform.Forged
