/-
What an order takes.

The BFF, the gateway and the services run side by side.  A `POST /bff/orders` passes
`requireSession` at the BFF, then the handlers of `Edge/Controllers.lean`, and what it comes to
at the order service is a call of `createOrder`; between any two of these anything else may
happen.  The framework of a process may turn a request away before its handlers do anything, for
its rate, its size, or a body that is no JSON.  The tables of the schema `identity` may be changed
at any time in any way.  The order service is reached through the gateway alone, so there are no
other calls of it; but the gateway may be sent requests by others than the BFF.
-/
import CommercePlatform.Bff.Admission
import CommercePlatform.Edge.Controllers
import CommercePlatform.Js.Fetch
import CommercePlatform.Saga.Idempotency

namespace CommercePlatform

open Js

/-! ### The processes together -/

/-- Where a request was sent to. -/
inductive Origin where
  /-- `POST /bff/orders`. -/
  | bff
  /-- `POST /orders` of the gateway. -/
  | gateway
  deriving DecidableEq

/-- How far a request for an order has come. -/
inductive PostStage where
  | bff
  | gateway (sent : HttpRequest)
  | orders (sent : HttpRequest)
  | ended

structure Post where
  origin : Origin
  request : HttpRequest
  stage : PostStage

structure Storefront where
  bff : Bff.State
  posts : ℕ → Option Post
  system : System

namespace Storefront

inductive Act where
  /-- The tables are changed, by whomever. -/
  | tables (tables : Bff.Tables)
  | bff (act : Bff.Act)
  | post (i : ℕ) (request : HttpRequest)
  /-- The framework of the BFF turns a request away, before `requireSession`. -/
  | turnedAway (i : ℕ) (request : HttpRequest) (status : ℕ)
  | postToGateway (i : ℕ) (request : HttpRequest)
  | proxyToGateway (i : ℕ) (drawn : String)
  | postOrders (i : ℕ) (drawn : String)
  | createOrder (i : ℕ) (drawn : String)
  /-- The framework of the gateway, or of the order service, turns the request away. -/
  | unhandled (i : ℕ) (status : ℕ)
  | system (act : SystemAct)

def start (tables : Bff.Tables) (stock : ServiceStore Inventory.Row) : Storefront where
  bff := .start tables
  posts _ := none
  system := .start stock

/-- The codes of a framework that turns a request away: only a handler knows of a conflict. -/
def TurnsAway (status : ℕ) : Prop := 400 ≤ status ∧ status ≠ 409

instance (status : ℕ) : Decidable (TurnsAway status) :=
  inferInstanceAs (Decidable (400 ≤ status ∧ status ≠ 409))

/-- The request is where it is said to be. -/
def put (s : Storefront) (i : ℕ) (post : Post) : Storefront :=
  { s with posts := Function.update s.posts i (some post) }

variable [Platform]

def step (edge : Edge) (s : Storefront) : Act → Option Storefront
  | .tables tables => some { s with bff := { s.bff with tables := tables } }
  | .bff act => (s.bff.step edge.refreshWindowMs act).map fun bff => { s with bff := bff }
  | .post i request =>
      if s.posts i = none then
        (s.bff.step edge.refreshWindowMs (.arrive i (request.toRequest edge))).map fun bff =>
          { s with bff := bff }.put i { origin := .bff, request := request, stage := .bff }
      else none
  | .turnedAway i request status =>
      if s.posts i = none ∧ TurnsAway status then
        some (s.put i { origin := .bff, request := request, stage := .ended })
      else none
  | .postToGateway i request =>
      if s.posts i = none then
        some (s.put i { origin := .gateway, request := request, stage := .gateway request })
      else none
  | .proxyToGateway i drawn =>
      match s.posts i, s.bff.admissions.find? fun admission => admission.call = i with
      | some post, some admission =>
          match post.stage with
          | .bff =>
              match Bff.createOrderController edge post.request admission.session
                (post.request.genReqId drawn) with
              | .error _ => some (s.put i { post with stage := .ended })
              | .ok sent => some (s.put i { post with stage := .gateway sent })
          | _ => none
      | _, _ => none
  | .postOrders i drawn =>
      match s.posts i with
      | none => none
      | some post =>
          match post.stage with
          | .gateway sent =>
              match Gateway.postOrders edge s.bff.tables sent (sent.genReqId drawn) with
              | .error _ => some (s.put i { post with stage := .ended })
              | .ok sent => some (s.put i { post with stage := .orders sent })
          | _ => none
  | .createOrder i drawn =>
      match s.posts i with
      | none => none
      | some post =>
          match post.stage with
          | .orders sent =>
              match Orders.createOrderController sent (sent.genReqId drawn) with
              | .error _ => some (s.put i { post with stage := .ended })
              | .ok call => (s.system.step (.lookUp i call)).map fun system =>
                  { s with system := system }.put i { post with stage := .ended }
          | _ => none
  | .unhandled i status =>
      match s.posts i with
      | none => none
      | some post =>
          match post.stage with
          | .gateway _ | .orders _ =>
              if TurnsAway status then some (s.put i { post with stage := .ended }) else none
          | _ => none
  | .system act =>
      match act with
      | .lookUp _ _ => none
      | act => (s.system.step act).map fun system => { s with system := system }

/-- The runs from `s₀`, with the states and the acts of their steps, the latest first. -/
inductive Run (edge : Edge) (s₀ : Storefront) : List (Storefront × Act) → Storefront → Prop where
  | start : Run edge s₀ [] s₀
  | step {steps : List (Storefront × Act)} {s s' : Storefront} {act : Act}
      (h : Run edge s₀ steps s) (hs : s.step edge act = some s') :
      Run edge s₀ ((s, act) :: steps) s'

/-! ### What a request has passed -/

/-- The cookie was signed, and names a session that was not revoked when it was loaded. -/
structure Admitted (edge : Edge) (steps : List (Storefront × Act)) (i : ℕ) (request : HttpRequest)
    (session : Bff.AppSession) : Prop where
  signed : (request.toRequest edge).Names session.id
  loaded : ∃ entry ∈ steps, ∃ act, entry.2 = .bff act ∧ entry.1.bff.Admits act i session

/-- Everything that the processes check of a request, before it comes to a call of `createOrder`. -/
structure MediatedBy (edge : Edge) (steps : List (Storefront × Act)) (i : ℕ)
    (request : HttpRequest) (call : Orders.CreateOrderCall) (session : Bff.AppSession)
    (payload : List (String × Json)) : Prop where
  admitted : Admitted edge steps i request session
  unrevoked : ∃ entry ∈ steps, ∃ row, entry.1.bff.tables.sessions session.id = some row ∧
    row.revokedAt = none ∧ row.csrfToken = session.csrfToken ∧
    Bff.decryptSecret row.accessToken = session.accessToken
  csrf : ∃ token, request.header "x-csrf-token" = some token ∧
    request.cookies.lookup edge.csrfCookieName = some token ∧ session.csrfToken = token
  verified : edge.verifyAccessToken session.accessToken = some payload
  userSub : call.userSub = textOf (payload.lookup "sub")
  privileged : ∃ entry ∈ steps, (∃ drawn, entry.2 = .postOrders i drawn) ∧
    entry.1.bff.tables.Holds call.userSub "ORDER_CREATE"
  idempotencyKey : request.header "idempotency-key" = some call.idempotencyKey
  body : request.body.bind orderCreateSchema = some call.body

def Mediated (edge : Edge) (steps : List (Storefront × Act)) (i : ℕ) (request : HttpRequest)
    (call : Orders.CreateOrderCall) : Prop :=
  ∃ session payload, MediatedBy edge steps i request call session payload

/-- The BFF has sent this on, for a session that the request was admitted with. -/
def Proxied (edge : Edge) (steps : List (Storefront × Act)) (i : ℕ)
    (request sent : HttpRequest) : Prop :=
  ∃ session id, Admitted edge steps i request session ∧
    Bff.createOrderController edge request session id = .ok sent

/-- The gateway has sent this on, of what the BFF has sent. -/
def Relayed (edge : Edge) (steps : List (Storefront × Act)) (i : ℕ)
    (request sent : HttpRequest) : Prop :=
  ∃ proxied entry drawn id, Proxied edge steps i request proxied ∧ entry ∈ steps ∧
    entry.2 = .postOrders i drawn ∧
    Gateway.postOrders edge entry.1.bff.tables proxied id = .ok sent

/-- This is the call that has come of what the gateway has sent. -/
def Traced (edge : Edge) (steps : List (Storefront × Act)) (i : ℕ) (request : HttpRequest)
    (call : Orders.CreateOrderCall) : Prop :=
  ∃ sent id, Relayed edge steps i request sent ∧ Orders.createOrderController sent id = .ok call

/-- What is known of a request on its way. -/
def Sound (edge : Edge) (steps : List (Storefront × Act)) (i : ℕ) (post : Post) : Prop :=
  post.origin = .bff → match post.stage with
    | .gateway sent => Proxied edge steps i post.request sent
    | .orders sent => Relayed edge steps i post.request sent
    | _ => True

/-! ### What a step does -/

/-- The steps, case by case. -/
inductive Turn (edge : Edge) (s : Storefront) : Act → Storefront → Prop where
  | tables {tables : Bff.Tables} :
      Turn edge s (.tables tables) { s with bff := { s.bff with tables := tables } }
  | bff {act : Bff.Act} {bff : Bff.State} (h : s.bff.step edge.refreshWindowMs act = some bff) :
      Turn edge s (.bff act) { s with bff := bff }
  | post {i : ℕ} {request : HttpRequest} {bff : Bff.State} (hnone : s.posts i = none)
      (h : s.bff.step edge.refreshWindowMs (.arrive i (request.toRequest edge)) = some bff) :
      Turn edge s (.post i request)
        ({ s with bff := bff }.put i { origin := .bff, request := request, stage := .bff })
  | turnedAway {i : ℕ} {request : HttpRequest} {status : ℕ} (hnone : s.posts i = none) :
      Turn edge s (.turnedAway i request status)
        (s.put i { origin := .bff, request := request, stage := .ended })
  | postToGateway {i : ℕ} {request : HttpRequest} (hnone : s.posts i = none) :
      Turn edge s (.postToGateway i request)
        (s.put i { origin := .gateway, request := request, stage := .gateway request })
  | refused {act : Act} {i : ℕ} {post : Post} (hact : ∀ systemAct, act ≠ .system systemAct)
      (hpost : s.posts i = some post) : Turn edge s act (s.put i { post with stage := .ended })
  | proxied {i : ℕ} {drawn : String} {post : Post} {sent : HttpRequest} {admission : Bff.Admission}
      (hpost : s.posts i = some post) (hstage : post.stage = .bff)
      (hmem : admission ∈ s.bff.admissions) (hcall : admission.call = i)
      (hsent : Bff.createOrderController edge post.request admission.session
        (post.request.genReqId drawn) = .ok sent) :
      Turn edge s (.proxyToGateway i drawn) (s.put i { post with stage := .gateway sent })
  | forwarded {i : ℕ} {drawn : String} {post : Post} {sent sent' : HttpRequest}
      (hpost : s.posts i = some post) (hstage : post.stage = .gateway sent)
      (hsent : Gateway.postOrders edge s.bff.tables sent (sent.genReqId drawn) = .ok sent') :
      Turn edge s (.postOrders i drawn) (s.put i { post with stage := .orders sent' })
  | called {i : ℕ} {drawn : String} {post : Post} {sent : HttpRequest}
      {call : Orders.CreateOrderCall} {system : System} (hpost : s.posts i = some post)
      (hstage : post.stage = .orders sent)
      (hcall : Orders.createOrderController sent (sent.genReqId drawn) = .ok call)
      (hs : s.system.step (.lookUp i call) = some system) :
      Turn edge s (.createOrder i drawn)
        ({ s with system := system }.put i { post with stage := .ended })
  | system {act : SystemAct} {system : System} (hact : ∀ c call, act ≠ .lookUp c call)
      (hs : s.system.step act = some system) :
      Turn edge s (.system act) { s with system := system }

variable {edge : Edge} {s s' : Storefront} {act : Act}

theorem turn_of_step (h : s.step edge act = some s') : Turn edge s act s' := by
  cases act with
  | tables tables =>
      obtain rfl := Option.some.inj h
      exact .tables
  | bff act =>
      obtain ⟨bff, hbff, rfl⟩ := Option.map_eq_some_iff.mp h
      exact .bff hbff
  | post i request =>
      obtain ⟨hnone, h⟩ := (Option.ite_none_right_eq_some ..).mp h
      obtain ⟨bff, hbff, rfl⟩ := Option.map_eq_some_iff.mp h
      exact .post hnone hbff
  | turnedAway i request status =>
      obtain ⟨⟨hnone, -⟩, h⟩ := (Option.ite_none_right_eq_some ..).mp h
      obtain rfl := Option.some.inj h
      exact .turnedAway hnone
  | postToGateway i request =>
      obtain ⟨hnone, h⟩ := (Option.ite_none_right_eq_some ..).mp h
      obtain rfl := Option.some.inj h
      exact .postToGateway hnone
  | proxyToGateway i drawn =>
      simp only [step] at h
      split at h
      · rename_i post admission hpost hfind
        split at h
        · rename_i hstage
          split at h
          · obtain rfl := Option.some.inj h
            exact .refused (by simp) hpost
          · rename_i sent hsent
            obtain rfl := Option.some.inj h
            exact .proxied hpost hstage (List.mem_of_find?_eq_some hfind)
              (by simpa using List.find?_some hfind) hsent
        · simp at h
      · simp at h
  | postOrders i drawn =>
      simp only [step] at h
      split at h
      · simp at h
      · rename_i post hpost
        split at h
        · rename_i sent hstage
          split at h
          · obtain rfl := Option.some.inj h
            exact .refused (by simp) hpost
          · rename_i sent' hsent
            obtain rfl := Option.some.inj h
            exact .forwarded hpost hstage hsent
        · simp at h
  | createOrder i drawn =>
      simp only [step] at h
      split at h
      · simp at h
      · rename_i post hpost
        split at h
        · rename_i sent hstage
          split at h
          · obtain rfl := Option.some.inj h
            exact .refused (by simp) hpost
          · rename_i call hcall
            obtain ⟨system, hs, rfl⟩ := Option.map_eq_some_iff.mp h
            exact .called hpost hstage hcall hs
        · simp at h
  | unhandled i status =>
      simp only [step] at h
      split at h
      · simp at h
      · rename_i post hpost
        split at h
        · obtain ⟨-, h⟩ := (Option.ite_none_right_eq_some ..).mp h
          obtain rfl := Option.some.inj h
          exact .refused (by simp) hpost
        · obtain ⟨-, h⟩ := (Option.ite_none_right_eq_some ..).mp h
          obtain rfl := Option.some.inj h
          exact .refused (by simp) hpost
        · simp at h
  | system act =>
      simp only [step] at h
      split at h
      · simp at h
      · rename_i hact
        obtain ⟨system, hs, rfl⟩ := Option.map_eq_some_iff.mp h
        exact .system hact hs

/-- Only a look-up begins a call. -/
theorem lookedUp_of_step {s s' : System} {act : SystemAct} (h : s.step act = some s')
    (hact : ∀ c call, act ≠ .lookUp c call) {c : ℕ} {call : Orders.CreateOrderCall}
    (hlog : .lookedUp c call ∈ s'.orders.log) : .lookedUp c call ∈ s.orders.log := by
  have hends : ∀ w : Work, Orders.DeskEvent.lookedUp c call ∉ s.orders.ends w := by
    intro w hmem
    unfold Orders.Desk.ends at hmem
    split at hmem <;> try split at hmem
    all_goals simp at hmem
  cases act with
  | lookUp c' call' => exact absurd rfl (hact c' call')
  | insert c' orderId choices =>
      obtain ⟨-, hinsert, -⟩ := System.insert_cases h
      obtain ⟨-, -, -, -, hsame⟩ := Orders.Desk.insert_cases hinsert
      rw [← hsame]
      exact hlog
  | deliver service i source offset choices =>
      obtain ⟨message, -, s₁, -, -, hdeliver, rfl⟩ := System.deliver_cases h
      cases service with
      | orders =>
          obtain ⟨orders, horders, rfl⟩ := Option.map_eq_some_iff.mp hdeliver
          obtain ⟨-, -, hsame⟩ := Orders.Desk.deliver_cases horders
          rw [← hsame]
          exact hlog
      | inventory =>
          obtain ⟨inventory, -, rfl⟩ := Option.map_eq_some_iff.mp hdeliver
          exact hlog
      | payments =>
          obtain ⟨payments, -, rfl⟩ := Option.map_eq_some_iff.mp hdeliver
          exact hlog
  | work service w =>
      cases service with
      | orders =>
          obtain ⟨orders, horders, rfl⟩ := Option.map_eq_some_iff.mp h
          obtain ⟨-, -, happend⟩ := Orders.Desk.work_cases horders
          have hlog' : Orders.DeskEvent.lookedUp c call ∈ orders.log := hlog
          rw [happend] at hlog'
          exact (List.mem_append.mp hlog').resolve_right (hends w)
      | inventory =>
          obtain ⟨inventory, -, rfl⟩ := Option.map_eq_some_iff.mp h
          exact hlog
      | payments =>
          obtain ⟨payments, -, rfl⟩ := Option.map_eq_some_iff.mp h
          exact hlog

/-- A look-up begins the call that it is for. -/
theorem lookedUp_of_lookUp {s s' : System} {i c : ℕ} {call call' : Orders.CreateOrderCall}
    (h : s.step (.lookUp i call) = some s') (hlog : .lookedUp c call' ∈ s'.orders.log) :
    .lookedUp c call' ∈ s.orders.log ∨ c = i ∧ call' = call := by
  obtain ⟨hlookUp, -⟩ := System.lookUp_cases h
  obtain ⟨-, -, -, hcases⟩ := Orders.Desk.lookUp_cases hlookUp
  rcases hcases with ⟨e, -, -, happend⟩ | ⟨existing, -, -, happend⟩ | ⟨-, -, happend⟩
  all_goals
    rw [happend] at hlog
    rcases List.mem_append.mp hlog with hbefore | hnow
    · exact Or.inl hbefore
    · refine Or.inr ?_
      simpa using hnow

/-! ### The law of the storefront -/

section Mono

variable {steps : List (Storefront × Act)} {entry : Storefront × Act} {i : ℕ}
  {request : HttpRequest}

omit [Platform] in
theorem Admitted.mono {session : Bff.AppSession} (h : Admitted edge steps i request session) :
    Admitted edge (entry :: steps) i request session where
  signed := h.signed
  loaded := by
    obtain ⟨loading, hmem, hloads⟩ := h.loaded
    exact ⟨loading, List.mem_cons_of_mem _ hmem, hloads⟩

omit [Platform] in
theorem Proxied.mono {sent : HttpRequest} (h : Proxied edge steps i request sent) :
    Proxied edge (entry :: steps) i request sent := by
  obtain ⟨session, id, hadmitted, hsent⟩ := h
  exact ⟨session, id, hadmitted.mono, hsent⟩

omit [Platform] in
theorem Relayed.mono {sent : HttpRequest} (h : Relayed edge steps i request sent) :
    Relayed edge (entry :: steps) i request sent := by
  obtain ⟨proxied, forwarding, drawn, id, hproxied, hmem, hforwards⟩ := h
  exact ⟨proxied, forwarding, drawn, id, hproxied.mono, List.mem_cons_of_mem _ hmem, hforwards⟩

omit [Platform] in
theorem Traced.mono {call : Orders.CreateOrderCall} (h : Traced edge steps i request call) :
    Traced edge (entry :: steps) i request call := by
  obtain ⟨sent, id, hrelayed, hcall⟩ := h
  exact ⟨sent, id, hrelayed.mono, hcall⟩

omit [Platform] in
theorem Sound.mono {post : Post} (h : Sound edge steps i post) :
    Sound edge (entry :: steps) i post := by
  intro horigin
  have hbefore := h horigin
  obtain ⟨origin, request, stage⟩ := post
  cases stage with
  | gateway sent => exact Proxied.mono hbefore
  | orders sent => exact Relayed.mono hbefore
  | _ => exact trivial

omit [Platform] in
/-- What has come to a call has passed every check, if the hops have changed no header. -/
theorem Traced.mediated (hcarry : ∀ value got, edge.carry value = some got → got = value)
    {call : Orders.CreateOrderCall} (h : Traced edge steps i request call) :
    Mediated edge steps i request call := by
  obtain ⟨sent₂, id₃, ⟨sent₁, forwarding, drawn, id₂, ⟨session, id₁, hadmitted, hsent₁⟩, hmem, hact,
    hsent₂⟩, hcall⟩ := h
  obtain ⟨hcsrf, ⟨payload, hpayload, huser⟩, hholds, hkey, hbody⟩ :=
    order_of_hops hcarry hsent₁ hsent₂ hcall
  refine ⟨session, payload, hadmitted, ?_, ?_, hpayload, huser, ⟨forwarding, hmem, ⟨drawn, hact⟩,
    hholds⟩, hkey, hbody⟩
  · obtain ⟨loading, hloading, act, -, -, hload⟩ := hadmitted.loaded
    obtain ⟨row, user, hrow, hunrevoked, -, hsession⟩ := Bff.Tables.loadSession_eq_some hload
    refine ⟨loading, hloading, row, hrow, hunrevoked, ?_, ?_⟩
    · rw [hsession]
    · rw [hsession]
  · unfold Bff.requireCsrf at hcsrf
    split at hcsrf
    · simp at hcsrf
    · rename_i token hheader
      simp only [Bool.and_eq_true, decide_eq_true_eq] at hcsrf
      exact ⟨token, hheader, hcsrf.1.2.symm, hcsrf.2.symm⟩

end Mono

structure MediationLaw (edge : Edge) (stock : ServiceStore Inventory.Row)
    (steps : List (Storefront × Act)) (s : Storefront) : Prop where
  named : s.bff.Named
  posted : ∀ i post, s.posts i = some post → post.stage = .bff →
    ∃ call, s.bff.calls i = some call ∧ call.request = post.request.toRequest edge
  admitted : ∀ admission ∈ s.bff.admissions, ∃ entry ∈ steps, ∃ act, entry.2 = .bff act ∧
    entry.1.bff.Admits act admission.call admission.session
  sound : ∀ i post, s.posts i = some post → Sound edge steps i post
  lookedUp : ∀ i call, .lookedUp i call ∈ s.system.orders.log → ∃ post, s.posts i = some post ∧
    (post.origin = .bff → Traced edge steps i post.request call)
  reach : System.Reach stock s.system

namespace MediationLaw

variable {stock : ServiceStore Inventory.Row} {steps : List (Storefront × Act)}
  {entry : Storefront × Act} {i : ℕ} {post : Post}

theorem start (tables : Bff.Tables) : MediationLaw edge stock [] (Storefront.start tables stock) where
  named := .start tables
  posted := by simp [Storefront.start]
  admitted := by simp [Storefront.start, Bff.State.start]
  sound := by simp [Storefront.start]
  lookedUp := by simp [Storefront.start, System.start, Orders.Desk.start]
  reach := .refl

theorem mono (h : MediationLaw edge stock steps s) : MediationLaw edge stock (entry :: steps) s where
  named := h.named
  posted := h.posted
  admitted admission hadmission := by
    obtain ⟨loading, hmem, hloads⟩ := h.admitted admission hadmission
    exact ⟨loading, List.mem_cons_of_mem _ hmem, hloads⟩
  sound i post hpost := (h.sound i post hpost).mono
  lookedUp i call hlog := by
    obtain ⟨post, hpost, htraced⟩ := h.lookedUp i call hlog
    exact ⟨post, hpost, fun horigin => (htraced horigin).mono⟩
  reach := h.reach

/-- A request is put where it is known to be. -/
theorem put (h : MediationLaw edge stock steps s)
    (hposted : post.stage = .bff →
      ∃ call, s.bff.calls i = some call ∧ call.request = post.request.toRequest edge)
    (hsound : Sound edge steps i post)
    (hlookedUp : ∀ call, .lookedUp i call ∈ s.system.orders.log → post.origin = .bff →
      Traced edge steps i post.request call) :
    MediationLaw edge stock steps (s.put i post) := by
  refine ⟨h.named, ?_, h.admitted, ?_, ?_, h.reach⟩
  · intro j post' hj
    rcases Bff.update_eq_some hj with ⟨rfl, hnew⟩ | ⟨-, hbefore⟩
    · obtain rfl := Option.some.inj hnew
      exact hposted
    · exact h.posted j post' hbefore
  · intro j post' hj
    rcases Bff.update_eq_some hj with ⟨rfl, hnew⟩ | ⟨-, hbefore⟩
    · obtain rfl := Option.some.inj hnew
      exact hsound
    · exact h.sound j post' hbefore
  · intro j call hlog
    by_cases hji : j = i
    · subst hji
      exact ⟨post, by simp [Storefront.put], hlookedUp call hlog⟩
    · obtain ⟨post', hj, htraced⟩ := h.lookedUp j call hlog
      exact ⟨post', by simpa [Storefront.put, hji] using hj, htraced⟩

/-- A request that moves on stays the request it was. -/
theorem moveTo (h : MediationLaw edge stock steps s) (hpost : s.posts i = some post)
    {stage : PostStage} (hstage : stage ≠ .bff)
    (hsound : Sound edge steps i { post with stage := stage }) :
    MediationLaw edge stock steps (s.put i { post with stage := stage }) := by
  refine h.put (fun hbff => absurd hbff hstage) hsound fun call hlog => ?_
  obtain ⟨post', hpost', htraced⟩ := h.lookedUp i call hlog
  obtain rfl := Option.some.inj (hpost.symm.trans hpost')
  exact htraced

/-- Nothing is known of the calls of a request that has not been sent. -/
theorem not_lookedUp (h : MediationLaw edge stock steps s) (hnone : s.posts i = none)
    (call : Orders.CreateOrderCall) : .lookedUp i call ∉ s.system.orders.log := by
  intro hlog
  obtain ⟨post, hpost, -⟩ := h.lookedUp i call hlog
  rw [hnone] at hpost
  simp at hpost

/-- A step of the BFF keeps what its requests were. -/
theorem posted_bff (h : MediationLaw edge stock steps s) {act : Bff.Act} {bff : Bff.State}
    (hturn : Bff.State.Turn edge.refreshWindowMs s.bff act bff) :
    ∀ i post, s.posts i = some post → post.stage = .bff →
      ∃ call, bff.calls i = some call ∧ call.request = post.request.toRequest edge := by
  intro i post hpost hstage
  obtain ⟨call, hcall, hrequest⟩ := h.posted i post hpost hstage
  obtain ⟨stage, hcall'⟩ := hturn.request_kept hcall
  exact ⟨_, hcall', hrequest⟩

/-- A step of the BFF, with the acts before it. -/
theorem bff (h : MediationLaw edge stock steps s) {act : Bff.Act} {bff : Bff.State}
    (hs : s.bff.step edge.refreshWindowMs act = some bff) :
    MediationLaw edge stock ((s, .bff act) :: steps) { s with bff := bff } := by
  have hturn := Bff.State.turn_of_step hs
  refine ⟨h.named.step hs, h.posted_bff hturn, ?_, h.mono.sound, h.mono.lookedUp, h.reach⟩
  intro admission hadmission
  rcases hturn.admits with hsame | ⟨i, request, stage, session, now, happend, -, -, hadmits⟩
  · have hbefore : admission ∈ s.bff.admissions := hsame ▸ hadmission
    exact h.mono.admitted admission hbefore
  · have hmem : admission ∈ s.bff.admissions ++ [_] := happend ▸ hadmission
    rcases List.mem_append.mp hmem with hbefore | hnow
    · exact h.mono.admitted admission hbefore
    · obtain rfl := List.mem_singleton.mp hnow
      exact ⟨_, List.mem_cons_self, act, rfl, hadmits⟩

/-- A request arrives at the BFF. -/
theorem arrive (h : MediationLaw edge stock steps s) {request : HttpRequest} {bff : Bff.State}
    (hnone : s.posts i = none)
    (hs : s.bff.step edge.refreshWindowMs (.arrive i (request.toRequest edge)) = some bff) :
    MediationLaw edge stock steps
      ({ s with bff := bff }.put i { origin := .bff, request := request, stage := .bff }) := by
  have hturn := Bff.State.turn_of_step hs
  have hbff : MediationLaw edge stock steps { s with bff := bff } := by
    refine ⟨h.named.step hs, h.posted_bff hturn, ?_, h.sound, h.lookedUp, h.reach⟩
    cases hturn with
    | arrive hfree => exact h.admitted
  refine hbff.put (fun _ => ?_) (fun _ => trivial) fun call hlog => ?_
  · cases hturn with
    | arrive hfree => exact ⟨_, Function.update_self .., rfl⟩
  · exact absurd hlog (h.not_lookedUp hnone call)

/-- **Every step keeps the law.** -/
theorem step (h : MediationLaw edge stock steps s) (hs : s.step edge act = some s') :
    MediationLaw edge stock ((s, act) :: steps) s' := by
  cases turn_of_step hs with
  | tables =>
      exact ⟨⟨h.named.awaited, h.named.admitted⟩, h.posted, h.mono.admitted, h.mono.sound,
        h.mono.lookedUp, h.reach⟩
  | bff hbff => exact h.bff hbff
  | post hnone hbff => exact (h.arrive hnone hbff).mono
  | turnedAway hnone =>
      exact h.mono.put (by simp) (fun _ => trivial) fun call hlog =>
        absurd hlog (h.not_lookedUp hnone call)
  | postToGateway hnone =>
      refine h.mono.put (by simp) ?_ fun call hlog => absurd hlog (h.not_lookedUp hnone call)
      intro horigin
      simp at horigin
  | refused hact hpost => exact h.mono.moveTo hpost (by simp) fun _ => trivial
  | @proxied i drawn post sent admission hpost hstage hmem hcall hsent =>
      apply h.mono.moveTo hpost (by simp)
      intro horigin
      refine ⟨admission.session, post.request.genReqId drawn, ⟨?_, ?_⟩, hsent⟩
      · obtain ⟨call, hposted, hrequest⟩ := h.posted i post hpost hstage
        obtain ⟨call', hadmitted, hcookie⟩ := h.named.admitted admission hmem
        rw [hcall] at hadmitted
        obtain rfl := Option.some.inj (hposted.symm.trans hadmitted)
        rw [hrequest] at hcookie
        exact hcookie
      · obtain ⟨loading, hloading, act', hact, hadmits⟩ := h.admitted admission hmem
        rw [hcall] at hadmits
        exact ⟨loading, List.mem_cons_of_mem _ hloading, act', hact, hadmits⟩
  | @forwarded i drawn post sent sent' hpost hstage hsent =>
      apply h.mono.moveTo hpost (by simp)
      intro horigin
      have hsound := h.sound i post hpost horigin
      rw [hstage] at hsound
      exact ⟨sent, (s, .postOrders i drawn), drawn, sent.genReqId drawn, hsound.mono,
        List.mem_cons_self, rfl, hsent⟩
  | @called i drawn post sent call system hpost hstage hcall hlookUp =>
      have hbefore : MediationLaw edge stock ((s, .createOrder i drawn) :: steps)
          { s with system := system } := by
        refine MediationLaw.mono ⟨h.named, h.posted, h.admitted, h.sound,
          fun j call' hlog => ?_, h.reach.tail ⟨_, hlookUp⟩⟩
        rcases lookedUp_of_lookUp hlookUp hlog with hold | ⟨rfl, rfl⟩
        · exact h.lookedUp j call' hold
        · refine ⟨post, hpost, fun horigin => ?_⟩
          have hsound := h.sound j post hpost horigin
          rw [hstage] at hsound
          exact ⟨sent, sent.genReqId drawn, hsound, hcall⟩
      exact hbefore.moveTo hpost (by simp) fun _ => trivial
  | system hact hsystem =>
      refine ⟨h.named, h.posted, h.mono.admitted, h.mono.sound, fun i call hlog => ?_,
        h.reach.tail ⟨_, hsystem⟩⟩
      exact h.mono.lookedUp i call (lookedUp_of_step hsystem hact hlog)

theorem of_run {tables : Bff.Tables} (h : Run edge (Storefront.start tables stock) steps s) :
    MediationLaw edge stock steps s := by
  induction h with
  | start => exact .start tables
  | step _ hs ih => exact ih.step hs

end MediationLaw

/-! ### Orders -/

/-- The order is for what was sent in the body. -/
def IsFor (row : Orders.OrderRow) (request : HttpRequest) : Prop :=
  ∃ fields, request.body = some (.obj fields) ∧
    fields.lookup "itemSku" = some (.str row.itemSku) ∧
    fields.lookup "quantity" = some (.num (.finite row.quantity.val)) ∧
    ∃ currency, fields.lookup "currency" = some (.str currency) ∧
      row.currency = Platform.toUpperCase currency

/-- The order is in the name of the user, and for what the client sent. -/
structure OrderedBy (row : Orders.OrderRow) (userSub : String) (request : HttpRequest) : Prop where
  userId : row.userId = userSub
  idempotencyKey : row.idempotencyKey = request.header "idempotency-key"
  body : IsFor row request

/-- The order is in the name and under the key of the call, and for what the client sent. -/
structure PlacedBy (row : Orders.OrderRow) (call : Orders.CreateOrderCall)
    (request : HttpRequest) : Prop where
  userId : row.userId = call.userSub
  idempotencyKey : row.idempotencyKey = some call.idempotencyKey
  body : IsFor row request

/-- The row of an order is for what its request sent. -/
theorem placedBy_of_stored {row : Orders.OrderRow} {call : Orders.CreateOrderCall}
    {request : HttpRequest} (hstored : row.Stores call)
    (hbody : request.body.bind orderCreateSchema = some call.body) : PlacedBy row call request := by
  obtain ⟨value, hvalue, hschema⟩ := Option.bind_eq_some_iff.mp hbody
  obtain ⟨fields, rfl, hsku, hquantity, -, hcurrency⟩ := orderCreateSchema_eq_some hschema
  refine ⟨textIn_eq_ok hstored.userId, ?_, fields, hvalue, ?_, ?_, call.body.currency, hcurrency,
    textIn_eq_ok hstored.currency⟩
  · obtain ⟨key, htext, hrow⟩ := hstored.idempotencyKey
    rw [hrow, textIn_eq_ok htext]
  · rw [textIn_eq_ok hstored.itemSku]
    exact hsku
  · rw [int4Param_int hstored.quantity]
    exact hquantity

/-- The order goes on, but not in what it is for. -/
theorem placedBy_of_saga {saga : Saga} {request : HttpRequest}
    (hbody : request.body.bind orderCreateSchema = some saga.call.body) :
    PlacedBy (saga.orderRow saga.phase) saga.call request := by
  have hplaced := placedBy_of_stored saga.stored hbody
  exact ⟨hplaced.userId, hplaced.idempotencyKey, hplaced.body⟩

/--
**An order takes a request that has passed every check.**  Let no hop change a header value.
Whatever the clients send and however the tables change, each order was created for a call that a
request has come to.  If that was sent to the BFF, then with a cookie that was signed and names a
session that was not revoked, with the token of that session against forged requests, and in the
name of the subject of its access token, who might create orders when the gateway looked; and the
order is for what the client sent.  No other request to the BFF makes the order service do
anything.
-/
theorem complete_mediation (edge : Edge)
    (hcarry : ∀ value got, edge.carry value = some got → got = value) (tables : Bff.Tables)
    (stock : ServiceStore Inventory.Row) (hstock : OnlyItems stock)
    {steps : List (Storefront × Act)}
    (hrun : Run edge (Storefront.start tables stock) steps s) :
    (∀ o row, ownRow s.system.ordersDb (.order o) = some row → ∃ i post call,
      s.posts i = some post ∧ .ended i call (.answered (.created o)) ∈ s.system.orders.log ∧
      (post.origin = .bff →
        Mediated edge steps i post.request call ∧ OrderedBy row call.userSub post.request)) ∧
    (∀ o, s.system.HasEvent .reserveRequested o →
      ∃ row, ownRow s.system.ordersDb (.order o) = some row) ∧
    (∀ i call, .lookedUp i call ∈ s.system.orders.log ∨ s.system.orders.callOf i = some call →
      ∃ post, s.posts i = some post ∧
        (post.origin = .bff → Mediated edge steps i post.request call)) ∧
    ∀ act s', s.step edge act = some s' → (∀ systemAct, act ≠ .system systemAct) →
      s'.system = s.system ∨ ∃ i drawn post call, act = .createOrder i drawn ∧
        s.posts i = some post ∧ (post.origin = .bff → Mediated edge steps i post.request call) ∧
        s.system.step (.lookUp i call) = some s'.system := by
  have hmediation := MediationLaw.of_run hrun
  obtain ⟨sagas, owner, hlaw⟩ := Law.of_reach hstock hmediation.reach
  have hlookedUp : ∀ i call, .lookedUp i call ∈ s.system.orders.log → ∃ post,
      s.posts i = some post ∧ (post.origin = .bff → Mediated edge steps i post.request call) := by
    intro i call hlog
    obtain ⟨post, hpost, htraced⟩ := hmediation.lookedUp i call hlog
    exact ⟨post, hpost, fun horigin => (htraced horigin).mediated hcarry⟩
  refine ⟨?_, fun o => hlaw.requested_iff.mpr, ?_, ?_⟩
  · intro o row hrow
    obtain ⟨saga, hsaga, rfl⟩ := hlaw.saga_of_order hrow
    obtain ⟨i, hended⟩ := hlaw.desk.placed o saga hsaga
    obtain ⟨post, hpost, hmediated⟩ :=
      hlookedUp i saga.call (hlaw.desk.ended i saga.call _ hended).1
    refine ⟨i, post, saga.call, hpost, hended, fun horigin => ⟨hmediated horigin, ?_⟩⟩
    obtain ⟨session, payload, hby⟩ := hmediated horigin
    have hplaced := placedBy_of_saga hby.body
    exact ⟨hplaced.userId, hplaced.idempotencyKey.trans hby.idempotencyKey.symm, hplaced.body⟩
  · rintro i call (hlog | hcall)
    · exact hlookedUp i call hlog
    · exact hlookedUp i call (hlaw.desk.called i call hcall)
  · intro act s' hs hact
    cases turn_of_step hs with
    | @called i drawn post sent call system hpost hstage hcall hlookUp =>
        refine Or.inr ⟨i, drawn, post, call, rfl, hpost, fun horigin => ?_, hlookUp⟩
        have hsound := hmediation.sound i post hpost horigin
        rw [hstage] at hsound
        exact Traced.mediated hcarry ⟨sent, sent.genReqId drawn, hsound, hcall⟩
    | system hlookUp hsystem => exact absurd rfl (hact _)
    | _ => exact Or.inl rfl

/-- The acts of a run, the first one first. -/
def run (edge : Edge) : List Act → Storefront → Option Storefront
  | [], s => some s
  | act :: acts, s => (s.step edge act).bind (run edge acts)

theorem Run.of_run {acts : List Act} {s₀ s s' : Storefront} {steps : List (Storefront × Act)}
    (h : Run edge s₀ steps s) (hrun : run edge acts s = some s') :
    ∃ steps', Run edge s₀ steps' s' := by
  induction acts generalizing s steps with
  | nil =>
      obtain rfl := Option.some.inj hrun
      exact ⟨steps, h⟩
  | cons act acts ih =>
      obtain ⟨s₁, hstep, hrest⟩ := Option.bind_eq_some_iff.mp hrun
      exact ih (h.step hstep) hrest

end Storefront

end CommercePlatform

/-! ### An order with forged headers -/

namespace CommercePlatform.Forged

open Js

attribute [local instance] Sale.platform

def sessionId : String := "c7e1b2a4-0d53-4f6e-9b18-2a6c5e7d9f01"

def edge : Edge where
  sessionCookieName := "sid"
  csrfCookieName := "csrf"
  refreshWindowMs := 120000
  unsignCookie value := if value = sessionId ++ ".MTIz" then some sessionId else none
  verifyAccessToken token :=
    if token = "ey.alice" then some [("sub", .str "auth0|alice")] else none
  carry := Fetch.headerValue

/-- Hops that carry a value unchanged, or not at all. -/
def exactEdge : Edge :=
  { edge with carry := fun value =>
      (Fetch.headerValue value).bind fun got => if got = value then some got else none }

theorem exactEdge_carry (value got : String) (h : exactEdge.carry value = some got) :
    got = value := by
  obtain ⟨got', -, h⟩ := Option.bind_eq_some_iff.mp h
  obtain ⟨hsame, h⟩ := (Option.ite_none_right_eq_some ..).mp h
  obtain rfl := Option.some.inj h
  exact hsame

def tables : Bff.Tables where
  users := [{ id := "u1", auth0Sub := "auth0|alice", email := "alice@example.com", displayName := none }]
  groups := Bff.Seed.groups
  privileges := Bff.Seed.privileges
  groupPrivileges := Bff.Seed.groupPrivileges
  userGroup := [{ userId := "u1", groupId := "00000000-0000-0000-0000-000000000103" }]
  sessions id := if id = sessionId then some {
      userId := "u1"
      refreshTokenCiphertext := Bff.encryptSecret "v1.alice"
      refreshTokenExpiresAt := none
      accessToken := Bff.encryptSecret "ey.alice"
      accessTokenExpiresAt := 3600000
      csrfToken := "77aa"
      revokedAt := none } else none

/-- The client claims to be someone else, in two headers. -/
def request : HttpRequest where
  headers := [("x-user-sub", .str "auth0|mallory"), ("authorization", .str "Bearer ey.mallory"),
    ("x-csrf-token", .str "77aa"), ("idempotency-key", .str "order-001")]
  cookies := [("sid", sessionId ++ ".MTIz"), ("csrf", "77aa")]
  body := some (.obj [("itemSku", .str "SKU-CHAIR-001"), ("quantity", .num (.finite 2)),
    ("totalAmount", .num (.finite (4999 / 100))), ("currency", .str "usd"),
    ("userId", .str "auth0|mallory")])

def acts : List Storefront.Act :=
  [.post 1 request, .bff (.loadSession 1 1000), .proxyToGateway 1 "req-1", .postOrders 1 "req-2",
    .createOrder 1 "req-3", .system (.insert 1 (Sale.uuid 1) (Sale.choices 2 3))] ++
    (Sale.transaction .orders 1 6).map .system

/-- The order is in the name of the session's user. -/
theorem ordered : ∃ steps s row,
    Storefront.Run exactEdge (Storefront.start tables Sale.stock) steps s ∧
    ownRow s.system.ordersDb (.order (Sale.uuid 1)) = some row ∧ row.userId = "auth0|alice" ∧
    ∃ post call, s.posts 1 = some post ∧ Storefront.Mediated exactEdge steps 1 post.request call ∧
      Storefront.OrderedBy row call.userSub post.request := by
  have hout : ((Storefront.run exactEdge acts (Storefront.start tables Sale.stock)).any fun s =>
      ((ownRow s.system.ordersDb (.order (Sale.uuid 1))).any fun row =>
        row.userId = "auth0|alice") &&
      (s.system.orders.log.all fun event => match event with
        | .ended i _ _ => i = 1
        | _ => true) && (s.posts 1).all fun post => post.origin = .bff) = true := by
    decide +kernel
  obtain ⟨s, hs, hout⟩ := (Option.any_eq_true _ _).mp hout
  simp only [Bool.and_eq_true] at hout
  obtain ⟨⟨hrow, hlog⟩, horigin⟩ := hout
  obtain ⟨row, hrow, huser⟩ := (Option.any_eq_true _ _).mp hrow
  obtain ⟨steps, hrun⟩ := Storefront.Run.start.of_run hs
  obtain ⟨hordered, -⟩ :=
    Storefront.complete_mediation exactEdge exactEdge_carry tables Sale.stock Sale.onlyItems hrun
  obtain ⟨i, post, call, hpost, hended, hby⟩ := hordered _ row hrow
  obtain rfl : i = 1 := by simpa using List.all_eq_true.mp hlog _ hended
  rw [hpost] at horigin
  obtain ⟨hmediated, hordered⟩ := hby (by simpa using horigin)
  exact ⟨steps, s, row, hrun, hrow, of_decide_eq_true huser, post, call, hpost, hmediated, hordered⟩

end CommercePlatform.Forged
