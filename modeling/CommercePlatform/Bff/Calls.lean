/-
Requests to the BFF, from one `await` to the next.

A handler runs on its own between two awaits.  So what is interleaved are these pieces: a
statement or a call of Auth0, together with the code up to the next one.  A request is
kept with the place where it waits.

Nothing is assumed here of Auth0 or of the clock: each call of Auth0 is settled by the
environment in any way, and each piece of code that looks at the clock is told any time.
Beside the tables are kept the refresh tokens that were presented and issued, and the
requests that were admitted.

A session cookie may be signed and yet be no identifier: cookies of another name are signed with
the same key.  The server then raises before it looks at a row, as it reads the parameter.
-/
import CommercePlatform.Bff.Tables
import CommercePlatform.Pg.Uuid

namespace CommercePlatform.Bff

open Js

/-! ### Requests -/

/--
What Auth0 returns for a refresh token.  An answer without an access token raises in
`encryptSecret`, so it counts among those that raise.
-/
structure TokenSet where
  accessToken : String
  /-- `expires_in`, in seconds, if Auth0 says it. -/
  expiresIn : Option Json
  refreshToken : Option String
  deriving DecidableEq

/-- The routes behind `requireSession`, by what they do to sessions. -/
inductive Route where
  | refresh
  | logout
  /-- The session view, the reports, the orders and the administration. -/
  | other
  deriving DecidableEq

structure Request where
  /-- The session cookie, if its signature is valid. -/
  sessionCookie : Option String
  csrfCookie : Option String
  csrfHeader : Option String
  route : Route
  deriving DecidableEq

/-- Who awaits `ensureFreshSession`. -/
inductive Caller where
  | requireSession
  | refreshController
  deriving DecidableEq

inductive Outcome where
  /-- `401`. -/
  | unauthenticated
  /-- `403`. -/
  | forbidden
  | replied
  /-- An error that nothing catches. -/
  | raised
  deriving DecidableEq

/-- Where a request waits. -/
inductive Stage where
  | loadSession (caller : Caller) (sessionId : String)
  | refreshAuth0Tokens (caller : Caller) (session : AppSession)
  | updateSessionTokens (caller : Caller) (input : Tables.TokenUpdate)
  /-- The second `loadSession` of `ensureFreshSession`. -/
  | reloadSession (caller : Caller) (sessionId : String)
  | revokeRefreshToken (session : AppSession)
  | revokeSession (session : AppSession)
  | ended (outcome : Outcome)
  deriving DecidableEq

structure Call where
  request : Request
  stage : Stage
  deriving DecidableEq

/-- `requireCsrf`. -/
def requireCsrf (request : Request) (session : AppSession) : Bool :=
  match request.csrfHeader with
  | none => false
  | some header =>
      header ≠ "" && some header = request.csrfCookie && header = session.csrfToken

/-- `ensureFreshSession` does not refresh a session that is good for longer than the window. -/
def isFresh (refreshWindowMs now : ℤ) (session : AppSession) : Bool :=
  session.accessTokenExpiresAt - now > refreshWindowMs

/-- The controller of a request that was admitted, up to its first await. -/
def enterController (request : Request) (session : AppSession) : Stage :=
  match request.route with
  | .other => .ended .replied
  | .refresh =>
      if requireCsrf request session then .loadSession .refreshController session.id
      else .ended .forbidden
  | .logout =>
      if requireCsrf request session then .revokeRefreshToken session else .ended .forbidden

/-- Where a request waits first. -/
def arrival (request : Request) : Stage :=
  match request.sessionCookie with
  | none => .ended .unauthenticated
  | some cookie =>
      if cookie = "" then .ended .unauthenticated
      else match Uuid.read cookie with
        | none => .ended .raised
        | some sessionId => .loadSession .requireSession sessionId

/-- Where it waits once `ensureFreshSession` has returned to who awaits it. -/
def returnStage (request : Request) : Caller → Option AppSession → Stage
  | .refreshController, _ => .ended .replied
  | .requireSession, none => .ended .unauthenticated
  | .requireSession, some session => enterController request session

/-- `new Date(Date.now() + Number(expiresIn) * 1000)`, or none if it is no time. -/
def expiresAt (now : ℤ) (expiresIn : Option Json) : Option ℤ :=
  expiresIn.bind fun seconds => Date.after now (Number.ofJson seconds)

/-- The tokens that `ensureFreshSession` stores. -/
def tokenUpdate (session : AppSession) (refreshed : TokenSet) (now : ℤ) : Tables.TokenUpdate where
  sessionId := session.id
  accessToken := refreshed.accessToken
  accessTokenExpiresAt := expiresAt now refreshed.expiresIn
  refreshToken := refreshed.refreshToken.getD (decryptSecret session.refreshTokenCiphertext)

/-! ### The BFF -/

/-- `requireSession` has set `request.session`. -/
structure Admission where
  call : ℕ
  session : AppSession
  time : ℤ
  deriving DecidableEq

/-- A `logoutController` that has passed `requireCsrf` has ended. -/
structure Logout where
  call : ℕ
  sessionId : String
  /-- Auth0 has revoked the refresh token; else the call of Auth0 has raised. -/
  resolved : Bool
  deriving DecidableEq

structure State where
  tables : Tables
  calls : ℕ → Option Call
  admissions : List Admission
  logouts : List Logout
  /-- The refresh tokens that were presented to Auth0, the oldest first. -/
  presented : List String
  /-- All refresh tokens that Auth0 has issued. -/
  issued : List String
  /-- The last one it has issued for a session. -/
  latest : String → Option String

inductive Act where
  | upsertUser (user : User)
  | insertSession (sessionId userId : String) (input : Tables.NewSession) (now : ℤ)
  | arrive (i : ℕ) (request : Request)
  | loadSession (i : ℕ) (now : ℤ)
  /-- The call is answered with tokens, or raises. -/
  | refreshAuth0Tokens (i : ℕ) (answer : Option TokenSet) (now : ℤ)
  | updateSessionTokens (i : ℕ)
  | reloadSession (i : ℕ) (now : ℤ)
  | revokeRefreshToken (i : ℕ) (resolved : Bool)
  | revokeSession (i : ℕ) (now : ℤ)
  deriving DecidableEq

/-- What is found in a map that was changed at one key. -/
theorem update_eq_some {α β : Type} [DecidableEq α] {f : α → Option β} {a b : α} {x : Option β}
    {y : β} (h : Function.update f a x b = some y) :
    b = a ∧ x = some y ∨ b ≠ a ∧ f b = some y := by
  by_cases hsame : b = a
  · subst hsame
    exact Or.inl ⟨rfl, by simpa using h⟩
  · exact Or.inr ⟨hsame, by simpa [hsame] using h⟩

namespace State

/-- The request waits elsewhere. -/
def moveTo (s : State) (i : ℕ) (request : Request) (stage : Stage) : State :=
  { s with calls := Function.update s.calls i (some { request := request, stage := stage }) }

/-- `ensureFreshSession` returns. -/
def returns (s : State) (i : ℕ) (request : Request) (caller : Caller) (session : Option AppSession)
    (now : ℤ) : State :=
  { s.moveTo i request (returnStage request caller session) with
    admissions := match caller, session with
      | .requireSession, some session =>
          s.admissions ++ [{ call := i, session := session, time := now }]
      | _, _ => s.admissions }

/-- Auth0 is asked to refresh the tokens of a session. -/
def presents (s : State) (session : AppSession) : State :=
  { s with presented := s.presented ++ [decryptSecret session.refreshTokenCiphertext] }

/-- Auth0 has issued a refresh token for a session. -/
def issues (s : State) (sessionId token : String) : State :=
  { s with
    issued := s.issued ++ [token]
    latest := Function.update s.latest sessionId (some token) }

/-- `logoutController` ends. -/
def logsOut (s : State) (i : ℕ) (sessionId : String) (resolved : Bool) : State :=
  { s with
    logouts := s.logouts ++ [{ call := i, sessionId := sessionId, resolved := resolved }] }

def step (refreshWindowMs : ℤ) (s : State) : Act → Option State
  | .upsertUser user =>
      (s.tables.upsertUser user).map fun result => { s with tables := result.1 }
  | .insertSession sessionId userId input now =>
      match timestamptzParam input.accessTokenExpiresAt with
      | .error _ => none
      | .ok expiresAt =>
          -- `crypto.randomUUID()` has not been used before, and the user is known.
          if Uuid.read sessionId = some sessionId ∧ s.tables.sessions sessionId = none ∧
              userId ∈ s.tables.users.map User.id then
            some ({ s with
              tables := s.tables.insertSession sessionId userId input expiresAt now }.issues
                sessionId input.refreshToken)
          else none
  | .arrive i request =>
      match s.calls i with
      | some _ => none
      | none => some (s.moveTo i request (arrival request))
  | .loadSession i now =>
      match s.calls i with
      | some { request, stage := .loadSession caller sessionId } =>
          match s.tables.loadSession sessionId with
          | none => some (s.returns i request caller none now)
          | some session =>
              if isFresh refreshWindowMs now session then
                some (s.returns i request caller (some session) now)
              else some (s.moveTo i request (.refreshAuth0Tokens caller session))
      | _ => none
  | .refreshAuth0Tokens i answer now =>
      match s.calls i with
      | some { request, stage := .refreshAuth0Tokens caller session } =>
          match answer with
          | none => some ((s.presents session).moveTo i request (.ended .raised))
          | some refreshed =>
              let asked := (s.presents session).moveTo i request
                (.updateSessionTokens caller (tokenUpdate session refreshed now))
              match refreshed.refreshToken with
              | none => some asked
              | some token => some (asked.issues session.id token)
      | _ => none
  | .updateSessionTokens i =>
      match s.calls i with
      | some { request, stage := .updateSessionTokens caller input } =>
          match s.tables.updateSessionTokens input with
          | .error _ => some (s.moveTo i request (.ended .raised))
          | .ok tables => some ({ s with tables := tables }.moveTo i request
              (.reloadSession caller input.sessionId))
      | _ => none
  | .reloadSession i now =>
      match s.calls i with
      | some { request, stage := .reloadSession caller sessionId } =>
          some (s.returns i request caller (s.tables.loadSession sessionId) now)
      | _ => none
  | .revokeRefreshToken i resolved =>
      match s.calls i with
      | some { request, stage := .revokeRefreshToken session } =>
          if resolved then some (s.moveTo i request (.revokeSession session))
          else some ((s.logsOut i session.id false).moveTo i request (.ended .raised))
      | _ => none
  | .revokeSession i now =>
      match s.calls i with
      | some { request, stage := .revokeSession session } =>
          some (({ s with tables := s.tables.revokeSession session.id now }.logsOut i session.id
            true).moveTo i request (.ended .replied))
      | _ => none

/-- A BFF that has just been started. -/
def start (tables : Tables) : State where
  tables := tables
  calls _ := none
  admissions := []
  logouts := []
  presented := []
  issued := []
  latest _ := none

/-! ### What a step does -/

/-- The steps, case by case. -/
inductive Turn (refreshWindowMs : ℤ) (s : State) : Act → State → Prop where
  | upsertUser {user : User} {tables : Tables} {id : String}
      (h : s.tables.upsertUser user = some (tables, id)) :
      Turn refreshWindowMs s (.upsertUser user) { s with tables := tables }
  | insertSession {sessionId userId : String} {input : Tables.NewSession} {expiresAt now : ℤ}
      (htime : timestamptzParam input.accessTokenExpiresAt = .ok expiresAt)
      (hid : Uuid.read sessionId = some sessionId)
      (hnew : s.tables.sessions sessionId = none) (huser : userId ∈ s.tables.users.map User.id) :
      Turn refreshWindowMs s (.insertSession sessionId userId input now)
        ({ s with tables := s.tables.insertSession sessionId userId input expiresAt now }.issues
          sessionId input.refreshToken)
  | arrive {i : ℕ} {request : Request} (hnone : s.calls i = none) :
      Turn refreshWindowMs s (.arrive i request) (s.moveTo i request (arrival request))
  | load_none {i : ℕ} {request : Request} {caller : Caller} {sessionId : String} {now : ℤ}
      (hcall : s.calls i = some { request := request, stage := .loadSession caller sessionId })
      (hload : s.tables.loadSession sessionId = none) :
      Turn refreshWindowMs s (.loadSession i now) (s.returns i request caller none now)
  | load_fresh {i : ℕ} {request : Request} {caller : Caller} {sessionId : String} {now : ℤ}
      {session : AppSession}
      (hcall : s.calls i = some { request := request, stage := .loadSession caller sessionId })
      (hload : s.tables.loadSession sessionId = some session)
      (hfresh : isFresh refreshWindowMs now session = true) :
      Turn refreshWindowMs s (.loadSession i now) (s.returns i request caller (some session) now)
  | load_stale {i : ℕ} {request : Request} {caller : Caller} {sessionId : String} {now : ℤ}
      {session : AppSession}
      (hcall : s.calls i = some { request := request, stage := .loadSession caller sessionId })
      (hload : s.tables.loadSession sessionId = some session)
      (hstale : isFresh refreshWindowMs now session = false) :
      Turn refreshWindowMs s (.loadSession i now)
        (s.moveTo i request (.refreshAuth0Tokens caller session))
  | refresh_raised {i : ℕ} {request : Request} {caller : Caller} {session : AppSession} {now : ℤ}
      (hcall : s.calls i =
        some { request := request, stage := .refreshAuth0Tokens caller session }) :
      Turn refreshWindowMs s (.refreshAuth0Tokens i none now)
        ((s.presents session).moveTo i request (.ended .raised))
  | refresh_kept {i : ℕ} {request : Request} {caller : Caller} {session : AppSession} {now : ℤ}
      {refreshed : TokenSet}
      (hcall : s.calls i =
        some { request := request, stage := .refreshAuth0Tokens caller session })
      (htoken : refreshed.refreshToken = none) :
      Turn refreshWindowMs s (.refreshAuth0Tokens i (some refreshed) now)
        ((s.presents session).moveTo i request
          (.updateSessionTokens caller (tokenUpdate session refreshed now)))
  | refresh_rotated {i : ℕ} {request : Request} {caller : Caller} {session : AppSession} {now : ℤ}
      {refreshed : TokenSet} {token : String}
      (hcall : s.calls i =
        some { request := request, stage := .refreshAuth0Tokens caller session })
      (htoken : refreshed.refreshToken = some token) :
      Turn refreshWindowMs s (.refreshAuth0Tokens i (some refreshed) now)
        (((s.presents session).moveTo i request
          (.updateSessionTokens caller (tokenUpdate session refreshed now))).issues session.id token)
  | update_raised {i : ℕ} {request : Request} {caller : Caller} {input : Tables.TokenUpdate}
      {e : Error}
      (hcall : s.calls i =
        some { request := request, stage := .updateSessionTokens caller input })
      (htime : timestamptzParam input.accessTokenExpiresAt = .error e) :
      Turn refreshWindowMs s (.updateSessionTokens i) (s.moveTo i request (.ended .raised))
  | update {i : ℕ} {request : Request} {caller : Caller} {input : Tables.TokenUpdate}
      {expiresAt : ℤ}
      (hcall : s.calls i =
        some { request := request, stage := .updateSessionTokens caller input })
      (htime : timestamptzParam input.accessTokenExpiresAt = .ok expiresAt) :
      Turn refreshWindowMs s (.updateSessionTokens i)
        ({ s with tables := s.tables.storeTokens input expiresAt }.moveTo i request
          (.reloadSession caller input.sessionId))
  | reload {i : ℕ} {request : Request} {caller : Caller} {sessionId : String} {now : ℤ}
      (hcall : s.calls i = some { request := request, stage := .reloadSession caller sessionId }) :
      Turn refreshWindowMs s (.reloadSession i now)
        (s.returns i request caller (s.tables.loadSession sessionId) now)
  | revoke_resolved {i : ℕ} {request : Request} {session : AppSession}
      (hcall : s.calls i = some { request := request, stage := .revokeRefreshToken session }) :
      Turn refreshWindowMs s (.revokeRefreshToken i true)
        (s.moveTo i request (.revokeSession session))
  | revoke_raised {i : ℕ} {request : Request} {session : AppSession}
      (hcall : s.calls i = some { request := request, stage := .revokeRefreshToken session }) :
      Turn refreshWindowMs s (.revokeRefreshToken i false)
        ((s.logsOut i session.id false).moveTo i request (.ended .raised))
  | revokeSession {i : ℕ} {request : Request} {session : AppSession} {now : ℤ}
      (hcall : s.calls i = some { request := request, stage := .revokeSession session }) :
      Turn refreshWindowMs s (.revokeSession i now)
        (({ s with tables := s.tables.revokeSession session.id now }.logsOut i session.id
          true).moveTo i request (.ended .replied))

variable {refreshWindowMs : ℤ} {s s' : State} {act : Act}

theorem turn_of_step (h : s.step refreshWindowMs act = some s') : Turn refreshWindowMs s act s' := by
  cases act with
  | upsertUser user =>
      obtain ⟨result, hresult, rfl⟩ := Option.map_eq_some_iff.mp h
      exact .upsertUser hresult
  | insertSession sessionId userId input now =>
      simp only [step] at h
      split at h
      · simp at h
      · obtain ⟨⟨hid, hnew, huser⟩, h⟩ := (Option.ite_none_right_eq_some ..).mp h
        obtain rfl := Option.some.inj h
        exact .insertSession ‹_› hid hnew huser
  | arrive i request =>
      simp only [step] at h
      split at h
      · simp at h
      · obtain rfl := Option.some.inj h
        exact .arrive ‹_›
  | loadSession i now =>
      simp only [step] at h
      split at h
      · split at h
        · obtain rfl := Option.some.inj h
          exact .load_none ‹_› ‹_›
        · split at h
          · obtain rfl := Option.some.inj h
            exact .load_fresh ‹_› ‹_› ‹_›
          · rename_i hstale
            obtain rfl := Option.some.inj h
            exact .load_stale ‹_› ‹_› (by simpa using hstale)
      · simp at h
  | refreshAuth0Tokens i answer now =>
      simp only [step] at h
      split at h
      · cases answer with
        | none =>
            obtain rfl := Option.some.inj h
            exact .refresh_raised ‹_›
        | some refreshed =>
            simp only at h
            split at h
            · obtain rfl := Option.some.inj h
              exact .refresh_kept ‹_› ‹_›
            · obtain rfl := Option.some.inj h
              exact .refresh_rotated ‹_› ‹_›
      · simp at h
  | updateSessionTokens i =>
      simp only [step] at h
      split at h
      · rename_i request caller input hcall
        simp only [Tables.updateSessionTokens] at h
        cases htime : timestamptzParam input.accessTokenExpiresAt with
        | error e =>
            rw [htime] at h
            obtain rfl := Option.some.inj h
            exact .update_raised hcall htime
        | ok expiresAt =>
            rw [htime] at h
            obtain rfl := Option.some.inj h
            exact .update hcall htime
      · simp at h
  | reloadSession i now =>
      simp only [step] at h
      split at h
      · obtain rfl := Option.some.inj h
        exact .reload ‹_›
      · simp at h
  | revokeRefreshToken i resolved =>
      simp only [step] at h
      split at h
      · cases resolved with
        | true =>
            obtain rfl := Option.some.inj h
            exact .revoke_resolved ‹_›
        | false =>
            obtain rfl := Option.some.inj h
            exact .revoke_raised ‹_›
      · simp at h
  | revokeSession i now =>
      simp only [step] at h
      split at h
      · obtain rfl := Option.some.inj h
        exact .revokeSession ‹_›
      · simp at h

/-- A session stays, with its user and its recorded expiry, and stays revoked. -/
theorem Turn.row_kept (h : Turn refreshWindowMs s act s') {id : String} {row : SessionRow}
    (hrow : s.tables.sessions id = some row) :
    ∃ row', s'.tables.sessions id = some row' ∧ Tables.Kept row row' := by
  cases h with
  | upsertUser hupsert =>
      exact ⟨row, (congrFun (Tables.sessions_upsertUser hupsert) id).trans hrow, .refl row⟩
  | @insertSession sessionId userId input expiresAt now htime hid hnew huser =>
      have hne : id ≠ sessionId := by
        rintro rfl
        rw [hnew] at hrow
        simp at hrow
      refine ⟨row, ?_, .refl row⟩
      show (s.tables.insertSession sessionId userId input expiresAt now).sessions id = some row
      rw [Tables.sessions_insertSession, if_neg hne, hrow]
  | update hcall htime => exact Tables.storeTokens_kept hrow
  | revokeSession hcall => exact Tables.revokeSession_kept _ _ hrow
  | _ => exact ⟨row, hrow, .refl row⟩

/-! ### Runs -/

/-- The runs from `s₀`, with the states and the acts of their steps, the latest first. -/
inductive Run (refreshWindowMs : ℤ) (s₀ : State) : List (State × Act) → State → Prop where
  | start : Run refreshWindowMs s₀ [] s₀
  | step {steps : List (State × Act)} {s s' : State} {act : Act}
      (h : Run refreshWindowMs s₀ steps s) (hs : s.step refreshWindowMs act = some s') :
      Run refreshWindowMs s₀ ((s, act) :: steps) s'

/-- The acts of a run, the first one first. -/
def run (refreshWindowMs : ℤ) : List Act → State → Option State
  | [], s => some s
  | act :: acts, s => (s.step refreshWindowMs act).bind (run refreshWindowMs acts)

theorem Run.of_run {acts : List Act} {s₀ s s' : State} {steps : List (State × Act)}
    (h : Run refreshWindowMs s₀ steps s) (hrun : run refreshWindowMs acts s = some s') :
    ∃ steps', Run refreshWindowMs s₀ steps' s' := by
  induction acts generalizing s steps with
  | nil =>
      obtain rfl := Option.some.inj hrun
      exact ⟨steps, h⟩
  | cons act acts ih =>
      obtain ⟨s₁, hstep, hrest⟩ := Option.bind_eq_some_iff.mp hrun
      exact ih (h.step hstep) hrest

/-- The acts of a run, each of which is allowed. -/
def runIf (refreshWindowMs : ℤ) (allows : State → Act → Prop)
    [∀ s act, Decidable (allows s act)] : List Act → State → Option State
  | [], s => some s
  | act :: acts, s =>
      if allows s act then (s.step refreshWindowMs act).bind (runIf refreshWindowMs allows acts)
      else none

theorem Run.of_runIf {allows : State → Act → Prop} [∀ s act, Decidable (allows s act)]
    {acts : List Act} {s₀ s s' : State} {steps : List (State × Act)}
    (h : Run refreshWindowMs s₀ steps s) (hallowed : ∀ entry ∈ steps, allows entry.1 entry.2)
    (hrun : runIf refreshWindowMs allows acts s = some s') :
    ∃ steps', Run refreshWindowMs s₀ steps' s' ∧ ∀ entry ∈ steps', allows entry.1 entry.2 := by
  induction acts generalizing s steps with
  | nil =>
      obtain rfl := Option.some.inj hrun
      exact ⟨steps, h, hallowed⟩
  | cons act acts ih =>
      obtain ⟨hact, hrun⟩ := (Option.ite_none_right_eq_some ..).mp hrun
      obtain ⟨s₁, hstep, hrest⟩ := Option.bind_eq_some_iff.mp hrun
      refine ih (h.step hstep) ?_ hrest
      intro entry hentry
      rcases List.mem_cons.mp hentry with rfl | hentry
      · exact hact
      · exact hallowed entry hentry

end State

end CommercePlatform.Bff
