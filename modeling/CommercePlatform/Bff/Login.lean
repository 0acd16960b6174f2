/-
Logging in.

`loginController` gives a browser a transaction, in a signed cookie, and sends it to Auth0; Auth0
sends the browser back with a code, which `callbackController` redeems.  The two meet in the
cookie alone.

Any number of browsers take part, and some of them are an adversary's.  It may send its browsers
anywhere with anything in the query, and make those of others follow its links; it gets no cookie
and sees no redirect of another browser.  What it runs itself shares its cookies and counts as one
browser here.  Replies are received late, again or never, so that a browser may put back a cookie
that it was once given, but no other, since the cookies are signed.  Random tokens are not used
before they are drawn.

Of Auth0 it is assumed that it redeems a code only with the verifier of its challenge, and that the
token is for who authenticated at the URL and carries the URL's nonce.
-/
import CommercePlatform.Bff.Calls
import CommercePlatform.Js.Value

namespace CommercePlatform.Bff

open Js

/-! ### The transaction -/

/-- What the cookie `auth0_tx` holds. -/
structure Tx where
  verifier : String
  state : String
  nonce : String
  deriving DecidableEq

/-- What is not the same in all URLs of `/authorize`. -/
structure AuthorizeUrl where
  state : Option String
  nonce : Option String
  codeChallenge : Option String
  deriving DecidableEq

structure LoginConfig (Browser : Type) where
  refreshWindowMs : ℤ
  /-- `SESSION_COOKIE_DOMAIN`. -/
  sessionCookieDomain : String
  /-- `createHash("sha256").update(value).digest("base64url")`. -/
  sha256 : String → String
  /-- The browsers that an adversary runs. -/
  adversary : Browser → Bool

/-- `challenge` of `createPkcePair`. -/
def LoginConfig.challenge {Browser : Type} (config : LoginConfig Browser) (verifier : String) :
    String :=
  config.sha256 verifier

def buildAuthorizeUrl (state nonce codeChallenge : String) : AuthorizeUrl where
  state := some state
  nonce := some nonce
  codeChallenge := some codeChallenge

/-- The URL to which `loginController` redirects. -/
def Tx.url {Browser : Type} (config : LoginConfig Browser) (tx : Tx) : AuthorizeUrl :=
  buildAuthorizeUrl tx.state tx.nonce (config.challenge tx.verifier)

/-! ### The callback -/

structure CallbackQuery where
  code : Option String
  state : Option String
  deriving DecidableEq

/-- What Auth0 returns for a code. -/
structure CodeTokens where
  /-- The payload of the `id_token`. -/
  idToken : List (String × Json)
  accessToken : Option Json
  refreshToken : Option Json
  /-- `expires_in`, in seconds, if Auth0 says it. -/
  expiresIn : Option Json

/-- The input of `createUserSession`. -/
structure UserSessionInput where
  auth0Sub : String
  email : String
  displayName : String
  session : Tables.NewSession

/-- `value ?? other`. -/
def orElse (value other : Option Json) : Option Json :=
  match value with
  | none | some .null => other
  | some value => some value

def userSessionInput (tokenSet : CodeTokens) (csrfToken : String) (now : ℤ) :
    UserSessionInput where
  auth0Sub := textOf (tokenSet.idToken.lookup "sub")
  email := textOf (orElse (tokenSet.idToken.lookup "email")
    (some (.str (textOf (tokenSet.idToken.lookup "sub") ++ "@local.invalid"))))
  displayName := textOf (orElse (tokenSet.idToken.lookup "name")
    (orElse (tokenSet.idToken.lookup "email") (tokenSet.idToken.lookup "sub")))
  session := {
    refreshToken := textOf tokenSet.refreshToken
    accessToken := textOf tokenSet.accessToken
    accessTokenExpiresAt := expiresAt now tokenSet.expiresIn
    csrfToken := csrfToken }

/-- The user that `createUserSession` writes. -/
def UserSessionInput.user (input : UserSessionInput) (id : String) : User where
  id := id
  auth0Sub := input.auth0Sub
  email := input.email
  displayName := some input.displayName

/-- Where `callbackController` waits. -/
inductive LoginStage where
  | exchangeAuthorizationCode (code : String) (tx : Tx)
  | verifyIdToken (code : String) (tx : Tx) (tokenSet : CodeTokens)
  /-- The first statement of `createUserSession`. -/
  | upsertUser (code : String) (tx : Tx) (tokenSet : CodeTokens) (input : UserSessionInput)
  | insertSession (code : String) (tx : Tx) (tokenSet : CodeTokens) (input : UserSessionInput)
      (userId : String)
  /-- The session cookie is set in the reply. -/
  | replied (code : String) (tx : Tx) (tokenSet : CodeTokens) (sessionId : String)
  /-- `400`. -/
  | refused (message : String)
  /-- An error that nothing catches. -/
  | raised

/-- `callbackController`, up to its first await. -/
def enterCallback (query : CallbackQuery) (txCookie : Option Tx) : LoginStage :=
  match query.code, query.state with
  | some code, some state =>
      if code = "" ∨ state = "" then .refused "Missing code or state"
      else match txCookie with
        | none => .refused "Missing login transaction"
        | some tx =>
            if tx.state ≠ state then .refused "Invalid state"
            else .exchangeAuthorizationCode code tx
  | _, _ => .refused "Missing code or state"

/-- `verifyIdToken`, for a token that is good or not. -/
def verifyIdToken (good : Bool) (idToken : List (String × Json)) (nonce : String) : Bool :=
  good && isText (idToken.lookup "nonce") nonce

/-! ### Browsers and Auth0 -/

structure Callback (Browser : Type) where
  browser : Browser
  query : CallbackQuery
  stage : LoginStage

/-- A user has authenticated at a URL, in a browser. -/
structure Authentication (Browser : Type) where
  visitor : Browser
  url : AuthorizeUrl
  subject : String

structure Logins (Browser : Type) where
  bff : State
  /-- What `loginController` has created, for the browser that called it. -/
  created : List (Browser × Tx)
  /-- What a browser has received of it. -/
  received : List (Browser × Tx)
  txCookie : Browser → Option Tx
  sessionCookie : Browser → Option String
  /-- The codes that Auth0 has issued. -/
  codes : List (String × Authentication Browser)
  callbacks : ℕ → Option (Callback Browser)

namespace Logins

inductive Act (Browser : Type) where
  | loginController (browser : Browser) (tx : Tx)
  | receiveLogin (browser : Browser) (tx : Tx)
  | authorize (code : String) (authentication : Authentication Browser)
  | callbackController (i : ℕ) (browser : Browser) (query : CallbackQuery)
  /-- The call is answered with tokens, or raises. -/
  | exchangeAuthorizationCode (i : ℕ) (answer : Option CodeTokens)
  | verifyIdToken (i : ℕ) (good : Bool) (csrfToken : String) (now : ℤ)
  | upsertUser (i : ℕ) (drawn : String)
  | insertSession (i : ℕ) (sessionId : String) (now : ℤ)
  | receiveCallback (i : ℕ)
  /-- A cookie has expired or was cleared. -/
  | dropTx (browser : Browser)
  | dropSession (browser : Browser)
  /-- Any other request to the BFF. -/
  | bff (act : Bff.Act)

variable {Browser : Type}

def start (tables : Tables) : Logins Browser where
  bff := .start tables
  created := []
  received := []
  txCookie _ := none
  sessionCookie _ := none
  codes := []
  callbacks _ := none

/-- The callback waits elsewhere. -/
def moveTo (s : Logins Browser) (i : ℕ) (callback : Callback Browser) (stage : LoginStage) :
    Logins Browser :=
  { s with callbacks := Function.update s.callbacks i (some { callback with stage := stage }) }

/-- Auth0 answers for a code that it has issued. -/
def redeems (config : LoginConfig Browser) (s : Logins Browser) (code : String) (tx : Tx)
    (tokenSet : CodeTokens) : Bool :=
  (s.codes.lookup code).any fun authentication =>
    authentication.url.codeChallenge = some (config.challenge tx.verifier) &&
      isText (tokenSet.idToken.lookup "sub") authentication.subject &&
      match authentication.url.nonce with
      | some nonce => isText (tokenSet.idToken.lookup "nonce") nonce
      | none => (tokenSet.idToken.lookup "nonce").isNone

/-- `clearCookie("auth0_tx", { path: "/" })` leaves a cookie of a domain. -/
def clearCookie (config : LoginConfig Browser) (cookie : Option Tx) : Option Tx :=
  if config.sessionCookieDomain = "localhost" then none else cookie

variable [DecidableEq Browser]

/-- The nonce has not been used before. -/
def Fresh (s : Logins Browser) (tx : Tx) : Prop :=
  (∀ entry ∈ s.created, entry.2.nonce ≠ tx.nonce) ∧
    ∀ entry ∈ s.codes, entry.2.url.nonce ≠ some tx.nonce

/--
A browser comes to a URL by a redirect of its own, or the URL was made by the adversary, who does
not know the nonces of others.
-/
def Visits (config : LoginConfig Browser) (s : Logins Browser) (visitor : Browser)
    (url : AuthorizeUrl) : Prop :=
  (∃ entry ∈ s.received, entry.1 = visitor ∧ entry.2.url config = url) ∨
    ∀ entry ∈ s.created, config.adversary entry.1 = false → url.nonce ≠ some entry.2.nonce

instance (s : Logins Browser) (tx : Tx) : Decidable (s.Fresh tx) :=
  inferInstanceAs (Decidable (_ ∧ _))

instance (config : LoginConfig Browser) (s : Logins Browser) (visitor : Browser)
    (url : AuthorizeUrl) : Decidable (s.Visits config visitor url) :=
  inferInstanceAs (Decidable (_ ∨ _))

def step (config : LoginConfig Browser) (s : Logins Browser) : Act Browser → Option (Logins Browser)
  | .loginController browser tx =>
      if s.Fresh tx then some { s with created := (browser, tx) :: s.created } else none
  | .receiveLogin browser tx =>
      if (browser, tx) ∈ s.created then
        some { s with
          received := (browser, tx) :: s.received
          txCookie := Function.update s.txCookie browser (some tx) }
      else none
  | .authorize code authentication =>
      if (s.codes.lookup code).isNone ∧
          s.Visits config authentication.visitor authentication.url then
        some { s with codes := (code, authentication) :: s.codes }
      else none
  | .callbackController i browser query =>
      match s.callbacks i with
      | some _ => none
      | none =>
          let stage := enterCallback query (s.txCookie browser)
          some (s.moveTo i { browser := browser, query := query, stage := stage } stage)
  | .exchangeAuthorizationCode i answer =>
      match s.callbacks i with
      | none => none
      | some callback =>
          match callback.stage with
          | .exchangeAuthorizationCode code tx =>
              match answer with
              | none => some (s.moveTo i callback .raised)
              | some tokenSet =>
                  if s.redeems config code tx tokenSet then
                    some (s.moveTo i callback (.verifyIdToken code tx tokenSet))
                  else none
          | _ => none
  | .verifyIdToken i good csrfToken now =>
      match s.callbacks i with
      | none => none
      | some callback =>
          match callback.stage with
          | .verifyIdToken code tx tokenSet =>
              if Bff.verifyIdToken good tokenSet.idToken tx.nonce then
                some (s.moveTo i callback
                  (.upsertUser code tx tokenSet (userSessionInput tokenSet csrfToken now)))
              else some (s.moveTo i callback .raised)
          | _ => none
  | .upsertUser i drawn =>
      match s.callbacks i with
      | none => none
      | some callback =>
          match callback.stage with
          | .upsertUser code tx tokenSet input =>
              match s.bff.tables.upsertUser (input.user drawn) with
              | none => some (s.moveTo i callback .raised)
              | some (tables, userId) =>
                  some ({ s with bff := { s.bff with tables := tables } }.moveTo i callback
                    (.insertSession code tx tokenSet input userId))
          | _ => none
  | .insertSession i sessionId now =>
      match s.callbacks i with
      | none => none
      | some callback =>
          match callback.stage with
          | .insertSession code tx tokenSet input userId =>
              match s.bff.step config.refreshWindowMs
                (.insertSession sessionId userId input.session now) with
              | none => some (s.moveTo i callback .raised)
              | some bff =>
                  some ({ s with bff := bff }.moveTo i callback
                    (.replied code tx tokenSet sessionId))
          | _ => none
  | .receiveCallback i =>
      match s.callbacks i with
      | none => none
      | some callback =>
          match callback.stage with
          | .replied _ _ _ sessionId =>
              some { s with
                txCookie := Function.update s.txCookie callback.browser
                  (clearCookie config (s.txCookie callback.browser))
                sessionCookie := Function.update s.sessionCookie callback.browser (some sessionId) }
          | _ => none
  | .dropTx browser => some { s with txCookie := Function.update s.txCookie browser none }
  | .dropSession browser =>
      some { s with sessionCookie := Function.update s.sessionCookie browser none }
  | .bff act =>
      match act with
      | .insertSession _ _ _ _ => none
      | act => (s.bff.step config.refreshWindowMs act).map fun bff => { s with bff := bff }

/-! ### What a step does -/

/-- The steps, case by case. -/
inductive Turn (config : LoginConfig Browser) (s : Logins Browser) :
    Act Browser → Logins Browser → Prop where
  | loginController {browser : Browser} {tx : Tx} (hfresh : s.Fresh tx) :
      Turn config s (.loginController browser tx) { s with created := (browser, tx) :: s.created }
  | receiveLogin {browser : Browser} {tx : Tx} (hcreated : (browser, tx) ∈ s.created) :
      Turn config s (.receiveLogin browser tx) { s with
        received := (browser, tx) :: s.received
        txCookie := Function.update s.txCookie browser (some tx) }
  | authorize {code : String} {authentication : Authentication Browser}
      (hnew : s.codes.lookup code = none)
      (hvisits : s.Visits config authentication.visitor authentication.url) :
      Turn config s (.authorize code authentication)
        { s with codes := (code, authentication) :: s.codes }
  | callbackController {i : ℕ} {browser : Browser} {query : CallbackQuery} {stage : LoginStage}
      (hnone : s.callbacks i = none) (hstage : stage = enterCallback query (s.txCookie browser)) :
      Turn config s (.callbackController i browser query)
        (s.moveTo i { browser := browser, query := query, stage := stage } stage)
  | raised {act : Act Browser} {i : ℕ} {callback : Callback Browser}
      (hcallback : s.callbacks i = some callback)
      (hwaits : ∀ code tx tokenSet id, callback.stage ≠ .replied code tx tokenSet id)
      (hact : ∀ browser tx, act ≠ .loginController browser tx) :
      Turn config s act (s.moveTo i callback .raised)
  | redeemed {i : ℕ} {callback : Callback Browser} {code : String} {tx : Tx}
      {tokenSet : CodeTokens} (hcallback : s.callbacks i = some callback)
      (hstage : callback.stage = .exchangeAuthorizationCode code tx)
      (hredeems : s.redeems config code tx tokenSet = true) :
      Turn config s (.exchangeAuthorizationCode i (some tokenSet))
        (s.moveTo i callback (.verifyIdToken code tx tokenSet))
  | verified {i : ℕ} {good : Bool} {csrfToken : String} {now : ℤ} {callback : Callback Browser}
      {code : String} {tx : Tx} {tokenSet : CodeTokens}
      (hcallback : s.callbacks i = some callback)
      (hstage : callback.stage = .verifyIdToken code tx tokenSet)
      (hverified : Bff.verifyIdToken good tokenSet.idToken tx.nonce = true) :
      Turn config s (.verifyIdToken i good csrfToken now) (s.moveTo i callback
        (.upsertUser code tx tokenSet (userSessionInput tokenSet csrfToken now)))
  | upserted {i : ℕ} {drawn : String} {callback : Callback Browser} {code : String} {tx : Tx}
      {tokenSet : CodeTokens} {input : UserSessionInput} {tables : Tables} {userId : String}
      (hcallback : s.callbacks i = some callback)
      (hstage : callback.stage = .upsertUser code tx tokenSet input)
      (hupsert : s.bff.tables.upsertUser (input.user drawn) = some (tables, userId)) :
      Turn config s (.upsertUser i drawn)
        ({ s with bff := { s.bff with tables := tables } }.moveTo i callback
          (.insertSession code tx tokenSet input userId))
  | inserted {i : ℕ} {sessionId : String} {now : ℤ} {callback : Callback Browser} {code : String}
      {tx : Tx} {tokenSet : CodeTokens} {input : UserSessionInput} {userId : String} {bff : State}
      (hcallback : s.callbacks i = some callback)
      (hstage : callback.stage = .insertSession code tx tokenSet input userId)
      (hinsert : s.bff.step config.refreshWindowMs
        (.insertSession sessionId userId input.session now) = some bff) :
      Turn config s (.insertSession i sessionId now)
        ({ s with bff := bff }.moveTo i callback (.replied code tx tokenSet sessionId))
  | receiveCallback {i : ℕ} {callback : Callback Browser} {code : String} {tx : Tx}
      {tokenSet : CodeTokens} {sessionId : String} (hcallback : s.callbacks i = some callback)
      (hstage : callback.stage = .replied code tx tokenSet sessionId) :
      Turn config s (.receiveCallback i) { s with
        txCookie := Function.update s.txCookie callback.browser
          (clearCookie config (s.txCookie callback.browser))
        sessionCookie := Function.update s.sessionCookie callback.browser (some sessionId) }
  | dropTx {browser : Browser} :
      Turn config s (.dropTx browser)
        { s with txCookie := Function.update s.txCookie browser none }
  | dropSession {browser : Browser} :
      Turn config s (.dropSession browser)
        { s with sessionCookie := Function.update s.sessionCookie browser none }
  | bff {act : Bff.Act} {bff : State}
      (hs : s.bff.step config.refreshWindowMs act = some bff) :
      Turn config s (.bff act) { s with bff := bff }

theorem turn_of_step {config : LoginConfig Browser} {s s' : Logins Browser} {act : Act Browser}
    (h : s.step config act = some s') : Turn config s act s' := by
  cases act with
  | loginController browser tx =>
      obtain ⟨hfresh, h⟩ := (Option.ite_none_right_eq_some ..).mp h
      obtain rfl := Option.some.inj h
      exact .loginController hfresh
  | receiveLogin browser tx =>
      obtain ⟨hcreated, h⟩ := (Option.ite_none_right_eq_some ..).mp h
      obtain rfl := Option.some.inj h
      exact .receiveLogin hcreated
  | authorize code authentication =>
      obtain ⟨⟨hnew, hvisits⟩, h⟩ := (Option.ite_none_right_eq_some ..).mp h
      obtain rfl := Option.some.inj h
      exact .authorize (Option.isNone_iff_eq_none.mp hnew) hvisits
  | callbackController i browser query =>
      simp only [step] at h
      split at h
      · simp at h
      · obtain rfl := Option.some.inj h
        exact .callbackController ‹_› rfl
  | exchangeAuthorizationCode i answer =>
      simp only [step] at h
      split at h
      · simp at h
      · rename_i callback hcallback
        split at h
        · rename_i code tx hstage
          cases answer with
          | none =>
              obtain rfl := Option.some.inj h
              exact .raised hcallback (by simp [hstage]) (by simp)
          | some tokenSet =>
              obtain ⟨hredeems, h⟩ := (Option.ite_none_right_eq_some ..).mp h
              obtain rfl := Option.some.inj h
              exact .redeemed hcallback hstage hredeems
        · simp at h
  | verifyIdToken i good csrfToken now =>
      simp only [step] at h
      split at h
      · simp at h
      · rename_i callback hcallback
        split at h
        · rename_i code tx tokenSet hstage
          split at h
          · rename_i hverified
            obtain rfl := Option.some.inj h
            exact .verified hcallback hstage hverified
          · obtain rfl := Option.some.inj h
            exact .raised hcallback (by simp [hstage]) (by simp)
        · simp at h
  | upsertUser i drawn =>
      simp only [step] at h
      split at h
      · simp at h
      · rename_i callback hcallback
        split at h
        · rename_i code tx tokenSet input hstage
          split at h
          · obtain rfl := Option.some.inj h
            exact .raised hcallback (by simp [hstage]) (by simp)
          · rename_i tables userId hupsert
            obtain rfl := Option.some.inj h
            exact .upserted hcallback hstage hupsert
        · simp at h
  | insertSession i sessionId now =>
      simp only [step] at h
      split at h
      · simp at h
      · rename_i callback hcallback
        split at h
        · rename_i code tx tokenSet input userId hstage
          split at h
          · obtain rfl := Option.some.inj h
            exact .raised hcallback (by simp [hstage]) (by simp)
          · rename_i bff hinsert
            obtain rfl := Option.some.inj h
            exact .inserted hcallback hstage hinsert
        · simp at h
  | receiveCallback i =>
      simp only [step] at h
      split at h
      · simp at h
      · rename_i callback hcallback
        split at h
        · rename_i hstage
          obtain rfl := Option.some.inj h
          exact .receiveCallback hcallback hstage
        · simp at h
  | dropTx browser =>
      obtain rfl := Option.some.inj h
      exact .dropTx
  | dropSession browser =>
      obtain rfl := Option.some.inj h
      exact .dropSession
  | bff act =>
      simp only [step] at h
      split at h
      · simp at h
      · obtain ⟨bff, hbff, rfl⟩ := Option.map_eq_some_iff.mp h
        exact .bff hbff

/-! ### Runs -/

/-- The runs from `s₀`, with the states and the acts of their steps, the latest first. -/
inductive Run (config : LoginConfig Browser) (s₀ : Logins Browser) :
    List (Logins Browser × Act Browser) → Logins Browser → Prop where
  | start : Run config s₀ [] s₀
  | step {steps : List (Logins Browser × Act Browser)} {s s' : Logins Browser} {act : Act Browser}
      (h : Run config s₀ steps s) (hs : s.step config act = some s') :
      Run config s₀ ((s, act) :: steps) s'

/-- The acts of a run, the first one first. -/
def run (config : LoginConfig Browser) : List (Act Browser) → Logins Browser →
    Option (Logins Browser)
  | [], s => some s
  | act :: acts, s => (s.step config act).bind (run config acts)

theorem Run.of_run {config : LoginConfig Browser} {acts : List (Act Browser)}
    {s₀ s s' : Logins Browser} {steps : List (Logins Browser × Act Browser)}
    (h : Run config s₀ steps s) (hrun : run config acts s = some s') :
    ∃ steps', Run config s₀ steps' s' := by
  induction acts generalizing s steps with
  | nil =>
      obtain rfl := Option.some.inj hrun
      exact ⟨steps, h⟩
  | cons act acts ih =>
      obtain ⟨s₁, hstep, hrest⟩ := Option.bind_eq_some_iff.mp hrun
      exact ih (h.step hstep) hrest

end Logins

end CommercePlatform.Bff
