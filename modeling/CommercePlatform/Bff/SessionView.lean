/-
What a client is shown of its session.

`GET /auth/session` is answered from the session that `requireSession` has admitted it with,
and from what its user may do by now.  The expiry of the access token is shown as a text, and
the client is told from this text whether to refresh, while `ensureFreshSession` compares the
time itself and asks the question the other way round.  Still the two agree: the client is told
to refresh just if the next request would make the BFF refresh anyway.
-/
import CommercePlatform.Bff.Authorizations
import CommercePlatform.Bff.Admission
import CommercePlatform.Bff.Logout
import CommercePlatform.Js.IsoDate

namespace CommercePlatform.Bff

open Js

/-! ### The view -/

/-- What `buildSessionView` returns. -/
structure SessionView where
  isAuthenticated : Bool
  sub : String
  email : String
  displayName : Option String
  authorizations : Authorizations
  accessTokenExpiresAt : String
  shouldRefresh : Bool
  deriving DecidableEq

/-- `buildSessionView`, or none where it raises. -/
def buildSessionView (refreshWindowMs : ℤ) (tables : Tables) (session : AppSession) (now : ℤ) :
    Option SessionView :=
  (Date.toISOString session.accessTokenExpiresAt).map fun expiresAt => {
    isAuthenticated := true
    sub := session.auth0Sub
    email := session.email
    displayName := session.displayName
    authorizations := tables.getUserAuthorizations session.auth0Sub
    accessTokenExpiresAt := expiresAt
    shouldRefresh := match Date.parse expiresAt with
      | none => false
      | some time => time - now ≤ refreshWindowMs }

theorem buildSessionView_eq_none {refreshWindowMs now : ℤ} {tables : Tables} {session : AppSession} :
    buildSessionView refreshWindowMs tables session now = none ↔
      ¬ Date.InRange session.accessTokenExpiresAt := by
  unfold buildSessionView Date.toISOString
  by_cases hrange : Date.InRange session.accessTokenExpiresAt
  · simp [hrange]
  · simp [hrange]

theorem buildSessionView_eq_some {refreshWindowMs now : ℤ} {tables : Tables} {session : AppSession}
    {view : SessionView} (h : buildSessionView refreshWindowMs tables session now = some view) :
    view.sub = session.auth0Sub ∧
      view.authorizations = tables.getUserAuthorizations session.auth0Sub ∧
      Date.parse view.accessTokenExpiresAt = some session.accessTokenExpiresAt ∧
      view.shouldRefresh = !isFresh refreshWindowMs now session := by
  obtain ⟨text, htext, rfl⟩ := Option.map_eq_some_iff.mp h
  have hread := Date.parse_toISOString htext
  have hnot : session.accessTokenExpiresAt - now ≤ refreshWindowMs ↔
      ¬ session.accessTokenExpiresAt - now > refreshWindowMs := by omega
  refine ⟨rfl, rfl, hread, ?_⟩
  show (match Date.parse text with | none => false | some time => _) = _
  rw [hread]
  show decide (_ ≤ _) = !decide (_ > _)
  rw [decide_eq_decide.mpr hnot, decide_not]

/-! ### What is known of an admission -/

theorem Tables.sub_upsertUser {tables tables' : Tables} {user old : User} {id userId : String}
    (h : tables.upsertUser user = some (tables', id))
    (hknown : (tables.users.find? fun row => row.id = userId) = some old) :
    ∃ row, (tables'.users.find? fun row => row.id = userId) = some row ∧
      row.auth0Sub = old.auth0Sub := by
  rcases upsertUser_cases h with ⟨-, rfl, -⟩ | ⟨other, -, -, -, rfl, -⟩
  · exact ⟨old, by simp [List.find?_append, hknown], rfl⟩
  · rw [List.find?_map, comp_set (fun row => decide (row.id = userId)) other user fun row => rfl,
      hknown]
    refine ⟨_, rfl, ?_⟩
    dsimp only
    by_cases hid : old.id = other.id
    · rw [if_pos hid]
    · rw [if_neg hid]

namespace State

variable {refreshWindowMs : ℤ} {s s' : State} {act : Act}

/-- The session is still that of its user. -/
def Owned (tables : Tables) (session : AppSession) : Prop :=
  ∃ row user, tables.sessions session.id = some row ∧
    (tables.users.find? fun user => user.id = row.userId) = some user ∧
    user.auth0Sub = session.auth0Sub

theorem Owned.of_load {tables : Tables} {id : String} {session : AppSession}
    (h : tables.loadSession id = some session) : Owned tables session := by
  obtain ⟨row, user, hrow, -, huser, rfl⟩ := Tables.loadSession_eq_some h
  exact ⟨row, user, hrow, huser, rfl⟩

theorem Owned.step {session : AppSession} (h : Owned s.tables session)
    (hturn : Turn refreshWindowMs s act s') : Owned s'.tables session := by
  obtain ⟨row, user, hrow, huser, hsub⟩ := h
  obtain ⟨row', hrow', hkept⟩ := hturn.row_kept hrow
  have hstays : ∃ user', (s'.tables.users.find? fun user => user.id = row.userId) = some user' ∧
      user'.auth0Sub = user.auth0Sub := by
    cases hturn with
    | upsertUser hupsert => exact Tables.sub_upsertUser hupsert huser
    | _ => exact ⟨user, huser, rfl⟩
  obtain ⟨user', huser', hsub'⟩ := hstays
  refine ⟨row', user', hrow', ?_, hsub'.trans hsub⟩
  rw [hkept.userId]
  exact huser'

/-- A request is admitted with a fresh session, unless it has reloaded it after a refresh. -/
theorem Turn.admits_fresh (h : Turn refreshWindowMs s act s') :
    s'.admissions = s.admissions ∨ ∃ admission, s'.admissions = s.admissions ++ [admission] ∧
      s.tables.loadSession admission.session.id = some admission.session ∧
      (isFresh refreshWindowMs admission.time admission.session = true ∨
        act = .reloadSession admission.call admission.time) := by
  cases h with
  | @load_none i request caller sessionId now hcall hload =>
      cases caller with
      | refreshController => exact Or.inl rfl
      | requireSession => exact Or.inl rfl
  | @load_fresh i request caller sessionId now session hcall hload hfresh =>
      cases caller with
      | refreshController => exact Or.inl rfl
      | requireSession =>
          obtain rfl := Tables.id_of_loadSession hload
          exact Or.inr ⟨_, rfl, hload, Or.inl hfresh⟩
  | @reload i request caller sessionId now hcall =>
      cases caller with
      | refreshController => exact Or.inl rfl
      | requireSession =>
          cases hload : s.tables.loadSession sessionId with
          | none => exact Or.inl rfl
          | some session =>
              obtain rfl := Tables.id_of_loadSession hload
              exact Or.inr ⟨_, rfl, hload, Or.inr rfl⟩
  | _ => exact Or.inl rfl

structure ViewLaw (refreshWindowMs : ℤ) (steps : List (State × Act)) (s : State) : Prop where
  owned : ∀ admission ∈ s.admissions, Owned s.tables admission.session
  fresh : ∀ admission ∈ s.admissions,
    isFresh refreshWindowMs admission.time admission.session = true ∨
      ∃ entry ∈ steps, entry.2 = .reloadSession admission.call admission.time

theorem ViewLaw.of_run {tables : Tables} {steps : List (State × Act)}
    (h : Run refreshWindowMs (State.start tables) steps s) : ViewLaw refreshWindowMs steps s := by
  induction h with
  | start => exact ⟨by simp [State.start], by simp [State.start]⟩
  | @step steps s s' act hrun hs ih =>
      have hturn := turn_of_step hs
      have hbefore : ∀ admission ∈ s.admissions, Owned s'.tables admission.session ∧
          (isFresh refreshWindowMs admission.time admission.session = true ∨
            ∃ entry ∈ (s, act) :: steps,
              entry.2 = .reloadSession admission.call admission.time) := by
        intro admission hmem
        refine ⟨(ih.owned admission hmem).step hturn, ?_⟩
        rcases ih.fresh admission hmem with hfresh | ⟨entry, hentry, hact⟩
        · exact Or.inl hfresh
        · exact Or.inr ⟨entry, List.mem_cons_of_mem _ hentry, hact⟩
      have hall : ∀ admission ∈ s'.admissions, Owned s'.tables admission.session ∧
          (isFresh refreshWindowMs admission.time admission.session = true ∨
            ∃ entry ∈ (s, act) :: steps,
              entry.2 = .reloadSession admission.call admission.time) := by
        intro admission hmem
        rcases hturn.admits_fresh with hsame | ⟨new, happend, hload, hfresh⟩
        · exact hbefore admission (hsame ▸ hmem)
        · rw [happend] at hmem
          rcases List.mem_append.mp hmem with hold | hnew
          · exact hbefore admission hold
          · obtain rfl := List.mem_singleton.mp hnew
            refine ⟨(Owned.of_load hload).step hturn, ?_⟩
            rcases hfresh with hfresh | hact
            · exact Or.inl hfresh
            · exact Or.inr ⟨_, List.mem_cons_self, hact⟩
      exact ⟨fun admission hmem => (hall admission hmem).1,
        fun admission hmem => (hall admission hmem).2⟩

/-! ### What the next request does -/

/-- `ensureFreshSession` asks Auth0 just if the session is not fresh. -/
theorem refreshes_iff {i : ℕ} {request : Request} {caller : Caller} {id : String}
    {session : AppSession} {now : ℤ}
    (hcall : s.calls i = some { request := request, stage := .loadSession caller id })
    (hload : s.tables.loadSession id = some session)
    (hs : s.step refreshWindowMs (.loadSession i now) = some s') :
    s'.calls i = some { request := request, stage := .refreshAuth0Tokens caller session } ↔
      isFresh refreshWindowMs now session = false := by
  have hreturned : returnStage request caller (some session) ≠ .refreshAuth0Tokens caller session := by
    cases caller with
    | refreshController => simp [returnStage]
    | requireSession =>
        intro heq
        have hawaited := Stage.awaited_returnStage request .requireSession (some session)
        rw [heq] at hawaited
        simp [Stage.awaited] at hawaited
  simp only [State.step, hcall, hload] at hs
  by_cases hfresh : isFresh refreshWindowMs now session = true
  · rw [if_pos hfresh] at hs
    obtain rfl := Option.some.inj hs
    simpa [returns, moveTo, hfresh] using hreturned
  · rw [if_neg hfresh] at hs
    obtain rfl := Option.some.inj hs
    simpa [moveTo] using hfresh

/--
**A client is told to refresh just if the BFF would.**  In every run, a request that was admitted
is shown its session, unless the expiry is no time at all: in the name of the user the session
belongs to, with the privileges that this user holds by now, and with an expiry that is read
back as the one of the session.  The client is told to refresh just if another request of the
session, whose tokens are no newer, would make the BFF ask Auth0 for new ones at that time; and
up to the time of its admission, only if this request has itself had them refreshed.
-/
theorem session_view {tables : Tables} {steps : List (State × Act)}
    (hrun : Run refreshWindowMs (State.start tables) steps s) {admission : Admission}
    (hadmission : admission ∈ s.admissions) (now : ℤ) :
    (buildSessionView refreshWindowMs s.tables admission.session now = none ↔
      ¬ Date.InRange admission.session.accessTokenExpiresAt) ∧
    ∀ view, buildSessionView refreshWindowMs s.tables admission.session now = some view →
      (∃ row user, s.tables.sessions admission.session.id = some row ∧
        (s.tables.users.find? fun user => user.id = row.userId) = some user ∧
        view.sub = user.auth0Sub ∧ ∀ privilege, privilege ∈ view.authorizations.privileges ↔
          s.tables.policy.Held user.auth0Sub privilege) ∧
      Date.parse view.accessTokenExpiresAt = some admission.session.accessTokenExpiresAt ∧
      (∀ i request caller session s',
        s.calls i = some { request := request
                           stage := .loadSession caller admission.session.id } →
        s.tables.loadSession admission.session.id = some session →
        session.accessTokenExpiresAt = admission.session.accessTokenExpiresAt →
        s.step refreshWindowMs (.loadSession i now) = some s' →
        (view.shouldRefresh = true ↔ s'.calls i =
          some { request := request, stage := .refreshAuth0Tokens caller session })) ∧
      (now ≤ admission.time → view.shouldRefresh = true →
        ∃ entry ∈ steps, entry.2 = .reloadSession admission.call admission.time) := by
  have hlaw := ViewLaw.of_run hrun
  refine ⟨buildSessionView_eq_none, fun view hview => ?_⟩
  obtain ⟨hsub, hauthorizations, hread, hrefresh⟩ := buildSessionView_eq_some hview
  refine ⟨?_, hread, ?_, ?_⟩
  · obtain ⟨row, user, hrow, huser, hsame⟩ := hlaw.owned admission hadmission
    refine ⟨row, user, hrow, huser, hsub.trans hsame.symm, fun privilege => ?_⟩
    rw [hauthorizations, hsame]
    exact Tables.holds_iff
  · intro i request caller session s' hcall hload hexpiry hs
    rw [refreshes_iff hcall hload hs, hrefresh]
    simp [isFresh, hexpiry]
  · intro hnow hshould
    rcases hlaw.fresh admission hadmission with hfresh | hreloaded
    · exfalso
      rw [hrefresh] at hshould
      simp only [isFresh, decide_eq_true_eq, Bool.not_eq_true', decide_eq_false_iff_not] at hfresh hshould
      omega
    · exact hreloaded

end State

end CommercePlatform.Bff

/-! ### A visit -/

namespace CommercePlatform.Bff.Visit

/-- One request is admitted a second after the login, and another one has arrived. -/
def visiting : List Act :=
  [login, .arrive 0 (request .other), .loadSession 0 1000, .arrive 1 (request .other)]

/-- Eight minutes and a second after the login, the client is told to refresh. -/
theorem shown : ∃ steps s admission view, State.Run window (State.start tables) steps s ∧
    admission ∈ s.admissions ∧
    buildSessionView window s.tables admission.session 481000 = some view ∧
    view.accessTokenExpiresAt = "1970-01-01T00:10:00.000Z" ∧ view.shouldRefresh = true ∧
    (∃ row user, s.tables.sessions admission.session.id = some row ∧
      (s.tables.users.find? fun user => user.id = row.userId) = some user ∧
      view.sub = user.auth0Sub ∧ ∀ privilege, privilege ∈ view.authorizations.privileges ↔
        s.tables.policy.Held user.auth0Sub privilege) ∧
    Js.Date.parse view.accessTokenExpiresAt = some admission.session.accessTokenExpiresAt := by
  have hout : ((State.run window visiting (State.start tables)).any fun s =>
      s.admissions.any fun admission =>
        (buildSessionView window s.tables admission.session 481000).any fun view =>
          view.accessTokenExpiresAt = "1970-01-01T00:10:00.000Z" && view.shouldRefresh) = true := by
    decide +kernel
  obtain ⟨s, hs, hout⟩ := (Option.any_eq_true _ _).mp hout
  obtain ⟨admission, hadmission, hout⟩ := List.any_eq_true.mp hout
  obtain ⟨view, hview, hout⟩ := (Option.any_eq_true _ _).mp hout
  simp only [Bool.and_eq_true, decide_eq_true_eq] at hout
  obtain ⟨steps, hrun⟩ := State.Run.start.of_run hs
  obtain ⟨howned, hread, -⟩ := (State.session_view hrun hadmission 481000).2 view hview
  exact ⟨steps, s, admission, view, hrun, hadmission, hview, hout.1, hout.2, howned, hread⟩

end CommercePlatform.Bff.Visit
