/-
Whom a login finds.

A user is known by its subject, and by its address as well: both are `UNIQUE`.  The upsert of
`createUserSession` gives way on the subject alone, so a login is turned away where its address
is another user's.  Who may log in thus depends on the logins and memberships of all others.

The second statement is given the time up to which the access token is good.  Where this is none,
the login is turned away as well, though its user has been written by then.

A login and a membership request are two statements each, and between the two there may be
statements of others.  So a history is one of statements.  The identifiers are drawn at random:
one that is drawn is in no table yet.
-/
import CommercePlatform.Bff.Administration
import CommercePlatform.Bff.Login
import CommercePlatform.Js.Buffer

namespace CommercePlatform.Bff

open Js

/-! ### The calls -/

/-- `randomToken`, of the bytes that are drawn. -/
def randomToken (bytes : Bytes) : String := Buffer.toHex bytes

/-- The user that the first statement is given, if its parameters are texts that it takes. -/
def sessionUser (userId : String) (input : UserSessionInput) : Except Error User := do
  return {
    id := userId
    auth0Sub := ← textIn input.auth0Sub
    email := ← textIn input.email
    displayName := some (← textIn input.displayName) }

/-- `INSERT INTO identity.sessions`, with the constraints of the table. -/
def Tables.addSession (tables : Tables) (sessionId userId : String) (input : NewSession) (now : ℤ) :
    Except Error Tables := do
  let expiresAt ← timestamptzParam input.accessTokenExpiresAt
  let _ ← textIn input.csrfToken
  if (tables.sessions sessionId).isSome then .error (.unique "sessions_pkey")
  else if userId ∉ tables.users.map User.id then .error (.foreignKey "sessions_user_id_fkey")
  else .ok (tables.insertSession sessionId userId input expiresAt now)

/-- `createUserSession`, with the identifiers that are drawn for the session and for a new user. -/
def createUserSession (tables : Tables) (sessionId userId : String) (input : UserSessionInput)
    (now : ℤ) : Tables × Except Error String :=
  match sessionUser userId input with
  | .error e => (tables, .error e)
  | .ok user =>
      match tables.upsertUser user with
      | none => (tables, .error (.unique (userConstraint tables user)))
      | some (tables', id) =>
          match tables'.addSession sessionId id input.session now with
          | .error e => (tables', .error e)
          | .ok tables'' => (tables'', .ok sessionId)

/-! ### Histories -/

/-- A statement of a login or of a membership request. -/
inductive Statement where
  | upsertUser (user : User)
  | insertSession (sessionId userId : String) (input : Tables.NewSession) (now : ℤ)
  | insertMembership (userId : String) (groupCode : Option String)

/-- The tables after a statement, which are as before where it raises. -/
def Tables.execute (tables : Tables) : Statement → Tables
  | .upsertUser user => ((tables.upsertUser user).map Prod.fst).getD tables
  | .insertSession sessionId userId input now =>
      (tables.addSession sessionId userId input now).toOption.getD tables
  | .insertMembership userId groupCode =>
      if userId ∈ tables.users.map User.id then tables.insertMembership userId groupCode else tables

def Tables.after (tables : Tables) (history : List Statement) : Tables :=
  history.foldl Tables.execute tables

/-- The tables as they are set up, with groups and privileges but without a user. -/
def Tables.seed : Tables where
  users := []
  groups := Seed.groups
  privileges := Seed.privileges
  groupPrivileges := Seed.groupPrivileges
  userGroup := []
  sessions _ := none

namespace Tables

variable {tables tables' : Tables}

theorem seed_keyed : seed.Keyed where
  ids := List.nodup_nil
  subs := List.nodup_nil
  referenced membership hmembership := by simp [seed] at hmembership

theorem addSession_eq_ok {sessionId userId : String} {input : NewSession} {now : ℤ}
    (h : tables.addSession sessionId userId input now = .ok tables') :
    ∃ expiresAt, timestamptzParam input.accessTokenExpiresAt = .ok expiresAt ∧
      tables' = tables.insertSession sessionId userId input expiresAt now := by
  obtain ⟨expiresAt, htime, h⟩ := bind_eq_ok.mp h
  obtain ⟨_, -, h⟩ := bind_eq_ok.mp h
  split at h
  · simp at h
  split at h
  · simp at h
  · exact ⟨expiresAt, htime, (Except.ok.inj h).symm⟩

theorem Keyed.insertMembership (hkeyed : tables.Keyed) {userId : String}
    (hknown : userId ∈ tables.users.map User.id) (groupCode : Option String) :
    (tables.insertMembership userId groupCode).Keyed := by
  refine ⟨hkeyed.ids, hkeyed.subs, fun membership hmembership => ?_⟩
  rcases List.mem_append.mp hmembership with hbefore | hnow
  · exact hkeyed.referenced membership hbefore
  · obtain ⟨group, -, rfl⟩ := List.mem_map.mp (List.mem_filter.mp hnow).1
    exact hknown

theorem Keyed.execute (hkeyed : tables.Keyed) (statement : Statement) :
    (tables.execute statement).Keyed := by
  cases statement with
  | upsertUser user =>
      show ((tables.upsertUser user).map Prod.fst |>.getD tables).Keyed
      cases hupsert : tables.upsertUser user with
      | none => exact hkeyed
      | some result => exact hkeyed.upsertUser hupsert
  | insertSession sessionId userId input now =>
      show ((tables.addSession sessionId userId input now).toOption.getD tables).Keyed
      cases hadd : tables.addSession sessionId userId input now with
      | error e => exact hkeyed
      | ok tables' =>
          obtain ⟨expiresAt, -, rfl⟩ := addSession_eq_ok hadd
          exact ⟨hkeyed.ids, hkeyed.subs, hkeyed.referenced⟩
  | insertMembership userId groupCode =>
      show (if userId ∈ tables.users.map User.id then _ else _ : Tables).Keyed
      split
      · rename_i hknown
        exact hkeyed.insertMembership hknown groupCode
      · exact hkeyed

/-- The keys of a table are unique after any history. -/
theorem Keyed.after (hkeyed : tables.Keyed) (history : List Statement) :
    (tables.after history).Keyed := by
  induction history generalizing tables with
  | nil => exact hkeyed
  | cons statement rest ih => exact ih (hkeyed.execute statement)

end Tables

/-! ### Calls are made of statements -/

section Calls

variable {tables : Tables} {sessionId userId : String} {input : UserSessionInput} {now : ℤ}

theorem Tables.execute_upsertUser {tables' : Tables} {user : User} {id : String}
    (h : tables.upsertUser user = some (tables', id)) :
    tables.execute (.upsertUser user) = tables' := by
  show ((tables.upsertUser user).map Prod.fst).getD tables = tables'
  rw [h]
  rfl

theorem sessionUser_eq_ok {user : User} (h : sessionUser userId input = .ok user) :
    user = input.user userId := by
  obtain ⟨auth0Sub, hsub, h⟩ := bind_eq_ok.mp h
  obtain ⟨email, hemail, h⟩ := bind_eq_ok.mp h
  obtain ⟨displayName, hname, h⟩ := bind_eq_ok.mp h
  obtain rfl := Except.ok.inj h
  rw [textIn_eq_ok hsub, textIn_eq_ok hemail, textIn_eq_ok hname]
  rfl

/-- What a login leaves is what its statements leave. -/
theorem createUserSession_after :
    ∃ history, (createUserSession tables sessionId userId input now).1 = tables.after history := by
  unfold createUserSession
  split
  · exact ⟨[], rfl⟩
  rename_i user huser
  split
  · exact ⟨[], rfl⟩
  rename_i tables' id hupsert
  have hfirst := Tables.execute_upsertUser hupsert
  split
  · exact ⟨[.upsertUser user], hfirst.symm⟩
  · rename_i tables'' hadd
    refine ⟨[.upsertUser user, .insertSession sessionId id input.session now], ?_⟩
    show tables'' = (tables.execute (.upsertUser user)).execute
      (.insertSession sessionId id input.session now)
    rw [hfirst]
    show tables'' = (tables'.addSession sessionId id input.session now).toOption.getD tables'
    rw [hadd]
    rfl

/-- What a membership request leaves is what its statements leave. -/
theorem upsertUserGroupMembership_after [Platform] {body : Json} :
    ∃ history, (upsertUserGroupMembership tables userId body).1 = tables.after history := by
  unfold upsertUserGroupMembership
  split
  · exact ⟨[], rfl⟩
  rename_i user huser
  split
  · exact ⟨[], rfl⟩
  rename_i tables' id hupsert
  have hfirst := Tables.execute_upsertUser hupsert
  split
  · exact ⟨[.upsertUser user], hfirst.symm⟩
  · rename_i groupCode hcode
    refine ⟨[.upsertUser user, .insertMembership id groupCode], ?_⟩
    have hknown : id ∈ tables'.users.map User.id := by
      rw [← Tables.map_fst_accounts]
      exact List.mem_map.mpr ⟨_, Tables.account_of_upsertUser hupsert, rfl⟩
    show tables'.insertMembership id groupCode =
      (tables.execute (.upsertUser user)).execute (.insertMembership id groupCode)
    rw [hfirst]
    exact (if_pos hknown).symm

end Calls

/-! ### When a login succeeds -/

/-- What a login is to do: there is a session of the subject, and nothing of others has changed. -/
structure LoggedIn (tables : Tables) (sessionId : String) (input : UserSessionInput)
    (result : Tables × Except Error String) : Prop where
  returned : result.2 = .ok sessionId
  new : tables.sessions sessionId = none
  session : ∃ row user, result.1.sessions sessionId = some row ∧ row.revokedAt = none ∧
    user ∈ result.1.users ∧ user.id = row.userId ∧ user.auth0Sub = input.auth0Sub
  users : ∀ user, user.auth0Sub ≠ input.auth0Sub → (user ∈ result.1.users ↔ user ∈ tables.users)
  memberships : result.1.userGroup = tables.userGroup
  sessions : ∀ id, id ≠ sessionId → result.1.sessions id = tables.sessions id

/-- No user of another subject has the address. -/
def AddressFree (tables : Tables) (input : UserSessionInput) : Prop :=
  ∀ user ∈ tables.users, user.email = input.email → user.auth0Sub = input.auth0Sub

/-- The server takes what is known of the user. -/
def Storable (input : UserSessionInput) : Prop :=
  ∀ text ∈ [input.auth0Sub, input.email, input.displayName], '\x00' ∉ text.toList

theorem textIn_of_notMem {text : String} (h : '\x00' ∉ text.toList) : textIn text = .ok text := by
  exact if_neg h

theorem notMem_of_textIn {text s : String} (h : textIn text = .ok s) : '\x00' ∉ text.toList := by
  intro hmem
  rw [show textIn text = .error .invalidByteSequence from if_pos hmem] at h
  simp at h

theorem sessionUser_isOk_iff {userId : String} {input : UserSessionInput} :
    sessionUser userId input = .ok (input.user userId) ↔ Storable input := by
  unfold Storable
  simp only [List.forall_mem_cons, List.not_mem_nil, false_imp_iff, implies_true, and_true]
  constructor
  · intro h
    obtain ⟨auth0Sub, hsub, h⟩ := bind_eq_ok.mp h
    obtain ⟨email, hemail, h⟩ := bind_eq_ok.mp h
    obtain ⟨displayName, hname, -⟩ := bind_eq_ok.mp h
    exact ⟨notMem_of_textIn hsub, notMem_of_textIn hemail, notMem_of_textIn hname⟩
  · rintro ⟨hsub, hemail, hname⟩
    unfold sessionUser
    rw [textIn_of_notMem hsub, textIn_of_notMem hemail, textIn_of_notMem hname]
    rfl

variable {tables : Tables} {sessionId userId : String} {input : UserSessionInput} {now : ℤ}

theorem upsertUser_isSome_iff (hkeyed : tables.Keyed) (huser : userId ∉ tables.users.map User.id) :
    (∃ result, tables.upsertUser (input.user userId) = some result) ↔ AddressFree tables input := by
  have hnone : tables.upsertUser (input.user userId) = none ↔
      ∃ row ∈ tables.users, row.email = input.email ∧ row.auth0Sub ≠ input.auth0Sub :=
    hkeyed.upsertUser_eq_none_iff huser
  rw [← Option.ne_none_iff_exists', ne_eq, hnone]
  unfold AddressFree
  constructor
  · intro hfree user huser hemail
    by_contra hsub
    exact hfree ⟨user, huser, hemail, hsub⟩
  · rintro hfree ⟨user, huser, hemail, hsub⟩
    exact hsub (hfree user huser hemail)

/-- A session is inserted for a user that is there, under an identifier that is not. -/
theorem addSession_of_new {csrfBytes : Bytes} {expiresAt : ℤ}
    (htime : timestamptzParam input.session.accessTokenExpiresAt = .ok expiresAt)
    (hcsrf : input.session.csrfToken = randomToken csrfBytes)
    (hnew : tables.sessions sessionId = none) (hknown : userId ∈ tables.users.map User.id) :
    tables.addSession sessionId userId input.session now =
      .ok (tables.insertSession sessionId userId input.session expiresAt now) := by
  have htext : textIn input.session.csrfToken = .ok input.session.csrfToken := by
    apply textIn_of_notMem
    rw [hcsrf]
    simpa [randomToken, Buffer.toHex] using Buffer.nul_notMem_hexDigits csrfBytes
  unfold Tables.addSession
  rw [htime, htext]
  simp [hnew, hknown, bind, Except.bind]

theorem createUserSession_loggedIn (hkeyed : tables.Keyed) {csrfBytes : Bytes} {expiresAt : ℤ}
    (htime : timestamptzParam input.session.accessTokenExpiresAt = .ok expiresAt)
    (hcsrf : input.session.csrfToken = randomToken csrfBytes)
    (hnew : tables.sessions sessionId = none) {tables' : Tables} {id : String}
    (hstorable : Storable input)
    (hupsert : tables.upsertUser (input.user userId) = some (tables', id)) :
    LoggedIn tables sessionId input (createUserSession tables sessionId userId input now) := by
  have haccount : (id, input.auth0Sub) ∈ tables'.accounts := Tables.account_of_upsertUser hupsert
  obtain ⟨user, huser, haccount⟩ := List.mem_map.mp haccount
  obtain ⟨rfl, hsub⟩ := Prod.mk.inj haccount
  have hsessions : tables'.sessions = tables.sessions := Tables.sessions_upsertUser hupsert
  have hadd : tables'.addSession sessionId user.id input.session now =
      .ok (tables'.insertSession sessionId user.id input.session expiresAt now) := by
    apply addSession_of_new htime hcsrf
    · rw [hsessions]
      exact hnew
    · exact List.mem_map_of_mem huser
  have hresult : createUserSession tables sessionId userId input now =
      (tables'.insertSession sessionId user.id input.session expiresAt now, .ok sessionId) := by
    unfold createUserSession
    rw [sessionUser_isOk_iff.mpr hstorable]
    simp only [hupsert, hadd]
  rw [hresult]
  refine ⟨rfl, hnew, ⟨input.session.row user.id expiresAt now, user, ?_, rfl, huser, rfl, hsub⟩,
    ?_, ?_, ?_⟩
  · exact Tables.sessions_insertSession.trans (if_pos rfl)
  · intro other hother
    exact hkeyed.mem_upsertUser hupsert hother
  · show tables'.userGroup = tables.userGroup
    rw [Tables.frame_upsertUser hupsert]
  · intro other hother
    show (tables'.insertSession sessionId user.id input.session expiresAt now).sessions other = _
    rw [Tables.sessions_insertSession, if_neg hother, hsessions]

/-- The access token is good up to a time that a `Date` can have and the server stores. -/
def Dated (tokenSet : CodeTokens) (now : ℤ) : Prop :=
  ∃ time, expiresAt now tokenSet.expiresIn = some time ∧ firstTimestamp ≤ time

/--
**A login succeeds, and does what it is to do, just where no user of another subject has its
address** and the server can store what the token says, and for how long it is good.
-/
theorem login_succeeds_iff (history : List Statement) (tokenSet : CodeTokens) (csrfBytes : Bytes)
    (sessionId userId : String) (now dbNow : ℤ)
    (hsession : (Tables.seed.after history).sessions sessionId = none)
    (huser : userId ∉ (Tables.seed.after history).users.map User.id) :
    LoggedIn (Tables.seed.after history) sessionId
        (userSessionInput tokenSet (randomToken csrfBytes) now)
        (createUserSession (Tables.seed.after history) sessionId userId
          (userSessionInput tokenSet (randomToken csrfBytes) now) dbNow) ↔
      AddressFree (Tables.seed.after history)
          (userSessionInput tokenSet (randomToken csrfBytes) now) ∧
        Storable (userSessionInput tokenSet (randomToken csrfBytes) now) ∧
        Dated tokenSet now := by
  have hkeyed := Tables.seed_keyed.after history
  constructor
  · rintro ⟨hreturned, -, -, -, -, -⟩
    unfold createUserSession at hreturned
    split at hreturned
    · simp at hreturned
    rename_i user hsessionUser
    obtain rfl := sessionUser_eq_ok hsessionUser
    split at hreturned
    · simp at hreturned
    rename_i tables' id hupsert
    split at hreturned
    · simp at hreturned
    rename_i tables'' hadd
    obtain ⟨time, htime, -⟩ := Tables.addSession_eq_ok hadd
    exact ⟨(upsertUser_isSome_iff hkeyed huser).mp ⟨_, hupsert⟩,
      sessionUser_isOk_iff.mp hsessionUser, time, timestamptzParam_eq_ok.mp htime⟩
  · rintro ⟨hfree, hstorable, time, hdate, hfirst⟩
    obtain ⟨⟨tables', id⟩, hupsert⟩ := (upsertUser_isSome_iff hkeyed huser).mpr hfree
    exact createUserSession_loggedIn hkeyed (timestamptzParam_eq_ok.mpr ⟨hdate, hfirst⟩) rfl
      hsession hstorable hupsert

end CommercePlatform.Bff

/-! ### Two subjects with one address -/

namespace CommercePlatform.Bff.OneAddress

open Js

def tokenSet (sub : String) : CodeTokens where
  idToken := [("sub", .str sub), ("email", .str "ann@example.com"), ("name", .str "Ann")]
  accessToken := some (.str "ey.ann")
  refreshToken := some (.str "v1.ann")
  expiresIn := some (.num (.finite 3600))

/-- Ann has logged in with a password. -/
def history : List Statement :=
  [.upsertUser ((userSessionInput (tokenSet "auth0|11") (randomToken [1]) 0).user
      "5a0d7c52-5f6b-4c38-9b44-0d6f2a1f7c01"),
    .insertSession "5a0d7c52-5f6b-4c38-9b44-0d6f2a1f7c02" "5a0d7c52-5f6b-4c38-9b44-0d6f2a1f7c01"
      (userSessionInput (tokenSet "auth0|11") (randomToken [1]) 0).session 5]

def input (sub : String) : UserSessionInput := userSessionInput (tokenSet sub) (randomToken [2]) 1000

/-- Now she logs in with the same address by another provider, and cannot. -/
theorem turned_away : ∃ (history : List Statement) (tokenSet : CodeTokens) (csrfBytes : Bytes)
    (sessionId userId : String) (now dbNow : ℤ),
    (Tables.seed.after history).sessions sessionId = none ∧
    userId ∉ (Tables.seed.after history).users.map User.id ∧
    ¬ LoggedIn (Tables.seed.after history) sessionId
        (userSessionInput tokenSet (randomToken csrfBytes) now)
        (createUserSession (Tables.seed.after history) sessionId userId
          (userSessionInput tokenSet (randomToken csrfBytes) now) dbNow) := by
  refine ⟨history, tokenSet "google-oauth2|22", [2], "5a0d7c52-5f6b-4c38-9b44-0d6f2a1f7c03",
    "5a0d7c52-5f6b-4c38-9b44-0d6f2a1f7c04", 1000, 1005, by decide +kernel, by decide +kernel, ?_⟩
  intro hloggedIn
  have hraised : (createUserSession (Tables.seed.after history)
      "5a0d7c52-5f6b-4c38-9b44-0d6f2a1f7c03" "5a0d7c52-5f6b-4c38-9b44-0d6f2a1f7c04"
      (input "google-oauth2|22") 1005).2 = .error (.unique "users_email_key") := by
    decide +kernel
  have hreturned := hraised.symm.trans hloggedIn.returned
  simp at hreturned

/-- With the subject that she has, she can. -/
theorem let_in : LoggedIn (Tables.seed.after history) "5a0d7c52-5f6b-4c38-9b44-0d6f2a1f7c03"
    (input "auth0|11")
    (createUserSession (Tables.seed.after history) "5a0d7c52-5f6b-4c38-9b44-0d6f2a1f7c03"
      "5a0d7c52-5f6b-4c38-9b44-0d6f2a1f7c04" (input "auth0|11") 1005) := by
  refine (login_succeeds_iff history (tokenSet "auth0|11") [2] _ _ 1000 1005 (by decide +kernel)
    (by decide +kernel)).mpr ⟨?_, ?_, 3601000, ?_, by decide⟩
  · show ∀ user ∈ (Tables.seed.after history).users, user.email = (input "auth0|11").email →
      user.auth0Sub = (input "auth0|11").auth0Sub
    decide +kernel
  · show ∀ text ∈ [(input "auth0|11").auth0Sub, (input "auth0|11").email,
      (input "auth0|11").displayName], '\x00' ∉ text.toList
    decide +kernel
  · have hseconds : (3600 : ℤ).natAbs ≤ 8640000000000 := by decide
    exact Date.after_intCast hseconds (by decide)

end CommercePlatform.Bff.OneAddress
