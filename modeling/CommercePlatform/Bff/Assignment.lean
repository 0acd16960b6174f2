/-
What a membership request reports.

The two writes of `upsertUserGroupMembership` are statements of their own, not a transaction, and
the connection may be lost at each: the call then fails, whether the statement was executed or
not.  The second is an `INSERT … SELECT` that inserts nothing where no group has the code, and
the answer is `ok` all the same.

Here a user has the time of its last update, so that a write that repeats what is stored is told
from none.
-/
import CommercePlatform.Bff.Administration

namespace CommercePlatform.Bff

open Js

/-! ### The statements -/

/-- The tables, with `updated_at` of the users. -/
structure Identity where
  tables : Tables
  updatedAt : String → ℤ

/-- The connection that a statement is sent over. -/
inductive Connection where
  | kept
  /-- It is lost, after the statement is executed or before. -/
  | lost (executed : Bool)
  deriving DecidableEq

def connectionLost : Error := .thrown "Connection terminated unexpectedly"

/-- The statement over the connection. -/
def Connection.send {α : Type} (connection : Connection) (identity : Identity)
    (statement : Identity → Identity × Except Error α) : Identity × Except Error α :=
  match connection with
  | .kept => statement identity
  | .lost true => ((statement identity).1, .error connectionLost)
  | .lost false => (identity, .error connectionLost)

/-- The connections of the query and of the two writes. -/
structure Network where
  authorizations : Connection
  upsertUser : Connection
  insertMembership : Connection

def Identity.upsertUser (identity : Identity) (user : User) (now : ℤ) :
    Option (Identity × String) :=
  (identity.tables.upsertUser user).map fun result =>
    ({ tables := result.1, updatedAt := Function.update identity.updatedAt result.2 now }, result.2)

def Identity.insertMembership (identity : Identity) (userId : String) (groupCode : Option String) :
    Identity :=
  { identity with tables := identity.tables.insertMembership userId groupCode }

variable [Platform]

/-- The first write of `upsertUserGroupMembership`. -/
def upsertUserStatement (userId : String) (body : Json) (now : ℤ) (identity : Identity) :
    Identity × Except Error String :=
  match membershipUser userId body with
  | .error e => (identity, .error e)
  | .ok user =>
      match identity.upsertUser user now with
      | none => (identity, .error (.unique (userConstraint identity.tables user)))
      | some (identity', id) => (identity', .ok id)

/-- The second. -/
def insertMembershipStatement (id : String) (body : Json) (identity : Identity) :
    Identity × Except Error Unit :=
  match body.get "groupCode" >>= textParam with
  | .error e => (identity, .error e)
  | .ok groupCode => (identity.insertMembership id groupCode, .ok ())

/-- `upsertUserGroupMembership`. -/
def upsertMembership (identity : Identity) (userId : String) (body : Json) (now : ℤ)
    (network : Network) : Identity × Except Error Unit :=
  if body = .null then (identity, .error (.typeError "auth0Sub"))
  else
    match network.upsertUser.send identity (upsertUserStatement userId body now) with
    | (identity', .error e) => (identity', .error e)
    | (identity', .ok id) =>
        network.insertMembership.send identity' (insertMembershipStatement id body)

/-- `assignGroupMembershipController`. -/
def assignGroupMembership (identity : Identity) (input : MembershipRequest) (now : ℤ)
    (network : Network) : Identity × Except Error Reply :=
  if ¬ requireCsrf input.request input.session then
    (identity, .ok (.refused 403 "CSRF validation failed"))
  else if network.authorizations ≠ .kept then (identity, .error connectionLost)
  else if "MODIFY" ∉ (identity.tables.getUserAuthorizations input.session.auth0Sub).privileges then
    (identity, .ok (.refused 403 "Insufficient privileges"))
  else
    match input.body with
    | none => (identity, .error (.typeError "auth0Sub"))
    | some body =>
        match upsertMembership identity input.userId body now network with
        | (identity', .error e) => (identity', .error e)
        | (identity', .ok ()) => (identity', .ok .ok)

/-- Over connections that hold, it is what it is on the tables. -/
theorem upsertMembership_kept (identity : Identity) (userId : String) (body : Json) (now : ℤ) :
    Prod.map Identity.tables id (upsertMembership identity userId body now ⟨.kept, .kept, .kept⟩) =
      upsertUserGroupMembership identity.tables userId body := by
  unfold upsertMembership upsertUserGroupMembership
  by_cases hnull : body = .null
  · subst hnull
    rfl
  · rw [if_neg hnull]
    simp only [Connection.send, upsertUserStatement, Identity.upsertUser]
    cases hmember : membershipUser userId body with
    | error e => rfl
    | ok user =>
        cases hupsert : identity.tables.upsertUser user with
        | none => simp [hupsert]
        | some result =>
            simp only [hupsert, Option.map_some, insertMembershipStatement]
            cases body.get "groupCode" >>= textParam with
            | error e => rfl
            | ok groupCode => rfl

theorem assignGroupMembership_kept (identity : Identity) (input : MembershipRequest) (now : ℤ) :
    Prod.map Identity.tables id (assignGroupMembership identity input now ⟨.kept, .kept, .kept⟩) =
      assignGroupMembershipController identity.tables input := by
  unfold assignGroupMembership assignGroupMembershipController
  split
  · rfl
  rw [if_neg (not_not.mpr rfl)]
  split
  · rfl
  cases input.body with
  | none => rfl
  | some body =>
      dsimp only
      rw [← upsertMembership_kept identity input.userId body now]
      obtain ⟨identity', result⟩ := upsertMembership identity input.userId body now ⟨.kept, .kept, .kept⟩
      cases result with
      | error e => rfl
      | ok _ => rfl

/-! ### What the writes change -/

section Writes

variable {tables tables' : Tables} {user : User} {userId auth0Sub : String}
  {groupCode : Option String}

namespace Tables

omit [Platform] in
/-- A membership changes nothing where the user is in every group of the code. -/
theorem insertMembership_eq_self_iff :
    tables.insertMembership userId groupCode = tables ↔
      ∀ group ∈ tables.groups, groupCode = some group.code →
        { userId := userId, groupId := group.id } ∈ tables.userGroup := by
  constructor
  · intro hsame group hgroup hcode
    rw [← hsame]
    exact mem_insertMembership.mpr (Or.inr ⟨rfl, group, hgroup, hcode, rfl⟩)
  · intro hmembers
    have hnone : ((tables.groups.filter fun group => some group.code = groupCode).map
        fun group => { userId := userId, groupId := group.id : UserGroup }).filter
          (fun row => row ∉ tables.userGroup) = [] := by
      refine List.filter_eq_nil_iff.mpr fun membership hmembership => ?_
      obtain ⟨group, hgroup, rfl⟩ := List.mem_map.mp hmembership
      obtain ⟨hgroup, hcode⟩ := List.mem_filter.mp hgroup
      simpa using hmembers group hgroup (of_decide_eq_true hcode).symm
    show { tables with userGroup := tables.userGroup ++ _ } = tables
    rw [hnone, List.append_nil]

omit [Platform] in
theorem authorizationRows_upsertUser (hkeyed : tables.Keyed)
    (h : tables.upsertUser user = some (tables', userId)) (hother : auth0Sub ≠ user.auth0Sub) :
    tables'.authorizationRows auth0Sub = tables.authorizationRows auth0Sub := by
  unfold authorizationRows privilegesOf
  rw [hkeyed.filter_upsertUser h hother, frame_upsertUser h]

omit [Platform] in
theorem authorizationRows_insertMembership (hkeyed : tables.Keyed)
    {auth0Sub' : String} (haccount : (userId, auth0Sub') ∈ tables.accounts)
    (hother : auth0Sub ≠ auth0Sub') :
    (tables.insertMembership userId groupCode).authorizationRows auth0Sub =
      tables.authorizationRows auth0Sub := by
  have hmemberships : ∀ row ∈ tables.users, row.auth0Sub = auth0Sub →
      ((tables.insertMembership userId groupCode).userGroup.filter fun ug => ug.userId = row.id) =
        tables.userGroup.filter fun ug => ug.userId = row.id := by
    intro row hrow hsub
    show (tables.userGroup ++ _).filter _ = _
    rw [List.filter_append]
    refine (congrArg (_ ++ ·) (List.filter_eq_nil_iff.mpr ?_)).trans (List.append_nil _)
    intro membership hmembership hid
    obtain ⟨group, -, rfl⟩ := List.mem_map.mp (List.mem_filter.mp hmembership).1
    obtain ⟨user, huser, haccount⟩ := List.mem_map.mp haccount
    obtain ⟨hid', rfl⟩ := Prod.mk.inj haccount
    have hsame : user.id = row.id := hid'.trans (of_decide_eq_true hid)
    rw [List.inj_on_of_nodup_map hkeyed.ids huser hrow hsame] at hother
    exact hother hsub.symm
  show List.flatMap _ (tables.users.filter _) = List.flatMap _ (tables.users.filter _)
  refine List.flatMap_congr fun row hrow => ?_
  obtain ⟨hrow, hsub⟩ := List.mem_filter.mp hrow
  rw [hmemberships row hrow (of_decide_eq_true hsub)]
  rfl

end Tables

end Writes

/-! ### What `ok` says -/

/-- The user is in the group, and otherwise may do what it could; others are as they were. -/
structure Assigned (before after : Tables) (auth0Sub : String) (groupCode : Option String) :
    Prop where
  group : ∃ code, groupCode = some code ∧ code ∈ (after.getUserAuthorizations auth0Sub).groups
  privileges : ∀ group ∈ before.groups, groupCode = some group.code →
    ∀ row ∈ before.privilegesOf group, row.2 ∈ (after.getUserAuthorizations auth0Sub).privileges
  groupsKept : ∀ code ∈ (before.getUserAuthorizations auth0Sub).groups,
    code ∈ (after.getUserAuthorizations auth0Sub).groups
  privilegesKept : ∀ privilege ∈ (before.getUserAuthorizations auth0Sub).privileges,
    privilege ∈ (after.getUserAuthorizations auth0Sub).privileges
  others : ∀ auth0Sub', auth0Sub' ≠ auth0Sub →
    after.getUserAuthorizations auth0Sub' = before.getUserAuthorizations auth0Sub'

/-- The code is that of a group that may do something. -/
def Tables.Names (tables : Tables) (groupCode : Option String) : Prop :=
  ∃ group ∈ tables.groups, groupCode = some group.code ∧ tables.privilegesOf group ≠ []

section Assigned

variable {tables tables' : Tables} {user : User} {userId : String} {groupCode : Option String}

omit [Platform] in
theorem Tables.fst_of_mem_privilegesOf {group : Coded} {row : String × String}
    (h : row ∈ tables.privilegesOf group) : row.1 = group.code := by
  obtain ⟨_, -, h⟩ := List.mem_flatMap.mp h
  obtain ⟨_, -, rfl⟩ := List.mem_map.mp h
  rfl

omit [Platform] in
/-- What the user of the subject may do after both writes. -/
theorem mem_authorizationRows_of_writes
    (hupsert : tables.upsertUser user = some (tables', userId)) {row : String × String}
    (hrow : row ∈ tables.authorizationRows user.auth0Sub ∨
      ∃ group ∈ tables.groups, groupCode = some group.code ∧ row ∈ tables.privilegesOf group) :
    row ∈ (tables'.insertMembership userId groupCode).authorizationRows user.auth0Sub := by
  have hframe := Tables.frame_upsertUser hupsert
  have hgroups : tables'.groups = tables.groups := by rw [hframe]
  have huserGroup : tables'.userGroup = tables.userGroup := by rw [hframe]
  have hprivilegesOf : ∀ group, tables'.privilegesOf group = tables.privilegesOf group := by
    intro group
    rw [hframe]
    rfl
  rcases hrow with hbefore | ⟨group, hgroup, hcode, hrow⟩
  · obtain ⟨id, haccount, group, hgroup, hmembership, hrow⟩ :=
      Tables.mem_authorizationRows.mp hbefore
    refine Tables.mem_authorizationRows.mpr ⟨id, ?_, group, ?_, ?_, ?_⟩
    · show (id, user.auth0Sub) ∈ tables'.accounts
      rcases Tables.accounts_upsertUser hupsert with ⟨hsame, -⟩ | ⟨happend, -⟩
      · rw [hsame]
        exact haccount
      · rw [happend]
        exact List.mem_append_left _ haccount
    · show group ∈ tables'.groups
      rw [hgroups]
      exact hgroup
    · refine Tables.mem_insertMembership.mpr (Or.inl ?_)
      rw [huserGroup]
      exact hmembership
    · show row ∈ tables'.privilegesOf group
      rw [hprivilegesOf]
      exact hrow
  · refine Tables.mem_authorizationRows.mpr ⟨userId, ?_, group, ?_, ?_, ?_⟩
    · show (userId, user.auth0Sub) ∈ tables'.accounts
      exact Tables.account_of_upsertUser hupsert
    · show group ∈ tables'.groups
      rw [hgroups]
      exact hgroup
    · refine Tables.mem_insertMembership.mpr (Or.inr ⟨rfl, group, ?_, hcode, rfl⟩)
      rw [hgroups]
      exact hgroup
    · show row ∈ tables'.privilegesOf group
      rw [hprivilegesOf]
      exact hrow

omit [Platform] in
/-- **The two writes do what `ok` says just where the code is that of a group that may do
something.** -/
theorem assigned_iff (hkeyed : tables.Keyed)
    (hupsert : tables.upsertUser user = some (tables', userId)) :
    Assigned tables (tables'.insertMembership userId groupCode) user.auth0Sub groupCode ↔
      tables.Names groupCode := by
  constructor
  · intro hassigned
    obtain ⟨code, hcode, hmem⟩ := hassigned.group
    obtain ⟨row, hrow, rfl⟩ := List.mem_map.mp (List.mem_eraseDups.mp hmem)
    obtain ⟨_, -, group, hgroup, -, hrow⟩ := Tables.mem_authorizationRows.mp hrow
    have hframe := Tables.frame_upsertUser hupsert
    refine ⟨group, ?_, ?_, ?_⟩
    · have hgroup' : group ∈ tables'.groups := hgroup
      rw [hframe] at hgroup'
      exact hgroup'
    · rw [hcode, Tables.fst_of_mem_privilegesOf hrow]
    · have hrow' : row ∈ tables'.privilegesOf group := hrow
      rw [hframe] at hrow'
      exact List.ne_nil_of_mem hrow'
  · rintro ⟨group, hgroup, hcode, hprivileges⟩
    refine ⟨?_, ?_, ?_, ?_, ?_⟩
    · obtain ⟨row, hrow⟩ := List.exists_mem_of_ne_nil _ hprivileges
      refine ⟨group.code, hcode, List.mem_eraseDups.mpr ?_⟩
      rw [← Tables.fst_of_mem_privilegesOf hrow]
      apply List.mem_map_of_mem
      exact mem_authorizationRows_of_writes hupsert (Or.inr ⟨group, hgroup, hcode, hrow⟩)
    · intro group' hgroup' hcode' row hrow
      refine List.mem_eraseDups.mpr (List.mem_map_of_mem ?_)
      exact mem_authorizationRows_of_writes hupsert (Or.inr ⟨group', hgroup', hcode', hrow⟩)
    · intro code hmem
      obtain ⟨row, hrow, rfl⟩ := List.mem_map.mp (List.mem_eraseDups.mp hmem)
      refine List.mem_eraseDups.mpr (List.mem_map_of_mem ?_)
      exact mem_authorizationRows_of_writes hupsert (Or.inl hrow)
    · intro privilege hmem
      obtain ⟨row, hrow, rfl⟩ := List.mem_map.mp (List.mem_eraseDups.mp hmem)
      refine List.mem_eraseDups.mpr (List.mem_map_of_mem ?_)
      exact mem_authorizationRows_of_writes hupsert (Or.inl hrow)
    · intro auth0Sub' hother
      unfold Tables.getUserAuthorizations
      rw [Tables.authorizationRows_insertMembership (hkeyed.upsertUser hupsert)
        (Tables.account_of_upsertUser hupsert) hother,
        Tables.authorizationRows_upsertUser hkeyed hupsert hother]

end Assigned

/-! ### Writes that change nothing -/

/-- The first write would store what is stored. -/
structure Repeats (identity : Identity) (user row : User) (now : ℤ) : Prop where
  mem : row ∈ identity.tables.users
  auth0Sub : row.auth0Sub = user.auth0Sub
  email : row.email = user.email
  displayName : row.displayName = user.displayName
  updatedAt : identity.updatedAt row.id = now

section Repeats

variable {identity identity' : Identity} {user row : User} {now : ℤ} {userId : String}

omit [Platform] in
theorem Identity.upsertUser_eq_some
    (h : identity.upsertUser user now = some (identity', userId)) :
    identity.tables.upsertUser user = some (identity'.tables, userId) ∧
      identity'.updatedAt = Function.update identity.updatedAt userId now := by
  obtain ⟨⟨tables', id⟩, hupsert, h⟩ := Option.map_eq_some_iff.mp h
  obtain ⟨rfl, rfl⟩ := Prod.mk.inj h
  exact ⟨hupsert, rfl⟩

omit [Platform] in
theorem Repeats.of_eq (hkeyed : identity.tables.Keyed)
    (hupsert : identity.upsertUser user now = some (identity', userId))
    (hsame : identity' = identity) : ∃ row, Repeats identity user row now ∧ row.id = userId := by
  subst hsame
  obtain ⟨hupsert, hupdatedAt⟩ := Identity.upsertUser_eq_some hupsert
  rcases Tables.upsertUser_cases hupsert with ⟨-, happend, -⟩ | ⟨old, hold, hsub, rfl, hmap, -⟩
  · have hlength := congrArg (fun tables => tables.users.length) happend
    simp at hlength
  · have hupdated : { old with email := user.email, displayName := user.displayName } ∈
        identity'.tables.users := by
      rw [hmap]
      exact List.mem_map.mpr ⟨old, hold, if_pos rfl⟩
    have hrow := List.inj_on_of_nodup_map hkeyed.ids hupdated hold rfl
    refine ⟨old, ⟨hold, hsub, ?_, ?_, ?_⟩, rfl⟩
    · rw [← hrow]
    · rw [← hrow]
    · rw [hupdatedAt]
      exact Function.update_self _ _ _

omit [Platform] in
theorem Repeats.eq (hkeyed : identity.tables.Keyed) (h : Repeats identity user row now)
    (hupsert : identity.upsertUser user now = some (identity', userId)) :
    identity' = identity ∧ userId = row.id := by
  obtain ⟨hupsert, hupdatedAt⟩ := Identity.upsertUser_eq_some hupsert
  rcases Tables.upsertUser_cases hupsert with ⟨-, -, hfree⟩ | ⟨old, hold, hsub, rfl, hmap, -⟩
  · exact absurd h.auth0Sub (hfree row h.mem).1
  · have hrow := List.inj_on_of_nodup_map hkeyed.subs hold h.mem (hsub.trans h.auth0Sub.symm)
    subst hrow
    refine ⟨?_, rfl⟩
    have husers : (identity.tables.users.map fun row =>
        if row.id = old.id then { row with email := user.email, displayName := user.displayName }
        else row) = identity.tables.users := by
      refine (List.map_congr_left fun row hrow => ?_).trans (List.map_id _)
      split
      · rename_i hid
        rw [List.inj_on_of_nodup_map hkeyed.ids hrow hold hid, ← h.email, ← h.displayName]
        rfl
      · rfl
    rw [husers] at hmap
    rw [Function.update_eq_self_iff.mpr h.updatedAt.symm] at hupdatedAt
    cases identity'
    cases identity
    simp only at hmap hupdatedAt
    rw [hmap, hupdatedAt]

end Repeats

/-! ### When the report is right -/

/-- What the answer to a request says of the tables: `ok` that it is done, an error that nothing is. -/
structure Reported (before : Identity) (input : MembershipRequest)
    (result : Identity × Except Error Reply) : Prop where
  done : result.2 = .ok .ok → ∃ auth0Sub, input.target = some auth0Sub ∧
    Assigned before.tables result.1.tables auth0Sub input.groupCode
  undone : ∀ e, result.2 = .error e → result.1 = before

/-- No write is executed: a connection is lost before, or there is no user that can be written. -/
def Unwritten (identity : Identity) (input : MembershipRequest) (network : Network) : Prop :=
  network.authorizations ≠ .kept ∨ network.upsertUser = .lost false ∨
    ∀ body user, input.body = some body → membershipUser input.userId body = .ok user →
      ∃ row ∈ identity.tables.users, row.email = user.email ∧ row.auth0Sub ≠ user.auth0Sub

/-- The call fails after the first write, and has not written a membership since. -/
def Broken (tables : Tables) (input : MembershipRequest) (network : Network) (row : User) : Prop :=
  network.upsertUser ≠ .kept ∨ network.insertMembership = .lost false ∨
    (∀ body groupCode, input.body = some body → (body.get "groupCode" >>= textParam) ≠ .ok groupCode) ∨
    network.insertMembership ≠ .kept ∧ ∀ group ∈ tables.groups, input.groupCode = some group.code →
      { userId := row.id, groupId := group.id } ∈ tables.userGroup

/--
Either nothing is written, or everything is and the code is that of a group that may do
something, or what is written before an error is there already.
-/
def Harmless (identity : Identity) (input : MembershipRequest) (now : ℤ) (network : Network) :
    Prop :=
  Unwritten identity input network ∨
    network.upsertUser = .kept ∧ network.insertMembership = .kept ∧
      identity.tables.Names input.groupCode ∨
    ∃ body user row, input.body = some body ∧ membershipUser input.userId body = .ok user ∧
      Repeats identity user row now ∧ Broken identity.tables input network row

section Report

variable {identity identity' : Identity} {input : MembershipRequest} {now : ℤ} {network : Network}
  {body : Json} {user : User} {userId : String}

theorem groupCode_of_body (hbody : input.body = some body) {groupCode : Option String}
    (hcode : (body.get "groupCode" >>= textParam) = .ok groupCode) :
    input.groupCode = groupCode := by
  unfold MembershipRequest.groupCode
  rw [hbody]
  simp [hcode, Except.toOption]

theorem target_of_body (hbody : input.body = some body)
    (hmember : membershipUser input.userId body = .ok user) :
    input.target = some user.auth0Sub := by
  unfold MembershipRequest.target
  rw [hbody]
  exact auth0Sub_of_membershipUser hmember

theorem id_of_membershipUser (h : membershipUser userId body = .ok user) : user.id = userId := by
  obtain ⟨_, -, h⟩ := bind_eq_ok.mp h
  obtain ⟨_, -, h⟩ := bind_eq_ok.mp h
  obtain ⟨_, -, h⟩ := bind_eq_ok.mp h
  obtain ⟨_, -, h⟩ := bind_eq_ok.mp h
  obtain ⟨_, -, h⟩ := bind_eq_ok.mp h
  obtain ⟨_, -, h⟩ := bind_eq_ok.mp h
  obtain ⟨_, -, h⟩ := bind_eq_ok.mp h
  rw [← Except.ok.inj h]

/-- An error is right where it leaves what there was. -/
theorem reported_error_iff {result : Identity × Except Error Reply} {e : Error}
    (hresult : result = (identity', .error e)) :
    Reported identity input result ↔ identity' = identity := by
  subst hresult
  constructor
  · intro h
    exact h.undone e rfl
  · intro hsame
    exact ⟨fun hdone => by simp at hdone, fun _ _ => hsame⟩

theorem reported_ok_iff {result : Identity × Except Error Reply} {auth0Sub : String}
    (htarget : input.target = some auth0Sub) (hresult : result = (identity', .ok .ok)) :
    Reported identity input result ↔
      Assigned identity.tables identity'.tables auth0Sub input.groupCode := by
  subst hresult
  constructor
  · intro h
    obtain ⟨auth0Sub', htarget', hassigned⟩ := h.done rfl
    rw [htarget] at htarget'
    rw [Option.some.inj htarget']
    exact hassigned
  · intro hassigned
    exact ⟨fun _ => ⟨auth0Sub, htarget, hassigned⟩, fun e he => by simp at he⟩

omit [Platform] in
/-- A statement that raises without a change fails so over any connection. -/
theorem Connection.send_error (connection : Connection) {α : Type}
    {statement : Identity → Identity × Except Error α} {e : Error}
    (hstatement : statement identity = (identity, .error e)) :
    ∃ e', connection.send identity statement = (identity, .error e') := by
  cases connection with
  | kept => exact ⟨e, hstatement⟩
  | lost executed =>
      cases executed with
      | false => exact ⟨connectionLost, rfl⟩
      | true => exact ⟨connectionLost, by rw [Connection.send, hstatement]⟩

/-- The first statement raises and changes nothing, or it writes the user. -/
theorem upsertUserStatement_cases (identity : Identity) (userId : String) (body : Json) (now : ℤ) :
    (∃ e, upsertUserStatement userId body now identity = (identity, .error e)) ∧
        (∀ user, membershipUser userId body = .ok user → identity.upsertUser user now = none) ∨
      ∃ user identity' id, membershipUser userId body = .ok user ∧
        identity.upsertUser user now = some (identity', id) ∧
        upsertUserStatement userId body now identity = (identity', .ok id) := by
  unfold upsertUserStatement
  cases hmember : membershipUser userId body with
  | error e => exact Or.inl ⟨⟨e, rfl⟩, fun user h => by simp at h⟩
  | ok user =>
      dsimp only
      cases hupsert : identity.upsertUser user now with
      | none =>
          refine Or.inl ⟨⟨_, rfl⟩, fun user' h => ?_⟩
          rw [← Except.ok.inj h]
          exact hupsert
      | some result => exact Or.inr ⟨user, result.1, result.2, rfl, hupsert, rfl⟩

/-- The user of a body is kept out by its address alone. -/
theorem upsertUser_eq_none_iff (hkeyed : identity.tables.Keyed)
    (huser : input.userId ∉ identity.tables.users.map User.id)
    (hmember : membershipUser input.userId body = .ok user) :
    identity.upsertUser user now = none ↔
      ∃ row ∈ identity.tables.users, row.email = user.email ∧ row.auth0Sub ≠ user.auth0Sub := by
  unfold Identity.upsertUser
  rw [Option.map_eq_none_iff]
  apply hkeyed.upsertUser_eq_none_iff
  rw [id_of_membershipUser hmember]
  exact huser

/-- A call either ends before it writes, or comes to its second write. -/
theorem assignGroupMembership_cases (hkeyed : identity.tables.Keyed)
    (hcsrf : requireCsrf input.request input.session = true)
    (hmodify : "MODIFY" ∈
      (identity.tables.getUserAuthorizations input.session.auth0Sub).privileges)
    (huser : input.userId ∉ identity.tables.users.map User.id) :
    (Unwritten identity input network ∧
      ∃ e, assignGroupMembership identity input now network = (identity, .error e)) ∨
    ¬ Unwritten identity input network ∧ ∃ body user identity' id, input.body = some body ∧
      membershipUser input.userId body = .ok user ∧
      identity.upsertUser user now = some (identity', id) ∧
      (network.upsertUser = .lost true ∧ assignGroupMembership identity input now network =
          (identity', .error connectionLost) ∨
        network.upsertUser = .kept ∧ assignGroupMembership identity input now network =
          Prod.map (fun identity => identity) (Except.map fun _ => Reply.ok)
            (network.insertMembership.send identity' (insertMembershipStatement id body))) := by
  unfold assignGroupMembership
  rw [if_neg (not_not.mpr hcsrf)]
  by_cases hread : network.authorizations = .kept
  swap
  · exact Or.inl ⟨Or.inl hread, _, if_pos hread⟩
  rw [if_neg (not_not.mpr hread), if_neg (not_not.mpr hmodify)]
  cases hbody : input.body with
  | none =>
      refine Or.inl ⟨Or.inr (Or.inr fun body user h => ?_), _, rfl⟩
      rw [hbody] at h
      simp at h
  | some body =>
      dsimp only
      unfold upsertMembership
      by_cases hnull : body = .null
      · subst hnull
        refine Or.inl ⟨Or.inr (Or.inr fun body user h hmember => ?_), _, rfl⟩
        rw [hbody] at h
        rw [← Option.some.inj h] at hmember
        simp [membershipUser, Json.get, bind, Except.bind] at hmember
      rw [if_neg hnull]
      rcases upsertUserStatement_cases identity input.userId body now with
        ⟨⟨e, hstatement⟩, hnone⟩ | ⟨user, identity', id, hmember, hupsert, hstatement⟩
      · obtain ⟨e', hsend⟩ := network.upsertUser.send_error hstatement
        refine Or.inl ⟨Or.inr (Or.inr fun body' user h hmember => ?_), e', by rw [hsend]⟩
        obtain rfl := Option.some.inj (hbody.symm.trans h)
        exact (upsertUser_eq_none_iff hkeyed huser hmember).mp (hnone user hmember)
      have hwritten : network.upsertUser ≠ .lost false → ¬ Unwritten identity input network := by
        rintro hsent (hlost | hunsent | htaken)
        · exact hlost hread
        · exact hsent hunsent
        · have hnone : identity.upsertUser user now = none :=
            (upsertUser_eq_none_iff hkeyed huser hmember).mpr (htaken body user hbody hmember)
          rw [hupsert] at hnone
          simp at hnone
      cases hconnection : network.upsertUser with
      | kept =>
          refine Or.inr ⟨hwritten (by simp [hconnection]), body, user, identity', id, rfl,
            hmember, hupsert, Or.inr ⟨rfl, ?_⟩⟩
          have hsend : Connection.kept.send identity
              (upsertUserStatement input.userId body now) = (identity', .ok id) := hstatement
          rw [hsend]
          dsimp only
          obtain ⟨identity'', result⟩ := network.insertMembership.send identity'
            (insertMembershipStatement id body)
          cases result with
          | error e => rfl
          | ok _ => rfl
      | lost executed =>
          cases executed with
          | false => exact Or.inl ⟨Or.inr (Or.inl hconnection), _, rfl⟩
          | true =>
              refine Or.inr ⟨hwritten (by simp [hconnection]), body, user, identity', id,
                rfl, hmember, hupsert, Or.inl ⟨rfl, ?_⟩⟩
              simp only [Connection.send, hstatement]

/-- A call that writes, and not all that it is to write, is harmless only as one that repeats. -/
theorem Harmless.repeats (h : Harmless identity input now network)
    (hwritten : ¬ Unwritten identity input network)
    (hunserved : ¬ (network.upsertUser = .kept ∧ network.insertMembership = .kept ∧
      identity.tables.Names input.groupCode))
    (hbody : input.body = some body) (hmember : membershipUser input.userId body = .ok user) :
    ∃ row, Repeats identity user row now ∧ Broken identity.tables input network row := by
  rcases h with hunwritten | hserved | ⟨body', user', row, hbody', hmember', hrepeats, hbroken⟩
  · exact absurd hunwritten hwritten
  · exact absurd hserved hunserved
  · rw [hbody] at hbody'
    obtain rfl := Option.some.inj hbody'
    rw [hmember] at hmember'
    obtain rfl := Except.ok.inj hmember'
    exact ⟨row, hrepeats, hbroken⟩

/-- A call that comes to its second write breaks there, and has no membership to write. -/
theorem Broken.members {tables : Tables} {row : User} (h : Broken tables input network row)
    (hconnection : network.upsertUser = .kept) (hexecuted : network.insertMembership ≠ .lost false)
    (hbody : input.body = some body) {groupCode : Option String}
    (hcode : (body.get "groupCode" >>= textParam) = .ok groupCode) :
    network.insertMembership ≠ .kept ∧ ∀ group ∈ tables.groups, groupCode = some group.code →
      { userId := row.id, groupId := group.id } ∈ tables.userGroup := by
  rcases h with hlost | hlost | hrefused | hmembers
  · exact absurd hconnection hlost
  · exact absurd hlost hexecuted
  · exact absurd hcode (hrefused body groupCode hbody)
  · rw [groupCode_of_body hbody hcode] at hmembers
    exact hmembers

/-- What is written before an error is right where it was there already. -/
theorem reported_iff_of_broken (hkeyed : identity.tables.Keyed)
    (hwritten : ¬ Unwritten identity input network) (hbody : input.body = some body)
    (hmember : membershipUser input.userId body = .ok user)
    (hupsert : identity.upsertUser user now = some (identity', userId))
    (hbroken : ∀ row, Broken identity.tables input network row)
    (hunserved : ¬ (network.upsertUser = .kept ∧ network.insertMembership = .kept ∧
      identity.tables.Names input.groupCode))
    {result : Identity × Except Error Reply} {e : Error} (hresult : result = (identity', .error e)) :
    Reported identity input result ↔ Harmless identity input now network := by
  rw [reported_error_iff hresult]
  constructor
  · intro hsame
    obtain ⟨row, hrepeats, -⟩ := Repeats.of_eq hkeyed hupsert hsame
    exact Or.inr (Or.inr ⟨body, user, row, hbody, hmember, hrepeats, hbroken row⟩)
  · intro hharmless
    obtain ⟨row, hrepeats, -⟩ := hharmless.repeats hwritten hunserved hbody hmember
    exact (hrepeats.eq hkeyed hupsert).1

omit [Platform] in
/-- The second write does not undo the first. -/
theorem eq_of_insertMembership_eq {groupCode : Option String}
    (hupsert : identity.upsertUser user now = some (identity', userId))
    (hsame : identity'.insertMembership userId groupCode = identity) : identity' = identity := by
  have husers : identity'.tables.users = identity.tables.users :=
    congrArg (fun identity => identity.tables.users) hsame
  have hupdatedAt : (identity'.insertMembership userId groupCode).updatedAt =
      identity.updatedAt := congrArg Identity.updatedAt hsame
  change identity'.updatedAt = identity.updatedAt at hupdatedAt
  have hframe := Tables.frame_upsertUser (Identity.upsertUser_eq_some hupsert).1
  rw [husers] at hframe
  cases identity'
  cases identity
  simp only at hframe hupdatedAt
  rw [hframe, hupdatedAt]

/-- Both writes are executed, and the answer to the second is lost. -/
theorem reported_iff_of_lost (hkeyed : identity.tables.Keyed)
    (hwritten : ¬ Unwritten identity input network) (hbody : input.body = some body)
    (hmember : membershipUser input.userId body = .ok user)
    (hupsert : identity.upsertUser user now = some (identity', userId))
    (hconnection : network.upsertUser = .kept) (hinsert : network.insertMembership = .lost true)
    {groupCode : Option String} (hcode : (body.get "groupCode" >>= textParam) = .ok groupCode)
    {result : Identity × Except Error Reply} {e : Error}
    (hresult : result = (identity'.insertMembership userId groupCode, .error e)) :
    Reported identity input result ↔ Harmless identity input now network := by
  rw [reported_error_iff hresult]
  constructor
  · intro hsame
    have hfirst := eq_of_insertMembership_eq hupsert hsame
    obtain ⟨row, hrepeats, rfl⟩ := Repeats.of_eq hkeyed hupsert hfirst
    rw [hfirst] at hsame
    have hmembers := Tables.insertMembership_eq_self_iff.mp (congrArg Identity.tables hsame)
    rw [← groupCode_of_body hbody hcode] at hmembers
    refine Or.inr (Or.inr ⟨body, user, row, hbody, hmember, hrepeats, ?_⟩)
    exact Or.inr (Or.inr (Or.inr ⟨by simp [hinsert], hmembers⟩))
  · intro hharmless
    obtain ⟨row, hrepeats, hbroken⟩ :=
      hharmless.repeats hwritten (by simp [hinsert]) hbody hmember
    obtain ⟨rfl, rfl⟩ := hrepeats.eq hkeyed hupsert
    obtain ⟨-, hmembers⟩ := hbroken.members hconnection (by simp [hinsert]) hbody hcode
    unfold Identity.insertMembership
    rw [Tables.insertMembership_eq_self_iff.mpr hmembers]

/-- Both writes are executed, and the answer is `ok`. -/
theorem reported_iff_of_served (hkeyed : identity.tables.Keyed)
    (hwritten : ¬ Unwritten identity input network) (hbody : input.body = some body)
    (hmember : membershipUser input.userId body = .ok user)
    (hupsert : identity.upsertUser user now = some (identity', userId))
    (hconnection : network.upsertUser = .kept) (hinsert : network.insertMembership = .kept)
    {groupCode : Option String} (hcode : (body.get "groupCode" >>= textParam) = .ok groupCode)
    {result : Identity × Except Error Reply}
    (hresult : result = (identity'.insertMembership userId groupCode, .ok .ok)) :
    Reported identity input result ↔ Harmless identity input now network := by
  have hgroupCode := groupCode_of_body hbody hcode
  rw [reported_ok_iff (target_of_body hbody hmember) hresult, hgroupCode]
  refine (assigned_iff hkeyed (Identity.upsertUser_eq_some hupsert).1).trans ?_
  constructor
  · intro hnames
    rw [← hgroupCode] at hnames
    exact Or.inr (Or.inl ⟨hconnection, hinsert, hnames⟩)
  · intro hharmless
    by_contra hunnamed
    have hunserved : ¬ (network.upsertUser = .kept ∧ network.insertMembership = .kept ∧
        identity.tables.Names input.groupCode) := by
      rw [hgroupCode]
      exact fun h => hunnamed h.2.2
    obtain ⟨row, -, hbroken⟩ := hharmless.repeats hwritten hunserved hbody hmember
    exact (hbroken.members hconnection (by simp [hinsert]) hbody hcode).1 hinsert

/--
**A report is right just where a write is harmless:** nothing is written, or all of it for a group
that there is, or only what was there.
-/
theorem reported_iff (identity : Identity) (input : MembershipRequest) (now : ℤ)
    (network : Network) (hkeyed : identity.tables.Keyed)
    (hcsrf : requireCsrf input.request input.session = true)
    (hmodify : "MODIFY" ∈
      (identity.tables.getUserAuthorizations input.session.auth0Sub).privileges)
    (huser : input.userId ∉ identity.tables.users.map User.id) :
    Reported identity input (assignGroupMembership identity input now network) ↔
      Harmless identity input now network := by
  rcases assignGroupMembership_cases hkeyed hcsrf hmodify huser with ⟨hunwritten, e, hresult⟩ |
    ⟨hwritten, body, user, identity', id, hbody, hmember, hupsert,
      ⟨hconnection, hresult⟩ | ⟨hconnection, hresult⟩⟩
  · rw [reported_error_iff hresult]
    exact ⟨fun _ => Or.inl hunwritten, fun _ => rfl⟩
  · exact reported_iff_of_broken hkeyed hwritten hbody hmember hupsert
      (fun row => Or.inl (by simp [hconnection])) (by simp [hconnection]) hresult
  · cases hcode : body.get "groupCode" >>= textParam with
    | error e =>
        have hstatement : insertMembershipStatement id body identity' = (identity', .error e) := by
          unfold insertMembershipStatement
          rw [hcode]
        obtain ⟨e', hsend⟩ := network.insertMembership.send_error hstatement
        rw [hsend] at hresult
        refine reported_iff_of_broken hkeyed hwritten hbody hmember hupsert
          (fun row => Or.inr (Or.inr (Or.inl fun body' groupCode h h' => ?_))) ?_ hresult
        · rw [hbody] at h
          rw [← Option.some.inj h, hcode] at h'
          simp at h'
        · rintro ⟨-, -, group, -, hnamed, -⟩
          unfold MembershipRequest.groupCode at hnamed
          rw [hbody] at hnamed
          simp [hcode, Except.toOption] at hnamed
    | ok groupCode =>
        have hstatement : insertMembershipStatement id body identity' =
            (identity'.insertMembership id groupCode, .ok ()) := by
          unfold insertMembershipStatement
          rw [hcode]
        cases hinsert : network.insertMembership with
        | kept =>
            rw [hinsert] at hresult
            refine reported_iff_of_served hkeyed hwritten hbody hmember hupsert hconnection hinsert
              hcode ?_
            rw [hresult]
            exact congrArg (Prod.map _ _) hstatement
        | lost executed =>
            rw [hinsert] at hresult
            cases executed with
            | false =>
                exact reported_iff_of_broken hkeyed hwritten hbody hmember hupsert
                  (fun row => Or.inr (Or.inl hinsert)) (by simp [hinsert]) hresult
            | true =>
                have hlost : assignGroupMembership identity input now network =
                    (identity'.insertMembership id groupCode, .error connectionLost) := by
                  rw [hresult, Connection.send, hstatement]
                  rfl
                exact reported_iff_of_lost hkeyed hwritten hbody hmember hupsert hconnection hinsert
                  hcode hlost

end Report

end CommercePlatform.Bff

/-! ### A group that there is not -/

namespace CommercePlatform.Bff.Misreport

open Js Promotion

attribute [local instance] Promotion.platform

def identity : Identity where
  tables := tables
  updatedAt _ := 0

def network : Network := ⟨.kept, .kept, .kept⟩

/-- The manager makes itself a member of a group. -/
def ownRequest (groupCode : String) : MembershipRequest :=
  request manager.auth0Sub manager.email groupCode

/-- The manager asks for a group that there is not, and is told that it is done. -/
theorem nothing_done : ∃ (identity : Identity) (input : MembershipRequest) (now : ℤ)
    (network : Network), identity.tables.Keyed ∧
    requireCsrf input.request input.session = true ∧
    "MODIFY" ∈ (identity.tables.getUserAuthorizations input.session.auth0Sub).privileges ∧
    input.userId ∉ identity.tables.users.map User.id ∧
    (assignGroupMembership identity input now network).2 = .ok .ok ∧
    ¬ Reported identity input (assignGroupMembership identity input now network) := by
  refine ⟨identity, ownRequest "OWNER", 5, network, tables_seeded.keyed, by decide +kernel,
    by decide +kernel, by decide +kernel, by decide +kernel, ?_⟩
  intro hreported
  obtain ⟨auth0Sub, htarget, hassigned⟩ := hreported.done (by decide +kernel)
  obtain ⟨code, hcode, hmem⟩ := hassigned.group
  have hmanager : (ownRequest "OWNER").target = some manager.auth0Sub := by decide +kernel
  have howner : (ownRequest "OWNER").groupCode = some "OWNER" := by decide +kernel
  obtain rfl := Option.some.inj (hmanager.symm.trans htarget)
  obtain rfl := Option.some.inj (howner.symm.trans hcode)
  exact absurd hmem (by decide +kernel)

/-- It asks for one that there is. -/
theorem member_made : Reported identity (ownRequest "USER")
    (assignGroupMembership identity (ownRequest "USER") 5 network) := by
  refine (reported_iff identity (ownRequest "USER") 5 network tables_seeded.keyed (by decide +kernel)
    (by decide +kernel) (by decide +kernel)).mpr (Or.inr (Or.inl ⟨rfl, rfl, ?_⟩))
  refine ⟨{ id := "00000000-0000-0000-0000-000000000103", code := "USER" }, ?_, ?_, ?_⟩
  · decide +kernel
  · decide +kernel
  · decide +kernel

end CommercePlatform.Bff.Misreport
