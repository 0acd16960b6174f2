/-
Putting users into groups.

`POST /admin/group-memberships` asks for `MODIFY`, and for nothing else: not whether the
caller may do what the group that it names may do.  The body is whatever the client sent.
The user is written first and its membership after that, each statement on its own, so an
error in between leaves the user.
-/
import CommercePlatform.Bff.Authorizations
import CommercePlatform.Bff.Calls
import CommercePlatform.Pg.Column

namespace CommercePlatform.Bff

open Js

variable [Platform]

/-! ### The statements -/

/-- `INSERT INTO identity.user_group … SELECT … WHERE g.code = $2 ON CONFLICT DO NOTHING`. -/
def Tables.insertMembership (tables : Tables) (userId : String) (groupCode : Option String) :
    Tables :=
  let named := tables.groups.filter fun group => some group.code = groupCode
  let rows := named.map fun group => { userId := userId, groupId := group.id : UserGroup }
  { tables with
    userGroup := tables.userGroup ++ rows.filter fun row => row ∉ tables.userGroup }

/-- `body.displayName ?? body.email`. -/
def displayNameParam (body : Json) : Except Error (Option String) := do
  match ← body.get "displayName" with
  | none | some .null => textParam (← body.get "email")
  | displayName => textParam displayName

/-- The user that the first statement is given, if its parameters are texts that it takes. -/
def membershipUser (userId : String) (body : Json) : Except Error User := do
  let auth0Sub ← textParam (← body.get "auth0Sub")
  let email ← textParam (← body.get "email")
  let displayName ← displayNameParam body
  return {
    id := userId
    auth0Sub := ← notNull "auth0_sub" auth0Sub
    email := ← notNull "email" email
    displayName := displayName }

/-- The constraint that keeps a user out. -/
def userConstraint (tables : Tables) (user : User) : String :=
  if (tables.users.all fun row => row.auth0Sub ≠ user.auth0Sub) ∧
      (tables.users.any fun row => row.id = user.id) then "users_pkey"
  else "users_email_key"

/-- `upsertUserGroupMembership`, with the `userId` that is drawn for a new user. -/
def upsertUserGroupMembership (tables : Tables) (userId : String) (body : Json) :
    Tables × Except Error Unit :=
  match membershipUser userId body with
  | .error e => (tables, .error e)
  | .ok user =>
      match tables.upsertUser user with
      | none => (tables, .error (.unique (userConstraint tables user)))
      | some (tables', id) =>
          match body.get "groupCode" >>= textParam with
          | .error e => (tables', .error e)
          | .ok groupCode => (tables'.insertMembership id groupCode, .ok ())

/-! ### The controller -/

inductive Reply where
  | refused (status : ℕ) (message : String)
  | ok
  deriving DecidableEq

/-- A request that `requireSession` has let through. -/
structure MembershipRequest where
  request : Request
  session : AppSession
  /-- `request.body`, if there is one. -/
  body : Option Json
  /-- What `crypto.randomUUID()` returns. -/
  userId : String

/-- `assignGroupMembershipController`. -/
def assignGroupMembershipController (tables : Tables) (input : MembershipRequest) :
    Tables × Except Error Reply :=
  if ¬ requireCsrf input.request input.session then
    (tables, .ok (.refused 403 "CSRF validation failed"))
  else if "MODIFY" ∉ (tables.getUserAuthorizations input.session.auth0Sub).privileges then
    (tables, .ok (.refused 403 "Insufficient privileges"))
  else
    match input.body with
    | none => (tables, .error (.typeError "auth0Sub"))
    | some body =>
        match upsertUserGroupMembership tables input.userId body with
        | (tables', .error e) => (tables', .error e)
        | (tables', .ok ()) => (tables', .ok .ok)

/-- The tables after requests that are handled one after the other. -/
def administer (tables : Tables) : List MembershipRequest → Tables
  | [] => tables
  | input :: rest => administer (assignGroupMembershipController tables input).1 rest

namespace MembershipRequest

/-- The user that is to become a member. -/
def target (input : MembershipRequest) : Option String :=
  input.body.bind fun body => (body.get "auth0Sub" >>= textParam).toOption.join

/-- The code of the group. -/
def groupCode (input : MembershipRequest) : Option String :=
  input.body.bind fun body => (body.get "groupCode" >>= textParam).toOption.join

/-- The user who asks for it. -/
def caller (input : MembershipRequest) : String := input.session.auth0Sub

end MembershipRequest

theorem administer_append (tables : Tables) (before after : List MembershipRequest) :
    administer tables (before ++ after) = administer (administer tables before) after := by
  induction before generalizing tables with
  | nil => rfl
  | cons input rest ih => exact ih _

/-! ### What the statements make of the policy -/

section Statements

variable {tables tables' : Tables} {user : User} {userId auth0Sub : String}

omit [Platform] in
/-- Besides the memberships there were, there are those in the groups of the code. -/
theorem Tables.mem_insertMembership {groupCode : Option String} {membership : UserGroup} :
    membership ∈ (tables.insertMembership userId groupCode).userGroup ↔
      membership ∈ tables.userGroup ∨ membership.userId = userId ∧
        ∃ group ∈ tables.groups, groupCode = some group.code ∧ membership.groupId = group.id := by
  show membership ∈ tables.userGroup ++ _ ↔ _
  rw [List.mem_append, List.mem_filter, List.mem_map]
  constructor
  · rintro (hbefore | ⟨⟨group, hgroup, rfl⟩, -⟩)
    · exact Or.inl hbefore
    · obtain ⟨hgroup, hcode⟩ := List.mem_filter.mp hgroup
      exact Or.inr ⟨rfl, group, hgroup, (of_decide_eq_true hcode).symm, rfl⟩
  · rintro (hbefore | ⟨hid, group, hgroup, hcode, hgroupId⟩)
    · exact Or.inl hbefore
    · by_cases hmem : membership ∈ tables.userGroup
      · exact Or.inl hmem
      · refine Or.inr ⟨⟨group, List.mem_filter.mpr ⟨hgroup, ?_⟩, ?_⟩, by simpa using hmem⟩
        · simpa using hcode.symm
        · rw [← hid, ← hgroupId]

omit [Platform] in
/-- A user that is written is no member of a group yet, unless it was one before. -/
theorem Tables.Seeded.upsertUser (hseeded : tables.Seeded)
    (h : tables.upsertUser user = some (tables', userId)) :
    tables'.Seeded ∧ tables'.policy = tables.policy ∧ (userId, user.auth0Sub) ∈ tables'.accounts := by
  have hframe := Tables.frame_upsertUser h
  have hkeyed := hseeded.keyed.upsertUser h
  have huserGroup : tables'.userGroup = tables.userGroup := by rw [hframe]
  have hpermits : tables'.grants = tables.grants := by rw [hframe]; rfl
  refine ⟨⟨?_, ?_, ?_, hkeyed.ids, hkeyed.subs, hkeyed.referenced⟩, ?_,
    Tables.account_of_upsertUser h⟩
  · rw [hframe]
    exact hseeded.groups
  · rw [hframe]
    exact hseeded.privileges
  · rw [hframe]
    exact hseeded.groupPrivileges
  · rcases Tables.accounts_upsertUser h with ⟨hsame, -⟩ | ⟨happend, -, hid, -⟩
    · unfold Tables.policy
      rw [hsame, huserGroup, hpermits]
    · -- Nothing refers to the new user.
      have hmember : ∀ auth0Sub groupId,
          tables'.policy.member auth0Sub groupId ↔ tables.policy.member auth0Sub groupId := by
        intro auth0Sub groupId
        show (∃ id, (id, auth0Sub) ∈ tables'.accounts ∧ _ ∈ tables'.userGroup) ↔
          ∃ id, (id, auth0Sub) ∈ tables.accounts ∧ _ ∈ tables.userGroup
        rw [happend, huserGroup]
        constructor
        · rintro ⟨id, haccount, hmembership⟩
          rcases List.mem_append.mp haccount with hbefore | hnow
          · exact ⟨id, hbefore, hmembership⟩
          · obtain ⟨rfl, -⟩ := Prod.mk.inj (List.mem_singleton.mp hnow)
            exact absurd (hseeded.referenced _ hmembership) hid
        · rintro ⟨id, haccount, hmembership⟩
          exact ⟨id, List.mem_append_left _ haccount, hmembership⟩
      ext auth0Sub groupId
      · exact hmember auth0Sub groupId
      · show (_, _) ∈ tables'.grants ↔ (_, _) ∈ tables.grants
        rw [hpermits]

omit [Platform] in
/-- A code names one group, or none. -/
theorem Seed.groups_of_code (groupCode : Option String) :
    (Seed.groups.filter fun group => some group.code = groupCode) = [] ∨
    ∃ group ∈ Seed.groups, groupCode = some group.code ∧
      (Seed.groups.filter fun group => some group.code = groupCode) = [group] := by
  by_cases hadmin : groupCode = some "ADMIN"
  · subst hadmin
    exact Or.inr ⟨_, List.mem_cons_self, rfl, by decide +kernel⟩
  · by_cases hmanager : groupCode = some "MANAGER"
    · subst hmanager
      exact Or.inr ⟨_, List.mem_cons_of_mem _ List.mem_cons_self, rfl, by decide +kernel⟩
    · by_cases huser : groupCode = some "USER"
      · subst huser
        exact Or.inr ⟨_, List.mem_cons_of_mem _ (List.mem_cons_of_mem _ List.mem_cons_self), rfl,
          by decide +kernel⟩
      · refine Or.inl (List.filter_eq_nil_iff.mpr fun group hgroup hcode => ?_)
        have hcode' : some group.code = groupCode := by simpa using hcode
        have hcodes : ∀ group ∈ Seed.groups, group.code ∈ ["ADMIN", "MANAGER", "USER"] := by
          decide +kernel
        have hmem := hcodes group hgroup
        simp only [List.mem_cons, List.not_mem_nil, or_false] at hmem
        rcases hmem with h | h | h
        · exact hadmin (hcode'.symm.trans (congrArg some h))
        · exact hmanager (hcode'.symm.trans (congrArg some h))
        · exact huser (hcode'.symm.trans (congrArg some h))

omit [Platform] in
/-- A membership is an assignment of the policy, if the code names a group. -/
theorem Tables.Seeded.insertMembership (hseeded : tables.Seeded)
    (haccount : (userId, auth0Sub) ∈ tables.accounts) (groupCode : Option String) :
    (tables.insertMembership userId groupCode).Seeded ∧
    ((tables.insertMembership userId groupCode).policy = tables.policy ∨
      ∃ group ∈ Seed.groups, groupCode = some group.code ∧
        (tables.insertMembership userId groupCode).policy =
          tables.policy.assign auth0Sub group.id) := by
  have hknown : userId ∈ tables.users.map User.id := by
    obtain ⟨user, huser, heq⟩ := List.mem_map.mp haccount
    exact List.mem_map.mpr ⟨user, huser, (Prod.mk.inj heq).1⟩
  have huserGroup : ∀ membership : UserGroup,
      membership ∈ (tables.insertMembership userId groupCode).userGroup ↔
        membership ∈ tables.userGroup ∨ membership.userId = userId ∧
          ∃ group ∈ Seed.groups.filter (fun group => some group.code = groupCode),
            membership.groupId = group.id := by
    intro membership
    rw [Tables.mem_insertMembership, hseeded.groups]
    simp only [List.mem_filter, decide_eq_true_eq, and_assoc, @eq_comm _ groupCode]
  refine ⟨⟨hseeded.groups, hseeded.privileges, hseeded.groupPrivileges, hseeded.ids, hseeded.subs,
    ?_⟩, ?_⟩
  · intro membership hmembership
    rcases (huserGroup membership).mp hmembership with hbefore | ⟨hid, -⟩
    · exact hseeded.referenced membership hbefore
    · rw [hid]
      exact hknown
  · rcases Seed.groups_of_code groupCode with hnone | ⟨group, hgroup, hcode, hone⟩
    · refine Or.inl ?_
      ext auth0Sub' groupId
      · constructor
        · rintro ⟨id, haccount', hmembership⟩
          rcases (huserGroup _).mp hmembership with hbefore | ⟨-, group, hgroup, -⟩
          · exact ⟨id, haccount', hbefore⟩
          · rw [hnone] at hgroup
            simp at hgroup
        · rintro ⟨id, haccount', hbefore⟩
          exact ⟨id, haccount', (huserGroup _).mpr (Or.inl hbefore)⟩
      · rfl
    · refine Or.inr ⟨group, hgroup, hcode, ?_⟩
      ext auth0Sub' groupId
      · constructor
        · rintro ⟨id, haccount', hmembership⟩
          rcases (huserGroup _).mp hmembership with hbefore | ⟨rfl, group', hgroup', rfl⟩
          · exact Or.inl ⟨id, haccount', hbefore⟩
          · rw [hone] at hgroup'
            obtain rfl := List.mem_singleton.mp hgroup'
            refine Or.inr ⟨?_, rfl⟩
            obtain ⟨user, huser, heq⟩ := List.mem_map.mp haccount
            obtain ⟨user', huser', heq'⟩ := List.mem_map.mp haccount'
            obtain ⟨hid, rfl⟩ := Prod.mk.inj heq
            obtain ⟨hid', rfl⟩ := Prod.mk.inj heq'
            rw [List.inj_on_of_nodup_map hseeded.ids huser' huser (hid'.trans hid.symm)]
        · rintro (⟨id, haccount', hbefore⟩ | ⟨rfl, rfl⟩)
          · exact ⟨id, haccount', (huserGroup _).mpr (Or.inl hbefore)⟩
          · refine ⟨userId, haccount, (huserGroup _).mpr (Or.inr ⟨rfl, group, ?_, rfl⟩)⟩
            rw [hone]
            exact List.mem_singleton_self _
      · rfl

end Statements

/-! ### What a request makes of the policy -/

section Requests

variable {tables tables₀ : Tables} {input : MembershipRequest}

theorem auth0Sub_of_membershipUser {userId : String} {body : Json} {user : User}
    (h : membershipUser userId body = .ok user) :
    (body.get "auth0Sub" >>= textParam).toOption.join = some user.auth0Sub := by
  obtain ⟨value, hvalue, h⟩ := bind_eq_ok.mp h
  obtain ⟨text, htext, h⟩ := bind_eq_ok.mp h
  -- The address and the name are of no matter here.
  obtain ⟨emailValue, -, h⟩ := bind_eq_ok.mp h
  obtain ⟨emailText, -, h⟩ := bind_eq_ok.mp h
  obtain ⟨displayName, -, h⟩ := bind_eq_ok.mp h
  obtain ⟨auth0Sub, hauth0Sub, h⟩ := bind_eq_ok.mp h
  obtain ⟨email, -, h⟩ := bind_eq_ok.mp h
  obtain rfl := Except.ok.inj h
  have hget : (body.get "auth0Sub" >>= textParam) = .ok text := bind_eq_ok.mpr ⟨value, hvalue, htext⟩
  rw [hget, notNull_eq_ok hauth0Sub]
  rfl

/-- The tables after a request, as it was refused or carried out. -/
theorem Tables.Seeded.assign (hseeded : tables.Seeded) (input : MembershipRequest) :
    (assignGroupMembershipController tables input).1.Seeded ∧
    ((assignGroupMembershipController tables input).1 = tables ∨
      tables.Holds input.caller "MODIFY" ∧
        ((assignGroupMembershipController tables input).1.policy = tables.policy ∨
          ∃ auth0Sub, input.target = some auth0Sub ∧
            ∃ group ∈ Seed.groups, input.groupCode = some group.code ∧
              (assignGroupMembershipController tables input).1.policy =
                tables.policy.assign auth0Sub group.id)) := by
  unfold assignGroupMembershipController
  split
  · exact ⟨hseeded, Or.inl rfl⟩
  split
  · exact ⟨hseeded, Or.inl rfl⟩
  rename_i hmodify
  have hgate : tables.Holds input.caller "MODIFY" := not_not.mp hmodify
  split
  · exact ⟨hseeded, Or.inl rfl⟩
  rename_i body hbody
  suffices h : (upsertUserGroupMembership tables input.userId body).1.Seeded ∧
      ((upsertUserGroupMembership tables input.userId body).1.policy = tables.policy ∨
        ∃ auth0Sub, input.target = some auth0Sub ∧
          ∃ group ∈ Seed.groups, input.groupCode = some group.code ∧
            (upsertUserGroupMembership tables input.userId body).1.policy =
              tables.policy.assign auth0Sub group.id) by
    split
    · rename_i tables' e hserved
      rw [hserved] at h
      exact ⟨h.1, Or.inr ⟨hgate, h.2⟩⟩
    · rename_i tables' hserved
      rw [hserved] at h
      exact ⟨h.1, Or.inr ⟨hgate, h.2⟩⟩
  unfold upsertUserGroupMembership
  split
  · exact ⟨hseeded, Or.inl rfl⟩
  rename_i user huser
  split
  · exact ⟨hseeded, Or.inl rfl⟩
  rename_i tables' userId hupsert
  obtain ⟨hseeded', hpolicy, haccount⟩ := hseeded.upsertUser hupsert
  split
  · exact ⟨hseeded', Or.inl hpolicy⟩
  rename_i groupCode hcode
  obtain ⟨hseeded'', hassigned⟩ := hseeded'.insertMembership haccount groupCode
  refine ⟨hseeded'', ?_⟩
  rcases hassigned with hsame | ⟨group, hgroup, hnamed, hassigned⟩
  · exact Or.inl (hsame.trans hpolicy)
  · refine Or.inr ⟨user.auth0Sub, ?_, group, hgroup, ?_, ?_⟩
    · unfold MembershipRequest.target
      rw [hbody]
      exact auth0Sub_of_membershipUser huser
    · unfold MembershipRequest.groupCode
      rw [hbody, ← hnamed]
      simp [hcode, Except.toOption]
    · rw [hassigned, hpolicy]

/-- **A request is a change of the policy that is gated by `MODIFY`.** -/
theorem Tables.Seeded.change (hseeded : tables.Seeded) :
    Rbac.Policy.Change "MODIFY" input.caller tables.policy
      (assignGroupMembershipController tables input).1.policy := by
  rcases (hseeded.assign input).2 with hsame | ⟨hgate, hsame | ⟨_, _, _, _, _, hassigned⟩⟩
  · rw [hsame]
    exact .refused
  · rw [hsame]
    exact .refused
  · rw [hassigned]
    exact .assigned (Tables.holds_iff.mp hgate)

/-- Requests keep the seed, and change the policy only one by one. -/
theorem Tables.Seeded.administer (hseeded : tables.Seeded) (inputs : List MembershipRequest) :
    (Bff.administer tables inputs).Seeded ∧
    Relation.ReflTransGen (fun policy policy' =>
        ∃ caller, Rbac.Policy.Change "MODIFY" caller policy policy')
      tables.policy (Bff.administer tables inputs).policy := by
  induction inputs generalizing tables with
  | nil => exact ⟨hseeded, .refl⟩
  | cons input rest ih =>
      obtain ⟨hkept, hchanges⟩ := ih (hseeded.assign input).1
      exact ⟨hkept, .head ⟨_, hseeded.change⟩ hchanges⟩

/-- Who asks without the privilege to modify leaves the tables as they are. -/
theorem Tables.Seeded.eq_of_not_modify (hseeded : tables.Seeded)
    (hmodify : ¬ tables.Holds input.caller "MODIFY") :
    (assignGroupMembershipController tables input).1 = tables := by
  rcases (hseeded.assign input).2 with hsame | ⟨hgate, -⟩
  · exact hsame
  · exact absurd hgate hmodify

/-- What a request adds. -/
theorem Tables.Seeded.added (hseeded : tables.Seeded) {auth0Sub privilege : String}
    (hnow : (assignGroupMembershipController tables input).1.Holds auth0Sub privilege)
    (hbefore : ¬ tables.Holds auth0Sub privilege) :
    tables.Holds input.caller "MODIFY" ∧ input.target = some auth0Sub ∧
      (tables.Holds input.caller privilege ∨
        privilege = "DELETE" ∧ input.groupCode = some "ADMIN") := by
  rw [Tables.holds_iff] at hnow
  rcases (hseeded.assign input).2 with
    hsame | ⟨hgate, hsame | ⟨target, htarget, group, hgroup, hcode, hassigned⟩⟩
  · rw [hsame] at hnow
    exact absurd (Tables.holds_iff.mpr hnow) hbefore
  · rw [hsame] at hnow
    exact absurd (Tables.holds_iff.mpr hnow) hbefore
  · rw [hassigned, Rbac.Policy.held_assign] at hnow
    rcases hnow with hheld | ⟨rfl, hpermits⟩
    · exact absurd (Tables.holds_iff.mpr hheld) hbefore
    · refine ⟨hgate, htarget, ?_⟩
      obtain ⟨groupId, hmember, hmodify⟩ := Tables.holds_iff.mp hgate
      rcases hseeded.permits_of_modify hmodify hpermits with hsame | ⟨hadmin, hdelete⟩
      · exact Or.inl (Tables.holds_iff.mpr ⟨groupId, hmember, hsame⟩)
      · refine Or.inr ⟨hdelete, ?_⟩
        have hcodes : ∀ group ∈ Seed.groups,
            group.id = "00000000-0000-0000-0000-000000000101" → group.code = "ADMIN" := by
          decide +kernel
        rw [hcode, hcodes group hgroup hadmin]

/-- Nothing is taken from anyone. -/
theorem Tables.Seeded.kept (hseeded : tables.Seeded) {auth0Sub privilege : String}
    (h : tables.Holds auth0Sub privilege) :
    (assignGroupMembershipController tables input).1.Holds auth0Sub privilege := by
  rw [Tables.holds_iff] at h ⊢
  exact hseeded.change.held h

/-- Only who is made an administrator, or was one, may delete. -/
theorem no_delete (hseeded : tables.Seeded) (hnone : ∀ auth0Sub, ¬ tables.Holds auth0Sub "DELETE")
    {inputs : List MembershipRequest}
    (hother : ∀ input ∈ inputs, input.groupCode ≠ some "ADMIN") (auth0Sub : String) :
    ¬ (administer tables inputs).Holds auth0Sub "DELETE" := by
  induction inputs generalizing tables with
  | nil => exact hnone auth0Sub
  | cons input rest ih =>
      apply ih (hseeded.assign input).1
      · intro auth0Sub hdelete
        obtain ⟨-, -, hcaller | ⟨-, hadmin⟩⟩ := hseeded.added hdelete (hnone auth0Sub)
        · exact hnone _ hcaller
        · exact hother input List.mem_cons_self hadmin
      · exact fun input' hinput' => hother input' (List.mem_cons_of_mem _ hinput')

/--
**A request adds only what its caller holds, but for one thing: who may modify may name the
administrators, and so hand out the privilege to delete.**  Where no one may modify, no one gains
anything; where no request names the administrators and no one may delete, no one comes to; and
callers that hold no more than users do change nothing.
-/
theorem administration_bounded (hseeded : tables₀.Seeded) (before : List MembershipRequest)
    (input : MembershipRequest) :
    (∀ auth0Sub privilege, (administer tables₀ before).Holds auth0Sub privilege →
      (administer tables₀ (before ++ [input])).Holds auth0Sub privilege) ∧
    (∀ auth0Sub privilege, (administer tables₀ (before ++ [input])).Holds auth0Sub privilege →
      ¬ (administer tables₀ before).Holds auth0Sub privilege →
      (administer tables₀ before).Holds input.caller "MODIFY" ∧ input.target = some auth0Sub ∧
        ((administer tables₀ before).Holds input.caller privilege ∨
          privilege = "DELETE" ∧ input.groupCode = some "ADMIN")) ∧
    ((∀ privilege, (administer tables₀ before).Holds input.caller privilege →
        privilege ∈ ["READ", "ORDER_CREATE"]) →
      administer tables₀ (before ++ [input]) = administer tables₀ before) ∧
    ((∀ auth0Sub, ¬ tables₀.Holds auth0Sub "MODIFY") → ∀ auth0Sub privilege,
      (administer tables₀ (before ++ [input])).Holds auth0Sub privilege →
        tables₀.Holds auth0Sub privilege) ∧
    ((∀ auth0Sub, ¬ tables₀.Holds auth0Sub "DELETE") →
      (∀ request ∈ before ++ [input], request.groupCode ≠ some "ADMIN") →
      ∀ auth0Sub, ¬ (administer tables₀ (before ++ [input])).Holds auth0Sub "DELETE") := by
  have hseeded' := (hseeded.administer before).1
  have hlast : administer tables₀ (before ++ [input]) =
      (assignGroupMembershipController (administer tables₀ before) input).1 :=
    administer_append tables₀ before [input]
  refine ⟨?_, ?_, ?_, ?_, ?_⟩
  · intro auth0Sub privilege hheld
    rw [hlast]
    exact hseeded'.kept hheld
  · intro auth0Sub privilege hnow hbefore
    rw [hlast] at hnow
    exact hseeded'.added hnow hbefore
  · intro honly
    rw [hlast]
    apply hseeded'.eq_of_not_modify
    intro hmodify
    have hmem := honly "MODIFY" hmodify
    simp at hmem
  · intro hnone auth0Sub privilege hheld
    have hsame := Rbac.Policy.eq_of_no_administrator
      (hseeded.administer (before ++ [input])).2
      fun subject hgate => hnone subject (Tables.holds_iff.mpr hgate)
    rw [Tables.holds_iff, hsame] at hheld
    exact Tables.holds_iff.mpr hheld
  · intro hnone hother auth0Sub
    exact no_delete hseeded hnone hother auth0Sub

end Requests

end CommercePlatform.Bff

/-! ### A manager makes an administrator of itself -/

namespace CommercePlatform.Bff.Promotion

open Js

@[reducible] def platform : Platform := .ascii [("", "e3b0c442")] (by decide)

attribute [local instance] platform

def manager : User where
  id := "5a0d7c52-5f6b-4c38-9b44-0d6f2a1f7b01"
  auth0Sub := "auth0|7701"
  email := "mia@example.com"
  displayName := some "Mia"

def row : SessionRow where
  userId := manager.id
  refreshTokenCiphertext := encryptSecret "v1.mia"
  refreshTokenExpiresAt := none
  accessToken := encryptSecret "ey.mia"
  accessTokenExpiresAt := 900000
  csrfToken := "91ab"
  revokedAt := none

def tables : Tables where
  users := [manager]
  groups := Seed.groups
  privileges := Seed.privileges
  groupPrivileges := Seed.groupPrivileges
  userGroup := [{ userId := manager.id, groupId := "00000000-0000-0000-0000-000000000102" }]
  sessions id := if id = "5a0d7c52-5f6b-4c38-9b44-0d6f2a1f7b02" then some row else none

theorem tables_seeded : tables.Seeded where
  groups := rfl
  privileges := rfl
  groupPrivileges := rfl
  ids := by decide +kernel
  subs := by decide +kernel
  referenced := by decide +kernel

/-- The manager makes someone, or itself, a member of a group. -/
def request (auth0Sub email groupCode : String) : MembershipRequest where
  request := {
    sessionCookie := some "5a0d7c52-5f6b-4c38-9b44-0d6f2a1f7b02"
    csrfCookie := some "91ab"
    csrfHeader := some "91ab"
    route := .other }
  session := {
    id := "5a0d7c52-5f6b-4c38-9b44-0d6f2a1f7b02"
    accessToken := "ey.mia"
    accessTokenExpiresAt := 900000
    refreshTokenCiphertext := encryptSecret "v1.mia"
    refreshTokenExpiresAt := none
    csrfToken := "91ab"
    auth0Sub := manager.auth0Sub
    email := manager.email
    displayName := manager.displayName }
  body := some (.obj [("auth0Sub", .str auth0Sub), ("email", .str email),
    ("groupCode", .str groupCode)])
  userId := "5a0d7c52-5f6b-4c38-9b44-0d6f2a1f7b03"

theorem no_one_deletes (auth0Sub : String) : ¬ tables.Holds auth0Sub "DELETE" := by
  intro hdelete
  have hknown : auth0Sub ∈ [manager.auth0Sub] := Tables.exists_account_of_holds hdelete
  obtain rfl := List.mem_singleton.mp hknown
  exact absurd hdelete (by decide +kernel)

/-- The manager may not delete before, nor may anyone; it may afterwards. -/
theorem promoted : ∃ (tables : Tables) (input : MembershipRequest), tables.Seeded ∧
    tables.loadSession input.session.id = some input.session ∧
    requireCsrf input.request input.session = true ∧
    (∀ auth0Sub, ¬ tables.Holds auth0Sub "DELETE") ∧
    (administer tables [input]).Holds input.caller "DELETE" := by
  exact ⟨tables, request manager.auth0Sub manager.email "ADMIN", tables_seeded, by decide +kernel,
    by decide +kernel, no_one_deletes, by decide +kernel⟩

/-- The manager appoints another one. -/
def appointment : MembershipRequest := request "auth0|8802" "noa@example.com" "MANAGER"

/-- Who is appointed comes to modify, as the manager may; no one else gains anything. -/
theorem appointed : tables.Seeded ∧ ¬ tables.Holds "auth0|8802" "MODIFY" ∧
    (administer tables [appointment]).Holds "auth0|8802" "MODIFY" ∧
    (∀ auth0Sub privilege, (administer tables [appointment]).Holds auth0Sub privilege →
      ¬ tables.Holds auth0Sub privilege →
      auth0Sub = "auth0|8802" ∧ tables.Holds manager.auth0Sub privilege) ∧
    ∀ auth0Sub, ¬ (administer tables [appointment]).Holds auth0Sub "DELETE" := by
  obtain ⟨-, hadded, -, -, hdelete⟩ := administration_bounded tables_seeded [] appointment
  have hother : ∀ input ∈ [] ++ [appointment], input.groupCode ≠ some "ADMIN" := by
    decide +kernel
  refine ⟨tables_seeded, by decide +kernel, by decide +kernel,
    fun auth0Sub privilege hnow hbefore => ?_, hdelete no_one_deletes hother⟩
  obtain ⟨-, htarget, hheld | ⟨-, hadmin⟩⟩ := hadded auth0Sub privilege hnow hbefore
  · exact ⟨(Option.some.inj htarget).symm, hheld⟩
  · exact absurd hadmin (hother _ (List.mem_singleton_self _))

end CommercePlatform.Bff.Promotion
