/-
What a user may do.

A user is authorized by the groups it is in.  The groups and what they may do are seeded when
the database is set up, and no code changes them; so the tables say who is in which role.
-/
import CommercePlatform.Bff.Tables
import CommercePlatform.Rbac

namespace CommercePlatform.Bff

/-- What `getUserAuthorizations` returns. -/
structure Authorizations where
  groups : List String
  privileges : List String
  deriving DecidableEq

namespace Tables

/-! ### The query -/

/-- The codes of a group and of its privileges. -/
def privilegesOf (tables : Tables) (group : Coded) : List (String × String) :=
  (tables.groupPrivileges.filter fun gp => gp.groupId = group.id).flatMap fun gp =>
    (tables.privileges.filter fun p => p.id = gp.privilegeId).map fun p => (group.code, p.code)

/-- The rows of the query: users, their memberships, the groups, and what these may do. -/
def authorizationRows (tables : Tables) (auth0Sub : String) : List (String × String) :=
  (tables.users.filter fun u => u.auth0Sub = auth0Sub).flatMap fun u =>
    (tables.userGroup.filter fun ug => ug.userId = u.id).flatMap fun ug =>
      (tables.groups.filter fun g => g.id = ug.groupId).flatMap tables.privilegesOf

def getUserAuthorizations (tables : Tables) (auth0Sub : String) : Authorizations where
  groups := ((tables.authorizationRows auth0Sub).map Prod.fst).eraseDups
  privileges := ((tables.authorizationRows auth0Sub).map Prod.snd).eraseDups

/-- The user has the privilege, as the services see it. -/
def Holds (tables : Tables) (auth0Sub privilege : String) : Prop :=
  privilege ∈ (tables.getUserAuthorizations auth0Sub).privileges

instance (tables : Tables) (auth0Sub privilege : String) :
    Decidable (tables.Holds auth0Sub privilege) :=
  inferInstanceAs (Decidable (privilege ∈ (tables.getUserAuthorizations auth0Sub).privileges))

/-! ### The roles -/

/-- The users by their keys. -/
def accounts (tables : Tables) : List (String × String) :=
  tables.users.map fun user => (user.id, user.auth0Sub)

/-- The identifiers of the groups, each with what the group may do. -/
def grants (tables : Tables) : List (String × String) :=
  tables.groups.flatMap fun group => (tables.privilegesOf group).map fun row => (group.id, row.2)

/-- Users are in the roles of their groups. -/
def policy (tables : Tables) : Rbac.Policy String String String where
  member auth0Sub groupId :=
    ∃ userId, (userId, auth0Sub) ∈ tables.accounts ∧
      { userId := userId, groupId := groupId } ∈ tables.userGroup
  permits groupId privilege := (groupId, privilege) ∈ tables.grants

variable {tables : Tables} {auth0Sub privilege : String}

/-- The query joins the user's memberships with what their groups may do. -/
theorem mem_authorizationRows {row : String × String} :
    row ∈ tables.authorizationRows auth0Sub ↔
      ∃ userId, (userId, auth0Sub) ∈ tables.accounts ∧ ∃ group ∈ tables.groups,
        { userId := userId, groupId := group.id } ∈ tables.userGroup ∧
          row ∈ tables.privilegesOf group := by
  constructor
  · intro hrow
    obtain ⟨user, huser, hrow⟩ := List.mem_flatMap.mp hrow
    obtain ⟨membership, hmembership, hrow⟩ := List.mem_flatMap.mp hrow
    obtain ⟨group, hgroup, hrow⟩ := List.mem_flatMap.mp hrow
    obtain ⟨huser, hsub⟩ := List.mem_filter.mp huser
    obtain ⟨hmembership, huserId⟩ := List.mem_filter.mp hmembership
    obtain ⟨hgroup, hgroupId⟩ := List.mem_filter.mp hgroup
    simp only [decide_eq_true_eq] at hsub huserId hgroupId
    refine ⟨user.id, ?_, group, hgroup, ?_, hrow⟩
    · exact List.mem_map.mpr ⟨user, huser, by rw [hsub]⟩
    · rw [hgroupId, ← huserId]
      exact hmembership
  · rintro ⟨userId, haccount, group, hgroup, hmembership, hrow⟩
    obtain ⟨user, huser, heq⟩ := List.mem_map.mp haccount
    obtain ⟨rfl, rfl⟩ := Prod.mk.inj heq
    refine List.mem_flatMap.mpr ⟨user, List.mem_filter.mpr ⟨huser, by simp⟩, ?_⟩
    refine List.mem_flatMap.mpr ⟨_, List.mem_filter.mpr ⟨hmembership, by simp⟩, ?_⟩
    exact List.mem_flatMap.mpr ⟨group, List.mem_filter.mpr ⟨hgroup, by simp⟩, hrow⟩

/-- **What the query returns is what the user holds through its groups.** -/
theorem holds_iff : tables.Holds auth0Sub privilege ↔ tables.policy.Held auth0Sub privilege := by
  unfold Holds getUserAuthorizations
  rw [List.mem_eraseDups]
  constructor
  · intro h
    obtain ⟨row, hrow, rfl⟩ := List.mem_map.mp h
    obtain ⟨userId, haccount, group, hgroup, hmembership, hrow⟩ := mem_authorizationRows.mp hrow
    refine ⟨group.id, ⟨userId, haccount, hmembership⟩, ?_⟩
    exact List.mem_flatMap.mpr ⟨group, hgroup, List.mem_map.mpr ⟨row, hrow, rfl⟩⟩
  · rintro ⟨groupId, ⟨userId, haccount, hmembership⟩, hgrant⟩
    obtain ⟨group, hgroup, hgrant⟩ := List.mem_flatMap.mp hgrant
    obtain ⟨row, hrow, heq⟩ := List.mem_map.mp hgrant
    obtain ⟨rfl, rfl⟩ := Prod.mk.inj heq
    refine List.mem_map.mpr ⟨row, ?_, rfl⟩
    exact mem_authorizationRows.mpr ⟨userId, haccount, group, hgroup, hmembership, hrow⟩

/-- A user that is written has an account, under its own subject. -/
theorem accounts_upsertUser {tables' : Tables} {user : User} {userId : String}
    (h : tables.upsertUser user = some (tables', userId)) :
    (tables'.accounts = tables.accounts ∧ (userId, user.auth0Sub) ∈ tables.accounts) ∨
    (tables'.accounts = tables.accounts ++ [(user.id, user.auth0Sub)] ∧ userId = user.id ∧
      user.id ∉ tables.users.map User.id ∧
      user.auth0Sub ∉ tables.users.map User.auth0Sub) := by
  rcases upsertUser_cases h with ⟨rfl, rfl, hfree⟩ | ⟨old, hold, hsub, rfl, rfl, -⟩
  · refine Or.inr ⟨by simp [accounts], rfl, ?_, ?_⟩
    · intro hid
      obtain ⟨row, hrow, hid⟩ := List.mem_map.mp hid
      exact (hfree row hrow).2.1 hid
    · intro hsame
      obtain ⟨row, hrow, hsame⟩ := List.mem_map.mp hsame
      exact (hfree row hrow).1 hsame
  · refine Or.inl ⟨?_, List.mem_map.mpr ⟨old, hold, by rw [hsub]⟩⟩
    unfold accounts
    rw [List.map_map, comp_set (fun row => (row.id, row.auth0Sub)) old user fun row => rfl]

/-- The user that is written has its account afterwards. -/
theorem account_of_upsertUser {tables' : Tables} {user : User} {userId : String}
    (h : tables.upsertUser user = some (tables', userId)) :
    (userId, user.auth0Sub) ∈ tables'.accounts := by
  rcases accounts_upsertUser h with ⟨hsame, hmem⟩ | ⟨happend, rfl, -, -⟩
  · rw [hsame]
    exact hmem
  · rw [happend]
    exact List.mem_append_right _ (List.mem_singleton_self _)

/-- Who holds something is a user. -/
theorem exists_account_of_holds (h : tables.Holds auth0Sub privilege) :
    auth0Sub ∈ tables.users.map User.auth0Sub := by
  obtain ⟨groupId, ⟨userId, haccount, -⟩, -⟩ := holds_iff.mp h
  obtain ⟨user, huser, heq⟩ := List.mem_map.mp haccount
  exact List.mem_map.mpr ⟨user, huser, (Prod.mk.inj heq).2⟩

/-! ### The keys -/

theorem map_fst_accounts (tables : Tables) :
    tables.accounts.map Prod.fst = tables.users.map User.id := by
  simp [accounts]

theorem map_snd_accounts (tables : Tables) :
    tables.accounts.map Prod.snd = tables.users.map User.auth0Sub := by
  simp [accounts]

/-- The constraints of the schema on users and on their memberships. -/
structure Keyed (tables : Tables) : Prop where
  /-- `PRIMARY KEY`. -/
  ids : (tables.users.map User.id).Nodup
  /-- `UNIQUE`. -/
  subs : (tables.users.map User.auth0Sub).Nodup
  /-- `REFERENCES identity.users(id)`. -/
  referenced : ∀ membership ∈ tables.userGroup, membership.userId ∈ tables.users.map User.id

theorem frame_upsertUser {tables' : Tables} {user : User} {userId : String}
    (h : tables.upsertUser user = some (tables', userId)) :
    tables' = { tables with users := tables'.users } := by
  rcases upsertUser_cases h with ⟨-, rfl, -⟩ | ⟨old, -, -, -, rfl, -⟩
  · rfl
  · rfl

namespace Keyed

variable {tables' : Tables} {user : User} {userId : String}

theorem upsertUser (hkeyed : tables.Keyed) (h : tables.upsertUser user = some (tables', userId)) :
    tables'.Keyed := by
  have huserGroup : tables'.userGroup = tables.userGroup := by rw [frame_upsertUser h]
  have hnodup : ∀ (keys : List String) (key : String), keys.Nodup → key ∉ keys →
      (keys ++ [key]).Nodup := by
    intro keys key hkeys hkey
    refine List.nodup_append.mpr ⟨hkeys, List.nodup_singleton _, ?_⟩
    intro key' hmem key'' hmem' hsame
    rw [hsame, List.mem_singleton.mp hmem'] at hmem
    exact hkey hmem
  rcases accounts_upsertUser h with ⟨hsame, -⟩ | ⟨happend, -, hid, hsub⟩
  · refine ⟨?_, ?_, ?_⟩
    · rw [← map_fst_accounts, hsame, map_fst_accounts]
      exact hkeyed.ids
    · rw [← map_snd_accounts, hsame, map_snd_accounts]
      exact hkeyed.subs
    · rw [← map_fst_accounts, hsame, map_fst_accounts, huserGroup]
      exact hkeyed.referenced
  · refine ⟨?_, ?_, ?_⟩
    · rw [← map_fst_accounts, happend, List.map_append, map_fst_accounts]
      exact hnodup _ _ hkeyed.ids hid
    · rw [← map_snd_accounts, happend, List.map_append, map_snd_accounts]
      exact hnodup _ _ hkeyed.subs hsub
    · intro membership hmembership
      rw [huserGroup] at hmembership
      rw [← map_fst_accounts, happend, List.map_append, map_fst_accounts]
      exact List.mem_append_left _ (hkeyed.referenced membership hmembership)

/-- A user is kept out by its address alone: it is that of a user of another subject. -/
theorem upsertUser_eq_none_iff (hkeyed : tables.Keyed)
    (hfresh : user.id ∉ tables.users.map User.id) :
    tables.upsertUser user = none ↔
      ∃ row ∈ tables.users, row.email = user.email ∧ row.auth0Sub ≠ user.auth0Sub := by
  unfold Tables.upsertUser
  split
  · rename_i hnone
    have hother : ∀ row ∈ tables.users, row.auth0Sub ≠ user.auth0Sub := by
      simpa using hnone
    constructor
    · intro h
      split at h
      · rename_i htaken
        obtain ⟨row, hrow, htaken⟩ := List.any_eq_true.mp htaken
        rcases of_decide_eq_true htaken with hid | hemail
        · exact absurd (List.mem_map.mpr ⟨row, hrow, hid⟩) hfresh
        · exact ⟨row, hrow, hemail, hother row hrow⟩
      · simp at h
    · rintro ⟨row, hrow, hemail, -⟩
      exact if_pos (List.any_eq_true.mpr ⟨row, hrow, decide_eq_true (Or.inr hemail)⟩)
  · rename_i old hold
    have hsub : old.auth0Sub = user.auth0Sub := by simpa using List.find?_some hold
    have hmem : old ∈ tables.users := List.mem_of_find?_eq_some hold
    constructor
    · intro h
      split at h
      · rename_i htaken
        obtain ⟨row, hrow, htaken⟩ := List.any_eq_true.mp htaken
        obtain ⟨hid, hemail⟩ := of_decide_eq_true htaken
        refine ⟨row, hrow, hemail, fun hsame => hid ?_⟩
        rw [List.inj_on_of_nodup_map hkeyed.subs hrow hmem (hsame.trans hsub.symm)]
      · simp at h
    · rintro ⟨row, hrow, hemail, hother⟩
      refine if_pos (List.any_eq_true.mpr ⟨row, hrow, decide_eq_true ⟨fun hid => hother ?_, hemail⟩⟩)
      rw [List.inj_on_of_nodup_map hkeyed.ids hrow hmem hid, hsub]

/-- The users of other subjects are what they were. -/
theorem filter_upsertUser (hkeyed : tables.Keyed)
    (h : tables.upsertUser user = some (tables', userId)) {auth0Sub : String}
    (hother : auth0Sub ≠ user.auth0Sub) :
    (tables'.users.filter fun row => row.auth0Sub = auth0Sub) =
      tables.users.filter fun row => row.auth0Sub = auth0Sub := by
  rcases upsertUser_cases h with ⟨-, rfl, -⟩ | ⟨old, hold, hsub, -, rfl, -⟩
  · rw [List.filter_append]
    simp [Ne.symm hother]
  · show (tables.users.map _).filter _ = _
    rw [List.filter_map]
    have hkept : ∀ row ∈ tables.users, row.auth0Sub = auth0Sub → row.id ≠ old.id := by
      intro row hrow hrowSub hid
      rw [List.inj_on_of_nodup_map hkeyed.ids hrow hold hid, hsub] at hrowSub
      exact hother hrowSub.symm
    rw [comp_set (fun row => decide (row.auth0Sub = auth0Sub)) old user fun row => rfl]
    refine (List.map_congr_left fun row hrow => ?_).trans (List.map_id _)
    obtain ⟨hrow, hrowSub⟩ := List.mem_filter.mp hrow
    exact if_neg (hkept row hrow (of_decide_eq_true hrowSub))

theorem mem_upsertUser (hkeyed : tables.Keyed)
    (h : tables.upsertUser user = some (tables', userId)) {row : User}
    (hother : row.auth0Sub ≠ user.auth0Sub) : row ∈ tables'.users ↔ row ∈ tables.users := by
  have hfilter := hkeyed.filter_upsertUser h hother
  have hmem : ∀ tables : Tables, row ∈ tables.users ↔
      row ∈ tables.users.filter fun row' => row'.auth0Sub = row.auth0Sub := by
    intro tables
    simp
  rw [hmem, hfilter, ← hmem]

end Keyed

end Tables

/-! ### The seed -/

namespace Seed

def groups : List Coded :=
  [{ id := "00000000-0000-0000-0000-000000000101", code := "ADMIN" },
   { id := "00000000-0000-0000-0000-000000000102", code := "MANAGER" },
   { id := "00000000-0000-0000-0000-000000000103", code := "USER" }]

def privileges : List Coded :=
  [{ id := "00000000-0000-0000-0000-000000000201", code := "READ" },
   { id := "00000000-0000-0000-0000-000000000202", code := "MODIFY" },
   { id := "00000000-0000-0000-0000-000000000203", code := "DELETE" },
   { id := "00000000-0000-0000-0000-000000000204", code := "ORDER_CREATE" }]

def groupPrivileges : List GroupPrivilege :=
  [("00000000-0000-0000-0000-000000000101", "00000000-0000-0000-0000-000000000201"),
   ("00000000-0000-0000-0000-000000000101", "00000000-0000-0000-0000-000000000202"),
   ("00000000-0000-0000-0000-000000000101", "00000000-0000-0000-0000-000000000203"),
   ("00000000-0000-0000-0000-000000000101", "00000000-0000-0000-0000-000000000204"),
   ("00000000-0000-0000-0000-000000000102", "00000000-0000-0000-0000-000000000201"),
   ("00000000-0000-0000-0000-000000000102", "00000000-0000-0000-0000-000000000202"),
   ("00000000-0000-0000-0000-000000000102", "00000000-0000-0000-0000-000000000204"),
   ("00000000-0000-0000-0000-000000000103", "00000000-0000-0000-0000-000000000201"),
   ("00000000-0000-0000-0000-000000000103", "00000000-0000-0000-0000-000000000204")].map
    fun pair => { groupId := pair.1, privilegeId := pair.2 }

/-- What the groups may do. -/
def grants : List (String × String) :=
  [("00000000-0000-0000-0000-000000000101", "READ"),
   ("00000000-0000-0000-0000-000000000101", "MODIFY"),
   ("00000000-0000-0000-0000-000000000101", "DELETE"),
   ("00000000-0000-0000-0000-000000000101", "ORDER_CREATE"),
   ("00000000-0000-0000-0000-000000000102", "READ"),
   ("00000000-0000-0000-0000-000000000102", "MODIFY"),
   ("00000000-0000-0000-0000-000000000102", "ORDER_CREATE"),
   ("00000000-0000-0000-0000-000000000103", "READ"),
   ("00000000-0000-0000-0000-000000000103", "ORDER_CREATE")]

end Seed

/-- Tables built on the seed, with the constraints of the schema. -/
structure Tables.Seeded (tables : Tables) : Prop where
  groups : tables.groups = Seed.groups
  privileges : tables.privileges = Seed.privileges
  groupPrivileges : tables.groupPrivileges = Seed.groupPrivileges
  /-- `PRIMARY KEY`. -/
  ids : (tables.users.map User.id).Nodup
  /-- `UNIQUE`. -/
  subs : (tables.users.map User.auth0Sub).Nodup
  /-- `REFERENCES identity.users(id)`. -/
  referenced : ∀ membership ∈ tables.userGroup, membership.userId ∈ tables.users.map User.id

namespace Tables

variable {tables : Tables} {groupId groupId' privilege : String}

theorem Seeded.keyed (h : tables.Seeded) : tables.Keyed := ⟨h.ids, h.subs, h.referenced⟩

theorem Seeded.permits (h : tables.Seeded) :
    tables.policy.permits groupId privilege ↔ (groupId, privilege) ∈ Seed.grants := by
  have hgrants : tables.grants = Seed.grants := by
    unfold grants privilegesOf
    rw [h.groups, h.privileges, h.groupPrivileges]
    decide +kernel
  show (groupId, privilege) ∈ tables.grants ↔ _
  rw [hgrants]

/-- A group that may modify may do all that any group may do, but for what only one group may. -/
theorem Seeded.permits_of_modify (h : tables.Seeded) (hmodify : tables.policy.permits groupId "MODIFY")
    (hpermits : tables.policy.permits groupId' privilege) :
    tables.policy.permits groupId privilege ∨
      groupId' = "00000000-0000-0000-0000-000000000101" ∧ privilege = "DELETE" := by
  have hall : ∀ grant ∈ Seed.grants, grant.2 = "MODIFY" → ∀ grant' ∈ Seed.grants,
      (grant.1, grant'.2) ∈ Seed.grants ∨
        grant'.1 = "00000000-0000-0000-0000-000000000101" ∧ grant'.2 = "DELETE" := by
    decide +kernel
  rw [h.permits] at hmodify hpermits ⊢
  exact hall _ hmodify rfl _ hpermits

end Tables

end CommercePlatform.Bff
