/-
The tables of the schema `identity`.

The BFF has no transactions: each of its statements is committed as it is executed.  So
a repository function of one statement is a function on the tables.

`encryptSecret` seals with a key that only the BFF has, and `decryptSecret` opens what it
has sealed; nothing else is asked of the two.  So a ciphertext is what it opens to here, and stands
for any of the texts of `Auth/Secrets.lean` that are opened to it.

A `Date` is a parameter of two of the statements.  Where it is no time, or one that the server
does not have, the statement raises and changes nothing.
-/
import Mathlib.Data.Finmap
import CommercePlatform.Auth.Secrets
import CommercePlatform.Pg.Timestamp

namespace CommercePlatform.Bff

/-! ### Secrets -/

/-- What `encryptSecret` returns. -/
structure Ciphertext where
  plaintext : String
  deriving DecidableEq

def encryptSecret (value : String) : Ciphertext := { plaintext := value }

def decryptSecret (ciphertext : Ciphertext) : String := ciphertext.plaintext

@[simp] theorem decryptSecret_encryptSecret (value : String) :
    decryptSecret (encryptSecret value) = value := rfl

/-- The text that is stored is opened with the key, and to this. -/
def Ciphertext.StoredAs (gcm : Secrets.Gcm) (key : Secrets.Key) (ciphertext : Ciphertext)
    (text : String) : Prop :=
  Secrets.decryptSecret gcm key text = .ok ciphertext.plaintext

/--
**What is sealed here stands for what is stored**, whichever iv is drawn, and what is opened here
is what the text is opened to.
-/
theorem storedAs_encryptSecret {gcm : Secrets.Gcm} (h : gcm.Lawful) (key : Secrets.Key)
    (iv : Secrets.Nonce) (value : String) :
    (encryptSecret value).StoredAs gcm key (Secrets.encryptSecret gcm key iv value) ∧
    ∀ ciphertext text, ciphertext.StoredAs gcm key text →
      Secrets.decryptSecret gcm key text = .ok (decryptSecret ciphertext) :=
  ⟨Secrets.decryptSecret_encryptSecret h iv value, fun _ _ hstored => hstored⟩

/-! ### Rows -/

/-- A row of `identity.users`. -/
structure User where
  id : String
  auth0Sub : String
  email : String
  displayName : Option String
  deriving DecidableEq

/-- A row of `identity.sessions`, but for its key.  Times are in milliseconds. -/
structure SessionRow where
  userId : String
  refreshTokenCiphertext : Ciphertext
  refreshTokenExpiresAt : Option ℤ
  accessToken : Ciphertext
  accessTokenExpiresAt : ℤ
  csrfToken : String
  revokedAt : Option ℤ
  deriving DecidableEq

/-- A row of `identity.groups` or of `identity.privileges`. -/
structure Coded where
  id : String
  code : String
  deriving DecidableEq

/-- A row of `identity.group_privileges`. -/
structure GroupPrivilege where
  groupId : String
  privilegeId : String
  deriving DecidableEq

/-- A row of `identity.user_group`. -/
structure UserGroup where
  userId : String
  groupId : String
  deriving DecidableEq

structure Tables where
  users : List User
  groups : List Coded
  privileges : List Coded
  groupPrivileges : List GroupPrivilege
  userGroup : List UserGroup
  /-- The sessions by their identifiers. -/
  sessions : String → Option SessionRow

/-- `AppSession`. -/
structure AppSession where
  id : String
  accessToken : String
  accessTokenExpiresAt : ℤ
  refreshTokenCiphertext : Ciphertext
  refreshTokenExpiresAt : Option ℤ
  csrfToken : String
  auth0Sub : String
  email : String
  displayName : Option String
  deriving DecidableEq

namespace Tables

/-- `loadSession`: `… JOIN identity.users … WHERE s.id = $1 AND s.revoked_at IS NULL`. -/
def loadSession (tables : Tables) (sessionId : String) : Option AppSession := do
  let row ← tables.sessions sessionId
  let user ← tables.users.find? fun user => user.id = row.userId
  if row.revokedAt.isSome then none
  else
    return {
      id := sessionId
      accessToken := decryptSecret row.accessToken
      accessTokenExpiresAt := row.accessTokenExpiresAt
      refreshTokenCiphertext := row.refreshTokenCiphertext
      refreshTokenExpiresAt := row.refreshTokenExpiresAt
      csrfToken := row.csrfToken
      auth0Sub := user.auth0Sub
      email := user.email
      displayName := user.displayName }

/-- A change of one session, if there is one of the identifier. -/
def updateSession (tables : Tables) (sessionId : String) (set : SessionRow → SessionRow) : Tables :=
  { tables with
    sessions := Function.update tables.sessions sessionId ((tables.sessions sessionId).map set) }

/-- The parameters of `updateSessionTokens`. -/
structure TokenUpdate where
  sessionId : String
  accessToken : String
  /-- A `Date`, or none if it is no time. -/
  accessTokenExpiresAt : Option ℤ
  refreshToken : String
  deriving DecidableEq

/-- What `updateSessionTokens` stores, with the time that the server has read. -/
def storeTokens (tables : Tables) (input : TokenUpdate) (expiresAt : ℤ) : Tables :=
  tables.updateSession input.sessionId fun row =>
    { row with
      accessToken := encryptSecret input.accessToken
      accessTokenExpiresAt := expiresAt
      refreshTokenCiphertext := encryptSecret input.refreshToken }

def updateSessionTokens (tables : Tables) (input : TokenUpdate) : Except Error Tables :=
  (timestamptzParam input.accessTokenExpiresAt).map (tables.storeTokens input)

def revokeSession (tables : Tables) (sessionId : String) (now : ℤ) : Tables :=
  tables.updateSession sessionId fun row => { row with revokedAt := some now }

/-- The parameters of `createUserSession` that the second of its statements uses. -/
structure NewSession where
  refreshToken : String
  accessToken : String
  /-- A `Date`, or none if it is no time. -/
  accessTokenExpiresAt : Option ℤ
  csrfToken : String
  deriving DecidableEq

/-- `INTERVAL '30 days'`. -/
def thirtyDays : ℤ := 30 * 24 * 60 * 60 * 1000

/-- The row of a new session, with the time that the server has read. -/
def NewSession.row (input : NewSession) (userId : String) (expiresAt now : ℤ) : SessionRow where
  userId := userId
  refreshTokenCiphertext := encryptSecret input.refreshToken
  refreshTokenExpiresAt := some (now + thirtyDays)
  accessToken := encryptSecret input.accessToken
  accessTokenExpiresAt := expiresAt
  csrfToken := input.csrfToken
  revokedAt := none

/-- What `INSERT INTO identity.sessions` stores. -/
def insertSession (tables : Tables) (sessionId userId : String) (input : NewSession)
    (expiresAt now : ℤ) : Tables :=
  { tables with
    sessions := Function.update tables.sessions sessionId (some (input.row userId expiresAt now)) }

/--
`INSERT INTO identity.users … ON CONFLICT (auth0_sub) DO UPDATE … RETURNING id`.  It raises
where another user has the address.
-/
def upsertUser (tables : Tables) (user : User) : Option (Tables × String) :=
  match tables.users.find? fun row => row.auth0Sub = user.auth0Sub with
  | none =>
      if tables.users.any fun row => row.id = user.id ∨ row.email = user.email then none
      else some ({ tables with users := tables.users ++ [user] }, user.id)
  | some old =>
      if tables.users.any fun row => row.id ≠ old.id ∧ row.email = user.email then none
      else some ({ tables with
        users := tables.users.map fun row =>
          if row.id = old.id then { row with email := user.email, displayName := user.displayName }
          else row }, old.id)

/-- A user is either new, or the one of the subject; no one else has the address. -/
theorem upsertUser_cases {tables tables' : Tables} {user : User} {id : String}
    (h : tables.upsertUser user = some (tables', id)) :
    (id = user.id ∧ tables' = { tables with users := tables.users ++ [user] } ∧
      ∀ row ∈ tables.users, row.auth0Sub ≠ user.auth0Sub ∧ row.id ≠ user.id ∧
        row.email ≠ user.email) ∨
    ∃ old ∈ tables.users, old.auth0Sub = user.auth0Sub ∧ id = old.id ∧
      tables' = { tables with
        users := tables.users.map fun row =>
          if row.id = old.id then { row with email := user.email, displayName := user.displayName }
          else row } ∧
      ∀ row ∈ tables.users, row.id ≠ old.id → row.email ≠ user.email := by
  unfold upsertUser at h
  split at h
  · rename_i hnone
    split at h
    · simp at h
    · rename_i hfree
      obtain ⟨rfl, rfl⟩ := Prod.mk.inj (Option.some.inj h)
      refine Or.inl ⟨rfl, rfl, fun row hrow => ?_⟩
      have hsub := List.find?_eq_none.mp hnone row hrow
      have hrow' : ¬ (row.id = user.id ∨ row.email = user.email) := by
        intro hsame
        exact hfree (List.any_eq_true.mpr ⟨row, hrow, decide_eq_true hsame⟩)
      exact ⟨by simpa using hsub, fun hid => hrow' (Or.inl hid), fun hemail => hrow' (Or.inr hemail)⟩
  · rename_i old hold
    split at h
    · simp at h
    · rename_i hfree
      obtain ⟨rfl, rfl⟩ := Prod.mk.inj (Option.some.inj h)
      refine Or.inr ⟨old, List.mem_of_find?_eq_some hold, by simpa using List.find?_some hold, rfl,
        rfl, fun row hrow hid hemail => ?_⟩
      exact hfree (List.any_eq_true.mpr ⟨row, hrow, decide_eq_true ⟨hid, hemail⟩⟩)

/-! ### What the statements do to a session -/

section

variable {tables : Tables} {sessionId sessionId' : String}

theorem sessions_insertSession {userId : String} {input : NewSession} {expiresAt now : ℤ} :
    (tables.insertSession sessionId userId input expiresAt now).sessions sessionId' =
      if sessionId' = sessionId then some (input.row userId expiresAt now)
      else tables.sessions sessionId' := by
  unfold insertSession
  by_cases hid : sessionId' = sessionId
  · subst hid
    simp
  · simp [hid]

theorem sessions_updateSession (set : SessionRow → SessionRow) :
    (tables.updateSession sessionId set).sessions sessionId' =
      if sessionId' = sessionId then (tables.sessions sessionId).map set
      else tables.sessions sessionId' := by
  by_cases hid : sessionId' = sessionId
  · subst hid
    simp [updateSession]
  · simp [updateSession, hid]

/-- What no statement changes: the user, the recorded expiry, and that a session is revoked. -/
structure Kept (row row' : SessionRow) : Prop where
  userId : row'.userId = row.userId
  expiry : row'.refreshTokenExpiresAt = row.refreshTokenExpiresAt
  revoked : row.revokedAt ≠ none → row'.revokedAt ≠ none

theorem Kept.refl (row : SessionRow) : Kept row row := ⟨rfl, rfl, fun h => h⟩

theorem updateSession_kept {set : SessionRow → SessionRow} (hset : ∀ row, Kept row (set row))
    {id : String} {row : SessionRow} (hrow : tables.sessions id = some row) :
    ∃ row', (tables.updateSession sessionId set).sessions id = some row' ∧ Kept row row' := by
  rw [sessions_updateSession]
  by_cases hid : id = sessionId
  · subst hid
    exact ⟨set row, by simp [hrow], hset row⟩
  · exact ⟨row, by simp [hid, hrow], .refl row⟩

theorem storeTokens_kept {input : TokenUpdate} {expiresAt : ℤ} {id : String} {row : SessionRow}
    (hrow : tables.sessions id = some row) :
    ∃ row', (tables.storeTokens input expiresAt).sessions id = some row' ∧ Kept row row' := by
  unfold storeTokens
  refine updateSession_kept (fun row => ?_) hrow
  exact ⟨rfl, rfl, fun h => h⟩

theorem revokeSession_kept (sessionId : String) (now : ℤ) {id : String} {row : SessionRow}
    (hrow : tables.sessions id = some row) :
    ∃ row', (tables.revokeSession sessionId now).sessions id = some row' ∧ Kept row row' := by
  unfold revokeSession
  refine updateSession_kept (fun row => ?_) hrow
  exact ⟨rfl, rfl, fun _ => by simp⟩

theorem loadSession_eq_some {session : AppSession} (h : tables.loadSession sessionId = some session) :
    ∃ row user, tables.sessions sessionId = some row ∧ row.revokedAt = none ∧
      (tables.users.find? fun user => user.id = row.userId) = some user ∧
      session = {
        id := sessionId
        accessToken := decryptSecret row.accessToken
        accessTokenExpiresAt := row.accessTokenExpiresAt
        refreshTokenCiphertext := row.refreshTokenCiphertext
        refreshTokenExpiresAt := row.refreshTokenExpiresAt
        csrfToken := row.csrfToken
        auth0Sub := user.auth0Sub
        email := user.email
        displayName := user.displayName } := by
  unfold loadSession at h
  obtain ⟨row, hrow, h⟩ := Option.bind_eq_some_iff.mp h
  obtain ⟨user, huser, h⟩ := Option.bind_eq_some_iff.mp h
  split at h
  · simp at h
  · rename_i hrevoked
    exact ⟨row, user, hrow, by simpa using hrevoked, huser, (Option.some.inj h).symm⟩

theorem id_of_loadSession {session : AppSession} (h : tables.loadSession sessionId = some session) :
    session.id = sessionId := by
  obtain ⟨row, user, -, -, -, rfl⟩ := loadSession_eq_some h
  rfl

theorem loadSession_isSome {row : SessionRow} (hrow : tables.sessions sessionId = some row)
    (hunrevoked : row.revokedAt = none)
    (huser : (tables.users.find? fun user => user.id = row.userId) ≠ none) :
    ∃ session, tables.loadSession sessionId = some session := by
  obtain ⟨user, huser⟩ := Option.ne_none_iff_exists'.mp huser
  unfold loadSession
  simp [hrow, huser, hunrevoked]

theorem loadSession_eq_none {row : SessionRow} (hrow : tables.sessions sessionId = some row)
    (hrevoked : row.revokedAt ≠ none) : tables.loadSession sessionId = none := by
  by_contra hsome
  obtain ⟨session, hload⟩ := Option.ne_none_iff_exists'.mp hsome
  obtain ⟨row', -, hrow', hunrevoked, -⟩ := loadSession_eq_some hload
  obtain rfl := Option.some.inj (hrow.symm.trans hrow')
  exact hrevoked hunrevoked

/-- The columns that are not written are what they were. -/
theorem comp_set {β : Type} (column : User → β) (old user : User)
    (hkept : ∀ row : User,
      column { row with email := user.email, displayName := user.displayName } = column row) :
    (column ∘ fun row : User =>
      if row.id = old.id then { row with email := user.email, displayName := user.displayName }
      else row) = column := by
  funext row
  show column (if _ then _ else _) = column row
  split
  · exact hkept row
  · rfl

/-- A user that is known stays known. -/
theorem find_upsertUser {tables' : Tables} {user : User} {id userId : String}
    (h : tables.upsertUser user = some (tables', id))
    (hknown : (tables.users.find? fun row => row.id = userId) ≠ none) :
    (tables'.users.find? fun row => row.id = userId) ≠ none := by
  rcases upsertUser_cases h with ⟨-, rfl, -⟩ | ⟨old, -, -, -, rfl, -⟩
  · simp only [List.find?_append]
    cases hfind : tables.users.find? fun row => row.id = userId with
    | none => exact absurd hfind hknown
    | some row => simp
  · rw [List.find?_map, comp_set (fun row => decide (row.id = userId)) old user fun row => rfl]
    simpa using hknown

theorem sessions_upsertUser {tables' : Tables} {user : User} {id : String}
    (h : tables.upsertUser user = some (tables', id)) : tables'.sessions = tables.sessions := by
  rcases upsertUser_cases h with ⟨-, rfl, -⟩ | ⟨old, -, -, -, rfl, -⟩
  · rfl
  · rfl

theorem find_of_mem {userId : String} (h : userId ∈ tables.users.map User.id) :
    (tables.users.find? fun row => row.id = userId) ≠ none := by
  obtain ⟨user, huser, rfl⟩ := List.mem_map.mp h
  intro hnone
  have hne := List.find?_eq_none.mp hnone user huser
  simp at hne

end

end Tables

end CommercePlatform.Bff
