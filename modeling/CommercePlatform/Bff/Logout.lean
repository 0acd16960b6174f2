/-
Logging out.

`logoutController` asks Auth0 to revoke the refresh token first, and only if that resolves
it revokes the session.  A revoked session is never loaded again: no statement takes
`revoked_at` back, the update of its tokens included.  But where the call of Auth0 raises,
the session is left as it was.
-/
import CommercePlatform.Bff.Admission

namespace CommercePlatform.Bff

variable {refreshWindowMs : ℤ} {s s' s₀ : State} {act : Act} {tables : Tables} {id : String}

/-! ### What holds in every state -/

/-- The session was found, under an identifier as it is printed. -/
def Tables.Knows (tables : Tables) (id : String) : Prop :=
  Uuid.read id = some id ∧ tables.sessions id ≠ none

/-- What a request that waits has found so far. -/
def Stage.Sound (tables : Tables) : Stage → Prop
  | .loadSession _ sessionId => Uuid.read sessionId = some sessionId
  | .refreshAuth0Tokens _ session => tables.Knows session.id
  | .updateSessionTokens _ input => tables.Knows input.sessionId
  | .reloadSession _ sessionId => tables.Knows sessionId
  | .revokeRefreshToken session => tables.Knows session.id
  | .revokeSession session => tables.Knows session.id
  | .ended _ => True

theorem Stage.Sound.mono {tables' : Tables} {stage : Stage} (h : stage.Sound tables)
    (hkept : ∀ id, tables.sessions id ≠ none → tables'.sessions id ≠ none) :
    stage.Sound tables' := by
  cases stage with
  | loadSession caller sessionId => exact h
  | ended outcome => exact h
  | _ => exact ⟨h.1, hkept _ h.2⟩

/-- A session that is loaded is known. -/
theorem Tables.knows_of_loadSession {session : AppSession} (hid : Uuid.read id = some id)
    (hload : tables.loadSession id = some session) : tables.Knows session.id := by
  rw [id_of_loadSession hload]
  obtain ⟨row, user, hrow, -⟩ := loadSession_eq_some hload
  exact ⟨hid, by simp [hrow]⟩

namespace State

structure LogoutLaw (s : State) : Prop where
  sound : ∀ i call, s.calls i = some call → call.stage.Sound s.tables
  /-- Only so many requests have arrived. -/
  bounded : ∃ n, ∀ i, n ≤ i → s.calls i = none
  arrived : ∀ admission ∈ s.admissions, s.calls admission.call ≠ none
  users : ∀ id row, s.tables.sessions id = some row →
    (s.tables.users.find? fun user => user.id = row.userId) ≠ none
  known : ∀ logout ∈ s.logouts, s.tables.Knows logout.sessionId
  /-- What revokes a session is a logout that Auth0 has not held up. -/
  revoked : ∀ id row, s.tables.sessions id = some row → (row.revokedAt ≠ none ↔
    ∃ logout ∈ s.logouts, logout.sessionId = id ∧ logout.resolved = true)

namespace LogoutLaw

theorem start (hempty : ∀ id, tables.sessions id = none) : LogoutLaw (State.start tables) where
  sound i call hcall := by simp [State.start] at hcall
  bounded := ⟨0, fun i _ => rfl⟩
  arrived := by simp [State.start]
  users id row hrow := by
    have hrow' : tables.sessions id = some row := hrow
    rw [hempty] at hrow'
    simp at hrow'
  known := by simp [State.start]
  revoked id row hrow := by
    have hrow' : tables.sessions id = some row := hrow
    rw [hempty] at hrow'
    simp at hrow'

/-- A request that moves on, with nothing else changed, keeps the law. -/
theorem moveTo (h : LogoutLaw s) (i : ℕ) (request : Request) {stage : Stage}
    (hsound : stage.Sound s.tables) : LogoutLaw (s.moveTo i request stage) where
  sound j call hcall := by
    rcases update_eq_some hcall with ⟨rfl, hnew⟩ | ⟨-, hbefore⟩
    · obtain rfl := Option.some.inj hnew
      exact hsound
    · exact h.sound j call hbefore
  bounded := by
    obtain ⟨n, hn⟩ := h.bounded
    refine ⟨max n (i + 1), fun j hj => ?_⟩
    have hne : j ≠ i := by omega
    have hle : n ≤ j := by omega
    simp [State.moveTo, hne, hn j hle]
  arrived admission hadmission := by
    show Function.update s.calls i _ admission.call ≠ none
    by_cases hcall : admission.call = i
    · rw [hcall]
      simp
    · rw [Function.update_of_ne hcall]
      exact h.arrived admission hadmission
  users := h.users
  known := h.known
  revoked := h.revoked

/-- The calls of Auth0 leave no trace in the tables. -/
theorem presents (h : LogoutLaw s) (session : AppSession) : LogoutLaw (s.presents session) :=
  ⟨h.sound, h.bounded, h.arrived, h.users, h.known, h.revoked⟩

theorem issues (h : LogoutLaw s) (sessionId token : String) :
    LogoutLaw (s.issues sessionId token) :=
  ⟨h.sound, h.bounded, h.arrived, h.users, h.known, h.revoked⟩

/-- Neither does a logout that Auth0 has held up. -/
theorem logsOut (h : LogoutLaw s) (i : ℕ) (hknown : s.tables.Knows id) :
    LogoutLaw (s.logsOut i id false) where
  sound := h.sound
  bounded := h.bounded
  arrived := h.arrived
  users := h.users
  known logout hlogout := by
    rcases List.mem_append.mp hlogout with hbefore | hnow
    · exact h.known logout hbefore
    · obtain rfl := List.mem_singleton.mp hnow
      exact hknown
  revoked id' row hrow := by
    rw [h.revoked id' row hrow]
    constructor
    · intro ⟨logout, hlogout, hmatch⟩
      exact ⟨logout, List.mem_append_left _ hlogout, hmatch⟩
    · intro ⟨logout, hlogout, hid, hresolved⟩
      rcases List.mem_append.mp hlogout with hbefore | hnow
      · exact ⟨logout, hbefore, hid, hresolved⟩
      · obtain rfl := List.mem_singleton.mp hnow
        simp at hresolved

theorem returns (h : LogoutLaw s) {i : ℕ} {request : Request} {caller : Caller}
    {loaded : Option AppSession} {now : ℤ}
    (hloaded : ∀ session ∈ loaded, s.tables.Knows session.id) :
    LogoutLaw (s.returns i request caller loaded now) := by
  have hsound : (returnStage request caller loaded).Sound s.tables := by
    cases caller with
    | refreshController => exact trivial
    | requireSession =>
        cases loaded with
        | none => exact trivial
        | some session =>
            have hknown := hloaded session rfl
            show (enterController request session).Sound s.tables
            unfold enterController
            split
            · exact trivial
            · split
              · exact hknown.1
              · exact trivial
            · split
              · exact hknown
              · exact trivial
  have hmoved := h.moveTo i request hsound
  refine ⟨hmoved.sound, hmoved.bounded, ?_, hmoved.users, hmoved.known, hmoved.revoked⟩
  intro admission hadmission
  have hcases : admission ∈ s.admissions ∨ admission.call = i := by
    have hmem : admission ∈ (s.returns i request caller loaded now).admissions := hadmission
    cases caller with
    | refreshController => exact Or.inl hmem
    | requireSession =>
        cases loaded with
        | none => exact Or.inl hmem
        | some session =>
            rcases List.mem_append.mp hmem with hbefore | hnow
            · exact Or.inl hbefore
            · obtain rfl := List.mem_singleton.mp hnow
              exact Or.inr rfl
  rcases hcases with hbefore | hcall
  · exact hmoved.arrived admission hbefore
  · show Function.update s.calls i _ admission.call ≠ none
    rw [hcall]
    simp

/-- A change of the tables that loses no session, and revokes what the logouts say, keeps the law. -/
theorem of_tables (h : LogoutLaw s) {tables' : Tables}
    (hkept : ∀ id, s.tables.sessions id ≠ none → tables'.sessions id ≠ none)
    (husers : ∀ id row, tables'.sessions id = some row →
      (tables'.users.find? fun user => user.id = row.userId) ≠ none)
    (hrevoked : ∀ id row, tables'.sessions id = some row → (row.revokedAt ≠ none ↔
      ∃ logout ∈ s.logouts, logout.sessionId = id ∧ logout.resolved = true)) :
    LogoutLaw { s with tables := tables' } where
  sound i call hcall := (h.sound i call hcall).mono hkept
  bounded := h.bounded
  arrived := h.arrived
  users := husers
  known logout hlogout := ⟨(h.known logout hlogout).1, hkept _ (h.known logout hlogout).2⟩
  revoked := hrevoked

theorem upsertUser (h : LogoutLaw s) {user : User} {tables' : Tables} {userId : String}
    (hupsert : s.tables.upsertUser user = some (tables', userId)) :
    LogoutLaw { s with tables := tables' } := by
  have hsame := Tables.sessions_upsertUser hupsert
  refine h.of_tables ?_ ?_ ?_
  · intro id hknown
    rw [hsame]
    exact hknown
  · intro id row hrow
    rw [hsame] at hrow
    exact Tables.find_upsertUser hupsert (h.users id row hrow)
  · intro id row hrow
    rw [hsame] at hrow
    exact h.revoked id row hrow

theorem insertSession (h : LogoutLaw s) {sessionId userId : String} {input : Tables.NewSession}
    {expiresAt now : ℤ} (hnew : s.tables.sessions sessionId = none)
    (huser : userId ∈ s.tables.users.map User.id) :
    LogoutLaw { s with tables := s.tables.insertSession sessionId userId input expiresAt now } := by
  refine h.of_tables ?_ ?_ ?_
  · intro id hknown
    rw [Tables.sessions_insertSession]
    split
    · simp
    · exact hknown
  · intro id row hrow
    rw [Tables.sessions_insertSession] at hrow
    split at hrow
    · obtain rfl := Option.some.inj hrow
      exact Tables.find_of_mem huser
    · exact h.users id row hrow
  · intro id row hrow
    rw [Tables.sessions_insertSession] at hrow
    split at hrow
    · rename_i hid
      obtain rfl := Option.some.inj hrow
      constructor
      · intro hrevoked
        exact absurd rfl hrevoked
      · rintro ⟨logout, hlogout, heq, -⟩
        have hknown := (h.known logout hlogout).2
        rw [heq, hid] at hknown
        exact absurd hnew hknown
    · exact h.revoked id row hrow

theorem updateSession (h : LogoutLaw s) {sessionId : String} {set : SessionRow → SessionRow}
    (huser : ∀ row, (set row).userId = row.userId)
    (hrevoked : ∀ row, (set row).revokedAt = row.revokedAt) :
    LogoutLaw { s with tables := s.tables.updateSession sessionId set } := by
  have hbefore : ∀ {id : String} {row' : SessionRow},
      (s.tables.updateSession sessionId set).sessions id = some row' →
      ∃ row, s.tables.sessions id = some row ∧ row'.userId = row.userId ∧
        row'.revokedAt = row.revokedAt := by
    intro id row' hrow'
    rw [Tables.sessions_updateSession] at hrow'
    split at hrow'
    · rename_i hid
      obtain ⟨row, hrow, rfl⟩ := Option.map_eq_some_iff.mp hrow'
      exact ⟨row, hid ▸ hrow, huser row, hrevoked row⟩
    · exact ⟨row', hrow', rfl, rfl⟩
  refine h.of_tables ?_ ?_ ?_
  · intro id hknown
    rw [Tables.sessions_updateSession]
    split
    · rename_i hid
      simpa [hid] using hknown
    · exact hknown
  · intro id row' hrow'
    obtain ⟨row, hrow, hsame, -⟩ := hbefore hrow'
    rw [hsame]
    exact h.users id row hrow
  · intro id row' hrow'
    obtain ⟨row, hrow, -, hsame⟩ := hbefore hrow'
    rw [hsame]
    exact h.revoked id row hrow

theorem storeTokens (h : LogoutLaw s) (input : Tables.TokenUpdate) (expiresAt : ℤ) :
    LogoutLaw { s with tables := s.tables.storeTokens input expiresAt } :=
  h.updateSession (fun _ => rfl) fun _ => rfl

/-- The session is revoked, and this is written down. -/
theorem revokeSession (h : LogoutLaw s) (i : ℕ) (now : ℤ) (hknown : s.tables.Knows id) :
    LogoutLaw ({ s with tables := s.tables.revokeSession id now }.logsOut i id true) where
  sound j call hcall := by
    refine (h.sound j call hcall).mono fun id' hsome => ?_
    obtain ⟨row, hrow⟩ := Option.ne_none_iff_exists'.mp hsome
    obtain ⟨row', hrow', -⟩ := Tables.revokeSession_kept id now hrow
    exact Option.ne_none_iff_exists'.mpr ⟨row', hrow'⟩
  bounded := h.bounded
  arrived := h.arrived
  users id' row' hrow' := by
    have hrow'' : (s.tables.revokeSession id now).sessions id' = some row' := hrow'
    unfold Tables.revokeSession at hrow''
    rw [Tables.sessions_updateSession] at hrow''
    split at hrow''
    · obtain ⟨row, hrow, rfl⟩ := Option.map_eq_some_iff.mp hrow''
      exact h.users id row hrow
    · exact h.users id' row' hrow''
  known logout hlogout := by
    have hkept : ∀ {id' : String}, s.tables.Knows id' →
        (s.tables.revokeSession id now).Knows id' := by
      intro id' hknows
      obtain ⟨row, hrow⟩ := Option.ne_none_iff_exists'.mp hknows.2
      obtain ⟨row', hrow', -⟩ := Tables.revokeSession_kept id now hrow
      exact ⟨hknows.1, Option.ne_none_iff_exists'.mpr ⟨row', hrow'⟩⟩
    rcases List.mem_append.mp hlogout with hbefore | hnow
    · exact hkept (h.known logout hbefore)
    · obtain rfl := List.mem_singleton.mp hnow
      exact hkept hknown
  revoked id' row' hrow' := by
    have hrow'' : (s.tables.revokeSession id now).sessions id' = some row' := hrow'
    unfold Tables.revokeSession at hrow''
    rw [Tables.sessions_updateSession] at hrow''
    split at hrow''
    · rename_i hid
      obtain ⟨row, hrow, rfl⟩ := Option.map_eq_some_iff.mp hrow''
      constructor
      · intro _
        exact ⟨_, List.mem_append_right _ (List.mem_singleton_self _), hid.symm, rfl⟩
      · intro _
        simp
    · rename_i hid
      rw [h.revoked id' row' hrow'']
      constructor
      · intro ⟨logout, hlogout, hmatch⟩
        exact ⟨logout, List.mem_append_left _ hlogout, hmatch⟩
      · rintro ⟨logout, hlogout, heq, hresolved⟩
        rcases List.mem_append.mp hlogout with hbefore | hnow
        · exact ⟨logout, hbefore, heq, hresolved⟩
        · obtain rfl := List.mem_singleton.mp hnow
          exact absurd heq.symm hid

/-- **The law is kept by every step.** -/
theorem step (h : LogoutLaw s) (hs : s.step refreshWindowMs act = some s') : LogoutLaw s' := by
  have hloaded : ∀ {sessionId : String}, Uuid.read sessionId = some sessionId →
      ∀ session ∈ s.tables.loadSession sessionId, s.tables.Knows session.id :=
    fun hid session hsession => Tables.knows_of_loadSession hid hsession
  cases turn_of_step hs with
  | upsertUser hupsert => exact h.upsertUser hupsert
  | insertSession htime hid hnew huser => exact (h.insertSession hnew huser).issues _ _
  | @arrive i request hnone =>
      refine h.moveTo i request ?_
      unfold arrival
      split
      · exact trivial
      · split
        · exact trivial
        · split
          · exact trivial
          · exact Uuid.read_of_read ‹_›
  | load_none hcall hload => exact h.returns (by simp)
  | load_fresh hcall hload hfresh =>
      refine h.returns fun session hsession => ?_
      exact hloaded (h.sound _ _ hcall) session (by rw [hload]; exact hsession)
  | load_stale hcall hload hstale =>
      exact h.moveTo _ _ (hloaded (h.sound _ _ hcall) _ hload)
  | refresh_raised hcall => exact (h.presents _).moveTo _ _ trivial
  | refresh_kept hcall htoken => exact (h.presents _).moveTo _ _ (h.sound _ _ hcall)
  | refresh_rotated hcall htoken =>
      refine LogoutLaw.issues ((h.presents _).moveTo _ _ ?_) _ _
      exact h.sound _ _ hcall
  | update_raised hcall htime => exact h.moveTo _ _ trivial
  | @update i request caller input expiresAt hcall =>
      have hupdated := h.storeTokens input expiresAt
      refine hupdated.moveTo i request ?_
      exact hupdated.sound _ _ hcall
  | reload hcall => exact h.returns (hloaded (h.sound _ _ hcall).1)
  | revoke_resolved hcall => exact h.moveTo _ _ (h.sound _ _ hcall)
  | revoke_raised hcall => exact (h.logsOut _ (h.sound _ _ hcall)).moveTo _ _ trivial
  | revokeSession hcall => exact (h.revokeSession _ _ (h.sound _ _ hcall)).moveTo _ _ trivial

theorem of_run (hempty : ∀ id, tables.sessions id = none) {steps : List (State × Act)}
    (hrun : Run refreshWindowMs (State.start tables) steps s) : LogoutLaw s := by
  induction hrun with
  | start => exact .start hempty
  | step _ hs ih => exact ih.step hs

end LogoutLaw

/-! ### The end of a session -/

/-- No request that arrives from here on is admitted with the session. -/
def NeverAdmits (refreshWindowMs : ℤ) (s : State) (id : String) : Prop :=
  ∀ steps s', Run refreshWindowMs s steps s' →
    ∀ admission ∈ s'.admissions, s.calls admission.call = none → admission.session.id ≠ id

/-- From here on the session is not loaded again, whatever is updated. -/
def NeverLoads (refreshWindowMs : ℤ) (s : State) (id : String) : Prop :=
  ∀ steps s', Run refreshWindowMs s steps s' → s'.tables.loadSession id = none

/-- A session that is revoked stays revoked. -/
theorem revoked_kept {row : SessionRow} (hrow : s.tables.sessions id = some row)
    (hrevoked : row.revokedAt ≠ none) {steps : List (State × Act)}
    (hrun : Run refreshWindowMs s steps s') :
    ∃ row', s'.tables.sessions id = some row' ∧ row'.revokedAt ≠ none := by
  induction hrun with
  | start => exact ⟨row, hrow, hrevoked⟩
  | step _ hs ih =>
      obtain ⟨row', hrow', hrevoked'⟩ := ih
      obtain ⟨row'', hrow'', hkept⟩ := (turn_of_step hs).row_kept hrow'
      exact ⟨row'', hrow'', hkept.revoked hrevoked'⟩

theorem neverLoads_of_revoked {row : SessionRow} (hrow : s.tables.sessions id = some row)
    (hrevoked : row.revokedAt ≠ none) : s.NeverLoads refreshWindowMs id := by
  intro steps s' hrun
  obtain ⟨row', hrow', hrevoked'⟩ := revoked_kept hrow hrevoked hrun
  exact Tables.loadSession_eq_none hrow' hrevoked'

/-- Who is not loaded is not admitted. -/
theorem neverAdmits_of_neverLoads (hlaw : LogoutLaw s) (h : s.NeverLoads refreshWindowMs id) :
    s.NeverAdmits refreshWindowMs id := by
  intro steps s' hrun
  have hadmitted : ∀ admission ∈ s'.admissions, admission.session.id = id →
      admission ∈ s.admissions := by
    induction hrun with
    | start => exact fun admission hadmission _ => hadmission
    | step hrun hs ih =>
        intro admission hadmission hid
        rcases (turn_of_step hs).admits with
          hsame | ⟨i, request, stage, session, now, happend, -, -, -, hload⟩
        · rw [hsame] at hadmission
          exact ih admission hadmission hid
        · rw [happend] at hadmission
          rcases List.mem_append.mp hadmission with hbefore | hnow
          · exact ih admission hbefore hid
          · obtain rfl := List.mem_singleton.mp hnow
            have hid' : session.id = id := hid
            rw [hid', h _ _ hrun] at hload
            simp at hload
  intro admission hadmission harrived hid
  exact hlaw.arrived admission (hadmitted admission hadmission hid) harrived

/-- A request with the cookie of a session that can be loaded is admitted while it is fresh. -/
theorem exists_admission (hlaw : LogoutLaw s) {session : AppSession} {now : ℤ}
    (hid : Uuid.read id = some id) (hload : s.tables.loadSession id = some session)
    (hfresh : isFresh refreshWindowMs now session = true) :
    ∃ n request s₁ s₂, s.calls n = none ∧ s.step refreshWindowMs (.arrive n request) = some s₁ ∧
      s₁.step refreshWindowMs (.loadSession n now) = some s₂ ∧ s₁.tables = s.tables ∧
      s₂.admissions = s₁.admissions ++ [{ call := n, session := session, time := now }] := by
  obtain ⟨n, hn⟩ := hlaw.bounded
  have hnone := hn n (le_refl n)
  let request : Request :=
    { sessionCookie := some id, csrfCookie := none, csrfHeader := none, route := .other }
  have harrival : arrival request = .loadSession .requireSession id :=
    arrival_of_names ⟨id, rfl, hid⟩
  let waiting := s.moveTo n request (.loadSession .requireSession id)
  have harrive : s.step refreshWindowMs (.arrive n request) = some waiting := by
    simp [step, hnone, harrival, waiting]
  have hwaiting : waiting.calls n =
      some { request := request, stage := .loadSession .requireSession id } := by
    simp [waiting, moveTo]
  have hadmit : waiting.step refreshWindowMs (.loadSession n now) =
      some (waiting.returns n request .requireSession (some session) now) := by
    have hload' : waiting.tables.loadSession id = some session := hload
    simp [step, hwaiting, hload', hfresh]
  exact ⟨n, request, waiting, _, hnone, harrive, hadmit, rfl, rfl⟩

/-- A session that can be loaded is fresh at some time. -/
theorem not_neverAdmits_of_load (hlaw : LogoutLaw s) {session : AppSession}
    (hid : Uuid.read id = some id) (hload : s.tables.loadSession id = some session) :
    ¬ s.NeverAdmits refreshWindowMs id := by
  intro hnever
  have hfresh : isFresh refreshWindowMs (session.accessTokenExpiresAt - refreshWindowMs - 1)
      session = true := by
    simp only [isFresh, decide_eq_true_eq]
    omega
  obtain ⟨n, request, s₁, s₂, hnone, harrive, hadmit, -, happend⟩ :=
    exists_admission hlaw hid hload hfresh
  have hmem : { call := n, session := session,
                time := session.accessTokenExpiresAt - refreshWindowMs - 1 } ∈ s₂.admissions := by
    rw [happend]
    exact List.mem_append_right _ (List.mem_singleton_self _)
  exact hnever _ s₂ ((Run.start.step harrive).step hadmit) _ hmem hnone
    (Tables.id_of_loadSession hload)

/--
**A logout that has ended has ended its session if and only if Auth0 has not held up some logout
of that session.**  Whether this one has ended normally or with an error, what counts is that a
call to revoke the refresh token has resolved.
-/
theorem logout_ends_session (hempty : ∀ id, tables.sessions id = none)
    {steps : List (State × Act)} (hrun : Run refreshWindowMs (State.start tables) steps s)
    {logout : Logout} (hmem : logout ∈ s.logouts) :
    (s.NeverAdmits refreshWindowMs logout.sessionId ↔
      ∃ other ∈ s.logouts, other.sessionId = logout.sessionId ∧ other.resolved = true) ∧
    (s.NeverLoads refreshWindowMs logout.sessionId ↔
      ∃ other ∈ s.logouts, other.sessionId = logout.sessionId ∧ other.resolved = true) := by
  have hlaw := LogoutLaw.of_run hempty hrun
  obtain ⟨hid, hknown⟩ := hlaw.known logout hmem
  obtain ⟨row, hrow⟩ := Option.ne_none_iff_exists'.mp hknown
  rw [← hlaw.revoked logout.sessionId row hrow]
  have hloads : row.revokedAt = none → ∃ session,
      s.tables.loadSession logout.sessionId = some session := by
    intro hunrevoked
    exact Tables.loadSession_isSome hrow hunrevoked (hlaw.users logout.sessionId row hrow)
  refine ⟨⟨fun hnever hunrevoked => ?_, fun hrevoked => ?_⟩,
    ⟨fun hnever hunrevoked => ?_, fun hrevoked => ?_⟩⟩
  · obtain ⟨session, hload⟩ := hloads hunrevoked
    exact not_neverAdmits_of_load hlaw hid hload hnever
  · exact neverAdmits_of_neverLoads hlaw (neverLoads_of_revoked hrow hrevoked)
  · obtain ⟨session, hload⟩ := hloads hunrevoked
    have hnone := hnever [] s .start
    rw [hload] at hnone
    simp at hnone
  · exact neverLoads_of_revoked hrow hrevoked

end State

end CommercePlatform.Bff

/-! ### One session -/

namespace CommercePlatform.Bff.Visit

def sessionId : String := "8f3c6b1e-0c55-4f7e-9a86-5b7f2d1c4e01"

def user : User where
  id := "8f3c6b1e-0c55-4f7e-9a86-5b7f2d1c4e02"
  auth0Sub := "auth0|6650"
  email := "ada@example.com"
  displayName := none

def tables : Tables where
  users := [user]
  groups := []
  privileges := []
  groupPrivileges := []
  userGroup := []
  sessions _ := none

/-- The window of two minutes. -/
def window : ℤ := 120000

/-- An access token of ten minutes. -/
def login : Act := .insertSession sessionId user.id
  { refreshToken := "v1.first", accessToken := "ey.first", accessTokenExpiresAt := some 600000
    csrfToken := "5f2d" } 0

def request (route : Route) : Request where
  sessionCookie := some sessionId
  csrfCookie := some "5f2d"
  csrfHeader := some "5f2d"
  route := route

/-- A logout that Auth0 answers, or not, a second after the login. -/
def loggingOut (resolved : Bool) : List Act :=
  [login, .arrive 0 (request .logout), .loadSession 0 1000, .revokeRefreshToken 0 resolved]

/-- Auth0 is not to be reached; the logout has ended, and the next request is admitted. -/
theorem still_admitted : ∃ steps s, State.Run window (State.start tables) steps s ∧
    ∃ logout ∈ s.logouts, logout.sessionId = sessionId ∧
      ∃ steps' s', State.Run window s steps' s' ∧
        ∃ admission ∈ s'.admissions, s.calls admission.call = none ∧
          admission.session.id = sessionId := by
  have hout : ((State.run window (loggingOut false) (State.start tables)).any fun s =>
      (s.logouts.any fun logout => logout.sessionId = sessionId) && (s.calls 1).isNone &&
        ((State.run window [.arrive 1 (request .other), .loadSession 1 2000] s).any fun s' =>
          s'.admissions.any fun admission =>
            admission.call = 1 && admission.session.id = sessionId)) = true := by
    decide +kernel
  obtain ⟨s, hs, hout⟩ := (Option.any_eq_true _ _).mp hout
  simp only [Bool.and_eq_true] at hout
  obtain ⟨⟨hlogout, hnone⟩, hin⟩ := hout
  obtain ⟨s', hs', hin⟩ := (Option.any_eq_true _ _).mp hin
  obtain ⟨logout, hlogout, hid⟩ := List.any_eq_true.mp hlogout
  obtain ⟨admission, hadmission, hadmitted⟩ := List.any_eq_true.mp hin
  simp only [Bool.and_eq_true, decide_eq_true_eq] at hadmitted hid
  obtain ⟨steps, hrun⟩ := State.Run.start.of_run hs
  obtain ⟨steps', hrun'⟩ := State.Run.start.of_run hs'
  refine ⟨steps, s, hrun, logout, hlogout, hid, steps', s', hrun', admission, hadmission, ?_,
    hadmitted.2⟩
  rw [hadmitted.1]
  simpa using hnone

/-- Auth0 answers, the session is revoked, and no one is admitted with it. -/
theorem logged_out : ∃ steps s, State.Run window (State.start tables) steps s ∧
    ∃ logout ∈ s.logouts, logout.sessionId = sessionId ∧
      s.NeverAdmits window logout.sessionId ∧ s.NeverLoads window logout.sessionId := by
  have hout : ((State.run window (loggingOut true ++ [.revokeSession 0 1500])
      (State.start tables)).any fun s => s.logouts.any fun logout =>
        logout.sessionId = sessionId && logout.resolved) = true := by
    decide +kernel
  obtain ⟨s, hs, hout⟩ := (Option.any_eq_true _ _).mp hout
  obtain ⟨logout, hlogout, hmatch⟩ := List.any_eq_true.mp hout
  simp only [Bool.and_eq_true, decide_eq_true_eq] at hmatch
  obtain ⟨steps, hrun⟩ := State.Run.start.of_run hs
  obtain ⟨hadmits, hloads⟩ := State.logout_ends_session (fun _ => rfl) hrun hlogout
  exact ⟨steps, s, hrun, logout, hlogout, hmatch.1, hadmits.mpr ⟨logout, hlogout, rfl, hmatch.2⟩,
    hloads.mpr ⟨logout, hlogout, rfl, hmatch.2⟩⟩

end CommercePlatform.Bff.Visit
