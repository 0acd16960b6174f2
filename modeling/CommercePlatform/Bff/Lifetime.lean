/-
How long a session lasts.

A login records when its refresh token expires, thirty days later, and every request loads
this time with the session.  It is never compared with the clock, and no update of the
tokens moves it.

So it depends on what comes in whether a session is used after that time.  A request is admitted
with an access token that is fresh: such a token is good beyond the recorded time only if Auth0
has granted it for so long, at the login or at a refresh.  Or it is admitted with a token that it
has just had refreshed: then it is late only if this refresh comes to its end late.
-/
import CommercePlatform.Bff.Logout

namespace CommercePlatform.Bff

/-- Nothing is recorded, or the time that is recorded has not come. -/
def Unexpired (expiry : Option ℤ) (now : ℤ) : Prop := ∀ time ∈ expiry, now < time

/-- The token is no longer good by the time that is recorded, but for the window. -/
def EndsBy (refreshWindowMs : ℤ) (expiry : Option ℤ) (expiresAt : ℤ) : Prop :=
  ∀ time ∈ expiry, expiresAt ≤ time + refreshWindowMs

/-- The row of a session that is not revoked. -/
def Tables.unrevoked (tables : Tables) (id : String) : Option SessionRow :=
  (tables.sessions id).filter fun row => row.revokedAt = none

theorem Tables.mem_unrevoked {tables : Tables} {id : String} {row : SessionRow} :
    row ∈ tables.unrevoked id ↔ tables.sessions id = some row ∧ row.revokedAt = none := by
  simp [unrevoked, Option.filter_eq_some_iff]

namespace Stage

/-- The session whose tokens Auth0 is asked to refresh. -/
def asksFor : Stage → Option String
  | .refreshAuth0Tokens _ session => some session.id
  | _ => none

/-- The session that `requireSession` loads again after a refresh. -/
def reloads : Stage → Option String
  | .reloadSession .requireSession sessionId => some sessionId
  | _ => none

/-- What a request goes on to from `ensureFreshSession` is no update. -/
theorem returnStage_ne_update (request : Request) (caller caller' : Caller)
    (session : Option AppSession) (input : Tables.TokenUpdate) :
    returnStage request caller session ≠ .updateSessionTokens caller' input := by
  cases caller with
  | refreshController => simp [returnStage]
  | requireSession =>
      cases session with
      | none => simp [returnStage]
      | some session =>
          simp only [returnStage, enterController]
          split
          · simp
          · split <;> simp
          · split <;> simp

theorem arrival_ne_update (request : Request) (caller : Caller) (input : Tables.TokenUpdate) :
    arrival request ≠ .updateSessionTokens caller input := by
  unfold arrival
  split
  · simp
  · split
    · simp
    · split <;> simp

end Stage

namespace State

variable {refreshWindowMs : ℤ} {s s' s₀ : State} {act : Act} {id : String}

/-- Each request that a step admits has an unrevoked session that has not expired. -/
def AdmitsInTime (s s' : State) : Prop :=
  ∀ admitted, s'.admissions = s.admissions ++ admitted → ∀ admission ∈ admitted,
    ∃ row, s.tables.sessions admission.session.id = some row ∧ row.revokedAt = none ∧
      Unexpired row.refreshTokenExpiresAt admission.time

/--
What comes in lets a session outlast the time that is recorded for it: Auth0 grants an access
token for longer, at the login or at a refresh, or a refresh that it has granted comes to its end
when that time has come.
-/
def Outlasts (refreshWindowMs : ℤ) (s : State) : Act → Prop
  | .insertSession _ _ input now =>
      ∃ time ∈ storedTime input.accessTokenExpiresAt,
        ¬ EndsBy refreshWindowMs (some (now + Tables.thirtyDays)) time
  | .refreshAuth0Tokens i (some refreshed) now =>
      ∃ call ∈ s.calls i, ∃ id ∈ call.stage.asksFor, ∃ row ∈ s.tables.unrevoked id,
        ∃ time ∈ storedTime (expiresAt now refreshed.expiresIn),
          ¬ EndsBy refreshWindowMs row.refreshTokenExpiresAt time
  | .reloadSession i now =>
      ∃ call ∈ s.calls i, ∃ id ∈ call.stage.reloads, ∃ row ∈ s.tables.unrevoked id,
        ¬ Unexpired row.refreshTokenExpiresAt now
  | _ => False

instance (expiry : Option ℤ) (now : ℤ) : Decidable (Unexpired expiry now) :=
  inferInstanceAs (Decidable (∀ time ∈ expiry, _))

instance (refreshWindowMs : ℤ) (expiry : Option ℤ) (expiresAt : ℤ) :
    Decidable (EndsBy refreshWindowMs expiry expiresAt) :=
  inferInstanceAs (Decidable (∀ time ∈ expiry, _))

instance (refreshWindowMs : ℤ) (s : State) : (act : Act) → Decidable (s.Outlasts refreshWindowMs act)
  | .insertSession _ _ _ _ => inferInstanceAs (Decidable (∃ time ∈ _, _))
  | .refreshAuth0Tokens _ none _ => isFalse fun h => h
  | .refreshAuth0Tokens _ (some _) _ => inferInstanceAs (Decidable (∃ call ∈ _, _))
  | .reloadSession _ _ => inferInstanceAs (Decidable (∃ call ∈ _, _))
  | .upsertUser _ => isFalse fun h => h
  | .arrive _ _ => isFalse fun h => h
  | .loadSession _ _ => isFalse fun h => h
  | .updateSessionTokens _ => isFalse fun h => h
  | .revokeRefreshToken _ _ => isFalse fun h => h
  | .revokeSession _ _ => isFalse fun h => h

theorem admitsInTime_of_same (h : s'.admissions = s.admissions) : s.AdmitsInTime s' := by
  intro admitted hadmitted admission hadmission
  rw [h] at hadmitted
  rw [List.self_eq_append_right.mp hadmitted] at hadmission
  simp at hadmission

/-- Who is admitted is admitted in time if the session that was loaded has not expired. -/
theorem admitsInTime_returns {i : ℕ} {request : Request} {caller : Caller} {sessionId : String}
    {loaded : Option AppSession} {now : ℤ} (hload : s.tables.loadSession sessionId = loaded) :
    s.AdmitsInTime (s.returns i request caller loaded now) ↔
      (caller = .requireSession → ∀ session ∈ loaded,
        Unexpired session.refreshTokenExpiresAt now) := by
  cases caller with
  | refreshController =>
      have hsame : s.AdmitsInTime (s.returns i request .refreshController loaded now) :=
        admitsInTime_of_same rfl
      simp [hsame]
  | requireSession =>
      cases loaded with
      | none =>
          have hsame : s.AdmitsInTime (s.returns i request .requireSession none now) :=
            admitsInTime_of_same rfl
          simp [hsame]
      | some session =>
          obtain ⟨row, user, hrow, hunrevoked, -, rfl⟩ := Tables.loadSession_eq_some hload
          constructor
          · intro htime _ session' hsession'
            obtain rfl := Option.some.inj hsession'
            obtain ⟨row', hrow', -, hunexpired⟩ := htime _ rfl _ (List.mem_singleton_self _)
            obtain rfl := Option.some.inj (hrow.symm.trans hrow')
            exact hunexpired
          · intro htime admitted hadmitted admission hadmission
            rw [← List.append_cancel_left hadmitted] at hadmission
            obtain rfl := List.mem_singleton.mp hadmission
            exact ⟨row, hrow, hunrevoked, htime rfl _ rfl⟩

/-! ### A run in which nothing outlasts -/

/-- An update that waits was made from what Auth0 has just granted. -/
theorem Turn.updating (h : Turn refreshWindowMs s act s') {i : ℕ} {request : Request}
    {caller : Caller} {input : Tables.TokenUpdate}
    (hcall : s'.calls i =
      some { request := request, stage := .updateSessionTokens caller input }) :
    s.calls i = some { request := request, stage := .updateSessionTokens caller input } ∨
      ∃ session refreshed now, act = .refreshAuth0Tokens i (some refreshed) now ∧
        s.calls i = some { request := request, stage := .refreshAuth0Tokens caller session } ∧
        input = tokenUpdate session refreshed now ∧ s'.tables = s.tables := by
  have hmoved : ∀ {j : ℕ} {request' : Request} {stage : Stage},
      (∀ caller input, stage ≠ .updateSessionTokens caller input) →
      Function.update s.calls j (some { request := request', stage := stage }) i =
        some { request := request, stage := .updateSessionTokens caller input } →
      s.calls i = some { request := request, stage := .updateSessionTokens caller input } := by
    intro j request' stage hne hupdate
    rcases update_eq_some hupdate with ⟨-, hnew⟩ | ⟨-, hbefore⟩
    · obtain ⟨-, hstage⟩ := Call.mk.inj (Option.some.inj hnew)
      exact absurd hstage (hne _ _)
    · exact hbefore
  have hgranted : ∀ {j : ℕ} {request' : Request} {caller' : Caller} {session : AppSession}
      {refreshed : TokenSet} {now : ℤ}, act = .refreshAuth0Tokens j (some refreshed) now →
      s.calls j = some { request := request', stage := .refreshAuth0Tokens caller' session } →
      Function.update s.calls j (some { request := request'
                                        stage := .updateSessionTokens caller'
                                          (tokenUpdate session refreshed now) }) i =
        some { request := request, stage := .updateSessionTokens caller input } →
      s'.tables = s.tables →
      s.calls i = some { request := request, stage := .updateSessionTokens caller input } ∨
        ∃ session refreshed now, act = .refreshAuth0Tokens i (some refreshed) now ∧
          s.calls i = some { request := request, stage := .refreshAuth0Tokens caller session } ∧
          input = tokenUpdate session refreshed now ∧ s'.tables = s.tables := by
    intro j request' caller' session refreshed now hact hwaits hupdate htables
    rcases update_eq_some hupdate with ⟨rfl, hnew⟩ | ⟨-, hbefore⟩
    · obtain ⟨rfl, hstage⟩ := Call.mk.inj (Option.some.inj hnew)
      obtain ⟨rfl, rfl⟩ := Stage.updateSessionTokens.inj hstage
      exact Or.inr ⟨session, refreshed, now, hact, hwaits, rfl, htables⟩
    · exact Or.inl hbefore
  cases h with
  | upsertUser hupsert => exact Or.inl hcall
  | insertSession htime hid hnew huser => exact Or.inl hcall
  | arrive hnone => exact Or.inl (hmoved (Stage.arrival_ne_update _) hcall)
  | load_none hwaits => exact Or.inl (hmoved (Stage.returnStage_ne_update _ _ · _) hcall)
  | load_fresh hwaits => exact Or.inl (hmoved (Stage.returnStage_ne_update _ _ · _) hcall)
  | reload hwaits => exact Or.inl (hmoved (Stage.returnStage_ne_update _ _ · _) hcall)
  | refresh_kept hwaits => exact hgranted rfl hwaits hcall rfl
  | refresh_rotated hwaits => exact hgranted rfl hwaits hcall rfl
  | load_stale hwaits => exact Or.inl (hmoved (by simp) hcall)
  | refresh_raised hwaits => exact Or.inl (hmoved (by simp) hcall)
  | update_raised hwaits => exact Or.inl (hmoved (by simp) hcall)
  | update hwaits => exact Or.inl (hmoved (by simp) hcall)
  | revoke_resolved hwaits => exact Or.inl (hmoved (by simp) hcall)
  | revoke_raised hwaits => exact Or.inl (hmoved (by simp) hcall)
  | revokeSession hwaits => exact Or.inl (hmoved (by simp) hcall)

/-- A session that is not revoked was not revoked, and the same time was recorded for it. -/
theorem Turn.unrevoked_before (h : Turn refreshWindowMs s act s')
    (hknown : s.tables.sessions id ≠ none) {row' : SessionRow}
    (hrow' : row' ∈ s'.tables.unrevoked id) :
    ∃ row ∈ s.tables.unrevoked id, row'.refreshTokenExpiresAt = row.refreshTokenExpiresAt := by
  obtain ⟨hafter, hunrevoked⟩ := Tables.mem_unrevoked.mp hrow'
  obtain ⟨row, hrow⟩ := Option.ne_none_iff_exists'.mp hknown
  obtain ⟨row'', hrow'', hkept⟩ := h.row_kept hrow
  obtain rfl := Option.some.inj (hafter.symm.trans hrow'')
  refine ⟨row, Tables.mem_unrevoked.mpr ⟨hrow, ?_⟩, hkept.expiry⟩
  by_contra hrevoked
  exact hkept.revoked hrevoked hunrevoked

/-- No access token that is stored, or on its way to be, is good for longer than its session. -/
structure LifetimeLaw (refreshWindowMs : ℤ) (s : State) : Prop where
  rows : ∀ id, ∀ row ∈ s.tables.unrevoked id,
    EndsBy refreshWindowMs row.refreshTokenExpiresAt row.accessTokenExpiresAt
  updates : ∀ i request caller input time,
    s.calls i = some { request := request, stage := .updateSessionTokens caller input } →
    timestamptzParam input.accessTokenExpiresAt = .ok time →
    ∀ row ∈ s.tables.unrevoked input.sessionId,
      EndsBy refreshWindowMs row.refreshTokenExpiresAt time

namespace LifetimeLaw

theorem start {tables : Tables} (hempty : ∀ id, tables.sessions id = none) :
    LifetimeLaw refreshWindowMs (State.start tables) where
  rows id row hrow := by
    have hsome := (Tables.mem_unrevoked.mp hrow).1
    rw [show (State.start tables).tables.sessions id = none from hempty id] at hsome
    simp at hsome
  updates := by simp [State.start]

theorem rows_step (h : LifetimeLaw refreshWindowMs s) (hturn : Turn refreshWindowMs s act s')
    (hnot : ¬ s.Outlasts refreshWindowMs act) : ∀ id, ∀ row ∈ s'.tables.unrevoked id,
      EndsBy refreshWindowMs row.refreshTokenExpiresAt row.accessTokenExpiresAt := by
  intro id row' hmem
  cases hturn with
  | upsertUser hupsert =>
      apply h.rows id
      obtain ⟨hrow', hunrevoked⟩ := Tables.mem_unrevoked.mp hmem
      exact Tables.mem_unrevoked.mpr
        ⟨(congrFun (Tables.sessions_upsertUser hupsert) id).symm.trans hrow', hunrevoked⟩
  | @insertSession sessionId userId input expiresAt now htime hid hnew huser =>
      obtain ⟨hrow', hunrevoked⟩ := Tables.mem_unrevoked.mp hmem
      have hrow'' := Tables.sessions_insertSession.symm.trans hrow'
      split at hrow''
      · obtain rfl := Option.some.inj hrow''
        by_contra houtlives
        exact hnot ⟨expiresAt, mem_storedTime.mpr htime, houtlives⟩
      · exact h.rows id row' (Tables.mem_unrevoked.mpr ⟨hrow'', hunrevoked⟩)
  | @update i request caller input expiresAt hcall htime =>
      obtain ⟨hrow', hunrevoked⟩ := Tables.mem_unrevoked.mp hmem
      have hrow'' := (Tables.sessions_updateSession _).symm.trans hrow'
      split at hrow''
      · obtain ⟨row, hrow, rfl⟩ := Option.map_eq_some_iff.mp hrow''
        exact h.updates i request caller input expiresAt hcall htime row
          (Tables.mem_unrevoked.mpr ⟨hrow, hunrevoked⟩)
      · exact h.rows id row' (Tables.mem_unrevoked.mpr ⟨hrow'', hunrevoked⟩)
  | revokeSession hcall =>
      obtain ⟨hrow', hunrevoked⟩ := Tables.mem_unrevoked.mp hmem
      have hrow'' := (Tables.sessions_updateSession _).symm.trans hrow'
      split at hrow''
      · obtain ⟨row, hrow, rfl⟩ := Option.map_eq_some_iff.mp hrow''
        simp at hunrevoked
      · exact h.rows id row' (Tables.mem_unrevoked.mpr ⟨hrow'', hunrevoked⟩)
  | _ => exact h.rows id row' hmem

theorem updates_step (h : LifetimeLaw refreshWindowMs s) (hlaw : LogoutLaw s)
    (hturn : Turn refreshWindowMs s act s') (hnot : ¬ s.Outlasts refreshWindowMs act) :
    ∀ i request caller input time,
      s'.calls i = some { request := request, stage := .updateSessionTokens caller input } →
      timestamptzParam input.accessTokenExpiresAt = .ok time →
      ∀ row ∈ s'.tables.unrevoked input.sessionId,
        EndsBy refreshWindowMs row.refreshTokenExpiresAt time := by
  intro i request caller input time hcall htime row' hrow'
  rcases hturn.updating hcall with hbefore | ⟨session, refreshed, now, rfl, hwaits, rfl, htables⟩
  · obtain ⟨row, hrow, hsame⟩ := hturn.unrevoked_before (hlaw.sound i _ hbefore).2 hrow'
    rw [hsame]
    exact h.updates i request caller input time hbefore htime row hrow
  · rw [htables] at hrow'
    by_contra houtlives
    exact hnot ⟨_, hwaits, session.id, rfl, row', hrow', time, mem_storedTime.mpr htime, houtlives⟩

/-- **The law is kept by every step that lets nothing outlast.** -/
theorem step (h : LifetimeLaw refreshWindowMs s) (hlaw : LogoutLaw s)
    (hs : s.step refreshWindowMs act = some s') (hnot : ¬ s.Outlasts refreshWindowMs act) :
    LifetimeLaw refreshWindowMs s' where
  rows := h.rows_step (turn_of_step hs) hnot
  updates := h.updates_step hlaw (turn_of_step hs) hnot

theorem of_run {tables : Tables} (hempty : ∀ id, tables.sessions id = none)
    {steps : List (State × Act)} (hrun : Run refreshWindowMs (State.start tables) steps s)
    (hnot : ∀ entry ∈ steps, ¬ entry.1.Outlasts refreshWindowMs entry.2) :
    LifetimeLaw refreshWindowMs s := by
  induction hrun with
  | start => exact .start hempty
  | step hrun hs ih =>
      have hbefore := ih fun entry hentry => hnot entry (List.mem_cons_of_mem _ hentry)
      exact hbefore.step (LogoutLaw.of_run hempty hrun) hs (hnot _ List.mem_cons_self)

/-- A token that is fresh is one of a session that has not expired. -/
theorem admitsInTime (h : LifetimeLaw refreshWindowMs s)
    (hs : s.step refreshWindowMs act = some s') (hnot : ¬ s.Outlasts refreshWindowMs act) :
    s.AdmitsInTime s' := by
  cases turn_of_step hs with
  | load_none hcall hload =>
      refine (admitsInTime_returns hload).mpr fun _ session hsession => ?_
      simp at hsession
  | @load_fresh i request caller sessionId now session hcall hload hfresh =>
      refine (admitsInTime_returns hload).mpr fun _ session' hsession' time htime => ?_
      obtain rfl := Option.some.inj hsession'
      obtain ⟨row, user, hrow, hunrevoked, -, rfl⟩ := Tables.loadSession_eq_some hload
      have hends := h.rows sessionId row (Tables.mem_unrevoked.mpr ⟨hrow, hunrevoked⟩) time htime
      simp only [isFresh, decide_eq_true_eq] at hfresh
      omega
  | @reload i request caller sessionId now hcall =>
      refine (admitsInTime_returns rfl).mpr fun hcaller session hsession => ?_
      subst hcaller
      obtain ⟨row, user, hrow, hunrevoked, -, rfl⟩ := Tables.loadSession_eq_some hsession
      by_contra hexpired
      exact hnot ⟨_, hcall, sessionId, rfl, row, Tables.mem_unrevoked.mpr ⟨hrow, hunrevoked⟩,
        hexpired⟩
  | _ => exact admitsInTime_of_same rfl

end LifetimeLaw

/-- What is recorded of a session is recorded of it in the whole run. -/
theorem expiry_kept {steps : List (State × Act)} (hrun : Run refreshWindowMs s₀ steps s)
    {entry : State × Act} (hentry : entry ∈ steps) {row : SessionRow}
    (hrow : entry.1.tables.sessions id = some row) :
    ∃ row', s.tables.sessions id = some row' ∧
      row'.refreshTokenExpiresAt = row.refreshTokenExpiresAt := by
  induction hrun with
  | start => simp at hentry
  | @step steps s₁ s₂ act _ hs ih =>
      have hbefore : ∃ row', s₁.tables.sessions id = some row' ∧
          row'.refreshTokenExpiresAt = row.refreshTokenExpiresAt := by
        rcases List.mem_cons.mp hentry with rfl | hentry
        · exact ⟨row, hrow, rfl⟩
        · exact ih hentry
      obtain ⟨row', hrow', hexpiry⟩ := hbefore
      obtain ⟨row'', hrow'', hkept⟩ := (turn_of_step hs).row_kept hrow'
      exact ⟨row'', hrow'', hkept.expiry.trans hexpiry⟩

/-! ### What outlasts can be used too late -/

/-- A run goes on from here in which a request is admitted too late. -/
def CanBeLate (refreshWindowMs : ℤ) (s : State) : Prop :=
  ∃ steps s₁ act s₂, Run refreshWindowMs s steps s₁ ∧
    s₁.step refreshWindowMs act = some s₂ ∧ ¬ s₁.AdmitsInTime s₂

/-- A run goes on from the state before its first step. -/
theorem Run.after_step (hs : s.step refreshWindowMs act = some s') {steps : List (State × Act)}
    {s₁ : State} (hrun : Run refreshWindowMs s' steps s₁) :
    ∃ steps', Run refreshWindowMs s steps' s₁ := by
  induction hrun with
  | start => exact ⟨_, Run.start.step hs⟩
  | step _ hs' ih =>
      obtain ⟨steps', hrun'⟩ := ih
      exact ⟨_, hrun'.step hs'⟩

theorem CanBeLate.of_step (h : s'.CanBeLate refreshWindowMs)
    (hs : s.step refreshWindowMs act = some s') : s.CanBeLate refreshWindowMs := by
  obtain ⟨steps, s₁, late, s₂, hrun, hlate, hnot⟩ := h
  obtain ⟨steps', hrun'⟩ := hrun.after_step hs
  exact ⟨steps', s₁, late, s₂, hrun', hlate, hnot⟩

/-- A request that is admitted with an expired session is admitted too late. -/
theorem not_admitsInTime {i : ℕ} {session : AppSession} {now : ℤ}
    (hadmissions : s'.admissions = s.admissions ++ [{ call := i, session := session, time := now }])
    {row : SessionRow} (hrow : s.tables.sessions session.id = some row)
    (hexpired : ¬ Unexpired row.refreshTokenExpiresAt now) : ¬ s.AdmitsInTime s' := by
  intro htime
  obtain ⟨row', hrow', -, hunexpired⟩ := htime _ hadmissions _ (List.mem_singleton_self _)
  obtain rfl := Option.some.inj (hrow.symm.trans hrow')
  exact hexpired hunexpired

/-- With a token that is good for longer, a request is admitted just when the session expires. -/
theorem canBeLate_of_row (hlaw : LogoutLaw s) (hid : Uuid.read id = some id) {row : SessionRow}
    (hrow : row ∈ s.tables.unrevoked id)
    (houtlives : ¬ EndsBy refreshWindowMs row.refreshTokenExpiresAt row.accessTokenExpiresAt) :
    s.CanBeLate refreshWindowMs := by
  obtain ⟨hsome, hunrevoked⟩ := Tables.mem_unrevoked.mp hrow
  obtain ⟨session, hload⟩ := Tables.loadSession_isSome hsome hunrevoked (hlaw.users id row hsome)
  obtain ⟨time, htime, hlater⟩ : ∃ time ∈ row.refreshTokenExpiresAt,
      ¬ row.accessTokenExpiresAt ≤ time + refreshWindowMs := by
    simpa [EndsBy] using houtlives
  have hexpires : session.accessTokenExpiresAt = row.accessTokenExpiresAt := by
    obtain ⟨row', user, hrow', -, -, rfl⟩ := Tables.loadSession_eq_some hload
    obtain rfl := Option.some.inj (hsome.symm.trans hrow')
    rfl
  have hfresh : isFresh refreshWindowMs time session = true := by
    simp only [isFresh, decide_eq_true_eq]
    omega
  obtain ⟨n, request, s₁, s₂, -, harrive, hadmit, htables, happend⟩ :=
    exists_admission hlaw hid hload hfresh
  refine ⟨_, s₁, .loadSession n time, s₂, Run.start.step harrive, hadmit, ?_⟩
  have hrow' : s₁.tables.sessions session.id = some row := by
    rw [htables, Tables.id_of_loadSession hload]
    exact hsome
  exact not_admitsInTime happend hrow' fun hunexpired =>
    absurd (hunexpired time htime) (lt_irrefl time)

/-- An update that has been made leaves the token that was granted. -/
theorem canBeLate_of_update (hlaw : LogoutLaw s) {i : ℕ} {request : Request} {caller : Caller}
    {input : Tables.TokenUpdate} {time : ℤ}
    (hcall : s.calls i = some { request := request, stage := .updateSessionTokens caller input })
    (htime : timestamptzParam input.accessTokenExpiresAt = .ok time) {row : SessionRow}
    (hrow : row ∈ s.tables.unrevoked input.sessionId)
    (houtlives : ¬ EndsBy refreshWindowMs row.refreshTokenExpiresAt time) :
    s.CanBeLate refreshWindowMs := by
  obtain ⟨hsome, hunrevoked⟩ := Tables.mem_unrevoked.mp hrow
  have hs : s.step refreshWindowMs (.updateSessionTokens i) =
      some ({ s with tables := s.tables.storeTokens input time }.moveTo i request
        (.reloadSession caller input.sessionId)) := by
    simp [State.step, hcall, Tables.updateSessionTokens, htime, Except.map]
  obtain ⟨row', hrow', hexpiry, hexpires⟩ :
      ∃ row' ∈ (s.tables.storeTokens input time).unrevoked input.sessionId,
        row'.refreshTokenExpiresAt = row.refreshTokenExpiresAt ∧
        row'.accessTokenExpiresAt = time := by
    refine ⟨{ row with
      accessToken := encryptSecret input.accessToken
      accessTokenExpiresAt := time
      refreshTokenCiphertext := encryptSecret input.refreshToken },
      Tables.mem_unrevoked.mpr ⟨(Tables.sessions_updateSession _).trans ?_, hunrevoked⟩, rfl, rfl⟩
    rw [if_pos rfl, hsome]
    rfl
  refine CanBeLate.of_step (canBeLate_of_row (hlaw.step hs) (hlaw.sound i _ hcall).1 hrow' ?_) hs
  rw [hexpiry, hexpires]
  exact houtlives

/-- So a token that was granted for longer is on its way to be stored. -/
theorem canBeLate_of_granted (hlaw : LogoutLaw s') {i : ℕ} {request : Request} {caller : Caller}
    {session : AppSession} {refreshed : TokenSet} {now : ℤ}
    (hcall : s.calls i = some { request := request, stage := .refreshAuth0Tokens caller session })
    (houtlasts : s.Outlasts refreshWindowMs (.refreshAuth0Tokens i (some refreshed) now))
    (htables : s'.tables = s.tables)
    (hcall' : s'.calls i = some { request := request
                                  stage := .updateSessionTokens caller
                                    (tokenUpdate session refreshed now) }) :
    s'.CanBeLate refreshWindowMs := by
  obtain ⟨call, hsame, id, hid, row, hrow, time, htime, houtlives⟩ := houtlasts
  obtain rfl := Option.some.inj (hcall.symm.trans hsame)
  obtain rfl := Option.some.inj hid
  rw [← htables] at hrow
  exact canBeLate_of_update hlaw hcall' (mem_storedTime.mp htime) hrow houtlives

/-- **What outlasts can be used too late**, now or in a run that goes on from here. -/
theorem late_of_outlasts (hlaw : LogoutLaw s) (hs : s.step refreshWindowMs act = some s')
    (houtlasts : s.Outlasts refreshWindowMs act) :
    ¬ s.AdmitsInTime s' ∨ s'.CanBeLate refreshWindowMs := by
  have hlaw' := hlaw.step hs
  cases turn_of_step hs with
  | @insertSession sessionId userId input expiresAt now htime hid hnew huser =>
      obtain ⟨time, hmem, houtlives⟩ := houtlasts
      obtain rfl := Except.ok.inj (htime.symm.trans (mem_storedTime.mp hmem))
      have hstored : input.row userId expiresAt now ∈
          (s.tables.insertSession sessionId userId input expiresAt now).unrevoked sessionId :=
        Tables.mem_unrevoked.mpr ⟨Tables.sessions_insertSession.trans (if_pos rfl), rfl⟩
      exact Or.inr (canBeLate_of_row hlaw' hid hstored houtlives)
  | refresh_kept hcall htoken =>
      exact Or.inr (canBeLate_of_granted hlaw' hcall houtlasts rfl (Function.update_self ..))
  | refresh_rotated hcall htoken =>
      exact Or.inr (canBeLate_of_granted hlaw' hcall houtlasts rfl (Function.update_self ..))
  | @reload i request caller sessionId now hcall =>
      obtain ⟨call, hcall', id, hid, row, hrow, hexpired⟩ := houtlasts
      obtain rfl := Option.some.inj (hcall.symm.trans hcall')
      cases caller with
      | refreshController => simp [Stage.reloads] at hid
      | requireSession =>
          obtain rfl := Option.some.inj hid
          obtain ⟨hsome, hunrevoked⟩ := Tables.mem_unrevoked.mp hrow
          obtain ⟨session, hload⟩ :=
            Tables.loadSession_isSome hsome hunrevoked (hlaw.users _ row hsome)
          have hrow' : s.tables.sessions session.id = some row := by
            rw [Tables.id_of_loadSession hload]
            exact hsome
          rw [hload]
          exact Or.inl (not_admitsInTime rfl hrow' hexpired)
  | _ => exact houtlasts.elim

/--
**All requests of a run are admitted in time if nothing that came in outlasts what was recorded**:
no grant of an access token, and no refresh that comes to its end late.  Where something does, a
request can be admitted too late.  The time that was recorded for a session stays the same in the
whole run, however often its tokens are refreshed.
-/
theorem absolute_lifetime {tables : Tables} (hempty : ∀ id, tables.sessions id = none)
    {steps : List (State × Act)} (hrun : Run refreshWindowMs (State.start tables) steps s) :
    ((∀ entry ∈ steps, ¬ entry.1.Outlasts refreshWindowMs entry.2) →
      ∀ entry ∈ steps, ∀ s', entry.1.step refreshWindowMs entry.2 = some s' →
        entry.1.AdmitsInTime s') ∧
    (∀ act s', s.step refreshWindowMs act = some s' → s.Outlasts refreshWindowMs act →
      ¬ s.AdmitsInTime s' ∨ s'.CanBeLate refreshWindowMs) ∧
    ∀ entry ∈ steps, ∀ id row, entry.1.tables.sessions id = some row →
      ∃ row', s.tables.sessions id = some row' ∧
        row'.refreshTokenExpiresAt = row.refreshTokenExpiresAt := by
  refine ⟨?_, fun act s' hs houtlasts => late_of_outlasts (.of_run hempty hrun) hs houtlasts,
    fun entry hentry id row hrow => expiry_kept hrun hentry hrow⟩
  induction hrun with
  | start => simp
  | step hrun hs ih =>
      intro hnot entry hentry s'' hs''
      have hbefore := fun entry hentry => hnot entry (List.mem_cons_of_mem _ hentry)
      rcases List.mem_cons.mp hentry with rfl | hentry
      · exact (LifetimeLaw.of_run hempty hrun hbefore).admitsInTime hs''
          (hnot _ List.mem_cons_self)
      · exact ih hbefore entry hentry s'' hs''

end State

end CommercePlatform.Bff

/-! ### A month -/

namespace CommercePlatform.Bff.Visit

/-- What Auth0 grants for a refresh token, for so many seconds. -/
def granted (seconds : ℕ) (accessToken refreshToken : String) : TokenSet where
  accessToken := accessToken
  expiresIn := some (.num (.finite seconds))
  refreshToken := some refreshToken

/-- A refresh after twenty-nine days and a half, of an access token that lasts a day. -/
def refreshed : List Act :=
  [login, .arrive 0 (request .other), .loadSession 0 2548800000,
    .refreshAuth0Tokens 0 (some (granted 86400 "ey.second" "v1.second")) 2548800200,
    .updateSessionTokens 0, .reloadSession 0 2548800300, .arrive 1 (request .other)]

/-- Six hours after the thirty days, the access token is fresh, and a request is admitted. -/
theorem outlived : ∃ steps s s', State.Run window (State.start tables) steps s ∧
    s.step window (.loadSession 1 2613600000) = some s' ∧ ¬ s.AdmitsInTime s' := by
  have hout : ((State.run window refreshed (State.start tables)).any fun s =>
      (s.step window (.loadSession 1 2613600000)).any fun s' =>
        (s.tables.sessions sessionId).any fun row => (s'.admissions.drop 1).any fun admission =>
          s'.admissions = s.admissions ++ [admission] &&
          admission.session.id = sessionId && admission.time = 2613600000 &&
            row.refreshTokenExpiresAt = some 2592000000) = true := by
    decide +kernel
  obtain ⟨s, hs, hout⟩ := (Option.any_eq_true _ _).mp hout
  obtain ⟨s', hs', hout⟩ := (Option.any_eq_true _ _).mp hout
  obtain ⟨row, hrow, hout⟩ := (Option.any_eq_true _ _).mp hout
  obtain ⟨admission, -, hout⟩ := List.any_eq_true.mp hout
  simp only [Bool.and_eq_true, decide_eq_true_eq] at hout
  obtain ⟨⟨⟨happend, hid⟩, htime⟩, hexpiry⟩ := hout
  obtain ⟨steps, hrun⟩ := State.Run.start.of_run hs
  refine ⟨steps, s, s', hrun, hs', State.not_admitsInTime happend (hid ▸ hrow) fun hunexpired => ?_⟩
  have hlt := hunexpired 2592000000 hexpiry
  rw [htime] at hlt
  omega

/-- A refresh after nine minutes, of an access token that lasts ten. -/
def refreshedInTime : List Act :=
  [login, .arrive 0 (request .other), .loadSession 0 540000,
    .refreshAuth0Tokens 0 (some (granted 600 "ey.second" "v1.second")) 540200,
    .updateSessionTokens 0, .reloadSession 0 540300]

/-- Nothing of this outlasts the thirty days, so the request was admitted in time. -/
theorem recorded : ∃ steps s, State.Run window (State.start tables) steps s ∧
    s.admissions ≠ [] ∧
    (∀ entry ∈ steps, ¬ entry.1.Outlasts window entry.2) ∧
    (∀ entry ∈ steps, ∀ s', entry.1.step window entry.2 = some s' → entry.1.AdmitsInTime s') ∧
    ∀ entry ∈ steps, ∀ id row, entry.1.tables.sessions id = some row →
      ∃ row', s.tables.sessions id = some row' ∧
        row'.refreshTokenExpiresAt = row.refreshTokenExpiresAt := by
  have hout : ((State.runIf window (fun s act => ¬ s.Outlasts window act) refreshedInTime
      (State.start tables)).any fun s => s.admissions ≠ []) = true := by
    decide +kernel
  obtain ⟨s, hs, hadmitted⟩ := (Option.any_eq_true _ _).mp hout
  obtain ⟨steps, hrun, hnot⟩ := State.Run.start.of_runIf (by simp) hs
  obtain ⟨htime, -, hkept⟩ := State.absolute_lifetime (fun _ => rfl) hrun
  exact ⟨steps, s, hrun, of_decide_eq_true hadmitted, hnot, htime hnot, hkept⟩

end CommercePlatform.Bff.Visit
