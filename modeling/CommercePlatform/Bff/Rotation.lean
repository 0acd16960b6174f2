/-
Refresh tokens that are good for one use.

With rotation, Auth0 takes a refresh token once and answers with the next one.  From the load
of a session to the update of its tokens a request waits twice, and nothing holds other
requests of the session off meanwhile.  One that finds the same access token to be stale
takes the same refresh token to Auth0.
-/
import CommercePlatform.Bff.Lifetime

namespace CommercePlatform.Bff

variable {refreshWindowMs : ℤ} {s s' s₀ : State} {act : Act} {tables : Tables} {id : String}

/-- The refresh token that is stored for a session. -/
def Tables.refreshToken (tables : Tables) (id : String) : Option String :=
  (tables.sessions id).map fun row => decryptSecret row.refreshTokenCiphertext

namespace Stage

/-- The session that is being refreshed. -/
def refreshing : Stage → Option String
  | .refreshAuth0Tokens _ session => some session.id
  | .updateSessionTokens _ input => some input.sessionId
  | _ => none

/-- The refresh token that is on its way to Auth0. -/
def toPresent : Stage → Option String
  | .refreshAuth0Tokens _ session => some (decryptSecret session.refreshTokenCiphertext)
  | _ => none

theorem refreshing_arrival (request : Request) : (arrival request).refreshing = none := by
  unfold arrival
  split
  · rfl
  · split
    · rfl
    · split <;> rfl

theorem refreshing_returnStage (request : Request) (caller : Caller)
    (session : Option AppSession) : (returnStage request caller session).refreshing = none := by
  cases caller with
  | refreshController => rfl
  | requireSession =>
      cases session with
      | none => rfl
      | some session =>
          show (enterController request session).refreshing = none
          unfold enterController
          split
          · rfl
          · split <;> rfl
          · split <;> rfl

theorem toPresent_of_refreshing {stage : Stage} (h : stage.refreshing = none) :
    stage.toPresent = none := by
  cases stage with
  | refreshAuth0Tokens caller session => simp [refreshing] at h
  | _ => rfl

end Stage

namespace State

/-! ### Refreshes under way -/

/-- The session that a request is refreshing. -/
def refreshing (s : State) (i : ℕ) : Option String :=
  (s.calls i).bind fun call => call.stage.refreshing

/-- A refresh of the session is in progress. -/
def Refreshing (s : State) (id : String) : Prop := ∃ i, s.refreshing i = some id

/-- The refresh token that a request is taking to Auth0. -/
def toPresent (s : State) (i : ℕ) : Option String :=
  (s.calls i).bind fun call => call.stage.toPresent

/--
Auth0 rotates: it answers each call, for a time that can be stored, and with a refresh token that
it has not issued before.
-/
def Rotates (s : State) : Act → Prop
  | .insertSession _ _ input _ => input.refreshToken ∉ s.issued
  | .refreshAuth0Tokens _ none _ => False
  | .refreshAuth0Tokens _ (some refreshed) now =>
      (∃ token ∈ refreshed.refreshToken, token ∉ s.issued) ∧
        storedTime (expiresAt now refreshed.expiresIn) ≠ none
  | _ => True

instance (s : State) : (act : Act) → Decidable (s.Rotates act)
  | .insertSession _ _ input _ => inferInstanceAs (Decidable (input.refreshToken ∉ s.issued))
  | .refreshAuth0Tokens _ none _ => isFalse fun h => h
  | .refreshAuth0Tokens _ (some _) _ => inferInstanceAs (Decidable (_ ∧ _))
  | .upsertUser _ => isTrue trivial
  | .arrive _ _ => isTrue trivial
  | .loadSession _ _ => isTrue trivial
  | .updateSessionTokens _ => isTrue trivial
  | .reloadSession _ _ => isTrue trivial
  | .revokeRefreshToken _ _ => isTrue trivial
  | .revokeSession _ _ => isTrue trivial

/-- A request finds the session to be stale while another one is refreshing it. -/
def Overlaps (refreshWindowMs : ℤ) (s : State) : Act → Prop
  | .loadSession i now => ∃ request caller sessionId session,
      s.calls i = some { request := request, stage := .loadSession caller sessionId } ∧
      s.tables.loadSession sessionId = some session ∧
      isFresh refreshWindowMs now session = false ∧ s.Refreshing sessionId
  | _ => False

theorem refreshing_of_call {i : ℕ} {call : Call} (hcall : s.calls i = some call) :
    s.refreshing i = call.stage.refreshing := by
  simp [refreshing, hcall]

theorem toPresent_of_call {i : ℕ} {call : Call} (hcall : s.calls i = some call) :
    s.toPresent i = call.stage.toPresent := by
  simp [toPresent, hcall]

theorem refreshing_moveTo (i j : ℕ) (request : Request) (stage : Stage) :
    (s.moveTo i request stage).refreshing j =
      if j = i then stage.refreshing else s.refreshing j := by
  by_cases hj : j = i
  · subst hj
    simp [refreshing, moveTo]
  · simp [refreshing, moveTo, hj]

theorem toPresent_moveTo (i j : ℕ) (request : Request) (stage : Stage) :
    (s.moveTo i request stage).toPresent j =
      if j = i then stage.toPresent else s.toPresent j := by
  by_cases hj : j = i
  · subst hj
    simp [toPresent, moveTo]
  · simp [toPresent, moveTo, hj]

/-! ### A run without an overlap -/

/-- What a request that refreshes a session has in hand. -/
def Carries (s : State) : Stage → Prop
  | .refreshAuth0Tokens _ session =>
      s.latest session.id = some (decryptSecret session.refreshTokenCiphertext) ∧
      s.tables.refreshToken session.id = some (decryptSecret session.refreshTokenCiphertext)
  | .updateSessionTokens _ input =>
      s.latest input.sessionId = some input.refreshToken ∧
      storedTime input.accessTokenExpiresAt ≠ none ∧
      ∃ old ∈ s.tables.refreshToken input.sessionId, old ∈ s.presented
  | _ => True

/-- No refresh token is used twice, and those in use are where they belong. -/
structure Calm (s : State) : Prop where
  once : s.presented.Nodup
  presented : ∀ token ∈ s.presented, token ∈ s.issued
  latest : ∀ id token, s.latest id = some token → token ∈ s.issued ∧ token ∉ s.presented
  injective : ∀ id id' token, s.latest id = some token → s.latest id' = some token → id = id'
  known : ∀ id, s.tables.refreshToken id = none ↔ s.latest id = none
  stored : ∀ id, ¬ s.Refreshing id → s.tables.refreshToken id = s.latest id
  carries : ∀ i call, s.calls i = some call → s.Carries call.stage
  alone : ∀ i j id, s.refreshing i = some id → s.refreshing j = some id → i = j

/-- What a request has in hand stays good if nothing happens to its session. -/
theorem Carries.mono {stage : Stage} (h : s.Carries stage)
    (hsame : ∀ id ∈ stage.refreshing, s'.latest id = s.latest id ∧
      s'.tables.refreshToken id = s.tables.refreshToken id)
    (hpresented : ∀ token ∈ s.presented, token ∈ s'.presented) : s'.Carries stage := by
  cases stage with
  | refreshAuth0Tokens caller session =>
      obtain ⟨hlatest, hstored⟩ := hsame session.id rfl
      exact ⟨hlatest.trans h.1, hstored.trans h.2⟩
  | updateSessionTokens caller input =>
      obtain ⟨hlatest, hstored⟩ := hsame input.sessionId rfl
      obtain ⟨old, hold, hused⟩ := h.2.2
      refine ⟨hlatest.trans h.1, h.2.1, old, ?_, hpresented old hused⟩
      rw [hstored]
      exact hold
  | _ => exact trivial

theorem carries_of_refreshing {stage : Stage} (h : stage.refreshing = none) : s.Carries stage := by
  cases stage with
  | refreshAuth0Tokens caller session => simp [Stage.refreshing] at h
  | updateSessionTokens caller input => simp [Stage.refreshing] at h
  | _ => exact trivial

namespace Calm

theorem start (hempty : ∀ id, tables.sessions id = none) : Calm (State.start tables) where
  once := List.nodup_nil
  presented := by simp [State.start]
  latest := by simp [State.start]
  injective := by simp [State.start]
  known id := by simp [State.start, Tables.refreshToken, hempty]
  stored id _ := by simp [State.start, Tables.refreshToken, hempty]
  carries := by simp [State.start]
  alone := by simp [State.start, refreshing]

/-- A session that is being refreshed has a row. -/
theorem known_of_refreshing (h : Calm s) {i : ℕ} (hrefreshing : s.refreshing i = some id) :
    s.latest id ≠ none := by
  obtain ⟨call, hcall, hstage⟩ := Option.bind_eq_some_iff.mp hrefreshing
  have hcarries := h.carries i call hcall
  obtain ⟨request, stage⟩ := call
  cases stage with
  | refreshAuth0Tokens caller session =>
      obtain rfl := Option.some.inj hstage
      simp [hcarries.1]
  | updateSessionTokens caller input =>
      obtain rfl := Option.some.inj hstage
      simp [hcarries.1]
  | _ => simp [Stage.refreshing] at hstage

/-- A request that refreshes nothing moves on to where it refreshes nothing. -/
theorem moveTo (h : Calm s) {i : ℕ} (request : Request) {stage : Stage}
    (hbefore : s.refreshing i = none) (hafter : stage.refreshing = none) :
    Calm (s.moveTo i request stage) := by
  have hsame : (s.moveTo i request stage).refreshing = s.refreshing := by
    funext j
    rw [refreshing_moveTo]
    split
    · rename_i hj
      rw [hafter, hj, hbefore]
    · rfl
  refine ⟨h.once, h.presented, h.latest, h.injective, h.known, ?_, ?_, ?_⟩
  · intro id hquiet
    refine h.stored id fun ⟨j, hj⟩ => hquiet ⟨j, ?_⟩
    rw [hsame]
    exact hj
  · intro j call hcall
    rcases update_eq_some hcall with ⟨rfl, hnew⟩ | ⟨-, hbefore⟩
    · obtain rfl := Option.some.inj hnew
      exact carries_of_refreshing hafter
    · exact (h.carries j call hbefore).mono (fun id _ => ⟨rfl, rfl⟩) fun token htoken => htoken
  · rw [hsame]
    exact h.alone

theorem returns (h : Calm s) {i : ℕ} {request : Request} (caller : Caller)
    (session : Option AppSession) (now : ℤ) (hbefore : s.refreshing i = none) :
    Calm (s.returns i request caller session now) := by
  have hmoved := h.moveTo request hbefore (Stage.refreshing_returnStage request caller session)
  refine ⟨hmoved.once, hmoved.presented, hmoved.latest, hmoved.injective, hmoved.known,
    hmoved.stored, fun j call hcall => ?_, hmoved.alone⟩
  exact (hmoved.carries j call hcall).mono (fun id _ => ⟨rfl, rfl⟩) fun token htoken => htoken

/-- A change of the tables that leaves the refresh tokens alone. -/
theorem of_tables (h : Calm s) {tables' : Tables}
    (hsame : ∀ id, tables'.refreshToken id = s.tables.refreshToken id) :
    Calm { s with tables := tables' } where
  once := h.once
  presented := h.presented
  latest := h.latest
  injective := h.injective
  known id := by
    show tables'.refreshToken id = none ↔ s.latest id = none
    rw [hsame]
    exact h.known id
  stored id hquiet := (hsame id).trans (h.stored id hquiet)
  carries i call hcall :=
    (h.carries i call hcall).mono (fun id _ => ⟨rfl, hsame id⟩) fun token htoken => htoken
  alone := h.alone

theorem logsOut (h : Calm s) (i : ℕ) (resolved : Bool) : Calm (s.logsOut i id resolved) := by
  refine ⟨h.once, h.presented, h.latest, h.injective, h.known, h.stored, ?_, h.alone⟩
  intro j call hcall
  exact (h.carries j call hcall).mono (fun id _ => ⟨rfl, rfl⟩) fun token htoken => htoken

/-- A token that no session has may be issued for any. -/
theorem injective_issues (h : Calm s) {token : String} (hnew : ∀ id, s.latest id ≠ some token)
    {sessionId : String} : ∀ id₁ id₂ t,
      (s.issues sessionId token).latest id₁ = some t →
      (s.issues sessionId token).latest id₂ = some t → id₁ = id₂ := by
  intro id₁ id₂ t h₁ h₂
  rcases update_eq_some h₁ with ⟨rfl, ht₁⟩ | ⟨-, ht₁⟩
  · rcases update_eq_some h₂ with ⟨rfl, -⟩ | ⟨-, ht₂⟩
    · rfl
    · exact absurd (ht₂.trans ht₁.symm) (hnew id₂)
  · rcases update_eq_some h₂ with ⟨rfl, ht₂⟩ | ⟨-, ht₂⟩
    · exact absurd (ht₁.trans ht₂.symm) (hnew id₁)
    · exact h.injective id₁ id₂ t ht₁ ht₂

/-- A login stores the token that it was issued. -/
theorem insertSession (h : Calm s) {userId : String} {input : Tables.NewSession}
    {expiresAt now : ℤ} (hnew : s.tables.sessions id = none) (hissued : input.refreshToken ∉ s.issued) :
    Calm ({ s with tables := s.tables.insertSession id userId input expiresAt now }.issues id
      input.refreshToken) := by
  have hunknown : s.latest id = none := (h.known id).mp (by simp [Tables.refreshToken, hnew])
  have hstored : ∀ id', (s.tables.insertSession id userId input expiresAt now).refreshToken id' =
      if id' = id then some input.refreshToken else s.tables.refreshToken id' := by
    intro id'
    unfold Tables.refreshToken
    rw [Tables.sessions_insertSession]
    split
    · rfl
    · rfl
  have hlatest : ∀ id', Function.update s.latest id (some input.refreshToken) id' =
      if id' = id then some input.refreshToken else s.latest id' := by
    intro id'
    rw [Function.update_apply]
  refine ⟨h.once, ?_, ?_, ?_, ?_, ?_, ?_, h.alone⟩
  · intro token htoken
    exact List.mem_append_left _ (h.presented token htoken)
  · intro id' token htoken
    have htoken' := (hlatest id').symm.trans htoken
    split at htoken'
    · obtain rfl := Option.some.inj htoken'
      exact ⟨List.mem_append_right _ (List.mem_singleton_self _),
        fun hused => hissued (h.presented _ hused)⟩
    · obtain ⟨hbefore, hunused⟩ := h.latest id' token htoken'
      exact ⟨List.mem_append_left _ hbefore, hunused⟩
  · exact h.injective_issues fun id' htoken => hissued (h.latest id' _ htoken).1
  · intro id'
    show (s.tables.insertSession id userId input expiresAt now).refreshToken id' = none ↔
      Function.update s.latest id (some input.refreshToken) id' = none
    rw [hstored, hlatest]
    split
    · simp
    · exact h.known id'
  · intro id' hquiet
    show (s.tables.insertSession id userId input expiresAt now).refreshToken id' =
      Function.update s.latest id (some input.refreshToken) id'
    rw [hstored, hlatest]
    split
    · rfl
    · exact h.stored id' hquiet
  · intro i call hcall
    refine (h.carries i call hcall).mono (fun id' hid' => ?_) fun token htoken => htoken
    have hne : id' ≠ id := by
      rintro rfl
      exact h.known_of_refreshing ((refreshing_of_call hcall).trans hid') hunknown
    exact ⟨(hlatest id').trans (if_neg hne), (hstored id').trans (if_neg hne)⟩

/-- A request takes up the refresh of a session that no other one is refreshing. -/
theorem load_stale (h : Calm s) {i : ℕ} (request : Request) (caller : Caller)
    {session : AppSession} (hbefore : s.refreshing i = none)
    (hload : s.tables.loadSession id = some session) (hquiet : ¬ s.Refreshing id) :
    Calm (s.moveTo i request (.refreshAuth0Tokens caller session)) := by
  have hid := Tables.id_of_loadSession hload
  subst hid
  have hstored : s.tables.refreshToken session.id =
      some (decryptSecret session.refreshTokenCiphertext) := by
    obtain ⟨row, user, hrow, -, -, hsession⟩ := Tables.loadSession_eq_some hload
    unfold Tables.refreshToken
    rw [hrow, hsession]
    rfl
  have hlatest := (h.stored session.id hquiet).symm.trans hstored
  have hrefreshing : ∀ j, (s.moveTo i request (.refreshAuth0Tokens caller session)).refreshing j =
      if j = i then some session.id else s.refreshing j := fun j => refreshing_moveTo i j _ _
  refine ⟨h.once, h.presented, h.latest, h.injective, h.known, ?_, ?_, ?_⟩
  · intro id' hquiet'
    refine h.stored id' fun ⟨j, hj⟩ => hquiet' ⟨j, ?_⟩
    have hne : j ≠ i := by
      rintro rfl
      rw [hbefore] at hj
      simp at hj
    rw [hrefreshing, if_neg hne]
    exact hj
  · intro j call hcall
    rcases update_eq_some hcall with ⟨rfl, hnew⟩ | ⟨-, hcalled⟩
    · obtain rfl := Option.some.inj hnew
      exact ⟨hlatest, hstored⟩
    · exact (h.carries j call hcalled).mono (fun id _ => ⟨rfl, rfl⟩) fun token htoken => htoken
  · intro j k id' hj hk
    rw [hrefreshing] at hj hk
    split at hj <;> split at hk
    · rename_i hji hki
      rw [hji, hki]
    · exact absurd ⟨k, (Option.some.inj hj).symm ▸ hk⟩ hquiet
    · exact absurd ⟨j, (Option.some.inj hk).symm ▸ hj⟩ hquiet
    · exact h.alone j k id' hj hk

/-- Auth0 takes the token that is stored, and answers with the next one. -/
theorem refresh (h : Calm s) {i : ℕ} {request : Request} {caller : Caller} {session : AppSession}
    {refreshed : TokenSet} {token : String} (now : ℤ)
    (hcall : s.calls i = some { request := request, stage := .refreshAuth0Tokens caller session })
    (htoken : refreshed.refreshToken = some token) (hnew : token ∉ s.issued)
    (htime : storedTime (expiresAt now refreshed.expiresIn) ≠ none) :
    Calm (((s.presents session).moveTo i request
      (.updateSessionTokens caller (tokenUpdate session refreshed now))).issues session.id
        token) := by
  obtain ⟨hlatest, hstored⟩ := h.carries i _ hcall
  have hinput : (tokenUpdate session refreshed now).refreshToken = token := by
    simp [tokenUpdate, htoken]
  generalize hold : decryptSecret session.refreshTokenCiphertext = old at hlatest hstored
  obtain ⟨hissued, hunused⟩ := h.latest session.id old hlatest
  have hpresented : (s.presents session).presented = s.presented ++ [old] := by
    rw [← hold]
    rfl
  have hlatest' : ∀ id, Function.update s.latest session.id (some token) id =
      if id = session.id then some token else s.latest id := by
    intro id
    rw [Function.update_apply]
  have hother : ∀ {id t}, id ≠ session.id → s.latest id = some t → t ≠ old := by
    rintro id t hne ht rfl
    exact hne (h.injective id session.id t ht hlatest)
  have hmine : s.refreshing i = some session.id := refreshing_of_call hcall
  -- The session is still being refreshed, by the same request.
  have hrefreshing : (((s.presents session).moveTo i request
      (.updateSessionTokens caller (tokenUpdate session refreshed now))).issues session.id
        token).refreshing = s.refreshing := by
    funext j
    refine (refreshing_moveTo i j request _).trans ?_
    split
    · rename_i hj
      rw [hj, hmine]
      rfl
    · rfl
  refine ⟨?_, ?_, ?_, ?_, ?_, ?_, ?_, ?_⟩
  · show (s.presents session).presented.Nodup
    rw [hpresented, List.nodup_append]
    refine ⟨h.once, List.nodup_singleton old, ?_⟩
    rintro t ht t' ht' rfl
    obtain rfl := List.mem_singleton.mp ht'
    exact hunused ht
  · intro t ht
    have ht' : t ∈ s.presented ++ [old] := hpresented ▸ ht
    rcases List.mem_append.mp ht' with hbefore | hnow
    · exact List.mem_append_left _ (h.presented t hbefore)
    · obtain rfl := List.mem_singleton.mp hnow
      exact List.mem_append_left _ hissued
  · intro id t ht
    have ht' := (hlatest' id).symm.trans ht
    show t ∈ s.issued ++ [token] ∧ t ∉ (s.presents session).presented
    rw [hpresented]
    split at ht'
    · obtain rfl := Option.some.inj ht'
      refine ⟨List.mem_append_right _ (List.mem_singleton_self _), fun hused => ?_⟩
      rcases List.mem_append.mp hused with hbefore | hnow
      · exact hnew (h.presented _ hbefore)
      · obtain rfl := List.mem_singleton.mp hnow
        exact hnew hissued
    · rename_i hne
      obtain ⟨hbefore, hfree⟩ := h.latest id t ht'
      refine ⟨List.mem_append_left _ hbefore, fun hused => ?_⟩
      rcases List.mem_append.mp hused with hused | hnow
      · exact hfree hused
      · exact hother hne ht' (List.mem_singleton.mp hnow)
  · exact h.injective_issues fun id htoken => hnew (h.latest id _ htoken).1
  · intro id
    show s.tables.refreshToken id = none ↔ Function.update s.latest session.id (some token) id = none
    rw [hlatest']
    split
    · rename_i hid
      simp [hid, hstored]
    · exact h.known id
  · intro id hquiet
    have hne : id ≠ session.id := by
      rintro rfl
      refine hquiet ⟨i, ?_⟩
      rw [hrefreshing]
      exact hmine
    refine (h.stored id fun ⟨j, hj⟩ => hquiet ⟨j, ?_⟩).trans ?_
    · rw [hrefreshing]
      exact hj
    · exact ((hlatest' id).trans (if_neg hne)).symm
  · intro j call hj
    rcases update_eq_some hj with ⟨rfl, hafter⟩ | ⟨hji, hbefore⟩
    · obtain rfl := Option.some.inj hafter
      refine ⟨?_, htime, old, hstored, ?_⟩
      · rw [hinput]
        exact (hlatest' session.id).trans (if_pos rfl)
      · show old ∈ (s.presents session).presented
        rw [hpresented]
        exact List.mem_append_right _ (List.mem_singleton_self _)
    · refine (h.carries j call hbefore).mono (fun id hid => ?_) fun t ht => ?_
      · have hne : id ≠ session.id := by
          rintro rfl
          exact hji (h.alone j i _ ((refreshing_of_call hbefore).trans hid) hmine)
        exact ⟨(hlatest' id).trans (if_neg hne), rfl⟩
      · show t ∈ (s.presents session).presented
        rw [hpresented]
        exact List.mem_append_left _ ht
  · rw [hrefreshing]
    exact h.alone

/-- The token that was issued last is stored, and the refresh is over. -/
theorem update (h : Calm s) {i : ℕ} {request : Request} {caller : Caller}
    {input : Tables.TokenUpdate} (expiresAt : ℤ)
    (hcall : s.calls i = some { request := request, stage := .updateSessionTokens caller input }) :
    Calm ({ s with tables := s.tables.storeTokens input expiresAt }.moveTo i request
      (.reloadSession caller input.sessionId)) := by
  obtain ⟨hlatest, -, old, hold, -⟩ := h.carries i _ hcall
  have hmine : s.refreshing i = some input.sessionId := refreshing_of_call hcall
  have hstored : ∀ id, (s.tables.storeTokens input expiresAt).refreshToken id =
      if id = input.sessionId then some input.refreshToken else s.tables.refreshToken id := by
    intro id
    unfold Tables.refreshToken Tables.storeTokens
    rw [Tables.sessions_updateSession]
    split
    · obtain ⟨row, hrow, -⟩ := Option.map_eq_some_iff.mp hold
      rw [hrow]
      rfl
    · rfl
  have hrefreshing : ∀ j, ({ s with tables := s.tables.storeTokens input expiresAt }.moveTo i request
      (.reloadSession caller input.sessionId)).refreshing j =
        if j = i then none else s.refreshing j := fun j => refreshing_moveTo i j _ _
  refine ⟨h.once, h.presented, h.latest, h.injective, ?_, ?_, ?_, ?_⟩
  · intro id
    show (s.tables.storeTokens input expiresAt).refreshToken id = none ↔ s.latest id = none
    rw [hstored]
    split
    · rename_i hid
      simp [hid, hlatest]
    · exact h.known id
  · intro id hquiet
    show (s.tables.storeTokens input expiresAt).refreshToken id = s.latest id
    rw [hstored]
    split
    · rename_i hid
      rw [hid, hlatest]
    · rename_i hid
      refine h.stored id fun ⟨j, hj⟩ => hquiet ⟨j, ?_⟩
      have hne : j ≠ i := by
        rintro rfl
        exact hid (Option.some.inj (hj.symm.trans hmine))
      rw [hrefreshing, if_neg hne]
      exact hj
  · intro j call hj
    rcases update_eq_some hj with ⟨rfl, hafter⟩ | ⟨hji, hbefore⟩
    · obtain rfl := Option.some.inj hafter
      exact trivial
    · refine (h.carries j call hbefore).mono (fun id hid => ⟨rfl, ?_⟩) fun t ht => ht
      have hne : id ≠ input.sessionId := by
        rintro rfl
        exact hji (h.alone j i _ ((refreshing_of_call hbefore).trans hid) hmine)
      exact (hstored id).trans (if_neg hne)
  · intro j k id hj hk
    rw [hrefreshing] at hj hk
    split at hj
    · simp at hj
    · split at hk
      · simp at hk
      · exact h.alone j k id hj hk

/-- **A step that does not overlap keeps it calm.** -/
theorem step (h : Calm s) (hs : s.step refreshWindowMs act = some s') (hrotates : s.Rotates act)
    (halone : ¬ s.Overlaps refreshWindowMs act) : Calm s' := by
  cases turn_of_step hs with
  | @upsertUser user tables' userId hupsert =>
      refine h.of_tables fun id => ?_
      unfold Tables.refreshToken
      rw [Tables.sessions_upsertUser hupsert]
  | insertSession htime hid hnew huser => exact h.insertSession hnew hrotates
  | @arrive i request hnone =>
      exact h.moveTo request (by simp [refreshing, hnone]) (Stage.refreshing_arrival request)
  | load_none hcall hload => exact h.returns _ _ _ (refreshing_of_call hcall)
  | load_fresh hcall hload hfresh => exact h.returns _ _ _ (refreshing_of_call hcall)
  | @load_stale i request caller sessionId now session hcall hload hstale =>
      refine h.load_stale request caller (refreshing_of_call hcall) hload fun hbusy => ?_
      exact halone ⟨request, caller, sessionId, session, hcall, hload, hstale, hbusy⟩
  | refresh_raised hcall => exact hrotates.elim
  | refresh_kept hcall htoken =>
      obtain ⟨⟨token, hmem, -⟩, -⟩ := hrotates
      rw [htoken] at hmem
      simp at hmem
  | refresh_rotated hcall htoken =>
      obtain ⟨⟨token, hmem, hnew⟩, htime⟩ := hrotates
      obtain rfl := Option.some.inj (htoken.symm.trans hmem)
      exact h.refresh _ hcall htoken hnew htime
  | @update_raised i request caller input e hcall htime =>
      -- The time was stored with the update, so the statement does not raise.
      obtain ⟨-, hstored, -⟩ := h.carries i _ hcall
      rw [storedTime, htime] at hstored
      exact absurd rfl hstored
  | update hcall htime => exact h.update _ hcall
  | reload hcall => exact h.returns _ _ _ (refreshing_of_call hcall)
  | revoke_resolved hcall => exact h.moveTo _ (refreshing_of_call hcall) rfl
  | revoke_raised hcall => exact (h.logsOut _ _).moveTo _ (refreshing_of_call hcall) rfl
  | @revokeSession i request session now hcall =>
      have hrevoked : Calm { s with tables := s.tables.revokeSession session.id now } := by
        refine h.of_tables fun id => ?_
        unfold Tables.refreshToken Tables.revokeSession
        rw [Tables.sessions_updateSession]
        split
        · rename_i hid
          rw [hid, Option.map_map]
          rfl
        · rfl
      exact (hrevoked.logsOut i true).moveTo request (refreshing_of_call hcall) rfl

end Calm

/-! ### A run with an overlap -/

/-- A refresh token has been used twice, or will have been once the requests have moved on. -/
def Doomed (s : State) : Prop :=
  ¬ s.presented.Nodup ∨ ∃ i token, s.toPresent i = some token ∧
    (token ∈ s.presented ∨ ∃ j, j ≠ i ∧ s.toPresent j = some token)

/-- What a step does to the tokens that are on their way. -/
theorem Turn.presents_one (h : Turn refreshWindowMs s act s') :
    (s'.presented = s.presented ∧ ∀ j token, s.toPresent j = some token →
      s'.toPresent j = some token) ∨
    ∃ i token, s.toPresent i = some token ∧ s'.presented = s.presented ++ [token] ∧
      ∀ j, j ≠ i → s'.toPresent j = s.toPresent j := by
  have hmoved : ∀ (i : ℕ) (request : Request) (stage : Stage), s.toPresent i = none →
      ∀ j token, s.toPresent j = some token →
        (s.moveTo i request stage).toPresent j = some token := by
    intro i request stage hnone j token htoken
    have hne : j ≠ i := by
      rintro rfl
      rw [hnone] at htoken
      simp at htoken
    rw [toPresent_moveTo, if_neg hne, htoken]
  have hpresented : ∀ (i : ℕ) (request : Request) (stage : Stage) (j : ℕ), j ≠ i →
      (s.moveTo i request stage).toPresent j = s.toPresent j := by
    intro i request stage j hne
    rw [toPresent_moveTo, if_neg hne]
  cases h with
  | upsertUser hupsert => exact Or.inl ⟨rfl, fun j token htoken => htoken⟩
  | insertSession htime hid hnew huser => exact Or.inl ⟨rfl, fun j token htoken => htoken⟩
  | arrive hnone =>
      exact Or.inl ⟨rfl, hmoved _ _ _ (by simp [toPresent, hnone])⟩
  | refresh_raised hcall =>
      exact Or.inr ⟨_, _, toPresent_of_call hcall, rfl, hpresented _ _ _⟩
  | refresh_kept hcall htoken =>
      exact Or.inr ⟨_, _, toPresent_of_call hcall, rfl, hpresented _ _ _⟩
  | refresh_rotated hcall htoken =>
      exact Or.inr ⟨_, _, toPresent_of_call hcall, rfl, hpresented _ _ _⟩
  | load_none hcall => exact Or.inl ⟨rfl, hmoved _ _ _ (toPresent_of_call hcall)⟩
  | load_fresh hcall => exact Or.inl ⟨rfl, hmoved _ _ _ (toPresent_of_call hcall)⟩
  | load_stale hcall => exact Or.inl ⟨rfl, hmoved _ _ _ (toPresent_of_call hcall)⟩
  | update_raised hcall => exact Or.inl ⟨rfl, hmoved _ _ _ (toPresent_of_call hcall)⟩
  | update hcall => exact Or.inl ⟨rfl, hmoved _ _ _ (toPresent_of_call hcall)⟩
  | reload hcall => exact Or.inl ⟨rfl, hmoved _ _ _ (toPresent_of_call hcall)⟩
  | revoke_resolved hcall => exact Or.inl ⟨rfl, hmoved _ _ _ (toPresent_of_call hcall)⟩
  | revoke_raised hcall => exact Or.inl ⟨rfl, hmoved _ _ _ (toPresent_of_call hcall)⟩
  | revokeSession hcall => exact Or.inl ⟨rfl, hmoved _ _ _ (toPresent_of_call hcall)⟩

/-- What is doomed stays so. -/
theorem Doomed.step (h : Doomed s) (hs : s.step refreshWindowMs act = some s') : Doomed s' := by
  rcases (turn_of_step hs).presents_one with ⟨hsame, hkept⟩ | ⟨i, token, hi, happend, hkept⟩
  · rcases h with htwice | ⟨k, used, hk, hagain⟩
    · refine Or.inl ?_
      rw [hsame]
      exact htwice
    · refine Or.inr ⟨k, used, hkept k used hk, ?_⟩
      rcases hagain with hpresented | ⟨j, hne, hj⟩
      · refine Or.inl ?_
        rw [hsame]
        exact hpresented
      · exact Or.inr ⟨j, hne, hkept j used hj⟩
  · have hnow : token ∈ s'.presented := by
      rw [happend]
      exact List.mem_append_right _ (List.mem_singleton_self _)
    rcases h with htwice | ⟨k, used, hk, hagain⟩
    · refine Or.inl fun hnodup => htwice ?_
      rw [happend] at hnodup
      exact (List.nodup_append.mp hnodup).1
    · by_cases hki : k = i
      · subst hki
        obtain rfl := Option.some.inj (hk.symm.trans hi)
        rcases hagain with hpresented | ⟨j, hne, hj⟩
        · refine Or.inl fun hnodup => ?_
          rw [happend] at hnodup
          exact (List.nodup_append.mp hnodup).2.2 used hpresented used
            (List.mem_singleton_self _) rfl
        · exact Or.inr ⟨j, used, (hkept j hne).trans hj, Or.inl hnow⟩
      · refine Or.inr ⟨k, used, (hkept k hki).trans hk, ?_⟩
        rcases hagain with hpresented | ⟨j, hne, hj⟩
        · refine Or.inl ?_
          rw [happend]
          exact List.mem_append_left _ hpresented
        · by_cases hji : j = i
          · subst hji
            obtain rfl := Option.some.inj (hj.symm.trans hi)
            exact Or.inl hnow
          · exact Or.inr ⟨j, hne, (hkept j hji).trans hj⟩

/-- An overlap dooms what was calm: the second request takes a token that the first one takes. -/
theorem Calm.doomed_of_overlaps (h : Calm s) (hs : s.step refreshWindowMs act = some s')
    (hoverlaps : s.Overlaps refreshWindowMs act) : Doomed s' := by
  cases turn_of_step hs with
  | load_none hcall hload =>
      obtain ⟨request', caller', sessionId', session', hcall', hload', -⟩ := hoverlaps
      obtain ⟨-, hstage⟩ := Call.mk.inj (Option.some.inj (hcall.symm.trans hcall'))
      obtain ⟨-, rfl⟩ := Stage.loadSession.inj hstage
      rw [hload] at hload'
      simp at hload'
  | load_fresh hcall hload hfresh =>
      obtain ⟨request', caller', sessionId', session', hcall', hload', hstale', -⟩ := hoverlaps
      obtain ⟨-, hstage⟩ := Call.mk.inj (Option.some.inj (hcall.symm.trans hcall'))
      obtain ⟨-, rfl⟩ := Stage.loadSession.inj hstage
      obtain rfl := Option.some.inj (hload.symm.trans hload')
      rw [hfresh] at hstale'
      simp at hstale'
  | @load_stale i request caller sessionId now session hcall hload hstale =>
      obtain ⟨request', caller', sessionId', session', hcall', -, -, j, hj⟩ := hoverlaps
      obtain ⟨-, hstage⟩ := Call.mk.inj (Option.some.inj (hcall.symm.trans hcall'))
      obtain ⟨-, rfl⟩ := Stage.loadSession.inj hstage
      have hstored : s.tables.refreshToken sessionId =
          some (decryptSecret session.refreshTokenCiphertext) := by
        obtain ⟨row, user, hrow, -, -, rfl⟩ := Tables.loadSession_eq_some hload
        simp [Tables.refreshToken, hrow]
      have hne : j ≠ i := by
        rintro rfl
        rw [refreshing_of_call hcall] at hj
        simp [Stage.refreshing] at hj
      have hmine : (s.moveTo i request (.refreshAuth0Tokens caller session)).toPresent i =
          some (decryptSecret session.refreshTokenCiphertext) := by
        rw [toPresent_moveTo, if_pos rfl]
        rfl
      refine Or.inr ⟨i, _, hmine, ?_⟩
      -- The other request is on its way to Auth0, or back from there.
      obtain ⟨call, hother, hrefreshing⟩ := Option.bind_eq_some_iff.mp hj
      have hcarries := h.carries j call hother
      obtain ⟨request₂, stage₂⟩ := call
      cases stage₂ with
      | refreshAuth0Tokens caller₂ session₂ =>
          obtain rfl := Option.some.inj hrefreshing
          refine Or.inr ⟨j, hne, ?_⟩
          rw [toPresent_moveTo, if_neg hne, toPresent_of_call hother]
          exact hcarries.2.symm.trans hstored
      | updateSessionTokens caller₂ input₂ =>
          obtain rfl := Option.some.inj hrefreshing
          obtain ⟨-, -, old, hold, hused⟩ := hcarries
          obtain rfl := Option.some.inj (hold.symm.trans hstored)
          exact Or.inl hused
      | _ => simp [Stage.refreshing] at hrefreshing
  | _ => exact hoverlaps.elim

/-! ### Whole runs -/

/-- A run is calm up to its first overlap, and doomed from there on. -/
theorem calm_or_doomed (hempty : ∀ id, tables.sessions id = none) {steps : List (State × Act)}
    (hrun : Run refreshWindowMs (State.start tables) steps s)
    (hrotates : ∀ entry ∈ steps, entry.1.Rotates entry.2) :
    (Calm s ∧ ∀ entry ∈ steps, ¬ entry.1.Overlaps refreshWindowMs entry.2) ∨
    (Doomed s ∧ ¬ ∀ entry ∈ steps, ¬ entry.1.Overlaps refreshWindowMs entry.2) := by
  induction hrun with
  | start => exact Or.inl ⟨.start hempty, by simp⟩
  | @step steps s₁ s₂ act _ hs ih =>
      have hrotates' : ∀ entry ∈ steps, entry.1.Rotates entry.2 :=
        fun entry hentry => hrotates entry (List.mem_cons_of_mem _ hentry)
      rcases ih hrotates' with ⟨hcalm, hnone⟩ | ⟨hdoomed, hsome⟩
      · by_cases hoverlaps : s₁.Overlaps refreshWindowMs act
        · refine Or.inr ⟨hcalm.doomed_of_overlaps hs hoverlaps, fun hall => ?_⟩
          exact hall _ List.mem_cons_self hoverlaps
        · refine Or.inl ⟨hcalm.step hs (hrotates _ List.mem_cons_self) hoverlaps, ?_⟩
          intro entry hentry
          rcases List.mem_cons.mp hentry with rfl | hentry
          · exact hoverlaps
          · exact hnone entry hentry
      · refine Or.inr ⟨hdoomed.step hs, fun hall => hsome fun entry hentry => ?_⟩
        exact hall entry (List.mem_cons_of_mem _ hentry)

/-- When all requests have moved on, what was doomed has come. -/
theorem Doomed.of_quiet (h : Doomed s) (hquiet : ∀ id, ¬ s.Refreshing id) :
    ¬ s.presented.Nodup := by
  rcases h with htwice | ⟨i, token, hi, -⟩
  · exact htwice
  · exfalso
    obtain ⟨call, hcall, hstage⟩ := Option.bind_eq_some_iff.mp hi
    cases hrefreshing : call.stage.refreshing with
    | none =>
        rw [Stage.toPresent_of_refreshing hrefreshing] at hstage
        simp at hstage
    | some id => exact hquiet id ⟨i, (refreshing_of_call hcall).trans hrefreshing⟩

/--
**Rotation is safe as long as no request finds a session to be stale that another one is
refreshing.**  And when nothing is being refreshed, it is safe only then.
-/
theorem rotation_safe (hempty : ∀ id, tables.sessions id = none) {steps : List (State × Act)}
    (hrun : Run refreshWindowMs (State.start tables) steps s)
    (hrotates : ∀ entry ∈ steps, entry.1.Rotates entry.2) :
    ((∀ entry ∈ steps, ¬ entry.1.Overlaps refreshWindowMs entry.2) →
      s.presented.Nodup ∧ ∀ id, ¬ s.Refreshing id → s.tables.refreshToken id = s.latest id) ∧
    ((∀ id, ¬ s.Refreshing id) →
      ((s.presented.Nodup ∧ ∀ id, s.tables.refreshToken id = s.latest id) ↔
        ∀ entry ∈ steps, ¬ entry.1.Overlaps refreshWindowMs entry.2)) := by
  rcases calm_or_doomed hempty hrun hrotates with ⟨hcalm, hnone⟩ | ⟨hdoomed, hsome⟩
  · refine ⟨fun _ => ⟨hcalm.once, hcalm.stored⟩, fun hquiet => iff_of_true ?_ hnone⟩
    exact ⟨hcalm.once, fun id => hcalm.stored id (hquiet id)⟩
  · refine ⟨fun hnone => absurd hnone hsome, fun hquiet => iff_of_false ?_ hsome⟩
    rintro ⟨honce, -⟩
    exact hdoomed.of_quiet hquiet honce

end State

end CommercePlatform.Bff

/-! ### Two requests of one page -/

namespace CommercePlatform.Bff.Visit

/-- Both find the access token good for a minute more, and both have it refreshed. -/
def together : List Act :=
  [login, .arrive 0 (request .other), .arrive 1 (request .other), .loadSession 0 540000,
    .loadSession 1 540010, .refreshAuth0Tokens 0 (some (granted 600 "ey.second" "v1.second")) 540200,
    .refreshAuth0Tokens 1 (some (granted 600 "ey.third" "v1.third")) 540210]

/-- One waits for the other. -/
def inTurn : List Act :=
  [login, .arrive 0 (request .other), .loadSession 0 540000,
    .refreshAuth0Tokens 0 (some (granted 600 "ey.second" "v1.second")) 540200, .updateSessionTokens 0,
    .arrive 1 (request .other), .loadSession 1 540300, .reloadSession 0 540310]

/-- The first refresh token is used twice. -/
theorem used_twice : ∃ steps s, State.Run window (State.start tables) steps s ∧
    (∀ entry ∈ steps, entry.1.Rotates entry.2) ∧ ¬ s.presented.Nodup := by
  have hout : ((State.runIf window State.Rotates together (State.start tables)).any fun s =>
      s.presented = ["v1.first", "v1.first"]) = true := by
    decide +kernel
  obtain ⟨s, hs, hpresented⟩ := (Option.any_eq_true _ _).mp hout
  obtain ⟨steps, hrun, hrotates⟩ := State.Run.start.of_runIf (by simp) hs
  refine ⟨steps, s, hrun, hrotates, ?_⟩
  rw [of_decide_eq_true hpresented]
  simp

/-- Two requests arrive, and none of them loads a session while the other one refreshes it. -/
def Waits (s : State) : Act → Prop
  | .arrive i _ => i < 2
  | .loadSession _ _ => s.refreshing 0 = none ∧ s.refreshing 1 = none
  | _ => True

instance (s : State) : (act : Act) → Decidable (Waits s act)
  | .arrive i _ => inferInstanceAs (Decidable (i < 2))
  | .loadSession _ _ => inferInstanceAs (Decidable (_ ∧ _))
  | .upsertUser _ => isTrue trivial
  | .insertSession _ _ _ _ => isTrue trivial
  | .refreshAuth0Tokens _ _ _ => isTrue trivial
  | .updateSessionTokens _ => isTrue trivial
  | .reloadSession _ _ => isTrue trivial
  | .revokeRefreshToken _ _ => isTrue trivial
  | .revokeSession _ _ => isTrue trivial

theorem not_overlaps_of_waits {steps : List (State × Act)} {s : State}
    (hrun : State.Run window (State.start tables) steps s)
    (hwaits : ∀ entry ∈ steps, Waits entry.1 entry.2) :
    ∀ entry ∈ steps, ¬ entry.1.Overlaps window entry.2 := by
  rintro ⟨s', act⟩ hentry hoverlaps
  have hquiet := hwaits _ hentry
  cases act with
  | loadSession i now =>
      obtain ⟨_, _, _, _, _, _, _, j, hj⟩ := hoverlaps
      have hother : 2 ≤ j → s'.calls j = none := by
        intro hle
        refine (hrun.not_arrived (i := j) rfl fun arrival harrival request hact => ?_).2 _ hentry
        have hwaiting := hwaits _ harrival
        rw [hact] at hwaiting
        have hlt : j < 2 := hwaiting
        omega
      rcases Nat.lt_or_ge j 2 with hlt | hge
      · obtain rfl | rfl : j = 0 ∨ j = 1 := by omega
        · simp [hquiet.1] at hj
        · simp [hquiet.2] at hj
      · simp [State.refreshing, hother hge] at hj
  | _ => exact hoverlaps

/-- Each refresh token is used once. -/
theorem used_once : ∃ steps s, State.Run window (State.start tables) steps s ∧
    s.presented = ["v1.first"] ∧ (∀ entry ∈ steps, entry.1.Rotates entry.2) ∧
    (∀ entry ∈ steps, ¬ entry.1.Overlaps window entry.2) ∧
    s.presented.Nodup ∧ ∀ id, ¬ s.Refreshing id → s.tables.refreshToken id = s.latest id := by
  have hout : ((State.runIf window (fun s act => s.Rotates act ∧ Waits s act) inTurn
      (State.start tables)).any fun s => s.presented = ["v1.first"]) = true := by
    decide +kernel
  obtain ⟨s, hs, hpresented⟩ := (Option.any_eq_true _ _).mp hout
  obtain ⟨steps, hrun, hallowed⟩ := State.Run.start.of_runIf (by simp) hs
  have hrotates : ∀ entry ∈ steps, entry.1.Rotates entry.2 :=
    fun entry hentry => (hallowed entry hentry).1
  have hnone := not_overlaps_of_waits hrun fun entry hentry => (hallowed entry hentry).2
  obtain ⟨honce, hstored⟩ := (State.rotation_safe (fun _ => rfl) hrun hrotates).1 hnone
  exact ⟨steps, s, hrun, of_decide_eq_true hpresented, hrotates, hnone, honce, hstored⟩

end CommercePlatform.Bff.Visit
