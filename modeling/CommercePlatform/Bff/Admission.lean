/-
Who is admitted.

`requireSession` admits a request with the session that its cookie names, as it was loaded.
While the request waits, the session it waits for stays the one of its cookie, through a
refresh as well; and a request stays the request it was.
-/
import CommercePlatform.Bff.Calls

namespace CommercePlatform.Bff

/-- The session that `requireSession` is waiting for. -/
def Stage.awaited : Stage → Option String
  | .loadSession .requireSession sessionId => some sessionId
  | .refreshAuth0Tokens .requireSession session => some session.id
  | .updateSessionTokens .requireSession input => some input.sessionId
  | .reloadSession .requireSession sessionId => some sessionId
  | _ => none

theorem Stage.awaited_returnStage (request : Request) (caller : Caller)
    (session : Option AppSession) : (returnStage request caller session).awaited = none := by
  cases caller with
  | refreshController => rfl
  | requireSession =>
      cases session with
      | none => rfl
      | some session =>
          show (enterController request session).awaited = none
          unfold enterController
          split
          · rfl
          · split <;> rfl
          · split <;> rfl

/-- The cookie is signed, and the server reads it as the identifier. -/
def Request.Names (request : Request) (id : String) : Prop :=
  ∃ cookie, request.sessionCookie = some cookie ∧ Uuid.read cookie = some id

theorem arrival_of_names {request : Request} {id : String} (h : request.Names id) :
    arrival request = .loadSession .requireSession id := by
  obtain ⟨cookie, hcookie, hread⟩ := h
  have hne : cookie ≠ "" := by
    rintro rfl
    simp [Uuid.read] at hread
  simp [arrival, hcookie, hne, hread]

theorem Stage.awaited_arrival {request : Request} {id : String}
    (h : (arrival request).awaited = some id) : request.Names id := by
  unfold arrival at h
  split at h
  · simp [awaited] at h
  · rename_i cookie hcookie
    split at h
    · simp [awaited] at h
    · split at h
      · simp [awaited] at h
      · rename_i sessionId hread
        obtain rfl := Option.some.inj h
        exact ⟨cookie, hcookie, hread⟩

namespace State

variable {refreshWindowMs : ℤ} {s s' : State} {act : Act}

/-- A step moves one request on, which goes on to wait for the same session, if it waits for one. -/
theorem Turn.calls (h : Turn refreshWindowMs s act s') :
    s'.calls = s.calls ∨ ∃ i request stage,
      s'.calls = Function.update s.calls i (some { request := request, stage := stage }) ∧
      ((s.calls i = none ∧ act = .arrive i request ∧ stage = arrival request) ∨
        ∃ before, s.calls i = some { request := request, stage := before } ∧
          ∀ id ∈ stage.awaited, id ∈ before.awaited) := by
  have hreturned : ∀ {i : ℕ} {request : Request} {before : Stage} (caller : Caller)
      (session : Option AppSession), s.calls i = some { request := request, stage := before } →
      ∃ before, s.calls i = some { request := request, stage := before } ∧
        ∀ id ∈ (returnStage request caller session).awaited, id ∈ before.awaited := by
    intro i request before caller session hcall
    refine ⟨before, hcall, fun id hid => ?_⟩
    rw [Stage.awaited_returnStage] at hid
    simp at hid
  cases h with
  | upsertUser hupsert => exact Or.inl rfl
  | insertSession htime hid hnew huser => exact Or.inl rfl
  | @arrive i request hnone => exact Or.inr ⟨i, request, _, rfl, Or.inl ⟨hnone, rfl, rfl⟩⟩
  | @load_none i request caller sessionId now hcall =>
      exact Or.inr ⟨i, request, _, rfl, Or.inr (hreturned caller none hcall)⟩
  | @load_fresh i request caller sessionId now session hcall =>
      exact Or.inr ⟨i, request, _, rfl, Or.inr (hreturned caller (some session) hcall)⟩
  | @load_stale i request caller sessionId now session hcall hload =>
      refine Or.inr ⟨i, request, _, rfl, Or.inr ⟨_, hcall, fun id hid => ?_⟩⟩
      cases caller with
      | refreshController => simp [Stage.awaited] at hid
      | requireSession =>
          obtain rfl := Option.some.inj hid
          rw [Tables.id_of_loadSession hload]
          rfl
  | @reload i request caller sessionId now hcall =>
      exact Or.inr ⟨i, request, _, rfl, Or.inr (hreturned caller _ hcall)⟩
  | @refresh_raised i request caller session now hcall =>
      exact Or.inr ⟨i, request, _, rfl, Or.inr ⟨_, hcall, by simp [Stage.awaited]⟩⟩
  | @refresh_kept i request caller session now refreshed hcall =>
      refine Or.inr ⟨i, request, _, rfl, Or.inr ⟨_, hcall, fun id hid => ?_⟩⟩
      cases caller with
      | refreshController => simp [Stage.awaited] at hid
      | requireSession => exact hid
  | @refresh_rotated i request caller session now refreshed token hcall =>
      refine Or.inr ⟨i, request, _, rfl, Or.inr ⟨_, hcall, fun id hid => ?_⟩⟩
      cases caller with
      | refreshController => simp [Stage.awaited] at hid
      | requireSession => exact hid
  | @update_raised i request caller input e hcall =>
      exact Or.inr ⟨i, request, _, rfl, Or.inr ⟨_, hcall, by simp [Stage.awaited]⟩⟩
  | @update i request caller input expiresAt hcall =>
      refine Or.inr ⟨i, request, _, rfl, Or.inr ⟨_, hcall, fun id hid => ?_⟩⟩
      cases caller with
      | refreshController => simp [Stage.awaited] at hid
      | requireSession => exact hid
  | @revoke_resolved i request session hcall =>
      exact Or.inr ⟨i, request, _, rfl, Or.inr ⟨_, hcall, by simp [Stage.awaited]⟩⟩
  | @revoke_raised i request session hcall =>
      exact Or.inr ⟨i, request, _, rfl, Or.inr ⟨_, hcall, by simp [Stage.awaited]⟩⟩
  | @revokeSession i request session now hcall =>
      exact Or.inr ⟨i, request, _, rfl, Or.inr ⟨_, hcall, by simp [Stage.awaited]⟩⟩

/-- A request stays the request it was. -/
theorem Turn.request_kept (h : Turn refreshWindowMs s act s') {i : ℕ} {call : Call}
    (hcall : s.calls i = some call) :
    ∃ stage, s'.calls i = some { request := call.request, stage := stage } := by
  rcases h.calls with hsame | ⟨j, request, stage, hcalls, hbefore⟩
  · exact ⟨call.stage, by rw [hsame, hcall]⟩
  · by_cases hij : i = j
    · subst hij
      rcases hbefore with ⟨hnone, -⟩ | ⟨before, hbefore, -⟩
      · rw [hcall] at hnone
        simp at hnone
      · obtain rfl := Option.some.inj (hcall.symm.trans hbefore)
        exact ⟨stage, by rw [hcalls, Function.update_self]⟩
    · exact ⟨call.stage, by rw [hcalls, Function.update_of_ne hij, hcall]⟩

/-- A request that has not arrived waits nowhere. -/
theorem Turn.not_arrived (h : Turn refreshWindowMs s act s') {i : ℕ} (hnone : s.calls i = none)
    (hact : ∀ request, act ≠ .arrive i request) : s'.calls i = none := by
  rcases h.calls with hsame | ⟨j, request, stage, hcalls, hbefore⟩
  · rw [hsame, hnone]
  · have hij : i ≠ j := by
      rintro rfl
      rcases hbefore with ⟨-, harrive, -⟩ | ⟨before, hbefore, -⟩
      · exact hact request harrive
      · simp [hnone] at hbefore
    rw [hcalls, Function.update_of_ne hij, hnone]

theorem Run.not_arrived {s₀ : State} {steps : List (State × Act)}
    (h : Run refreshWindowMs s₀ steps s) {i : ℕ} (hnone : s₀.calls i = none)
    (hact : ∀ entry ∈ steps, ∀ request, entry.2 ≠ .arrive i request) :
    s.calls i = none ∧ ∀ entry ∈ steps, entry.1.calls i = none := by
  induction h with
  | start => exact ⟨hnone, by simp⟩
  | step _ hs ih =>
      obtain ⟨hbefore, hall⟩ := ih fun entry hentry => hact entry (List.mem_cons_of_mem _ hentry)
      refine ⟨(turn_of_step hs).not_arrived hbefore (hact _ List.mem_cons_self), ?_⟩
      intro entry hentry
      rcases List.mem_cons.mp hentry with rfl | hentry
      · exact hbefore
      · exact hall entry hentry

/-- The step admits the request with the session, which it has just loaded. -/
def Admits (s : State) (act : Act) (i : ℕ) (session : AppSession) : Prop :=
  (∃ now, act = .loadSession i now ∨ act = .reloadSession i now) ∧
    s.tables.loadSession session.id = some session

/-- Who is admitted was waiting for the session it is admitted with. -/
theorem Turn.admits (h : Turn refreshWindowMs s act s') :
    s'.admissions = s.admissions ∨ ∃ i request stage session now,
      s'.admissions = s.admissions ++ [{ call := i, session := session, time := now }] ∧
      s.calls i = some { request := request, stage := stage } ∧
      stage.awaited = some session.id ∧ s.Admits act i session := by
  have hreturned : ∀ {i : ℕ} {request : Request} {stage : Stage} {caller : Caller}
      {sessionId : String} {now : ℤ} {loaded : Option AppSession},
      s.calls i = some { request := request, stage := stage } →
      (caller = .requireSession → stage.awaited = some sessionId) →
      (act = .loadSession i now ∨ act = .reloadSession i now) →
      s.tables.loadSession sessionId = loaded →
      (s.returns i request caller loaded now).admissions = s.admissions ∨
        ∃ j request' stage session now',
          (s.returns i request caller loaded now).admissions =
            s.admissions ++ [{ call := j, session := session, time := now' }] ∧
          s.calls j = some { request := request', stage := stage } ∧
          stage.awaited = some session.id ∧ s.Admits act j session := by
    intro i request stage caller sessionId now loaded hcall hawaited hact hload
    cases caller with
    | refreshController => exact Or.inl rfl
    | requireSession =>
        cases loaded with
        | none => exact Or.inl rfl
        | some session =>
            have hid := Tables.id_of_loadSession hload
            subst hid
            exact Or.inr ⟨i, request, stage, session, now, rfl, hcall, hawaited rfl, ⟨now, hact⟩, hload⟩
  cases h with
  | load_none hcall hload =>
      refine hreturned hcall ?_ (Or.inl rfl) hload
      rintro rfl
      rfl
  | load_fresh hcall hload =>
      refine hreturned hcall ?_ (Or.inl rfl) hload
      rintro rfl
      rfl
  | reload hcall =>
      refine hreturned hcall ?_ (Or.inr rfl) rfl
      rintro rfl
      rfl
  | _ => exact Or.inl rfl

/-- The sessions that requests wait for, and were admitted with, are those of their cookies. -/
structure Named (s : State) : Prop where
  awaited : ∀ i call, s.calls i = some call → ∀ id ∈ call.stage.awaited, call.request.Names id
  admitted : ∀ admission ∈ s.admissions, ∃ call, s.calls admission.call = some call ∧
    call.request.Names admission.session.id

theorem Named.start (tables : Tables) : Named (State.start tables) where
  awaited := by simp [State.start]
  admitted := by simp [State.start]

theorem Named.step (h : Named s) (hs : s.step refreshWindowMs act = some s') : Named s' where
  awaited i call hcall id hid := by
    rcases (turn_of_step hs).calls with hsame | ⟨j, request, stage, hcalls, hbefore⟩
    · exact h.awaited i call (by rw [← hsame, hcall]) id hid
    · rw [hcalls] at hcall
      rcases update_eq_some hcall with ⟨rfl, hnew⟩ | ⟨-, hcalled⟩
      · obtain rfl := Option.some.inj hnew
        rcases hbefore with ⟨-, -, rfl⟩ | ⟨before, hbefore, hkept⟩
        · exact Stage.awaited_arrival hid
        · exact h.awaited i _ hbefore id (hkept id hid)
      · exact h.awaited i call hcalled id hid
  admitted admission hadmission := by
    have hkept : ∀ call, s.calls admission.call = some call →
        call.request.Names admission.session.id →
        ∃ call', s'.calls admission.call = some call' ∧
          call'.request.Names admission.session.id := by
      intro call hcall hcookie
      obtain ⟨stage, hcall'⟩ := (turn_of_step hs).request_kept hcall
      exact ⟨_, hcall', hcookie⟩
    rcases (turn_of_step hs).admits with hsame | ⟨i, request, stage, session, now, happend, hcall,
      hawaited, -⟩
    · rw [hsame] at hadmission
      obtain ⟨call, hcall, hcookie⟩ := h.admitted admission hadmission
      exact hkept call hcall hcookie
    · rw [happend] at hadmission
      rcases List.mem_append.mp hadmission with hbefore | hnow
      · obtain ⟨call, hcall, hcookie⟩ := h.admitted admission hbefore
        exact hkept call hcall hcookie
      · obtain rfl := List.mem_singleton.mp hnow
        exact hkept _ hcall (h.awaited i _ hcall session.id hawaited)

end State

end CommercePlatform.Bff
