/-
A transaction that is alone.

Sessions wait for each other only, and a lock is held by an open session.  So once all
others are rolled back, which they may be at any time, nothing keeps a transaction from
running to its end, and what it then commits is what its body does to the rows.
-/
import Mathlib.Logic.Relation
import CommercePlatform.Txn.Replay

namespace Txn

variable {κ : Type} [DecidableEq κ] {ν : κ → Type} {ε α ι : Type}

namespace Server

/-- A step by which no session is opened. -/
def Goes (s s' : Server ν ε α ι) : Prop :=
  ∃ i, s.exec i = some s' ∨ s.commit i = some s' ∨ s.rollback i = some s'

/-- No session is open, and no key is held. -/
structure Idle (s : Server ν ε α ι) : Prop where
  sessions : ∀ i, s.sessions i = none
  locks : ∀ k, s.locks k = none

/-- All sessions are numbered below a bound, and only open ones hold keys. -/
structure Tidy (s : Server ν ε α ι) : Prop where
  bounded : ∃ bound, ∀ i, bound ≤ i → s.sessions i = none
  held : ∀ k i, s.locks k = some i → s.sessions i ≠ none

/-! ### Every server is tidy -/

omit [DecidableEq κ] in
theorem tidy_start (db : Store ν) : (start db : Server ν ε α ι).Tidy where
  bounded := ⟨0, fun _ _ => rfl⟩
  held k i hk := by simp [start] at hk

omit [DecidableEq κ] in
theorem bounded_update {sessions : ℕ → Option (Session ν ε α ι)} {bound : ℕ}
    (h : ∀ i, bound ≤ i → sessions i = none) (i : ℕ) (σ : Option (Session ν ε α ι)) :
    ∃ bound', ∀ j, bound' ≤ j → Function.update sessions i σ j = none := by
  refine ⟨bound + i + 1, fun j hj => ?_⟩
  have hne : j ≠ i := by omega
  exact (Function.update_of_ne hne _ _).trans (h j (by omega))

omit [DecidableEq κ] in
/-- The end of a session is the end of its locks. -/
theorem Tidy.drop {s : Server ν ε α ι} (h : s.Tidy) (i : ℕ) (db : Store ν) (history : List ι) :
    Tidy { db := db, sessions := Function.update s.sessions i none, locks := s.released i,
           history := history } where
  bounded := by
    obtain ⟨bound, hbound⟩ := h.bounded
    exact bounded_update hbound i none
  held k j hk := by
    obtain ⟨hheld, hne⟩ := released_eq_some.mp hk
    intro hnone
    exact h.held k j hheld ((Function.update_of_ne hne _ _).symm.trans hnone)

theorem Tidy.step {prog : ι → Tx ν ε α} {s s' : Server ν ε α ι} (h : s.Tidy) {act : Act ι}
    (hs : s.step prog act = some s') : s'.Tidy := by
  obtain ⟨bound, hbound⟩ := h.bounded
  cases act with
  | begin i job =>
      obtain ⟨-, rfl⟩ := begin_cases hs
      refine ⟨bounded_update hbound i _, fun k j hk hnone => ?_⟩
      by_cases hj : j = i
      · subst hj
        simp at hnone
      · exact h.held k j hk ((Function.update_of_ne hj _ _).symm.trans hnone)
  | exec i =>
      obtain ⟨σ, σ', need, hσ, -, -, -, -, hsessions, hlocks⟩ := exec_cases hs
      refine ⟨hsessions ▸ bounded_update hbound i _, fun k j hk hnone => ?_⟩
      rw [hsessions] at hnone
      by_cases hj : j = i
      · subst hj
        simp at hnone
      · have hkept : s.locks k = some j := by
          rw [hlocks] at hk
          cases need with
          | none => exact hk
          | some k' =>
              by_cases hkk : k = k'
              · subst hkk
                exact absurd (by simpa using hk) (Ne.symm hj)
              · exact (Function.update_of_ne hkk _ _).symm.trans hk
        exact h.held k j hkept ((Function.update_of_ne hj _ _).symm.trans hnone)
  | commit i =>
      obtain ⟨σ, a, -, -, rfl⟩ := commit_cases hs
      exact h.drop i _ _
  | rollback i =>
      obtain ⟨σ, -, rfl⟩ := rollback_cases hs
      exact h.drop i _ _

omit [DecidableEq κ] in
theorem Tidy.idle {s : Server ν ε α ι} (h : s.Tidy) (hclosed : ∀ i, s.sessions i = none) :
    s.Idle := by
  refine ⟨hclosed, fun k => ?_⟩
  cases hk : s.locks k with
  | none => rfl
  | some i => exact absurd (hclosed i) (h.held k i hk)

/-- **Whatever is under way can be rolled back, and the rows stay as they are.** -/
theorem exists_idle (prog : ι → Tx ν ε α) {s : Server ν ε α ι} (h : s.Tidy) :
    ∃ s', Relation.ReflTransGen Goes s s' ∧ s'.Idle ∧ s'.db = s.db ∧ s'.history = s.history := by
  obtain ⟨bound, hbound⟩ := h.bounded
  induction bound generalizing s with
  | zero => exact ⟨s, .refl, h.idle fun i => hbound i (Nat.zero_le i), rfl, rfl⟩
  | succ bound ih =>
      cases hσ : s.sessions bound with
      | none =>
          refine ih h fun i hi => ?_
          rcases Nat.eq_or_lt_of_le hi with rfl | hlt
          · exact hσ
          · exact hbound i hlt
      | some σ =>
          have hroll : s.step prog (.rollback bound) = some { s with
              sessions := Function.update s.sessions bound none
              locks := s.released bound } := by
            show s.rollback bound = _
            unfold rollback
            rw [hσ]
          have htidy := h.step hroll
          obtain ⟨s', hrun, hidle, hdb, hhistory⟩ := ih htidy fun i hi => by
            rcases Nat.eq_or_lt_of_le hi with rfl | hlt
            · exact Function.update_self _ _ _
            · exact (Function.update_of_ne (by omega) _ _).trans (hbound i hlt)
          exact ⟨s', hrun.head ⟨bound, Or.inr (Or.inr hroll)⟩, hidle, hdb, hhistory⟩

/-! ### One session -/

/-- There is one session, and every key is free for it. -/
structure Only (s : Server ν ε α ι) (i : ℕ) (σ : Session ν ε α ι) : Prop where
  sessions : s.sessions = Function.update (fun _ => none) i (some σ)
  free : ∀ k, s.free i k

theorem Only.exec {s : Server ν ε α ι} {i : ℕ} {σ σ' : Session ν ε α ι} {need : Option κ}
    (h : s.Only i σ) (hadv : σ.advance s.db = some (σ', need)) :
    ∃ s', s.exec i = some s' ∧ s'.Only i σ' ∧ s'.db = s.db ∧ s'.history = s.history := by
  have hσ : s.sessions i = some σ := by
    rw [h.sessions]
    exact Function.update_self _ _ _
  have hsessions : Function.update s.sessions i (some σ') =
      Function.update (fun _ => none) i (some σ') := by
    rw [h.sessions, Function.update_idem]
  cases need with
  | none =>
      refine ⟨{ s with sessions := Function.update s.sessions i (some σ') }, ?_,
        ⟨hsessions, h.free⟩, rfl, rfl⟩
      unfold Server.exec
      rw [hσ]
      simp only [hadv]
  | some k =>
      refine ⟨{ s with sessions := Function.update s.sessions i (some σ')
                       locks := Function.update s.locks k (some i) }, ?_, ⟨hsessions, fun k' => ?_⟩,
        rfl, rfl⟩
      · unfold Server.exec
        rw [hσ]
        simp only [hadv, if_pos (h.free k)]
      · by_cases hk : k' = k
        · subst hk
          exact Or.inr (Function.update_self _ _ _)
        · show Function.update s.locks k (some i) k' = none ∨
            Function.update s.locks k (some i) k' = some i
          rw [Function.update_of_ne hk]
          exact h.free k'

theorem Only.commit {s : Server ν ε α ι} {i : ℕ} {σ : Session ν ε α ι} {a : α} (h : s.Only i σ)
    (hrest : σ.rest = .pure a) :
    ∃ s', s.commit i = some s' ∧ s'.Idle ∧ s'.db = σ.view s.db ∧
      s'.history = s.history ++ [σ.job] := by
  have hσ : s.sessions i = some σ := by
    rw [h.sessions]
    exact Function.update_self _ _ _
  refine ⟨{ db := σ.writes ∪ s.db, sessions := Function.update s.sessions i none,
            locks := s.released i, history := s.history ++ [σ.job] }, ?_, ⟨fun j => ?_, fun k => ?_⟩,
    rfl, rfl⟩
  · unfold Server.commit
    rw [hσ]
    simp only [hrest]
  · show Function.update s.sessions i none j = none
    rw [h.sessions, Function.update_idem]
    by_cases hj : j = i
    · subst hj
      exact Function.update_self _ _ _
    · exact Function.update_of_ne hj _ _
  · show s.released i k = none
    unfold released
    rcases h.free k with hnone | hmine
    · rw [if_neg (by rw [hnone]; simp), hnone]
    · rw [if_pos hmine]

/-- The server gets to where all that `σ` does is committed, and nothing else. -/
def Ends (s : Server ν ε α ι) (σ : Session ν ε α ι) (db' : Store ν) : Prop :=
  ∃ s', Relation.ReflTransGen Goes s s' ∧ s'.Idle ∧ s'.db = db' ∧ s'.history = s.history ++ [σ.job]

/-- After an access the session is as it was, further on in its body. -/
theorem Only.ends_of_advance {s : Server ν ε α ι} {i : ℕ} {σ σ' : Session ν ε α ι}
    {need : Option κ} {db' : Store ν} (h : s.Only i σ) (hadv : σ.advance s.db = some (σ', need))
    (hrest : ∀ s₁ : Server ν ε α ι, s₁.Only i σ' → s₁.db = s.db → s₁.Ends σ' db') :
    s.Ends σ db' := by
  obtain ⟨s₁, hexec, honly, hdb, hhistory⟩ := h.exec hadv
  obtain ⟨s', hrun, hidle, hdb', hhistory'⟩ := hrest s₁ honly hdb
  refine ⟨s', hrun.head ⟨i, Or.inl hexec⟩, hidle, hdb', ?_⟩
  rw [hhistory', hhistory, Session.advance_job hadv]

/-- **A transaction that is alone runs to its end.** -/
theorem Only.ends {s : Server ν ε α ι} {i : ℕ} {σ : Session ν ε α ι} (h : s.Only i σ) {a : α}
    {db' : Store ν} (hrun : σ.rest.run (σ.view s.db) = .ok (a, db')) : s.Ends σ db' := by
  generalize hrest : σ.rest = rest at hrun
  induction rest generalizing s σ with
  | pure b =>
      obtain ⟨s', hcommit, hidle, hdb, hhistory⟩ := h.commit hrest
      rw [Tx.run_pure, Except.ok.injEq, Prod.mk.injEq] at hrun
      exact ⟨s', .single ⟨i, Or.inr (Or.inl hcommit)⟩, hidle, hdb.trans hrun.2, hhistory⟩
  | throw e => simp at hrun
  | read k next ih =>
      have hadv : σ.advance s.db = some
          ({ σ with rest := next ((σ.view s.db).lookup k), reads := k :: σ.reads }, none) := by
        simp only [Session.advance, hrest]
      refine h.ends_of_advance hadv fun s₁ honly hdb => ih _ honly rfl ?_
      rw [hdb]
      exact hrun
  | lock k next ih =>
      rw [Tx.run_lock] at hrun
      cases hrow : (σ.view s.db).lookup k with
      | none =>
          have hadv : σ.advance s.db =
              some ({ σ with rest := next none, misses := k :: σ.misses }, none) := by
            simp only [Session.advance, hrest, hrow]
          refine h.ends_of_advance hadv fun s₁ honly hdb => ih none honly rfl ?_
          rw [hrow] at hrun
          rw [hdb]
          exact hrun
      | some row =>
          have hadv : σ.advance s.db = some ({ σ with rest := next (some row) }, some k) := by
            simp only [Session.advance, hrest, hrow]
          refine h.ends_of_advance hadv fun s₁ honly hdb => ih (some row) honly rfl ?_
          rw [hrow] at hrun
          rw [hdb]
          exact hrun
  | claim k next ih =>
      rw [Tx.run_claim] at hrun
      cases hrow : (σ.view s.db).lookup k with
      | none =>
          have hadv : σ.advance s.db = some ({ σ with rest := next false }, some k) := by
            simp only [Session.advance, hrest, hrow]
          refine h.ends_of_advance hadv fun s₁ honly hdb => ih false honly rfl ?_
          rw [hrow] at hrun
          rw [hdb]
          exact hrun
      | some row =>
          have hadv : σ.advance s.db = some ({ σ with rest := next true }, none) := by
            simp only [Session.advance, hrest, hrow]
          refine h.ends_of_advance hadv fun s₁ honly hdb => ih true honly rfl ?_
          rw [hrow] at hrun
          rw [hdb]
          exact hrun
  | put k row next ih =>
      have hadv : σ.advance s.db =
          some ({ σ with rest := next, writes := σ.writes.insert k row }, some k) := by
        simp only [Session.advance, hrest]
      refine h.ends_of_advance hadv fun s₁ honly hdb => ih honly rfl ?_
      rw [Tx.run_put] at hrun
      show next.run (σ.writes.insert k row ∪ s₁.db) = _
      rw [hdb, ← Finmap.insert_union]
      exact hrun

/-- An idle server can take any job on, and do to the rows what its body does. -/
theorem Idle.exists_done (prog : ι → Tx ν ε α) {s : Server ν ε α ι} (h : s.Idle) (i : ℕ) (job : ι)
    {a : α} {db' : Store ν} (hrun : (prog job).run s.db = .ok (a, db')) :
    ∃ s₁ s', s.begin prog i job = some s₁ ∧ Relation.ReflTransGen Goes s₁ s' ∧ s'.Idle ∧
      s'.db = db' ∧ s'.history = s.history ++ [job] := by
  have hbegin : s.begin prog i job =
      some { s with sessions := Function.update s.sessions i (some (.opened prog job)) } := by
    unfold Server.begin
    rw [h.sessions i]
  have honly : Only { s with sessions := Function.update s.sessions i (some (.opened prog job)) } i
      (.opened prog job) := by
    refine ⟨?_, fun k => Or.inl (h.locks k)⟩
    rw [show s.sessions = fun _ => none from funext h.sessions]
  obtain ⟨s', hgoes, hidle, hdb, hhistory⟩ :=
    honly.ends (by simpa [Session.opened, Session.view] using hrun)
  exact ⟨_, s', hbegin, hgoes, hidle, hdb, hhistory⟩

end Server

end Txn
