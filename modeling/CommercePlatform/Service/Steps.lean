/-
What a step of a service does to its rows.

Only a commit changes what the rows say, and it is one atomic run of its transaction.
Every other step leaves the rows as they are, up to the marks on published events.
-/
import CommercePlatform.Txn.Replay
import CommercePlatform.Service.Outbox
import CommercePlatform.Service.Statements

namespace CommercePlatform

open Js Txn

variable {β : Type} [DecidableEq β] {ρ : β → Type} {ι : Type}

/-- The same rows, but that events in the outbox may have been marked. -/
structure Alike (db db' : ServiceStore ρ) : Prop where
  own : ∀ key, ownRow db' key = ownRow db key
  processed : ∀ eventId, processedAt db' eventId = processedAt db eventId
  outbox : ∀ id, (outboxAt db' id = none ↔ outboxAt db id = none) ∧
    ∀ row', outboxAt db' id = some row' → ∃ row, outboxAt db id = some row ∧
      row' = { row with publishedAt := row'.publishedAt }

namespace Alike

theorem refl (db : ServiceStore ρ) : Alike db db where
  own _ := rfl
  processed _ := rfl
  outbox _ := ⟨Iff.rfl, fun row' hrow' => ⟨row', hrow', rfl⟩⟩

theorem mark (db : ServiceStore ρ) (id : String) (now : ℕ) :
    Alike db (markOutboxPublished db id now) where
  own key := lookup_markOutboxPublished (by simp)
  processed eventId := lookup_markOutboxPublished (by simp)
  outbox id' := by
    rw [outboxAt_markOutboxPublished]
    refine ⟨Option.map_eq_none_iff, fun row' hrow' => ?_⟩
    obtain ⟨row, hrow, rfl⟩ := Option.map_eq_some_iff.mp hrow'
    refine ⟨row, hrow, ?_⟩
    split
    · rfl
    · rfl

end Alike

namespace Node

variable {prog : ι → ServiceTx ρ Unit} {rule : ι → Rule β} {n n' : Node ρ ι}

/-- Nobody peeks at the outbox. -/
theorem outbox_not_peeked (h : OutboxLaw rule n) {j : ℕ}
    {τ : Session (ServiceRow ρ) Error Unit ι} (hτ : n.server.sessions j = some τ) (id : String) :
    ServiceKey.outbox id ∉ τ.peeked := by
  intro hpeek
  obtain ⟨g, hg⟩ := h.disciplined j τ hτ
  rcases List.mem_append.mp hpeek with hread | hmiss
  · obtain ⟨-, key, hkey, -⟩ := hg.reads _ hread
    simp at hkey
  · obtain ⟨-, key, hkey, -⟩ := hg.misses _ hmiss
    simp at hkey

theorem sound_step (hsound : n.server.Sound prog) (hlaw : OutboxLaw rule n)
    (hun : ∀ i, n.server.Unshadowed i) {act : NodeAct ι} (hs : n.step prog act = some n') :
    n'.server.Sound prog := by
  rcases server_cases hs with ⟨act, rfl, hserver⟩ |
    ⟨-, hserver | ⟨-, id, -, -, now, -, hfree, hserver⟩⟩
  · cases act with
    | begin i job => exact hsound.begin hserver
    | exec i => exact hsound.exec hserver
    | commit i => exact hsound.commit (hun i) hserver
    | rollback i => exact hsound.rollback hserver
  · rw [hserver]
    exact hsound
  · rw [hserver]
    unfold markOutboxPublished
    split
    · exact hsound
    · exact hsound.update hfree fun j τ hτ => outbox_not_peeked hlaw hτ id

/-- **Either the step is a commit, and atomic, or the rows still say the same.** -/
theorem work_cases (hsound : n.server.Sound prog) {w : Work} (hs : n.step prog w.act = some n') :
    (∃ i σ, w = .commit i ∧ n.server.sessions i = some σ ∧
        (prog σ.job).run n.server.db = .ok ((), n'.server.db) ∧
        n'.server.history = n.server.history ++ [σ.job]) ∨
      (Alike n.server.db n'.server.db ∧ n'.server.history = n.server.history ∧
        ∀ i, w ≠ .commit i) := by
  rcases server_cases hs with ⟨act, hact, hserver⟩ |
    ⟨hact, hserver | ⟨-, id, -, -, now, -, -, hserver⟩⟩
  · rcases Work.act_eq_business hact with ⟨i, rfl, rfl⟩ | ⟨i, rfl, rfl⟩ | ⟨i, rfl, rfl⟩
    · obtain ⟨_, _, _, -, -, -, hdb, hhistory, -⟩ := Server.exec_cases hserver
      refine Or.inr ⟨?_, hhistory, by simp⟩
      rw [hdb]
      exact .refl _
    · obtain ⟨σ, _, hσ, hrun, hhistory⟩ := hsound.commit_run hserver
      exact Or.inl ⟨i, σ, rfl, hσ, hrun, hhistory⟩
    · obtain ⟨_, -, heq⟩ := Server.rollback_cases hserver
      rw [heq]
      exact Or.inr ⟨.refl _, rfl, by simp⟩
  · rw [hserver]
    exact Or.inr ⟨.refl _, rfl, fun i hw => hact (.commit i) (by rw [hw]; rfl)⟩
  · rw [hserver]
    exact Or.inr ⟨.mark _ id now, rfl, fun i hw => hact (.commit i) (by rw [hw]; rfl)⟩

/-- A service by itself opens no session, and no session changes its job. -/
theorem work_sessions {w : Work} (hs : n.step prog w.act = some n') {j : ℕ}
    {τ : Session (ServiceRow ρ) Error Unit ι} (hτ : n'.server.sessions j = some τ) :
    ∃ σ, n.server.sessions j = some σ ∧ σ.job = τ.job := by
  rcases server_cases hs with ⟨act, hact, hserver⟩ |
    ⟨-, hserver | ⟨-, id, -, -, now, -, -, hserver⟩⟩
  · rcases Work.act_eq_business hact with ⟨i, rfl, rfl⟩ | ⟨i, rfl, rfl⟩ | ⟨i, rfl, rfl⟩
    · obtain ⟨σ, σ', _, hσ, hadv, -, -, -, hsessions, -⟩ := Server.exec_cases hserver
      rw [hsessions] at hτ
      rcases Server.sessions_update hτ with ⟨rfl, hnext⟩ | ⟨-, hτ⟩
      · obtain rfl := Option.some.inj hnext
        exact ⟨σ, hσ, (Session.advance_job hadv).symm⟩
      · exact ⟨τ, hτ, rfl⟩
    · obtain ⟨_, _, -, -, heq⟩ := Server.commit_cases hserver
      rw [heq] at hτ
      exact ⟨τ, (Server.sessions_drop hτ).2, rfl⟩
    · obtain ⟨_, -, heq⟩ := Server.rollback_cases hserver
      rw [heq] at hτ
      exact ⟨τ, (Server.sessions_drop hτ).2, rfl⟩
  · rw [hserver] at hτ
    exact ⟨τ, hτ, rfl⟩
  · rw [hserver] at hτ
    exact ⟨τ, hτ, rfl⟩

theorem missesNothing_step (h : n.server.MissesNothing) (hlaw : OutboxLaw rule n')
    (hpresent : ∀ i σ, n'.server.sessions i = some σ → ∀ key, (rule σ.job).misses key →
      ownRow n.server.db key ≠ none)
    {act : NodeAct ι} (hs : n.step prog act = some n') : n'.server.MissesNothing := by
  rcases server_cases hs with ⟨act, -, hserver⟩ | ⟨-, hserver | ⟨-, id, -, -, now, -, -, hserver⟩⟩
  · refine h.step hlaw.disciplined (fun i σ hσ g k hk => ?_) hserver
    obtain ⟨-, key, rfl, hmisses⟩ := hk
    by_contra habsent
    exact hpresent i σ hσ key hmisses (Finmap.lookup_eq_none.mpr habsent)
  · rw [hserver]
    exact h
  · rw [hserver]
    exact h

theorem missesAbsent_step {fixed : ServiceKey β → Prop} (h : n.server.MissesAbsent fixed)
    (hlaw : OutboxLaw rule n) (hown : ∀ k, fixed k → ∃ key, k = .own key ∧
      ∀ job, ¬ (rule job).claims key)
    {act : NodeAct ι} (hs : n.step prog act = some n') : n'.server.MissesAbsent fixed := by
  rcases server_cases hs with ⟨act, -, hserver⟩ | ⟨-, hserver | ⟨-, id, -, -, now, -, -, hserver⟩⟩
  · refine h.step hlaw.disciplined (fun job k hk => ?_) hserver
    obtain ⟨key, rfl, hclaims⟩ := hown k hk
    exact hclaims job
  · rw [hserver]
    exact h
  · rw [hserver]
    intro j τ hτ k hk hfixed hmem
    obtain ⟨key, rfl, -⟩ := hown k hfixed
    have hsame : (markOutboxPublished n.server.db id now).lookup (.own key) =
        n.server.db.lookup (.own key) := lookup_markOutboxPublished (by simp)
    refine h j τ hτ _ hk hfixed (Finmap.lookup_isSome.mp ?_)
    rw [← hsame]
    exact Finmap.lookup_isSome.mpr hmem

/-- A commit ends its session. -/
theorem commit_sessions {i : ℕ} (hs : n.step prog (Work.commit i).act = some n') :
    n'.server.sessions i = none := by
  obtain ⟨server, hserver, rfl⟩ := Option.map_eq_some_iff.mp hs
  obtain ⟨_, _, -, -, rfl⟩ := Server.commit_cases hserver
  exact Function.update_self _ _ _

/-- Opening a session changes nothing else. -/
theorem begin_cases {i : ℕ} {job : ι} (hs : n.step prog (.business (.begin i job)) = some n') :
    n'.server.db = n.server.db ∧ n'.server.history = n.server.history ∧ n'.sent = n.sent ∧
      ∀ j τ, n'.server.sessions j = some τ →
        n.server.sessions j = some τ ∨ (j = i ∧ τ.job = job) := by
  obtain ⟨server, hserver, rfl⟩ := Option.map_eq_some_iff.mp hs
  obtain ⟨-, rfl⟩ := Server.begin_cases hserver
  refine ⟨rfl, rfl, rfl, fun j τ hτ => ?_⟩
  by_cases hj : j = i
  · subst hj
    have hopen : Session.opened prog job = τ := by simpa using hτ
    exact Or.inr ⟨rfl, by rw [← hopen]; rfl⟩
  · exact Or.inl (by simpa [Function.update_of_ne hj] using hτ)

end Node

end CommercePlatform
