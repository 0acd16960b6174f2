/-
Machines that run, and machines that follow them.

A machine is a relation between states.  One machine follows another if each of its
steps looks, from there, like a step or like nothing; then all of its runs look like
runs, and whatever the other machine never does, it never does either.
-/
import Mathlib.Data.Nat.Init
import Mathlib.Logic.Relation
import Mathlib.Tactic.Choose

namespace Machine

open Relation

variable {σ α : Type*} {step : σ → σ → Prop} {astep : α → α → Prop} {R : σ → α → Prop}

/-- An unending run, in which the machine may pause. -/
def Runs (step : σ → σ → Prop) (states : ℕ → σ) : Prop :=
  ∀ n, ReflGen step (states n) (states (n + 1))

theorem Runs.steps {states : ℕ → σ} (h : Runs step states) (n : ℕ) :
    ReflTransGen step (states 0) (states n) := by
  induction n with
  | zero => exact .refl
  | succ n ih => exact ih.trans (h n).to_reflTransGen

/-- A run that has an end can pause there for good. -/
theorem exists_runs {s s' : σ} (hrun : ReflTransGen step s s') :
    ∃ states, states 0 = s ∧ Runs step states ∧ ∃ n, states n = s' := by
  induction hrun using ReflTransGen.head_induction_on with
  | refl => exact ⟨fun _ => s', rfl, fun _ => .refl, 0, rfl⟩
  | @head s t hstep _ ih =>
      obtain ⟨states, hstart, hruns, n, hn⟩ := ih
      refine ⟨fun n => Nat.casesOn n s states, rfl, fun n => ?_, n + 1, hn⟩
      cases n with
      | zero =>
          subst hstart
          exact .single hstep
      | succ n => exact hruns n

/-- Seen through `R`, each step of a machine is a step of the other one, or nothing. -/
structure Simulates (step : σ → σ → Prop) (astep : α → α → Prop) (R : σ → α → Prop) : Prop where
  follow : ∀ {s s' a}, R s a → step s s' → ∃ a', ReflGen astep a a' ∧ R s' a'

namespace Simulates

/-- The two machines side by side, always related. -/
def Both (step : σ → σ → Prop) (astep : α → α → Prop) (R : σ → α → Prop) (p q : σ × α) : Prop :=
  step p.1 q.1 ∧ ReflGen astep p.2 q.2 ∧ R p.1 p.2 ∧ R q.1 q.2

/-- A run of one machine is half of a run of both. -/
theorem both (h : Simulates step astep R) {s s' : σ} {a : α} (ha : R s a)
    (hrun : ReflTransGen step s s') :
    ∃ a', R s' a' ∧ ReflTransGen (Both step astep R) (s, a) (s', a') := by
  induction hrun with
  | refl => exact ⟨a, ha, .refl⟩
  | tail _ hstep ih =>
      obtain ⟨a₁, ha₁, hboth⟩ := ih
      obtain ⟨a₂, hnext, ha₂⟩ := h.follow ha₁ hstep
      exact ⟨a₂, ha₂, hboth.tail ⟨hstep, hnext, ha₁, ha₂⟩⟩

theorem run (h : Simulates step astep R) {s s' : σ} {a : α} (ha : R s a)
    (hrun : ReflTransGen step s s') : ∃ a', R s' a' ∧ ReflTransGen astep a a' := by
  obtain ⟨a', ha', hboth⟩ := h.both ha hrun
  refine ⟨a', ha', ?_⟩
  exact ReflTransGen.trans_induction_on (motive := fun {p q} _ => ReflTransGen astep p.2 q.2)
    hboth (fun _ => .refl) (fun hstep => hstep.2.1.to_reflTransGen) fun _ _ => ReflTransGen.trans

/-- **Every run of one machine, however long, is followed state by state by the other.** -/
theorem runs (h : Simulates step astep R) {states : ℕ → σ} (hruns : Runs step states) {a : α}
    (ha : R (states 0) a) :
    ∃ others : ℕ → α, others 0 = a ∧ Runs astep others ∧ ∀ n, R (states n) (others n) := by
  have hnext : ∀ n (b : { b // R (states n) b }),
      ∃ b' : { b' // R (states (n + 1)) b' }, ReflGen astep b.1 b'.1 := by
    intro n ⟨b, hb⟩
    have hmove := hruns n
    generalize hs' : states (n + 1) = s' at hmove
    cases hmove with
    | refl => exact ⟨⟨b, hb⟩, .refl⟩
    | single hstep =>
        obtain ⟨b', hmove, hb'⟩ := h.follow hb hstep
        exact ⟨⟨b', hb'⟩, hmove⟩
  choose next hnext using hnext
  let others : ∀ n, { b // R (states n) b } := fun n =>
    Nat.rec (motive := fun n => { b // R (states n) b }) ⟨a, ha⟩ next n
  exact ⟨fun n => (others n).1, rfl, fun n => hnext n (others n), fun n => (others n).2⟩

end Simulates

/-- What comes to hold in a run does so at some step of it. -/
theorem exists_entering {P : σ → Prop} {s s' : σ} (hrun : ReflTransGen step s s') (hnot : ¬ P s)
    (hholds : P s') :
    ∃ t t', ReflTransGen step s t ∧ ¬ P t ∧ step t t' ∧ P t' ∧ ReflTransGen step t' s' := by
  induction hrun with
  | refl => exact absurd hholds hnot
  | @tail t t' hrun hstep ih =>
      by_cases hbefore : P t
      · obtain ⟨u, u', hu, hnotu, hstepu, hholdsu, hrest⟩ := ih hbefore
        exact ⟨u, u', hu, hnotu, hstepu, hholdsu, hrest.tail hstep⟩
      · exact ⟨t, t', hrun, hbefore, hstep, hholds, .refl⟩

/-- A machine that is done or can go on to where less is left can go on until it is done. -/
theorem exists_done (I Done : σ → Prop) (left : σ → ℕ)
    (hless : ∀ s, I s → Done s ∨ ∃ s', ReflTransGen step s s' ∧ I s' ∧ left s' < left s) {s : σ}
    (hs : I s) : ∃ s', ReflTransGen step s s' ∧ I s' ∧ Done s' := by
  induction hn : left s using Nat.strong_induction_on generalizing s with
  | _ n ih =>
      rcases hless s hs with hdone | ⟨s₁, hrun, hs₁, hlt⟩
      · exact ⟨s, .refl, hs, hdone⟩
      · obtain ⟨s', hrun', hs', hdone⟩ := ih (left s₁) (hn ▸ hlt) hs₁ rfl
        exact ⟨s', hrun.trans hrun', hs', hdone⟩

end Machine
