/-
What a run looks like from outside.

A run is a list of states, each a step after the one before.  Whatever is watched along
it may stay the same for many steps; `List.destutter` leaves its successive values.  If
every step either leaves the value alone or takes an edge, the successive values are a
path of edges.
-/
import Mathlib.Data.List.Destutter
import Mathlib.Logic.Relation

namespace Txn

section Destutter

variable {α : Type} [DecidableEq α] {E : α → α → Prop}

/-- The successive values begin where the list does. -/
theorem head?_destutter' (a : α) (l : List α) :
    (List.destutter' (· ≠ ·) a l).head? = some a := by
  induction l with
  | nil => rfl
  | cons b l ih =>
      rw [List.destutter'_cons]
      split
      · rfl
      · exact ih

/-- **The successive values are a path.** -/
theorem isChain_destutter {l : List α} (h : l.IsChain fun a b => a = b ∨ E a b) :
    (l.destutter (· ≠ ·)).IsChain E := by
  cases l with
  | nil => exact List.isChain_nil
  | cons a l =>
      rw [List.destutter_cons']
      induction l generalizing a with
      | nil => exact List.isChain_singleton a
      | cons b l ih =>
          obtain ⟨hstep, hrest⟩ := List.isChain_cons_cons.mp h
          rw [List.destutter'_cons]
          split
          · rename_i hne
            refine (List.isChain_cons_iff _ _ _).mpr ?_
            have hhead := head?_destutter' b l
            cases htail : List.destutter' (· ≠ ·) b l with
            | nil => exact Or.inl rfl
            | cons c tail =>
                rw [htail] at hhead
                obtain rfl := Option.some.inj hhead
                refine Or.inr ⟨c, tail, hstep.resolve_left hne, ?_, rfl⟩
                rw [← htail]
                exact ih c hrest
          · rename_i heq
            obtain rfl := not_not.mp heq
            exact ih a hrest

end Destutter

section Runs

variable {σ : Type} {R S : σ → σ → Prop} {start : σ} {states : List σ}

/-- Every state of a run is reached. -/
theorem reach_of_mem (h : (start :: states).IsChain R) {s : σ} (hs : s ∈ start :: states) :
    Relation.ReflTransGen R start s := by
  induction states generalizing start with
  | nil =>
      obtain rfl := List.mem_singleton.mp hs
      exact .refl
  | cons next states ih =>
      obtain ⟨hstep, hrest⟩ := List.isChain_cons_cons.mp h
      rcases List.mem_cons.mp hs with rfl | hs
      · exact .refl
      · exact (ih hrest hs).head hstep

/-- What holds of every step from a state that can be reached holds of every step of a run. -/
theorem isChain_of_steps (h : (start :: states).IsChain R)
    (hstep : ∀ s s', Relation.ReflTransGen R start s → R s s' → S s s') :
    (start :: states).IsChain S := by
  induction states generalizing start with
  | nil => exact List.isChain_singleton start
  | cons next states ih =>
      obtain ⟨hfirst, hrest⟩ := List.isChain_cons_cons.mp h
      refine List.isChain_cons_cons.mpr ⟨hstep start next .refl hfirst, ih hrest ?_⟩
      exact fun s s' hreach => hstep s s' (hreach.head hfirst)

end Runs

end Txn
