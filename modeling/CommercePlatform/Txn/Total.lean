/-
Totals over the rows of a store.

A total adds up one number for each row.  A write changes it by the difference at the
one key; and where the rows that count are indexed by something else, such as the
order they belong to, the total is the sum over that index.
-/
import Mathlib.Algebra.BigOperators.Group.Finset.Piecewise
import Mathlib.Algebra.Order.BigOperators.Group.Finset
import CommercePlatform.Txn.Program

namespace Txn

open scoped BigOperators

variable {κ : Type} [DecidableEq κ] {ν : κ → Type}

/-- What the key counts for: the weight of its row, or nothing. -/
def weigh (w : (k : κ) → ν k → ℤ) (db : Store ν) (k : κ) : ℤ :=
  match db.lookup k with
  | none => 0
  | some row => w k row

/-- The weight of all rows. -/
def total (w : (k : κ) → ν k → ℤ) (db : Store ν) : ℤ := ∑ k ∈ db.keys, weigh w db k

variable {w : (k : κ) → ν k → ℤ} {db db' : Store ν}

theorem weigh_of_lookup {k : κ} {row : ν k} (h : db.lookup k = some row) :
    weigh w db k = w k row := by
  simp [weigh, h]

theorem weigh_of_none {k : κ} (h : db.lookup k = none) : weigh w db k = 0 := by
  simp [weigh, h]

/-- A key all of whose rows weigh nothing. -/
theorem weigh_eq_zero {k : κ} (h : ∀ row, w k row = 0) : weigh w db k = 0 := by
  unfold weigh
  split
  · rfl
  · exact h _

/-- Keys without a row may be counted too. -/
theorem total_eq_sum (S : Finset κ) (hS : ∀ k ∈ db, k ∈ S) :
    total w db = ∑ k ∈ S, weigh w db k := by
  refine Finset.sum_subset (fun k hk => hS k (Finmap.mem_keys.mp hk)) fun k _ hk => ?_
  exact weigh_of_none (Finmap.lookup_eq_none.mpr fun hmem => hk (Finmap.mem_keys.mpr hmem))

theorem weigh_insert (k : κ) (row : ν k) :
    weigh w (db.insert k row) = Function.update (weigh w db) k (w k row) := by
  funext k'
  by_cases hk : k' = k
  · subst hk
    simp [weigh]
  · simp [weigh, Finmap.lookup_insert_of_ne _ hk, Function.update_of_ne hk]

/-- A write changes the total by the difference it makes at its key. -/
theorem total_insert (k : κ) (row : ν k) :
    total w (db.insert k row) = total w db - weigh w db k + w k row := by
  have hnew : total w (db.insert k row) =
      ∑ k' ∈ insert k db.keys, Function.update (weigh w db) k (w k row) k' := by
    rw [total_eq_sum (insert k db.keys), weigh_insert]
    intro k' hk'
    rcases Finmap.mem_insert.mp hk' with heq | hmem
    · exact Finset.mem_insert.mpr (Or.inl heq)
    · exact Finset.mem_insert.mpr (Or.inr (Finmap.mem_keys.mpr hmem))
  have hold : total w db = ∑ k' ∈ insert k db.keys, weigh w db k' :=
    total_eq_sum _ fun k' hk' => Finset.mem_insert.mpr (Or.inr (Finmap.mem_keys.mpr hk'))
  have hmem : k ∈ insert k db.keys := Finset.mem_insert_self k db.keys
  have hsplit := Finset.sum_eq_add_sum_sdiff_singleton_of_mem hmem (weigh w db)
  rw [hnew, hold, Finset.sum_update_of_mem hmem, hsplit]
  omega

theorem weigh_nonneg (h : ∀ k row, db.lookup k = some row → 0 ≤ w k row) (k : κ) :
    0 ≤ weigh w db k := by
  cases hrow : db.lookup k with
  | none => rw [weigh_of_none hrow]
  | some row =>
      rw [weigh_of_lookup hrow]
      exact h k row hrow

theorem total_nonneg (h : ∀ k row, db.lookup k = some row → 0 ≤ w k row) : 0 ≤ total w db :=
  Finset.sum_nonneg fun k _ => weigh_nonneg h k

/-- No row weighs more than all of them. -/
theorem weigh_le_total (h : ∀ k row, db.lookup k = some row → 0 ≤ w k row) (k : κ) :
    weigh w db k ≤ total w db := by
  by_cases hk : k ∈ db
  · exact Finset.single_le_sum (fun k' _ => weigh_nonneg h k') (Finmap.mem_keys.mpr hk)
  · rw [weigh_of_none (Finmap.lookup_eq_none.mpr hk)]
    exact total_nonneg h

/-- Where the keys that count are those of an index set, the total is a sum over it. -/
theorem total_reindex {α : Type} {f : α → κ} (hf : Function.Injective f) {S : Finset α}
    (hS : ∀ k, weigh w db k ≠ 0 → ∃ a ∈ S, f a = k) :
    total w db = ∑ a ∈ S, weigh w db (f a) := by
  have himage : ∑ a ∈ S, weigh w db (f a) = ∑ k ∈ S.image f, weigh w db k :=
    (Finset.sum_image fun a _ b _ hab => hf hab).symm
  have hunion : ∑ k ∈ S.image f, weigh w db k = ∑ k ∈ db.keys ∪ S.image f, weigh w db k := by
    refine Finset.sum_subset Finset.subset_union_right fun k _ hk => ?_
    by_contra hne
    obtain ⟨a, ha, rfl⟩ := hS k hne
    exact hk (Finset.mem_image_of_mem f ha)
  rw [himage, hunion]
  exact total_eq_sum _ fun k hk => Finset.mem_union_left _ (Finmap.mem_keys.mpr hk)

end Txn
