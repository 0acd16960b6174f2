/-
`ORDER BY … LIMIT …`.

The server comes upon the rows in some order, sorts them and gives out the first ones.  So
a row is left out only if as many others as were asked for come before it, or are at least
not behind it.
-/
import Mathlib.Data.List.Sort

namespace CommercePlatform

section

variable {α : Type} (before : α → α → Prop) [DecidableRel before]

/-- The first rows in an order. -/
def firstRows (limit : ℕ) (rows : List α) : List α := (rows.insertionSort before).take limit

variable {before} {limit : ℕ} {rows : List α} {row : α}

theorem mem_of_mem_firstRows (h : row ∈ firstRows before limit rows) : row ∈ rows :=
  (List.mem_insertionSort before).mp (List.mem_of_mem_take h)

theorem length_firstRows : (firstRows before limit rows).length = min limit rows.length := by
  rw [firstRows, List.length_take, List.length_insertionSort]

theorem pairwise_firstRows [Std.Total before] [IsTrans α before] :
    (firstRows before limit rows).Pairwise before :=
  (List.pairwise_insertionSort before rows).take

/-- **Only a full list leaves a row out, and then for rows that it is not before.** -/
theorem mem_firstRows_or_full [Std.Total before] [IsTrans α before] (h : row ∈ rows) :
    row ∈ firstRows before limit rows ∨
      (firstRows before limit rows).length = limit ∧
        ∀ other ∈ firstRows before limit rows, before other row := by
  have hsorted : (rows.insertionSort before).Pairwise before :=
    List.pairwise_insertionSort before rows
  have hmem : row ∈ rows.insertionSort before := (List.mem_insertionSort before).mpr h
  rw [← List.take_append_drop limit (rows.insertionSort before)] at hsorted hmem
  rcases List.mem_append.mp hmem with htaken | hdropped
  · exact Or.inl htaken
  · refine Or.inr ⟨?_, fun other hother => ?_⟩
    · rw [firstRows, List.length_take]
      have hpos := List.length_pos_of_mem hdropped
      rw [List.length_drop] at hpos
      omega
    · exact (List.pairwise_append.mp hsorted).2.2 other hother row hdropped

end

end CommercePlatform
