/-
The header values that `fetch` sends.

A value loses the white space at its ends.  Of what is left no character may be a control or
above U+00FF: `fetch` raises for a character that is no byte, and the client that writes the
request raises for a control.  What is sent is read as it stands, and can be sent on.
-/
import Mathlib.Data.List.DropRight

namespace CommercePlatform.Js.Fetch

/-- The white space that is taken off. -/
def isWhiteSpace (c : Char) : Bool := c = '\t' || c = '\n' || c = '\r' || c = ' '

/-- A character that may be written: a tab, or one of Latin-1 that is no control. -/
def isWritten (c : Char) : Bool :=
  c = '\t' || 32 ≤ c.toNat && c.toNat ≤ 126 || 128 ≤ c.toNat && c.toNat ≤ 255

def strip (value : List Char) : List Char := (value.dropWhile isWhiteSpace).rdropWhile isWhiteSpace

/-- What the other side gets of a header value, or none if `fetch` raises. -/
def headerValue (value : String) : Option String :=
  if (strip value.toList).all isWritten then some (String.ofList (strip value.toList)) else none

/-- What is stripped has no white space at its ends. -/
theorem strip_strip (value : List Char) : strip (strip value) = strip value := by
  unfold strip
  have hfirst : ((value.dropWhile isWhiteSpace).rdropWhile isWhiteSpace).dropWhile isWhiteSpace =
      (value.dropWhile isWhiteSpace).rdropWhile isWhiteSpace := by
    obtain ⟨rest, hrest⟩ := List.rdropWhile_prefix isWhiteSpace (value.dropWhile isWhiteSpace)
    cases hstripped : (value.dropWhile isWhiteSpace).rdropWhile isWhiteSpace with
    | nil => rfl
    | cons c others =>
        -- The first character is still the one at which the dropping stopped.
        rw [hstripped, List.cons_append] at hrest
        have hstays := List.head?_dropWhile_not isWhiteSpace value
        rw [← hrest] at hstays
        exact List.dropWhile_cons_of_neg (by simpa using hstays)
  rw [hfirst, List.rdropWhile_idempotent]

/-- **What was sent is sent on unchanged.** -/
theorem headerValue_of_headerValue {value got : String} (h : headerValue value = some got) :
    headerValue got = some got := by
  obtain ⟨hwritten, hgot⟩ := (Option.ite_none_right_eq_some ..).mp h
  obtain rfl := Option.some.inj hgot
  unfold headerValue
  rw [String.toList_ofList, strip_strip, if_pos hwritten]

/-- A control that is no white space is not sent. -/
theorem not_mem_of_headerValue {value got : String} (h : headerValue value = some got) {c : Char}
    (hspace : isWhiteSpace c = false) (hwritten : isWritten c = false) : c ∉ value.toList := by
  intro hmem
  obtain ⟨hall, -⟩ := (Option.ite_none_right_eq_some ..).mp h
  have hkept : ∀ chars : List Char, c ∈ chars → c ∈ chars.dropWhile isWhiteSpace := by
    intro chars hc
    rw [← List.takeWhile_append_dropWhile (p := isWhiteSpace) (l := chars)] at hc
    rcases List.mem_append.mp hc with hdropped | hkept
    · rw [List.mem_takeWhile_imp hdropped] at hspace
      simp at hspace
    · exact hkept
  have hstripped : c ∈ strip value.toList := by
    unfold strip List.rdropWhile
    exact List.mem_reverse.mpr (hkept _ (List.mem_reverse.mpr (hkept _ hmem)))
  rw [List.all_eq_true.mp hall c hstripped] at hwritten
  simp at hwritten

example : headerValue "auth0|alice " = some "auth0|alice" := by decide

example : headerValue "auth0|Łucja" = none := by decide

end CommercePlatform.Js.Fetch
