/-
Identifiers as the server reads them.

A `UUID` is read from thirty-two hexadecimal digits in either case.  A hyphen may stand after
every second byte, and braces around the whole.  It is printed in one form only, with lower case
digits and four hyphens, so what is read is read again as it was printed.
-/
import CommercePlatform.Js.Buffer

namespace CommercePlatform

open Js

namespace Uuid

/-! ### Reading and printing -/

/-- A hyphen does not count after every second byte, if there are bytes left. -/
def skipHyphen (left : ℕ) : List Char → List Char
  | [] => []
  | c :: cs => if c = '-' ∧ left % 2 = 0 ∧ left ≠ 0 then cs else c :: cs

/-- So many bytes, and what is after them. -/
def readBytes : ℕ → List Char → Option (Bytes × List Char)
  | 0, cs => some ([], cs)
  | left + 1, a :: b :: cs =>
      match Buffer.unhex a, Buffer.unhex b with
      | some x, some y => (readBytes left (skipHyphen left cs)).map fun read =>
          (UInt8.ofNat (16 * x + y) :: read.1, read.2)
      | _, _ => none
  | _ + 1, _ => none

/-- A hyphen is printed after four, six, eight and ten of the sixteen bytes. -/
def hyphen (left : ℕ) : List Char := if left ∈ [12, 10, 8, 6] then ['-'] else []

def print : Bytes → List Char
  | [] => []
  | b :: rest => Nat.digitChar (b.toNat / 16) :: Nat.digitChar (b.toNat % 16) ::
      (hyphen rest.length ++ print rest)

/-- The `UUID` that a text is read as, in the form in which it is printed. -/
def read (text : String) : Option String :=
  match text.toList with
  | [] => none
  | c :: cs =>
      if c = '{' then
        match readBytes 16 cs with
        | some (bytes, ['}']) => some (String.ofList (print bytes))
        | _ => none
      else
        match readBytes 16 (c :: cs) with
        | some (bytes, []) => some (String.ofList (print bytes))
        | _ => none

example : read "\x7b8F3C6B1E-0c554f7e9a86-5b7f-2d1c-4e01\x7d" =
    some "8f3c6b1e-0c55-4f7e-9a86-5b7f2d1c4e01" := by
  decide +kernel

/-! ### What is printed is read -/

/-- The text does not go on with a hyphen. -/
def NoHyphen (cs : List Char) : Prop := ∀ c ∈ cs.head?, c ≠ '-'

theorem skipHyphen_of_noHyphen {cs : List Char} (h : NoHyphen cs) (left : ℕ) :
    skipHyphen left cs = cs := by
  cases cs with
  | nil => rfl
  | cons c cs =>
      have hne : c ≠ '-' := h c rfl
      simp [skipHyphen, hne]

theorem digitChar_ne_hyphen {n : ℕ} (h : n < 16) : Nat.digitChar n ≠ '-' := by
  intro heq
  have hread := Buffer.unhex_digitChar h
  rw [heq] at hread
  simp [Buffer.unhex] at hread

theorem noHyphen_print (bytes : Bytes) {rest : List Char} (h : NoHyphen rest) :
    NoHyphen (print bytes ++ rest) := by
  cases bytes with
  | nil => exact h
  | cons b bytes =>
      intro c hc
      obtain rfl := Option.some.inj hc
      have hb : b.toNat < 256 := b.toNat_lt
      exact digitChar_ne_hyphen (by omega)

/-- The hyphens that are printed are not read. -/
theorem skipHyphen_hyphen (left : ℕ) {cs : List Char} (h : NoHyphen cs) :
    skipHyphen left (hyphen left ++ cs) = cs := by
  unfold hyphen
  split
  · rename_i hmem
    have heven : left % 2 = 0 ∧ left ≠ 0 := by
      simp only [List.mem_cons, List.not_mem_nil, or_false] at hmem
      omega
    simp [skipHyphen, heven]
  · exact skipHyphen_of_noHyphen h left

theorem readBytes_print (bytes : Bytes) {rest : List Char} (h : NoHyphen rest) :
    readBytes bytes.length (print bytes ++ rest) = some (bytes, rest) := by
  induction bytes with
  | nil => rfl
  | cons b bytes ih =>
      have hb : b.toNat < 256 := b.toNat_lt
      have hhigh : Buffer.unhex (Nat.digitChar (b.toNat / 16)) = some (b.toNat / 16) :=
        Buffer.unhex_digitChar (by omega)
      have hlow : Buffer.unhex (Nat.digitChar (b.toNat % 16)) = some (b.toNat % 16) :=
        Buffer.unhex_digitChar (by omega)
      have hbyte : UInt8.ofNat (16 * (b.toNat / 16) + b.toNat % 16) = b := by
        rw [Nat.div_add_mod]
        exact UInt8.ofNat_toNat
      have hskip := skipHyphen_hyphen bytes.length (noHyphen_print bytes h)
      simp only [print, List.cons_append, List.length_cons, readBytes, hhigh, hlow,
        List.append_assoc, hskip, ih, hbyte, Option.map_some]

theorem length_readBytes {left : ℕ} {cs rest : List Char} {bytes : Bytes}
    (h : readBytes left cs = some (bytes, rest)) : bytes.length = left := by
  induction left generalizing cs bytes with
  | zero =>
      obtain ⟨rfl, -⟩ := Prod.mk.inj (Option.some.inj h)
      rfl
  | succ left ih =>
      match cs with
      | [] => simp [readBytes] at h
      | [_] => simp [readBytes] at h
      | a :: b :: cs =>
          simp only [readBytes] at h
          split at h
          · obtain ⟨read, hread, heq⟩ := Option.map_eq_some_iff.mp h
            obtain ⟨rfl, rfl⟩ := Prod.mk.inj heq
            rw [List.length_cons, ih hread]
          · simp at h

theorem read_print {bytes : Bytes} (h : bytes.length = 16) :
    read (String.ofList (print bytes)) = some (String.ofList (print bytes)) := by
  have hend : NoHyphen [] := by simp [NoHyphen]
  have hread := readBytes_print bytes hend
  rw [List.append_nil, h] at hread
  unfold read
  rw [String.toList_ofList]
  cases bytes with
  | nil => simp at h
  | cons b bytes =>
      have hb : b.toNat < 256 := b.toNat_lt
      have hne : Nat.digitChar (b.toNat / 16) ≠ '{' := by
        intro heq
        have hdigit := Buffer.unhex_digitChar (show b.toNat / 16 < 16 by omega)
        rw [heq] at hdigit
        simp [Buffer.unhex] at hdigit
      simp only [print, if_neg hne] at hread ⊢
      rw [hread]
      rfl

/-- **What is read is read again as it is.** -/
theorem read_of_read {text id : String} (h : read text = some id) : read id = some id := by
  have hprinted : ∃ bytes, bytes.length = 16 ∧ id = String.ofList (print bytes) := by
    unfold read at h
    split at h
    · simp at h
    · split at h
      · split at h
        · rename_i hbytes
          exact ⟨_, length_readBytes hbytes, (Option.some.inj h).symm⟩
        · simp at h
      · split at h
        · rename_i hbytes
          exact ⟨_, length_readBytes hbytes, (Option.some.inj h).symm⟩
        · simp at h
  obtain ⟨bytes, hlength, rfl⟩ := hprinted
  exact read_print hlength

end Uuid

end CommercePlatform
