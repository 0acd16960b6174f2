/-
Byte strings, as `Buffer` reads and writes them.

Two encodings are needed.  `utf8` writes a text and reads any bytes at all: what is not the
encoding of a character becomes a replacement character, one for each longest piece that a
character could have begun with.  `hex` writes two lower case digits for a byte and reads as far
as it finds pairs of digits, in either case, without saying that it stopped.  This is how it is
documented; of a character above U+00FF the runtime looks at the low byte alone, and takes it for
a digit where that is one, which is left out here.

A text here is a sequence of characters, so a surrogate always has its partner.
-/
import Mathlib.Data.List.Basic
import Mathlib.Tactic.IntervalCases

namespace CommercePlatform

namespace Js

abbrev Bytes := List UInt8

namespace Buffer

/-! ### `utf8` -/

/-- `Buffer.from(text, "utf8")`. -/
def ofText (text : String) : Bytes := text.toList.flatMap String.utf8EncodeChar

/-- The character whose encoding comes first. -/
def firstChar (bytes : Bytes) : Option Char := bytes.toByteArray.utf8DecodeChar? 0

def continuation (b : UInt8) : Bool := 0x80 ≤ b ∧ b ≤ 0xBF

/-- Can `second` follow `lead` in the encoding of a character of three or four bytes? -/
def follows (lead second : UInt8) : Bool :=
  if lead = 0xE0 then 0xA0 ≤ second ∧ second ≤ 0xBF
  else if lead = 0xED then 0x80 ≤ second ∧ second ≤ 0x9F
  else if lead = 0xF0 then 0x90 ≤ second ∧ second ≤ 0xBF
  else if lead = 0xF4 then 0x80 ≤ second ∧ second ≤ 0x8F
  else (0xE0 ≤ lead ∧ lead ≤ 0xF4) ∧ continuation second

/-- How many bytes one replacement character stands for, where no character comes first. -/
def malformed : Bytes → ℕ
  | lead :: second :: rest =>
      if follows lead second then
        match rest with
        | third :: _ => if 0xF0 ≤ lead ∧ continuation third then 3 else 2
        | [] => 2
      else 1
  | _ => 1

/-- The characters of the bytes, at most `fuel` of them. -/
def chars : ℕ → Bytes → List Char
  | 0, _ => []
  | _ + 1, [] => []
  | fuel + 1, bytes =>
      match firstChar bytes with
      | some c => c :: chars fuel (bytes.drop c.utf8Size)
      | none => Char.ofNat 0xFFFD :: chars fuel (bytes.drop (malformed bytes))

/-- `buffer.toString("utf8")`. -/
def toText (bytes : Bytes) : String := String.ofList (chars bytes.length bytes)

theorem firstChar_encode (c : Char) (rest : Bytes) :
    firstChar (String.utf8EncodeChar c ++ rest) = some c := by
  have hsplit : (String.utf8EncodeChar c ++ rest).toByteArray
      = (String.utf8EncodeChar c).toByteArray ++ rest.toByteArray := by
    rw [List.toByteArray_append]
  rw [firstChar, hsplit]
  exact ByteArray.utf8DecodeChar?_utf8EncodeChar_append

/-- Enough fuel is one for each character. -/
theorem chars_encode (cs : List Char) :
    ∀ fuel, cs.length ≤ fuel → chars fuel (cs.flatMap String.utf8EncodeChar) = cs := by
  induction cs with
  | nil =>
      intro fuel _
      cases fuel <;> rfl
  | cons c rest ih =>
      intro fuel hfuel
      obtain ⟨fuel, rfl⟩ : ∃ less, fuel = less + 1 := ⟨fuel - 1, by simp at hfuel; omega⟩
      have hlength : (String.utf8EncodeChar c).length = c.utf8Size :=
        String.length_utf8EncodeChar c
      have hfirst := firstChar_encode c (rest.flatMap String.utf8EncodeChar)
      have hdrop : (String.utf8EncodeChar c ++ rest.flatMap String.utf8EncodeChar).drop c.utf8Size
          = rest.flatMap String.utf8EncodeChar := by
        rw [← hlength, List.drop_left]
      rw [List.flatMap_cons]
      obtain ⟨b, more, hbytes⟩ : ∃ b more,
          String.utf8EncodeChar c ++ rest.flatMap String.utf8EncodeChar = b :: more := by
        have hpos := c.utf8Size_pos
        cases hencoded : String.utf8EncodeChar c with
        | nil => simp [hencoded] at hlength; omega
        | cons b more => exact ⟨b, _, rfl⟩
      rw [hbytes] at hfirst hdrop ⊢
      have hread : chars (fuel + 1) (b :: more) = c :: chars fuel ((b :: more).drop c.utf8Size) := by
        simp [chars, hfirst]
      rw [hread, hdrop, ih fuel (by simpa using hfuel)]

theorem length_le_encode (cs : List Char) :
    cs.length ≤ (cs.flatMap String.utf8EncodeChar).length := by
  induction cs with
  | nil => simp
  | cons c rest ih =>
      have hlength : (String.utf8EncodeChar c).length = c.utf8Size :=
        String.length_utf8EncodeChar c
      have hpos := c.utf8Size_pos
      rw [List.flatMap_cons, List.length_append, List.length_cons]
      omega

/-- **What was written is read.** -/
theorem toText_ofText (text : String) : toText (ofText text) = text := by
  have hread : chars (ofText text).length (ofText text) = text.toList :=
    chars_encode text.toList _ (length_le_encode text.toList)
  rw [toText, hread, String.ofList_toList]

/-! ### `hex` -/

/-- `buffer.toString("hex")`. -/
def hexDigits : Bytes → List Char
  | [] => []
  | b :: rest => Nat.digitChar (b.toNat / 16) :: Nat.digitChar (b.toNat % 16) :: hexDigits rest

/-- The value of a digit, in either case. -/
def unhex (c : Char) : Option ℕ :=
  if '0' ≤ c ∧ c ≤ '9' then some (c.toNat - 48)
  else if 'a' ≤ c ∧ c ≤ 'f' then some (c.toNat - 87)
  else if 'A' ≤ c ∧ c ≤ 'F' then some (c.toNat - 55)
  else none

/-- `Buffer.from(text, "hex")`: it stops where no pair of digits follows. -/
def ofHexDigits : List Char → Bytes
  | a :: b :: rest =>
      match unhex a, unhex b with
      | some x, some y => UInt8.ofNat (16 * x + y) :: ofHexDigits rest
      | _, _ => []
  | _ => []

def toHex (bytes : Bytes) : String := String.ofList (hexDigits bytes)

def ofHex (text : String) : Bytes := ofHexDigits text.toList

theorem toNat_digitChar {n : ℕ} (h : n < 16) :
    (Nat.digitChar n).toNat = if n < 10 then 48 + n else 87 + n := by
  interval_cases n <;> rfl

theorem unhex_digitChar {n : ℕ} (h : n < 16) : unhex (Nat.digitChar n) = some n := by
  interval_cases n <;> decide

theorem ofHexDigits_hexDigits_append (bytes : Bytes) (rest : List Char) :
    ofHexDigits (hexDigits bytes ++ rest) = bytes ++ ofHexDigits rest := by
  induction bytes with
  | nil => rfl
  | cons b bytes ih =>
      have hb : b.toNat < 256 := b.toNat_lt
      have hhigh : unhex (Nat.digitChar (b.toNat / 16)) = some (b.toNat / 16) :=
        unhex_digitChar (by omega)
      have hlow : unhex (Nat.digitChar (b.toNat % 16)) = some (b.toNat % 16) :=
        unhex_digitChar (by omega)
      have hbyte : UInt8.ofNat (16 * (b.toNat / 16) + b.toNat % 16) = b := by
        rw [Nat.div_add_mod]
        exact UInt8.ofNat_toNat
      simp [hexDigits, ofHexDigits, hhigh, hlow, hbyte, ih]

/-- **What was written is read.** -/
theorem ofHex_toHex (bytes : Bytes) : ofHex (toHex bytes) = bytes := by
  have hread := ofHexDigits_hexDigits_append bytes []
  simpa [ofHex, toHex, ofHexDigits] using hread

theorem unhex_eq (c : Char) : unhex c =
    if 48 ≤ c.toNat ∧ c.toNat ≤ 57 then some (c.toNat - 48)
    else if 97 ≤ c.toNat ∧ c.toNat ≤ 102 then some (c.toNat - 87)
    else if 65 ≤ c.toNat ∧ c.toNat ≤ 70 then some (c.toNat - 55)
    else none := rfl

theorem toNat_toLower (c : Char) :
    c.toLower.toNat = if 65 ≤ c.toNat ∧ c.toNat ≤ 90 then c.toNat + 32 else c.toNat := by
  have hrange : (c.val ≥ 'A'.val ∧ c.val ≤ 'Z'.val) ↔ (65 ≤ c.toNat ∧ c.toNat ≤ 90) := Iff.rfl
  unfold Char.toLower
  by_cases hupper : c.val ≥ 'A'.val ∧ c.val ≤ 'Z'.val
  · have hnat := hrange.mp hupper
    rw [dif_pos hupper, if_pos hnat]
    show (c.val + ('a'.val - 'A'.val)).toNat = c.toNat + 32
    rw [UInt32.toNat_add]
    show (c.toNat + 32) % 2 ^ 32 = c.toNat + 32
    omega
  · rw [dif_neg hupper, if_neg (fun hnat => hupper (hrange.mpr hnat))]

theorem unhex_toLower (c : Char) : unhex c.toLower = unhex c := by
  rw [unhex_eq, unhex_eq, toNat_toLower]
  by_cases hupper : 65 ≤ c.toNat ∧ c.toNat ≤ 90
  · rw [if_pos hupper]
    grind
  · rw [if_neg hupper]

theorem digit_of_unhex {c : Char} {n : ℕ} (h : unhex c = some n) :
    n < 16 ∧ c.toLower = Nat.digitChar n := by
  rw [unhex_eq] at h
  have hn : n < 16 := by grind
  refine ⟨hn, ?_⟩
  apply Char.toNat_inj.mp
  rw [toNat_toLower, toNat_digitChar hn]
  grind

theorem unhex_of_toLower {c : Char} {n : ℕ} (h : n < 16) (hc : c.toLower = Nat.digitChar n) :
    unhex c = some n := by
  rw [← unhex_toLower, hc, unhex_digitChar h]

/-- Digits are read as the bytes that they are the digits of, in either case. -/
theorem ofHexDigits_append_of_lower {digits : List Char} {bytes : Bytes}
    (h : digits.map Char.toLower = hexDigits bytes) (rest : List Char) :
    ofHexDigits (digits ++ rest) = bytes ++ ofHexDigits rest := by
  induction bytes generalizing digits with
  | nil =>
      have hnone : digits = [] := List.map_eq_nil_iff.mp h
      rw [hnone]
      rfl
  | cons byte bytes ih =>
      obtain ⟨a, others, rfl, ha, hothers⟩ := List.map_eq_cons_iff.mp h
      obtain ⟨b, digits, rfl, hb, hdigits⟩ := List.map_eq_cons_iff.mp hothers
      have hsize : byte.toNat < 256 := byte.toNat_lt
      have hbyte : UInt8.ofNat (16 * (byte.toNat / 16) + byte.toNat % 16) = byte := by
        rw [Nat.div_add_mod]
        exact UInt8.ofNat_toNat
      have hhigh := unhex_of_toLower (by omega) ha
      have hlow := unhex_of_toLower (by omega) hb
      simp [ofHexDigits, hhigh, hlow, hbyte, ih hdigits]

/-- No pair of digits comes first. -/
def Stops (text : List Char) : Prop :=
  ∀ a b rest, text = a :: b :: rest → unhex a = none ∨ unhex b = none

/-- The digits of the bytes come first, in either case, and no pair of digits follows. -/
def Spells (text : List Char) (bytes : Bytes) : Prop :=
  ∃ digits rest, text = digits ++ rest ∧ digits.map Char.toLower = hexDigits bytes ∧ Stops rest

theorem Stops.ofHexDigits_eq {text : List Char} (h : Stops text) : ofHexDigits text = [] := by
  unfold ofHexDigits
  split
  · rename_i a b rest
    rcases h a b rest rfl with ha | hb
    · simp [ha]
    · simp [hb]
  · rfl

theorem spells_ofHexDigits (text : List Char) : Spells text (ofHexDigits text) := by
  induction text using ofHexDigits.induct with
  | case1 a b rest x y hb ha ih =>
      obtain ⟨digits, junk, hrest, hdigits, hjunk⟩ := ih
      obtain ⟨hx, hlower⟩ := digit_of_unhex ha
      obtain ⟨hy, hlower'⟩ := digit_of_unhex hb
      have hread : ofHexDigits (a :: b :: rest)
          = UInt8.ofNat (16 * x + y) :: ofHexDigits rest := by
        simp [ofHexDigits, ha, hb]
      have hsize : (UInt8.ofNat (16 * x + y)).toNat = 16 * x + y := by
        rw [UInt8.toNat_ofNat']
        omega
      have hhigh : (16 * x + y) / 16 = x := by omega
      have hlow : (16 * x + y) % 16 = y := by omega
      refine ⟨a :: b :: digits, junk, by rw [hrest]; rfl, ?_, hjunk⟩
      rw [hread, hexDigits, hsize, hhigh, hlow, ← hlower, ← hlower', ← hdigits]
      rfl
  | case2 a b rest hnone =>
      have hstops : Stops (a :: b :: rest) := by
        rintro a' b' rest' ⟨⟩
        cases hb : unhex b with
        | none => exact Or.inr rfl
        | some y =>
            refine Or.inl (Option.eq_none_iff_forall_ne_some.mpr fun x ha => ?_)
            exact hnone x y ha hb
      exact ⟨[], a :: b :: rest, rfl, by rw [hstops.ofHexDigits_eq]; rfl, hstops⟩
  | case3 text hshort =>
      have hstops : Stops text := fun a b rest htext => (hshort a b rest htext).elim
      exact ⟨[], text, rfl, by rw [hstops.ofHexDigits_eq]; rfl, hstops⟩

/-- **The bytes that are read are those that the text spells.** -/
theorem spells_iff {text : List Char} {bytes : Bytes} :
    Spells text bytes ↔ ofHexDigits text = bytes := by
  constructor
  · rintro ⟨digits, rest, rfl, hdigits, hstops⟩
    rw [ofHexDigits_append_of_lower hdigits, hstops.ofHexDigits_eq, List.append_nil]
  · rintro rfl
    exact spells_ofHexDigits text

/-- What is no digit is in no encoding. -/
theorem notMem_hexDigits {c : Char} (hc : ∀ n, n < 16 → c ≠ Nat.digitChar n) (bytes : Bytes) :
    c ∉ hexDigits bytes := by
  induction bytes with
  | nil => simp [hexDigits]
  | cons b bytes ih =>
      have hsize : b.toNat < 256 := b.toNat_lt
      simp [hexDigits, ih, hc (b.toNat / 16) (by omega), hc (b.toNat % 16) (by omega)]

theorem dot_notMem_hexDigits (bytes : Bytes) : '.' ∉ hexDigits bytes := by
  apply notMem_hexDigits
  intro n hn
  interval_cases n <;> decide

theorem nul_notMem_hexDigits (bytes : Bytes) : '\x00' ∉ hexDigits bytes := by
  apply notMem_hexDigits
  intro n hn
  interval_cases n <;> decide

end Buffer

end Js

end CommercePlatform
