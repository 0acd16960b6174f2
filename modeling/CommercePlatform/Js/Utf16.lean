/-
Strings, as the language has them.

A string is a sequence of code units, and a character beyond the first 65536 is two of them, a
pair of surrogates.  Nothing keeps a string from having a surrogate without its partner: a JSON
text may spell one, and `JSON.stringify` spells it again.  Elsewhere in this development a string
is a text, whose surrogates have their partners.
-/
import CommercePlatform.Js.Buffer
import CommercePlatform.Js.Value

namespace CommercePlatform

namespace Js

abbrev Utf16 := List UInt16

namespace Utf16

/-! ### Code units -/

/-- The code units of a character. -/
def ofChar (c : Char) : Utf16 :=
  if c.toNat < 0x10000 then [UInt16.ofNat c.toNat]
  else [UInt16.ofNat (0xD800 + (c.toNat - 0x10000) / 0x400),
    UInt16.ofNat (0xDC00 + (c.toNat - 0x10000) % 0x400)]

def ofText (text : List Char) : Utf16 := text.flatMap ofChar

def isHigh (u : UInt16) : Prop := 0xD800 ≤ u.toNat ∧ u.toNat ≤ 0xDBFF

def isLow (u : UInt16) : Prop := 0xDC00 ≤ u.toNat ∧ u.toNat ≤ 0xDFFF

instance (u : UInt16) : Decidable (isHigh u) := inferInstanceAs (Decidable (_ ∧ _))

instance (u : UInt16) : Decidable (isLow u) := inferInstanceAs (Decidable (_ ∧ _))

/-- The character of a pair of surrogates. -/
def pairChar (high low : UInt16) : Char :=
  Char.ofNat (0x10000 + (high.toNat - 0xD800) * 0x400 + (low.toNat - 0xDC00))

/-! ### Writing -/

/-- `\uXXXX`. -/
def unicodeEscape (u : UInt16) : List Char :=
  ['\\', 'u', Json.hexDigit (u.toNat / 4096), Json.hexDigit (u.toNat / 256),
    Json.hexDigit (u.toNat / 16), Json.hexDigit u.toNat]

/-- What `JSON.stringify` writes between the quotes. -/
def quoteBody : Utf16 → List Char
  | [] => []
  | [u] => if isHigh u ∨ isLow u then unicodeEscape u else Json.escape (Char.ofNat u.toNat)
  | u :: v :: rest =>
      if isHigh u ∧ isLow v then pairChar u v :: quoteBody rest
      else if isHigh u ∨ isLow u then unicodeEscape u ++ quoteBody (v :: rest)
      else Json.escape (Char.ofNat u.toNat) ++ quoteBody (v :: rest)

def quote (s : Utf16) : List Char := '"' :: quoteBody s ++ ['"']

/-! ### Reading -/

/-- What a backslash and a character stand for. -/
def simpleEscape (c : Char) : Option UInt16 :=
  if c = '"' then some 0x22
  else if c = '\\' then some 0x5C
  else if c = '/' then some 0x2F
  else if c = 'b' then some 8
  else if c = 'f' then some 12
  else if c = 'n' then some 10
  else if c = 'r' then some 13
  else if c = 't' then some 9
  else none

/-- The code unit of four hexadecimal digits. -/
def hexUnit (a b c d : Char) : Option UInt16 := do
  let a ← Buffer.unhex a
  let b ← Buffer.unhex b
  let c ← Buffer.unhex c
  let d ← Buffer.unhex d
  return UInt16.ofNat (a * 4096 + b * 256 + c * 16 + d)

/-- More of a string in front of what was read of it. -/
def prepend (units : Utf16) (read : Utf16 × List Char) : Utf16 × List Char :=
  (units ++ read.1, read.2)

/-- The string up to its closing quote, and what is after that. -/
def readString : List Char → Option (Utf16 × List Char)
  | [] => none
  | '"' :: cs => some ([], cs)
  | '\\' :: 'u' :: a :: b :: c :: d :: cs =>
      (hexUnit a b c d).bind fun u => (readString cs).map (prepend [u])
  | '\\' :: c :: cs => (simpleEscape c).bind fun u => (readString cs).map (prepend [u])
  | c :: cs =>
      if c = '\\' ∨ c.toNat < 32 then none else (readString cs).map (prepend (ofChar c))

/-! ### What is written is read -/

theorem toNat_ofNat {n : ℕ} (h : n < 0x10000) : (UInt16.ofNat n).toNat = n := by
  rw [UInt16.toNat_ofNat']
  omega

theorem toNat_charOfNat {n : ℕ} (h : n < 0xD800 ∨ 0xDFFF < n ∧ n < 0x110000) :
    (Char.ofNat n).toNat = n := by
  have hvalid : n.isValidChar := h
  unfold Char.ofNat
  rw [dif_pos hvalid]
  rfl

/-- A character that stands for itself. -/
theorem readString_plain {c : Char} (hquote : c ≠ '"') (hslash : c ≠ '\\') (hcontrol : 32 ≤ c.toNat)
    (cs : List Char) : readString (c :: cs) = (readString cs).map (prepend (ofChar c)) := by
  rw [readString]
  · rw [if_neg]
    rintro (h | h)
    · exact hslash h
    · omega
  · intro h
    exact hquote h
  · intro _ _ _ _ _ h
    exact absurd h hslash
  · intro _ _ h
    exact absurd h hslash

theorem readString_unit {a b c d : Char} {u : UInt16} (h : hexUnit a b c d = some u)
    (cs : List Char) :
    readString ('\\' :: 'u' :: a :: b :: c :: d :: cs) = (readString cs).map (prepend [u]) := by
  rw [readString, h]
  rfl

theorem hexUnit_hexDigit (n : ℕ) (h : n < 0x10000) :
    hexUnit (Json.hexDigit (n / 4096)) (Json.hexDigit (n / 256)) (Json.hexDigit (n / 16))
      (Json.hexDigit n) = some (UInt16.ofNat n) := by
  have hdigit : ∀ m, Buffer.unhex (Json.hexDigit m) = some (m % 16) := by
    intro m
    exact Buffer.unhex_digitChar (Nat.mod_lt _ (by omega))
  have hsum : n / 4096 % 16 * 4096 + n / 256 % 16 * 256 + n / 16 % 16 * 16 + n % 16 = n := by omega
  unfold hexUnit
  simp only [hdigit, Option.bind_eq_bind, Option.bind_some, hsum]
  rfl

theorem readString_unicodeEscape (u : UInt16) (cs : List Char) :
    readString (unicodeEscape u ++ cs) = (readString cs).map (prepend [u]) := by
  have hunit := hexUnit_hexDigit u.toNat u.toNat_lt
  rw [UInt16.ofNat_toNat] at hunit
  exact readString_unit hunit cs

theorem readString_simple {c : Char} {u : UInt16} (h : simpleEscape c = some u) (cs : List Char) :
    readString ('\\' :: c :: cs) = (readString cs).map (prepend [u]) := by
  rw [readString, h]
  · rfl
  · rintro _ _ _ _ _ rfl
    simp [simpleEscape] at h

theorem ofChar_of_toNat {c : Char} {n : ℕ} (hn : c.toNat = n) (hlt : n < 0x10000) :
    ofChar c = [UInt16.ofNat n] := by
  unfold ofChar
  rw [hn, if_pos hlt]

/-- A character that has an escape of its own. -/
theorem readString_short {c e : Char} {n : ℕ} (hn : c.toNat = n) (hlt : n < 0x10000)
    (h : simpleEscape e = some (UInt16.ofNat n)) (cs : List Char) :
    readString ('\\' :: e :: cs) = (readString cs).map (prepend (ofChar c)) := by
  rw [ofChar_of_toNat hn hlt]
  exact readString_simple h cs

/-- A character is read as its code units, however it is written. -/
theorem readString_escape (c : Char) (cs : List Char) :
    readString (Json.escape c ++ cs) = (readString cs).map (prepend (ofChar c)) := by
  unfold Json.escape
  split
  · rename_i hquote
    subst hquote
    exact readString_simple rfl cs
  split
  · rename_i hslash
    subst hslash
    exact readString_simple rfl cs
  split
  · rename_i hn
    exact readString_short hn (by omega) rfl cs
  split
  · rename_i hn
    exact readString_short hn (by omega) rfl cs
  split
  · rename_i hn
    exact readString_short hn (by omega) rfl cs
  split
  · rename_i hn
    exact readString_short hn (by omega) rfl cs
  split
  · rename_i hn
    exact readString_short hn (by omega) rfl cs
  split
  · rename_i hcontrol
    rw [ofChar_of_toNat rfl (by omega)]
    have hunit := hexUnit_hexDigit c.toNat (by omega)
    have hzero : c.toNat / 4096 = 0 ∧ c.toNat / 256 = 0 := by omega
    rw [hzero.1, hzero.2] at hunit
    exact readString_unit hunit cs
  · rename_i hquote hslash _ _ _ _ _ hcontrol
    exact readString_plain hquote hslash (by omega) cs

theorem ofChar_ofNat {u : UInt16} (h : ¬ (isHigh u ∨ isLow u)) :
    ofChar (Char.ofNat u.toNat) = [u] := by
  have hlt : u.toNat < 0x10000 := u.toNat_lt
  have hvalid : u.toNat < 0xD800 ∨ 0xDFFF < u.toNat ∧ u.toNat < 0x110000 := by
    unfold isHigh isLow at h
    omega
  unfold ofChar
  rw [toNat_charOfNat hvalid, if_pos hlt, UInt16.ofNat_toNat]

theorem toNat_pairChar {high low : UInt16} (hhigh : isHigh high) (hlow : isLow low) :
    (pairChar high low).toNat =
      0x10000 + (high.toNat - 0xD800) * 0x400 + (low.toNat - 0xDC00) := by
  unfold isHigh isLow at *
  apply toNat_charOfNat
  omega

/-- A pair of surrogates is the character that it is the pair of. -/
theorem ofChar_pairChar {high low : UInt16} (hhigh : isHigh high) (hlow : isLow low) :
    ofChar (pairChar high low) = [high, low] := by
  have hpair := toNat_pairChar hhigh hlow
  unfold isHigh isLow at *
  have hsum : 0xD800 + ((pairChar high low).toNat - 0x10000) / 0x400 = high.toNat ∧
      0xDC00 + ((pairChar high low).toNat - 0x10000) % 0x400 = low.toNat := by omega
  unfold ofChar
  rw [if_neg (by omega), hsum.1, hsum.2, UInt16.ofNat_toNat, UInt16.ofNat_toNat]

/-- **A string is read as it is written**, whatever its code units. -/
theorem readString_quoteBody (s : Utf16) (rest : List Char) :
    readString (quoteBody s ++ '"' :: rest) = some (s, rest) := by
  induction s using quoteBody.induct with
  | case1 => rfl
  | case2 u hsurrogate =>
      rw [quoteBody, if_pos hsurrogate, readString_unicodeEscape]
      rfl
  | case3 u hplain =>
      rw [quoteBody, if_neg hplain, readString_escape, ofChar_ofNat hplain]
      rfl
  | case4 u v tail hpair ih =>
      have hcode := toNat_pairChar hpair.1 hpair.2
      have hplain : pairChar u v ≠ '"' ∧ pairChar u v ≠ '\\' := by
        constructor
        · intro h
          rw [h] at hcode
          simp at hcode
          omega
        · intro h
          rw [h] at hcode
          simp at hcode
          omega
      rw [quoteBody, if_pos hpair, List.cons_append,
        readString_plain hplain.1 hplain.2 (by omega), ih, ofChar_pairChar hpair.1 hpair.2]
      rfl
  | case5 u v tail hpair hsurrogate ih =>
      rw [quoteBody, if_neg hpair, if_pos hsurrogate, List.append_assoc, readString_unicodeEscape,
        ih]
      rfl
  | case6 u v tail hpair hplain ih =>
      rw [quoteBody, if_neg hpair, if_neg hplain, List.append_assoc, readString_escape, ih,
        ofChar_ofNat hplain]
      rfl

/-! ### Texts -/

theorem ofChar_of_lt {c : Char} (h : c.toNat < 0x10000) :
    ∃ u, ofChar c = [u] ∧ ¬ (isHigh u ∨ isLow u) ∧ Char.ofNat u.toNat = c := by
  refine ⟨UInt16.ofNat c.toNat, if_pos h, ?_, ?_⟩
  · have hvalid : c.toNat < 0xD800 ∨ 0xDFFF < c.toNat ∧ c.toNat < 0x110000 := c.valid
    unfold isHigh isLow
    rw [toNat_ofNat h]
    omega
  · rw [toNat_ofNat h, Char.ofNat_toNat]

theorem ofChar_of_le {c : Char} (h : 0x10000 ≤ c.toNat) :
    ∃ high low, ofChar c = [high, low] ∧ isHigh high ∧ isLow low ∧ pairChar high low = c := by
  have hvalid : c.toNat < 0xD800 ∨ 0xDFFF < c.toNat ∧ c.toNat < 0x110000 := c.valid
  have hhigh := toNat_ofNat (n := 0xD800 + (c.toNat - 0x10000) / 0x400) (by omega)
  have hlow := toNat_ofNat (n := 0xDC00 + (c.toNat - 0x10000) % 0x400) (by omega)
  refine ⟨_, _, if_neg (by omega), ?_, ?_, ?_⟩
  · unfold isHigh
    omega
  · unfold isLow
    omega
  · unfold pairChar
    rw [hhigh, hlow]
    have hsum : 0x10000 + (0xD800 + (c.toNat - 0x10000) / 0x400 - 0xD800) * 0x400 +
        (0xDC00 + (c.toNat - 0x10000) % 0x400 - 0xDC00) = c.toNat := by omega
    rw [hsum, Char.ofNat_toNat]

/-- Of a text no surrogate is spelled. -/
theorem quoteBody_ofText (text : List Char) : quoteBody (ofText text) = text.flatMap Json.escape := by
  have hplain : ∀ {u : UInt16} (s : Utf16), ¬ (isHigh u ∨ isLow u) →
      quoteBody (u :: s) = Json.escape (Char.ofNat u.toNat) ++ quoteBody s := by
    intro u s hu
    cases s with
    | nil => simp [quoteBody, hu]
    | cons v s => rw [quoteBody, if_neg (fun h => hu (Or.inl h.1)), if_neg hu]
  induction text with
  | nil => rfl
  | cons c text ih =>
      show quoteBody (ofChar c ++ ofText text) = Json.escape c ++ text.flatMap Json.escape
      rcases Nat.lt_or_ge c.toNat 0x10000 with hlt | hge
      · obtain ⟨u, hu, hsurrogate, hc⟩ := ofChar_of_lt hlt
        rw [hu, List.singleton_append, hplain _ hsurrogate, hc, ih]
      · obtain ⟨high, low, hunits, hhigh, hlow, hc⟩ := ofChar_of_le hge
        have hescape : Json.escape c = [c] := by
          have hne : c ≠ '"' ∧ c ≠ '\\' := by
            constructor
            · rintro rfl
              simp at hge
            · rintro rfl
              simp at hge
          unfold Json.escape
          rw [if_neg hne.1, if_neg hne.2]
          simp only [show ¬ c.toNat = 8 by omega, show ¬ c.toNat = 9 by omega,
            show ¬ c.toNat = 10 by omega, show ¬ c.toNat = 12 by omega,
            show ¬ c.toNat = 13 by omega, show ¬ c.toNat < 32 by omega, if_false]
        rw [hunits, hescape]
        show quoteBody (high :: low :: ofText text) = _
        rw [quoteBody, if_pos ⟨hhigh, hlow⟩, hc, ih]
        rfl

end Utf16

end Js

end CommercePlatform
