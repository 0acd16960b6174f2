/-
Byte strings in `base64url`, without padding.

Three bytes are four digits of six bits each; one or two bytes at the end are two or three
digits, the last of which is filled up with zeros.  Two byte strings with the same digits
are thus the same.
-/
import CommercePlatform.Js.Buffer

namespace CommercePlatform

namespace Js

namespace Base64Url

/-! ### Digits -/

/-- The digit of a value below 64. -/
def digit (n : ℕ) : Char :=
  if n < 26 then Char.ofNat (65 + n)
  else if n < 52 then Char.ofNat (71 + n)
  else if n < 62 then Char.ofNat (n - 4)
  else if n = 62 then '-'
  else '_'

def value (c : Char) : Option ℕ :=
  if 'A' ≤ c ∧ c ≤ 'Z' then some (c.toNat - 65)
  else if 'a' ≤ c ∧ c ≤ 'z' then some (c.toNat - 71)
  else if '0' ≤ c ∧ c ≤ '9' then some (c.toNat + 4)
  else if c = '-' then some 62
  else if c = '_' then some 63
  else none

theorem value_digit {n : ℕ} (h : n < 64) : value (digit n) = some n := by
  interval_cases n <;> decide

/-! ### Writing and reading -/

def digits : Bytes → List Char
  | [] => []
  | [a] => [digit (a.toNat / 4), digit (a.toNat % 4 * 16)]
  | [a, b] => [digit (a.toNat / 4), digit (a.toNat % 4 * 16 + b.toNat / 16),
      digit (b.toNat % 16 * 4)]
  | a :: b :: c :: rest =>
      digit (a.toNat / 4) :: digit (a.toNat % 4 * 16 + b.toNat / 16) ::
        digit (b.toNat % 16 * 4 + c.toNat / 64) :: digit (c.toNat % 64) :: digits rest

/-- `digest("base64url")`. -/
def encode (bytes : Bytes) : String := String.ofList (digits bytes)

/-- The bytes of values of six bits. -/
def join : List ℕ → Bytes
  | w :: x :: y :: z :: rest =>
      UInt8.ofNat (w * 4 + x / 16) :: UInt8.ofNat (x % 16 * 16 + y / 4) ::
        UInt8.ofNat (y % 4 * 64 + z) :: join rest
  | [w, x, y] => [UInt8.ofNat (w * 4 + x / 16), UInt8.ofNat (x % 16 * 16 + y / 4)]
  | [w, x] => [UInt8.ofNat (w * 4 + x / 16)]
  | _ => []

def decode (text : String) : Option Bytes := (text.toList.mapM value).map join

theorem ofNat_eq {b : UInt8} {n : ℕ} (h : n = b.toNat) : UInt8.ofNat n = b := by
  rw [h]
  exact UInt8.ofNat_toNat

/-- The values of the digits. -/
def values : Bytes → List ℕ
  | [] => []
  | [a] => [a.toNat / 4, a.toNat % 4 * 16]
  | [a, b] => [a.toNat / 4, a.toNat % 4 * 16 + b.toNat / 16, b.toNat % 16 * 4]
  | a :: b :: c :: rest =>
      a.toNat / 4 :: (a.toNat % 4 * 16 + b.toNat / 16) :: (b.toNat % 16 * 4 + c.toNat / 64) ::
        c.toNat % 64 :: values rest

theorem digits_eq (bytes : Bytes) : digits bytes = (values bytes).map digit := by
  induction bytes using digits.induct with
  | case1 => rfl
  | case2 a => rfl
  | case3 a b => rfl
  | case4 a b c rest ih =>
      rw [digits, values, ih]
      rfl

theorem values_lt (bytes : Bytes) : ∀ n ∈ values bytes, n < 64 := by
  induction bytes using digits.induct with
  | case1 => simp [values]
  | case2 a =>
      have ha : a.toNat < 256 := a.toNat_lt
      intro n hn
      simp only [values, List.mem_cons, List.not_mem_nil, or_false] at hn
      omega
  | case3 a b =>
      have ha : a.toNat < 256 := a.toNat_lt
      have hb : b.toNat < 256 := b.toNat_lt
      intro n hn
      simp only [values, List.mem_cons, List.not_mem_nil, or_false] at hn
      omega
  | case4 a b c rest ih =>
      have ha : a.toNat < 256 := a.toNat_lt
      have hb : b.toNat < 256 := b.toNat_lt
      have hc : c.toNat < 256 := c.toNat_lt
      intro n hn
      simp only [values, List.mem_cons] at hn
      rcases hn with hn | hn | hn | hn | hn
      · omega
      · omega
      · omega
      · omega
      · exact ih n hn

theorem join_values (bytes : Bytes) : join (values bytes) = bytes := by
  induction bytes using digits.induct with
  | case1 => rfl
  | case2 a =>
      have ha : a.toNat < 256 := a.toNat_lt
      rw [values, join, ofNat_eq (b := a) (by omega)]
  | case3 a b =>
      have ha : a.toNat < 256 := a.toNat_lt
      have hb : b.toNat < 256 := b.toNat_lt
      rw [values, join, ofNat_eq (b := a) (by omega), ofNat_eq (b := b) (by omega)]
  | case4 a b c rest ih =>
      have ha : a.toNat < 256 := a.toNat_lt
      have hb : b.toNat < 256 := b.toNat_lt
      have hc : c.toNat < 256 := c.toNat_lt
      rw [values, join, ofNat_eq (b := a) (by omega), ofNat_eq (b := b) (by omega),
        ofNat_eq (b := c) (by omega), ih]

theorem mapM_value {ns : List ℕ} (h : ∀ n ∈ ns, n < 64) : (ns.map digit).mapM value = some ns := by
  induction ns with
  | nil => rfl
  | cons n ns ih =>
      rw [List.map_cons, List.mapM_cons, value_digit (h n List.mem_cons_self),
        ih fun m hm => h m (List.mem_cons_of_mem _ hm)]
      rfl

/-- **What was written is read.** -/
theorem decode_encode (bytes : Bytes) : decode (encode bytes) = some bytes := by
  rw [decode, encode, String.toList_ofList, digits_eq, mapM_value (values_lt bytes),
    Option.map_some, join_values]

theorem encode_injective : Function.Injective encode := by
  intro a b h
  have hread := decode_encode a
  rw [h, decode_encode] at hread
  exact (Option.some.inj hread).symm

end Base64Url

end Js

end CommercePlatform
