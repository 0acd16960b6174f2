/-
`Number(value)`.

Of a text it makes a number where JSON has none: there may be space around it, a plus sign,
leading zeros, a point with digits on one side only, or another base; and nothing at all
is zero.  What it makes no number of is `NaN`, which no check of a range lets through.
-/
import CommercePlatform.Js.Buffer
import CommercePlatform.Js.Literal

namespace CommercePlatform

namespace Js

namespace Number

/-- The space that does not count at either end of a text. -/
def isWhite (c : Char) : Bool :=
  c.toNat ∈ [0x09, 0x0A, 0x0B, 0x0C, 0x0D, 0x20, 0xA0, 0x1680, 0x2028, 0x2029, 0x202F, 0x205F,
    0x3000, 0xFEFF] || (0x2000 ≤ c.toNat && c.toNat ≤ 0x200A)

def trim (cs : List Char) : List Char :=
  ((cs.dropWhile isWhite).reverse.dropWhile isWhite).reverse

/-- The fraction, if a point comes first, and what is after it. -/
def readPoint : List Char → List Char × List Char
  | '.' :: cs => (cs.takeWhile Char.isDigit, cs.dropWhile Char.isDigit)
  | cs => ([], cs)

/-- A decimal without a sign, which is the whole text. -/
def readDecimal (cs : List Char) : Option ℚ :=
  let int := cs.takeWhile Char.isDigit
  let (frac, rest) := readPoint (cs.dropWhile Char.isDigit)
  if int = [] ∧ frac = [] then none
  else match readExponent rest with
    | some (e, []) => some (natural (int ++ frac) * 10 ^ (e - frac.length))
    | _ => none

/-- The base that is named after a zero. -/
def base (c : Char) : Option ℕ :=
  if c = 'x' ∨ c = 'X' then some 16
  else if c = 'o' ∨ c = 'O' then some 8
  else if c = 'b' ∨ c = 'B' then some 2
  else none

/-- Digits of a base, and at least one, which are the whole text. -/
def readBase (b : ℕ) (cs : List Char) : Option ℕ :=
  if cs = [] then none
  else cs.foldlM (fun n c => (Buffer.unhex c).bind fun d => if d < b then some (b * n + d) else none) 0

def ofSigned (cs : List Char) : Number :=
  let (negative, rest) := readSign cs
  if rest = "Infinity".toList then if negative then .negInf else .posInf
  else match readDecimal rest with
    | none => .nan
    | some q => ofDecimal (if negative then -q else q)

/-- `Number(text)`. -/
def ofText (text : String) : Number :=
  match trim text.toList with
  | [] => .finite 0
  | '0' :: c :: ds =>
      match base c with
      | none => ofSigned ('0' :: c :: ds)
      | some b =>
          match readBase b ds with
          | none => .nan
          | some n => ofDecimal n
  | cs => ofSigned cs

/-- `Number(value)`. -/
def ofJson : Json → Number
  | .null => .finite 0
  | .bool b => .finite (if b then 1 else 0)
  | .num n => n
  | value => ofText value.toString

@[simp] theorem ofJson_str (text : String) : ofJson (.str text) = ofText text := rfl

example : ["", " 0x1F\n", "+5.", "1e1", "-Infinity", "1_0", "."].map ofText =
    [.finite 0, .finite 31, .finite 5, .finite 10, .negInf, .nan, .nan] := by
  decide +kernel

end Number

end Js

end CommercePlatform
