/-
What a JavaScript value becomes in a database column.

The client library sends every parameter as text, or as `NULL`, and the server reads
the text by the column's type.  A column type here is the set of values it can hold,
so that a row cannot hold any other, and each has one function from a parameter to it
that raises what the server raises.

`Platform` is what the services take from outside the repository and what is not
spelled out here: upper-casing of arbitrary text, the digest, and how the server
reads text that is not a number or an identifier the services made themselves.
-/
import Mathlib.Data.Rat.Floor
import Mathlib.Data.Int.Order.Basic
import CommercePlatform.Js.Value

namespace CommercePlatform

open Js

/-- The functions of the runtime and the database server that the model leaves open. -/
class Platform where
  /-- `text.toUpperCase()`. -/
  toUpperCase : String → String
  /-- The hexadecimal SHA-256 digest of a text. -/
  sha256 : String → String
  /-- A digest has 64 digits. -/
  sha256_ne_empty : ∀ s, sha256 s ≠ ""
  /-- `Number(text)`. -/
  parseNumber : String → Number
  /-- The text of an array as a query parameter. -/
  arrayLiteral : List Json → String
  /-- The `UUID` a text is read as, in its canonical form. -/
  uuidIn : String → Option String
  /-- The integer a text that is not a printed number is read as. -/
  integerIn : String → Option ℤ
  /-- The `NUMERIC` a text that is not a printed number is read as. -/
  numericIn : String → Option Number

/-! ### A platform to run on

It does to plain ASCII texts what Node.js and PostgreSQL do; of identifiers it reads the
canonical form, and it knows the digests it is given.
-/

namespace Platform

/-- The number that a text of digits stands for. -/
def digitsIn (text : String) : Option ℕ :=
  let cs := text.toList
  if cs ≠ [] ∧ cs.all Char.isDigit then
    some (cs.foldl (fun n c => 10 * n + (c.toNat - '0'.toNat)) 0)
  else none

/-- Five groups of lower case hexadecimal digits. -/
def isCanonicalUuid (text : String) : Bool :=
  let cs := text.toList
  cs.length = 36 && cs.zipIdx.all fun (c, i) =>
    if i ∈ [8, 13, 18, 23] then c = '-' else c.isDigit || ('a' ≤ c && c ≤ 'f')

@[reducible] def ascii (digests : List (String × String))
    (hdigests : ∀ entry ∈ digests, entry.2 ≠ "") : Platform where
  toUpperCase text := String.ofList (text.toList.map Char.toUpper)
  sha256 text := (digests.lookup text).getD
    "0000000000000000000000000000000000000000000000000000000000000000"
  sha256_ne_empty text := by
    cases hdigest : digests.lookup text with
    | none => decide
    | some digest =>
        obtain ⟨before, after, rfl, -⟩ := List.lookup_eq_some_iff.mp hdigest
        exact hdigests (text, digest) (by simp)
  parseNumber text := match digitsIn text with
    | none => .nan
    | some n => .finite n
  arrayLiteral items := "\x7b" ++ ",".intercalate (Json.elements items) ++ "\x7d"
  uuidIn text := if isCanonicalUuid text then some text else none
  integerIn text := (digitsIn text).map Int.ofNat
  numericIn text := (digitsIn text).map fun n => .finite n

/-- On which all texts have one digest. -/
@[reducible] def plain : Platform := .ascii [] (by decide)

end Platform

/-! ### Column types -/

/-- `INTEGER`. -/
structure Int4 where
  val : ℤ
  lower : -2147483648 ≤ val
  upper : val ≤ 2147483647
  deriving DecidableEq, Repr

namespace Int4

@[ext] theorem ext {a b : Int4} (h : a.val = b.val) : a = b := by
  cases a
  cases b
  simp only at h
  subst h
  rfl

def ofNat (n : ℕ) (h : n ≤ 2147483647) : Int4 := ⟨n, by omega, by omega⟩

/-- The value of an integer expression, if it fits. -/
def ofInt (z : ℤ) : Except Error Int4 :=
  if h : -2147483648 ≤ z ∧ z ≤ 2147483647 then .ok ⟨z, h.1, h.2⟩
  else .error .integerOutOfRange

theorem ofInt_eq_ok {z : ℤ} {a : Int4} (h : ofInt z = .ok a) : a.val = z := by
  unfold ofInt at h
  split at h
  · rw [← Except.ok.inj h]
  · simp at h

theorem ofInt_of_fits {z : ℤ} (hl : -2147483648 ≤ z) (hu : z ≤ 2147483647) :
    ofInt z = .ok ⟨z, hl, hu⟩ := by
  simp [ofInt, hl, hu]

end Int4

/-- A value of `NUMERIC(12,2)`, in hundredths. -/
inductive Numeric12_2 where
  | nan
  | cents (c : ℤ) (fits : |c| < 1000000000000)
  deriving DecidableEq

namespace Numeric12_2

/-- Half away from zero, to two places. -/
def round (q : ℚ) : ℤ :=
  if 0 ≤ q then ⌊q * 100 + 1 / 2⌋ else -⌊-q * 100 + 1 / 2⌋

/-- A number as the column stores it, if it fits. -/
def ofNumber : Number → Except Error Numeric12_2
  | .nan => .ok .nan
  | .finite q =>
      if h : |round q| < 1000000000000 then .ok (.cents (round q) h)
      else .error .numericOverflow
  | _ => .error .numericOverflow

end Numeric12_2

/-! ### Parameters -/

variable [Platform]

/-- `Number(value)`. -/
def toNumber : Option Json → Number
  | none => .nan
  | some .null => .finite 0
  | some (.bool b) => .finite (if b then 1 else 0)
  | some (.num n) => n
  | some value => Platform.parseNumber value.toString

@[simp] theorem toNumber_num (n : Number) : toNumber (some (.num n)) = n := rfl

/-- The text of a parameter, or `NULL`. -/
def prepareValue : Option Json → Option String
  | none => none
  | some .null => none
  | some (.arr items) => some (Platform.arrayLiteral items)
  | some (.obj fields) => some (Json.obj fields).stringify
  | some value => some value.toString

@[simp] theorem prepareValue_none : prepareValue none = none := rfl

@[simp] theorem prepareValue_str (s : String) : prepareValue (some (.str s)) = some s := by
  simp [prepareValue, Json.toString]

/-- A text as the server takes it, which may hold any character but NUL. -/
def textIn (text : String) : Except Error String :=
  if '\x00' ∈ text.toList then .error .invalidByteSequence else .ok text

omit [Platform] in
theorem textIn_eq_ok {text s : String} (h : textIn text = .ok s) : s = text := by
  unfold textIn at h
  split at h
  · simp at h
  · exact (Except.ok.inj h).symm

/-- A parameter of type `TEXT`. -/
def textParam (value : Option Json) : Except Error (Option String) :=
  match prepareValue value with
  | none => .ok none
  | some text => (textIn text).map some

/-- A parameter of type `UUID`. -/
def uuidParam (value : Option Json) : Except Error (Option String) :=
  match prepareValue value with
  | none => .ok none
  | some text => do
      match Platform.uuidIn (← textIn text) with
      | none => .error (.invalidText "uuid")
      | some id => .ok (some id)

/--
The integer the text of a value is read as.  A number prints in plain digits only if
it is whole and below 10²¹.
-/
def integerText : Json → Option ℤ
  | .num (.finite q) => if q.den = 1 ∧ |q| < 10 ^ 21 then some q.num else none
  | .num _ => none
  | value => (prepareValue (some value)).bind Platform.integerIn

/-- A parameter of type `INTEGER`. -/
def int4Param (value : Option Json) : Except Error (Option Int4) :=
  match prepareValue value, value with
  | some text, some json => do
      let _ ← textIn text
      match integerText json with
      | none => .error (.invalidText "integer")
      | some z => (Int4.ofInt z).map some
  | _, _ => .ok none

/-- A whole number that fits is stored as it is. -/
theorem int4Param_int {z : ℤ} {a : Int4}
    (h : int4Param (some (.num (.finite z))) = .ok (some a)) : a.val = z := by
  obtain ⟨text, -, h⟩ := bind_eq_ok.mp h
  have hint : integerText (.num (.finite (z : ℚ))) = none ∨
      integerText (.num (.finite (z : ℚ))) = some z := by
    simp only [integerText]
    split
    · exact Or.inr (by simp)
    · exact Or.inl rfl
  rcases hint with hnone | hsome
  · simp [hnone] at h
  · rw [hsome] at h
    obtain ⟨a', ha', heq⟩ := map_eq_ok.mp h
    obtain rfl := Option.some.inj heq
    exact Int4.ofInt_eq_ok ha'

/-- The number the text of a value is read as. -/
def numericText : Json → Option Number
  | .num n => some n
  | value => (prepareValue (some value)).bind Platform.numericIn

/-- A parameter of type `NUMERIC(12,2)`. -/
def numericParam (value : Option Json) : Except Error (Option Numeric12_2) :=
  match prepareValue value, value with
  | some text, some json => do
      let _ ← textIn text
      match numericText json with
      | none => .error (.invalidText "numeric")
      | some n => (Numeric12_2.ofNumber n).map some
  | _, _ => .ok none

/-- A column that is `NOT NULL`. -/
def notNull {α : Type} (column : String) : Option α → Except Error α
  | none => .error (.notNull column)
  | some value => .ok value

omit [Platform] in
@[simp] theorem notNull_some {α : Type} (column : String) (value : α) :
    notNull column (some value) = .ok value := rfl

omit [Platform] in
theorem notNull_eq_ok {α : Type} {column : String} {value : Option α} {a : α}
    (h : notNull column value = .ok a) : value = some a := by
  cases value with
  | none => simp [notNull] at h
  | some b => rw [Except.ok.inj h]

/-! ### `JSONB`

`JSON.stringify(value)` read as `JSONB` and back.  Infinite numbers were written as
`null`, and a text with a NUL is refused.  The order of an object's keys, which
`JSONB` does not keep, makes no difference to any reader here.
-/

mutual

def jsonb : Json → Except Error Json
  | .null => .ok .null
  | .bool b => .ok (.bool b)
  | .num (.finite q) => .ok (.num (.finite q))
  | .num _ => .ok .null
  | .str s => (textIn s).map .str
  | .arr items => (jsonbItems items).map .arr
  | .obj fields => (jsonbFields fields).map .obj

def jsonbItems : List Json → Except Error (List Json)
  | [] => .ok []
  | item :: rest => do
      let item ← jsonb item
      let rest ← jsonbItems rest
      return item :: rest

def jsonbFields : List (String × Json) → Except Error (List (String × Json))
  | [] => .ok []
  | (key, value) :: rest => do
      let key ← textIn key
      let value ← jsonb value
      let rest ← jsonbFields rest
      return (key, value) :: rest

end

omit [Platform] in
/-- The keys of an object are kept. -/
theorem jsonbFields_keys {fields fields' : List (String × Json)} (h : jsonbFields fields = .ok fields') :
    fields'.map Prod.fst = fields.map Prod.fst := by
  induction fields generalizing fields' with
  | nil =>
      simp only [jsonbFields, Except.ok.injEq] at h
      subst h
      rfl
  | cons field rest ih =>
      obtain ⟨key, value⟩ := field
      obtain ⟨key', hkey, h⟩ := bind_eq_ok.mp h
      obtain ⟨value', -, h⟩ := bind_eq_ok.mp h
      obtain ⟨rest', hrest, h⟩ := bind_eq_ok.mp h
      obtain rfl := Except.ok.inj h
      simp [ih hrest, textIn_eq_ok hkey]

omit [Platform] in
/-- Each property is stored as it would be on its own. -/
theorem jsonbFields_lookup {fields fields' : List (String × Json)}
    (h : jsonbFields fields = .ok fields') {key : String} {value : Json}
    (hvalue : fields.lookup key = some value) :
    ∃ value', fields'.lookup key = some value' ∧ jsonb value = .ok value' := by
  induction fields generalizing fields' with
  | nil => simp at hvalue
  | cons field rest ih =>
      obtain ⟨name, first⟩ := field
      obtain ⟨name', hname, h⟩ := bind_eq_ok.mp h
      obtain ⟨first', hfirst, h⟩ := bind_eq_ok.mp h
      obtain ⟨rest', hrest, h⟩ := bind_eq_ok.mp h
      obtain rfl := Except.ok.inj h
      obtain rfl := textIn_eq_ok hname
      rw [List.lookup_cons] at hvalue ⊢
      split at hvalue
      · obtain rfl := Option.some.inj hvalue
        exact ⟨first', rfl, hfirst⟩
      · exact ih hrest hvalue

omit [Platform] in
/-- A text is stored as it is. -/
theorem jsonb_obj_text {fields : List (String × Json)} {payload : Json}
    (h : jsonb (.obj fields) = .ok payload) {key text : String}
    (htext : fields.lookup key = some (.str text)) : payload.get key = .ok (some (.str text)) := by
  obtain ⟨fields', hfields, rfl⟩ := map_eq_ok.mp h
  obtain ⟨value', hvalue, hstored⟩ := jsonbFields_lookup hfields htext
  obtain ⟨text', htext', rfl⟩ := map_eq_ok.mp hstored
  rw [Json.get_obj, hvalue, textIn_eq_ok htext']

end CommercePlatform
