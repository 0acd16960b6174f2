/-
The JavaScript values that pass through the services.

Request bodies and event payloads are arbitrary JSON: whatever a client or another
service sent is what `JSON.parse` makes of it, and the code reads properties of it
without looking first.  So reading a property is a function on all values here, with
`none` for `undefined` and an error for a property of `null`.

A finite number is the decimal value it prints as.  Two numbers are equal, and in
order, exactly when their decimals are, and the decimal is what the database and the
other services get to see.
-/
import Mathlib.Data.Rat.Floor

namespace CommercePlatform

/-- What a call or a statement can raise. -/
inductive Error where
  /-- `throw new Error(message)`. -/
  | thrown (message : String)
  /-- A property of `null`. -/
  | typeError (property : String)
  | notNull (column : String)
  | unique (constraint : String)
  | foreignKey (constraint : String)
  | integerOutOfRange
  | numericOverflow
  | timestampOutOfRange
  /-- A text that is not of the form its column's type asks for. -/
  | invalidText (type : String)
  /-- A text with a NUL in it. -/
  | invalidByteSequence
  deriving DecidableEq, Repr

/-- A computation in two parts is done when both are. -/
theorem bind_eq_ok {ε α β : Type} {x : Except ε α} {f : α → Except ε β} {b : β} :
    (x >>= f) = .ok b ↔ ∃ a, x = .ok a ∧ f a = .ok b := by
  cases x with
  | error e => simp [bind, Except.bind]
  | ok a => simp [bind, Except.bind]

theorem map_eq_ok {ε α β : Type} {x : Except ε α} {f : α → β} {b : β} :
    x.map f = .ok b ↔ ∃ a, x = .ok a ∧ f a = b := by
  cases x with
  | error e => simp [Except.map]
  | ok a => simp [Except.map]

namespace Js

/-- A number. -/
inductive Number where
  | nan
  | negInf
  | posInf
  | finite (q : ℚ)
  deriving DecidableEq, Repr

namespace Number

/-- `<`, which is false on `NaN`. -/
def lt : Number → Number → Bool
  | finite a, finite b => a < b
  | negInf, finite _ => true
  | negInf, posInf => true
  | finite _, posInf => true
  | _, _ => false

/-- `<=`, which is false on `NaN`. -/
def le : Number → Number → Bool
  | finite a, finite b => a ≤ b
  | negInf, finite _ => true
  | negInf, negInf => true
  | negInf, posInf => true
  | finite _, posInf => true
  | posInf, posInf => true
  | _, _ => false

/-- `Number.isInteger`. -/
def isInteger : Number → Bool
  | finite q => q.den = 1
  | _ => false

/-- How many digits there are after the point, looking `fuel` places far. -/
def places (q : ℚ) : ℕ → ℕ → ℕ
  | 0, e => e
  | fuel + 1, e => if (q * 10 ^ e).den = 1 then e else places q fuel (e + 1)

/-- The digits of a number below its sign, and how many of them stand after the point. -/
def digits (q : ℚ) : List Char × ℕ :=
  let e := places q (Nat.log2 q.den + 1) 0
  (Nat.toDigits 10 (q * 10 ^ e).num.natAbs, e)

/-- The exponent form, for very large and very small numbers. -/
def exponential (ds : List Char) (n : ℤ) : List Char :=
  let significant := (ds.reverse.dropWhile (· = '0')).reverse
  let mantissa := match significant with
    | [] => []
    | [d] => [d]
    | d :: rest => d :: '.' :: rest
  let sign := if n - 1 < 0 then ['-'] else ['+']
  mantissa ++ 'e' :: sign ++ Nat.toDigits 10 (n - 1).natAbs

/-- A positive number with these digits, `e` of them after the point. -/
def decimal (ds : List Char) (e : ℕ) : List Char :=
  let n : ℤ := ds.length - e
  if n > 21 ∨ n ≤ -6 then exponential ds n
  else if e = 0 then ds
  else if 0 < n then ds.take n.toNat ++ '.' :: ds.drop n.toNat
  else '0' :: '.' :: List.replicate (-n).toNat '0' ++ ds

/-- `String(x)`. -/
def toString : Number → String
  | nan => "NaN"
  | negInf => "-Infinity"
  | posInf => "Infinity"
  | finite q =>
      let text := decimal (digits q).1 (digits q).2
      String.ofList (if q < 0 then '-' :: text else text)

@[simp] theorem lt_finite (a b : ℚ) : (finite a).lt (finite b) = decide (a < b) := rfl

@[simp] theorem le_finite (a b : ℚ) : (finite a).le (finite b) = decide (a ≤ b) := rfl

end Number

/-- A value without functions, which is all that JSON carries. -/
inductive Json where
  | null
  | bool (b : Bool)
  | num (n : Number)
  | str (s : String)
  | arr (items : List Json)
  | obj (fields : List (String × Json))
  deriving Repr, Inhabited

/-- An object under construction; a property may be `undefined`. -/
abbrev Fields := List (String × Option Json)

namespace Fields

/-- `{ ...fields, [key]: value }`. -/
def set (fields : Fields) (key : String) (value : Option Json) : Fields :=
  if key ∈ fields.map Prod.fst then
    fields.map fun field => if field.1 = key then (key, value) else field
  else fields ++ [(key, value)]

/-- `{ ...fields, ...more }`. -/
def spread (fields more : Fields) : Fields :=
  more.foldl (fun acc field => acc.set field.1 field.2) fields

/-- The object without its `undefined` properties, which `JSON.stringify` leaves out. -/
def defined (fields : Fields) : List (String × Json) :=
  fields.filterMap fun field => field.2.map fun value => (field.1, value)

theorem spread_of_nodup {fields more : Fields}
    (hnew : ∀ field ∈ more, field.1 ∉ fields.map Prod.fst) (hnodup : (more.map Prod.fst).Nodup) :
    fields.spread more = fields ++ more := by
  induction more generalizing fields with
  | nil => simp [spread]
  | cons field rest ih =>
      have hset : fields.set field.1 field.2 = fields ++ [field] := by
        simp [set, hnew field (by simp)]
      have hrest : ∀ field' ∈ rest, field'.1 ∉ (fields ++ [field]).map Prod.fst := by
        intro field' hmem hin
        rw [List.map_append, List.mem_append] at hin
        rcases hin with hold | hsame
        · exact hnew field' (by simp [hmem]) hold
        · have hnotin : field.1 ∉ rest.map Prod.fst := (List.nodup_cons.mp hnodup).1
          have heq : field'.1 = field.1 := by simpa using hsame
          exact hnotin (heq ▸ List.mem_map_of_mem hmem)
      have hstep : fields.spread (field :: rest) = (fields.set field.1 field.2).spread rest := rfl
      rw [hstep, hset, ih hrest (List.nodup_cons.mp hnodup).2, List.append_assoc]
      rfl

end Fields

namespace Json

mutual

/-- Are two values the same? -/
def same : Json → Json → Bool
  | null, null => true
  | bool a, bool b => a = b
  | num a, num b => a = b
  | str a, str b => a = b
  | arr a, arr b => sameItems a b
  | obj a, obj b => sameFields a b
  | _, _ => false

def sameItems : List Json → List Json → Bool
  | [], [] => true
  | a :: as, b :: bs => same a b && sameItems as bs
  | _, _ => false

def sameFields : List (String × Json) → List (String × Json) → Bool
  | [], [] => true
  | (k, a) :: as, (l, b) :: bs => k = l && same a b && sameFields as bs
  | _, _ => false

end

mutual

theorem same_iff (a b : Json) : same a b = true ↔ a = b := by
  cases a <;> cases b <;> simp [same, sameItems_iff, sameFields_iff]

theorem sameItems_iff (as bs : List Json) : sameItems as bs = true ↔ as = bs := by
  cases as with
  | nil => cases bs <;> simp [sameItems]
  | cons a as => cases bs with
    | nil => simp [sameItems]
    | cons b bs => simp [sameItems, same_iff a b, sameItems_iff as bs]

theorem sameFields_iff (as bs : List (String × Json)) : sameFields as bs = true ↔ as = bs := by
  cases as with
  | nil => cases bs <;> simp [sameFields]
  | cons a as => cases bs with
    | nil => simp [sameFields]
    | cons b bs =>
      obtain ⟨k, a⟩ := a
      obtain ⟨l, b⟩ := b
      simp [sameFields, same_iff a b, sameFields_iff as bs, and_assoc]

end

instance : DecidableEq Json := fun a b => decidable_of_iff _ (same_iff a b)

/-- `value.property`. -/
def get (value : Json) (property : String) : Except Error (Option Json) :=
  match value with
  | null => .error (.typeError property)
  | obj fields => .ok (fields.lookup property)
  | _ => .ok none

@[simp] theorem get_obj (fields : List (String × Json)) (property : String) :
    (obj fields).get property = .ok (fields.lookup property) := rfl

mutual

/-- `String(value)`. -/
def toString : Json → String
  | null => "null"
  | bool b => if b then "true" else "false"
  | num n => n.toString
  | str s => s
  | arr items => ",".intercalate (elements items)
  | obj _ => "[object Object]"

/-- The elements of an array as `join` writes them: `null` as nothing. -/
def elements : List Json → List String
  | [] => []
  | null :: rest => "" :: elements rest
  | item :: rest => toString item :: elements rest

end

/-- `Boolean(value)`. -/
def truthy : Json → Bool
  | null => false
  | bool b => b
  | num n => n ≠ .finite 0 ∧ n ≠ .nan
  | str s => s ≠ ""
  | arr _ => true
  | obj _ => true

@[simp] theorem truthy_str (s : String) : (str s).truthy = decide (s ≠ "") := rfl

/-! ### `JSON.stringify` -/

/-- The lower case digit of a hexadecimal place. -/
def hexDigit (n : ℕ) : Char := Nat.digitChar (n % 16)

/-- One character of a quoted string. -/
def escape (c : Char) : List Char :=
  if c = '"' then ['\\', '"']
  else if c = '\\' then ['\\', '\\']
  else if c.toNat = 8 then ['\\', 'b']
  else if c.toNat = 9 then ['\\', 't']
  else if c.toNat = 10 then ['\\', 'n']
  else if c.toNat = 12 then ['\\', 'f']
  else if c.toNat = 13 then ['\\', 'r']
  else if c.toNat < 32 then
    ['\\', 'u', '0', '0', hexDigit (c.toNat / 16), hexDigit c.toNat]
  else [c]

def quote (s : String) : String :=
  String.ofList ('"' :: s.toList.flatMap escape ++ ['"'])

/-- A number that JSON has no form for is written as `null`. -/
def stringifyNumber : Number → String
  | .finite q => (Number.finite q).toString
  | _ => "null"

mutual

/-- `JSON.stringify(value)`. -/
def stringify : Json → String
  | null => "null"
  | bool b => if b then "true" else "false"
  | num n => stringifyNumber n
  | str s => quote s
  | arr items => "[" ++ ",".intercalate (stringifyItems items) ++ "]"
  | obj fields => "\x7b" ++ ",".intercalate (stringifyFields fields) ++ "\x7d"

def stringifyItems : List Json → List String
  | [] => []
  | item :: rest => stringify item :: stringifyItems rest

def stringifyFields : List (String × Json) → List String
  | [] => []
  | (key, value) :: rest => (quote key ++ ":" ++ stringify value) :: stringifyFields rest

end

end Json

/-- `String(value)`, also of `undefined`. -/
def textOf (value : Option Json) : String := (value.map Json.toString).getD "undefined"

/-- `value === text`. -/
def isText (value : Option Json) (text : String) : Bool :=
  match value with
  | some (.str s) => s = text
  | _ => false

@[simp] theorem isText_str (s text : String) : isText (some (.str s)) text = decide (s = text) :=
  rfl

theorem isText_iff {value : Option Json} {text : String} :
    isText value text = true ↔ value = some (.str text) := by
  unfold isText
  split
  · simp
  · rename_i hne
    constructor
    · intro h
      simp at h
    · intro h
      exact absurd h (hne text)

/-- The length of a string counts the surrogates of a character beyond the basic plane. -/
def utf16Length (s : String) : ℕ :=
  (s.toList.map fun c => if c.toNat < 0x10000 then 1 else 2).sum

end Js

end CommercePlatform
