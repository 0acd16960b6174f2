/-
JSON text as the form in which values travel.

One side writes a value with `JSON.stringify`, the other reads it with `JSON.parse`.
What is read is what was written, if each number is one that the language has, no
object has a property twice and no name is an array index, which the language moves to
the front.
-/
import Mathlib.Data.List.Nodup
import CommercePlatform.Js.Buffer
import CommercePlatform.Js.Parse

namespace CommercePlatform

namespace Js

namespace Utf16

/-- The text that the code units spell, unless a surrogate stands alone. -/
def toText : Utf16 → Option (List Char)
  | [] => some []
  | [u] => if isHigh u ∨ isLow u then none else some [Char.ofNat u.toNat]
  | u :: v :: rest =>
      if isHigh u ∧ isLow v then (toText rest).map fun cs => pairChar u v :: cs
      else if isHigh u ∨ isLow u then none
      else (toText (v :: rest)).map fun cs => Char.ofNat u.toNat :: cs

theorem toText_cons {u : UInt16} (h : ¬ (isHigh u ∨ isLow u)) (s : Utf16) :
    toText (u :: s) = (toText s).map fun cs => Char.ofNat u.toNat :: cs := by
  cases s with
  | nil => simp [toText, h]
  | cons v rest => rw [toText, if_neg fun hpair => h (Or.inl hpair.1), if_neg h]

theorem toText_ofText (text : List Char) : toText (ofText text) = some text := by
  induction text with
  | nil => rfl
  | cons c text ih =>
      show toText (ofChar c ++ ofText text) = some (c :: text)
      rcases Nat.lt_or_ge c.toNat 0x10000 with hlt | hge
      · obtain ⟨u, hu, hsurrogate, hc⟩ := ofChar_of_lt hlt
        rw [hu, List.singleton_append, toText_cons hsurrogate, ih, hc]
        rfl
      · obtain ⟨high, low, hunits, hhigh, hlow, hc⟩ := ofChar_of_le hge
        rw [hunits]
        show toText (high :: low :: ofText text) = _
        rw [toText, if_pos ⟨hhigh, hlow⟩, ih, hc]
        rfl

theorem ofText_injective : Function.Injective ofText := by
  intro a b h
  have htext := toText_ofText a
  rw [h, toText_ofText] at htext
  exact (Option.some.inj htext).symm

end Utf16

/-- The code units of a string. -/
def units (s : String) : Utf16 := Utf16.ofText s.toList

theorem units_injective : Function.Injective units :=
  fun _ _ h => String.toList_injective (Utf16.ofText_injective h)

/-! ### There and back -/

namespace Json

mutual

/-- The value in the program that writes it. -/
def toValue : Json → Value
  | null => .null
  | bool b => .bool b
  | num (.finite q) => .num (Double.ofDecimal q)
  | num _ => .null
  | str s => .str (units s)
  | arr items => .arr (toItems items)
  | obj fields => .obj (toFields fields)

def toItems : List Json → List Value
  | [] => []
  | item :: rest => toValue item :: toItems rest

def toFields : List (String × Json) → List (Utf16 × Value)
  | [] => []
  | (name, value) :: rest => (units name, toValue value) :: toFields rest

end

end Json

namespace Value

mutual

/-- The value in the program that reads it, unless a string in it is not text. -/
def toJson : Value → Option Json
  | null => some .null
  | bool b => some (.bool b)
  | num n => some (.num n.value)
  | str s => (Utf16.toText s).map fun text => .str (String.ofList text)
  | arr items => (toJsonItems items).map .arr
  | obj fields => (toJsonFields fields).map .obj

def toJsonItems : List Value → Option (List Json)
  | [] => some []
  | item :: rest => (toJson item).bind fun item => (toJsonItems rest).map fun rest => item :: rest

def toJsonFields : List (Utf16 × Value) → Option (List (String × Json))
  | [] => some []
  | (name, value) :: rest =>
      (Utf16.toText name).bind fun name =>
        (toJson value).bind fun value =>
          (toJsonFields rest).map fun rest => (String.ofList name, value) :: rest

end

end Value

/-! ### What can travel -/

/-- A name that the language takes for an array index. -/
def IsIndex (name : String) : Prop := name ≠ "" ∧ name.toList.all Char.isDigit = true

instance (name : String) : Decidable (IsIndex name) := inferInstanceAs (Decidable (_ ∧ _))

/-- A number that the language has, and has a text for. -/
def Number.Written (n : Number) : Prop := ∃ q, n = .finite q ∧ Number.ofDecimal q = .finite q

namespace Json

mutual

/-- A value that is read as it was written. -/
def Travels : Json → Prop
  | null => True
  | bool _ => True
  | num n => n.Written
  | str _ => True
  | arr items => TravelItems items
  | obj fields => (fields.map Prod.fst).Nodup ∧ (∀ name ∈ fields.map Prod.fst, ¬ IsIndex name) ∧
      TravelFields fields

def TravelItems : List Json → Prop
  | [] => True
  | item :: rest => item.Travels ∧ TravelItems rest

def TravelFields : List (String × Json) → Prop
  | [] => True
  | (_, value) :: rest => value.Travels ∧ TravelFields rest

end

theorem travelFields_iff {fields : List (String × Json)} :
    TravelFields fields ↔ ∀ field ∈ fields, field.2.Travels := by
  induction fields with
  | nil => simp [TravelFields]
  | cons field rest ih =>
      obtain ⟨name, value⟩ := field
      simp [TravelFields, ih]

/-! ### The text -/

theorem quote_eq (s : String) : (quote s).toList = Utf16.quote (units s) := by
  unfold Json.quote Utf16.quote units
  rw [Utf16.quoteBody_ofText, String.toList_ofList]

theorem toList_intercalate_cons (a b : String) (rest : List String) :
    (",".intercalate (a :: b :: rest)).toList =
      a.toList ++ ',' :: (",".intercalate (b :: rest)).toList := by
  simp [String.intercalate_cons_cons]

mutual

/-- Both say what is written the same way. -/
theorem stringify_eq (j : Json) (h : j.Travels) : j.stringify.toList = j.toValue.stringify := by
  cases j with
  | null => rfl
  | bool b => cases b <;> rfl
  | num n =>
      obtain ⟨q, rfl, hq⟩ := h
      have hvalue : (Double.ofDecimal q).value = .finite q := hq
      show (stringifyNumber (.finite q)).toList = (stringifyNumber (Double.ofDecimal q).value).toList
      rw [hvalue]
  | str s => exact quote_eq s
  | arr items =>
      have hitems := stringifyItems_eq items h
      simp only [stringify, toValue, Value.stringify, String.toList_append, hitems]
      rfl
  | obj fields =>
      have hfields := stringifyFields_eq fields h.2.2
      simp only [stringify, toValue, Value.stringify, String.toList_append, hfields]
      rfl

theorem stringifyItems_eq (items : List Json) (h : TravelItems items) :
    (",".intercalate (stringifyItems items)).toList = Value.stringifyItems (toItems items) := by
  cases items with
  | nil => rfl
  | cons item rest =>
      have hitem := stringify_eq item h.1
      have hrest := stringifyItems_eq rest h.2
      cases rest with
      | nil =>
          show (",".intercalate [item.stringify]).toList = item.toValue.stringify
          rw [← hitem]
          simp
      | cons next rest =>
          show (",".intercalate (item.stringify :: next.stringify :: stringifyItems rest)).toList =
            item.toValue.stringify ++ ',' :: Value.stringifyItems (toItems (next :: rest))
          rw [toList_intercalate_cons, ← hrest, hitem]
          rfl

theorem stringifyFields_eq (fields : List (String × Json)) (h : TravelFields fields) :
    (",".intercalate (stringifyFields fields)).toList = Value.stringifyFields (toFields fields) := by
  cases fields with
  | nil => rfl
  | cons field rest =>
      obtain ⟨name, value⟩ := field
      have hvalue := stringify_eq value h.1
      have hrest := stringifyFields_eq rest h.2
      have hfield : (quote name ++ ":" ++ value.stringify).toList =
          Utf16.quote (units name) ++ ':' :: value.toValue.stringify := by
        rw [← quote_eq, ← hvalue]
        simp
      cases rest with
      | nil =>
          show (",".intercalate [quote name ++ ":" ++ value.stringify]).toList = _
          rw [show ",".intercalate [quote name ++ ":" ++ value.stringify] =
            quote name ++ ":" ++ value.stringify by simp, hfield]
          rfl
      | cons next rest =>
          obtain ⟨name', value'⟩ := next
          show (",".intercalate ((quote name ++ ":" ++ value.stringify) ::
            (quote name' ++ ":" ++ value'.stringify) :: stringifyFields rest)).toList =
            Utf16.quote (units name) ++ ':' :: value.toValue.stringify ++
              ',' :: Value.stringifyFields (toFields ((name', value') :: rest))
          rw [toList_intercalate_cons, ← hrest, hfield]
          rfl

end

/-! ### The value -/

theorem names_toFields (fields : List (String × Json)) :
    (toFields fields).map Prod.fst = (fields.map Prod.fst).map units := by
  induction fields with
  | nil => rfl
  | cons field rest ih =>
      show units field.1 :: (toFields rest).map Prod.fst = _
      rw [ih]
      rfl

mutual

theorem plain_toValue (j : Json) (h : j.Travels) : j.toValue.Plain := by
  cases j with
  | null => trivial
  | bool b => trivial
  | num n =>
      obtain ⟨q, rfl, hq⟩ := h
      exact ⟨q, hq⟩
  | str s => trivial
  | arr items => exact plain_toItems items h
  | obj fields =>
      refine ⟨?_, plain_toFields fields h.2.2⟩
      rw [names_toFields]
      exact List.Nodup.map units_injective h.1

theorem plain_toItems (items : List Json) (h : TravelItems items) :
    Value.PlainItems (toItems items) := by
  cases items with
  | nil => trivial
  | cons item rest => exact ⟨plain_toValue item h.1, plain_toItems rest h.2⟩

theorem plain_toFields (fields : List (String × Json)) (h : TravelFields fields) :
    Value.PlainFields (toFields fields) := by
  cases fields with
  | nil => trivial
  | cons field rest =>
      obtain ⟨name, value⟩ := field
      exact ⟨plain_toValue value h.1, plain_toFields rest h.2⟩

end

mutual

theorem toJson_toValue (j : Json) (h : j.Travels) : j.toValue.toJson = some j := by
  cases j with
  | null => rfl
  | bool b => rfl
  | num n =>
      obtain ⟨q, rfl, hq⟩ := h
      exact congrArg (fun n => some (num n)) hq
  | str s =>
      show (Utf16.toText (units s)).map _ = _
      rw [units, Utf16.toText_ofText, Option.map_some, String.ofList_toList]
  | arr items =>
      show (Value.toJsonItems (toItems items)).map _ = _
      rw [toJsonItems_toItems items h]
      rfl
  | obj fields =>
      show (Value.toJsonFields (toFields fields)).map _ = _
      rw [toJsonFields_toFields fields h.2.2]
      rfl

theorem toJsonItems_toItems (items : List Json) (h : TravelItems items) :
    Value.toJsonItems (toItems items) = some items := by
  cases items with
  | nil => rfl
  | cons item rest =>
      show (item.toValue.toJson).bind _ = _
      rw [toJson_toValue item h.1, Option.bind_some, toJsonItems_toItems rest h.2]
      rfl

theorem toJsonFields_toFields (fields : List (String × Json)) (h : TravelFields fields) :
    Value.toJsonFields (toFields fields) = some fields := by
  cases fields with
  | nil => rfl
  | cons field rest =>
      obtain ⟨name, value⟩ := field
      show (Utf16.toText (units name)).bind _ = _
      rw [units, Utf16.toText_ofText, Option.bind_some, toJson_toValue value h.1, Option.bind_some,
        toJsonFields_toFields rest h.2, String.ofList_toList]
      rfl

end

/-- **What is read is what was written.** -/
theorem read_stringify {j : Json} (h : j.Travels) :
    (Value.parse j.stringify.toList).bind Value.toJson = some j := by
  rw [stringify_eq j h, Value.parse_stringify _ (plain_toValue j h), Option.bind_some,
    toJson_toValue j h]

/-- `JSON.parse(text)`, of a text in which no surrogate stands alone. -/
def ofText (text : String) : Option Json := (Value.parse text.toList).bind Value.toJson

theorem ne_empty_of_ofText {text : String} {j : Json} (h : ofText text = some j) : text ≠ "" := by
  rintro rfl
  revert h
  simp [ofText, Value.parse, Value.readValue, Value.skipSpace]

end Json

/-- `JSON.stringify(fields)`. -/
def Fields.text (fields : Fields) : String := (Json.obj fields.defined).stringify

theorem Fields.ofText_text {fields : Fields} (hnodup : (fields.defined.map Prod.fst).Nodup)
    (hname : ∀ name ∈ fields.defined.map Prod.fst, ¬ IsIndex name)
    (htravels : ∀ field ∈ fields.defined, field.2.Travels) :
    Json.ofText fields.text = some (.obj fields.defined) :=
  Json.read_stringify ⟨hnodup, hname, Json.travelFields_iff.mpr htravels⟩

/-! ### Numbers -/

theorem Double.written {d : Double} {q : ℚ} (h : d.value = .finite q) :
    (Number.finite q).Written :=
  ⟨q, rfl, d.printed q h⟩

/-- A number that was read is one that the language has. -/
theorem Value.num_of_toJson {v : Value} {n : Number} (h : v.toJson = some (.num n)) :
    ∃ d : Double, d.value = n := by
  cases v with
  | num d => exact ⟨d, Json.num.inj (Option.some.inj h)⟩
  | null => simp [Value.toJson] at h
  | bool b => simp [Value.toJson] at h
  | str s => simp [Value.toJson] at h
  | arr items => simp [Value.toJson] at h
  | obj fields => simp [Value.toJson] at h

theorem Value.num_of_toJsonFields {fields : List (Utf16 × Value)} {read : List (String × Json)}
    (h : Value.toJsonFields fields = some read) {name : String} {n : Number}
    (hmem : (name, Json.num n) ∈ read) : ∃ d : Double, d.value = n := by
  induction fields generalizing read with
  | nil =>
      obtain rfl := Option.some.inj h
      simp at hmem
  | cons field rest ih =>
      obtain ⟨text, htext, h⟩ := Option.bind_eq_some_iff.mp h
      obtain ⟨value, hvalue, h⟩ := Option.bind_eq_some_iff.mp h
      obtain ⟨others, hothers, rfl⟩ := Option.map_eq_some_iff.mp h
      rcases List.mem_cons.mp hmem with heq | hrest
      · obtain ⟨-, rfl⟩ := Prod.mk.inj heq
        exact Value.num_of_toJson hvalue
      · exact ih hothers hrest

end Js

end CommercePlatform
