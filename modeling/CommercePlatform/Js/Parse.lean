/-
`JSON.parse` and `JSON.stringify`.

A text is read from the front: each reader returns what it has read and what is left.  Space is
skipped before a value, a key or a mark.  Of two properties with one name the last counts.  The
properties of an object stand in the order of the text here; no reader of an order looks at it.

A reader has fuel for each character twice, once for the value that begins there and once for
the list that it is in, and never runs out of it.

What was written is read as it was, if its numbers are numbers that JSON has a form for.
-/
import CommercePlatform.Js.Literal
import CommercePlatform.Js.Utf16

namespace CommercePlatform

namespace Js

/-- A value that JSON carries, with the strings and the numbers of the language. -/
inductive Value where
  | null
  | bool (b : Bool)
  | num (n : Double)
  | str (s : Utf16)
  | arr (items : List Value)
  | obj (fields : List (Utf16 × Value))

namespace Value

/-! ### Reading -/

def isSpace (c : Char) : Bool := c = ' ' || c = '\t' || c = '\n' || c = '\r'

def skipSpace (cs : List Char) : List Char := cs.dropWhile isSpace

/-- The properties with one more, or with another value of one. -/
def setField (fields : List (Utf16 × Value)) (key : Utf16) (value : Value) :
    List (Utf16 × Value) :=
  if key ∈ fields.map Prod.fst then
    fields.map fun field => if field.1 = key then (key, value) else field
  else fields ++ [(key, value)]

/-- What is after a mark. -/
def mark (c : Char) (cs : List Char) : Option (List Char) :=
  match skipSpace cs with
  | [] => none
  | d :: rest => if d = c then some rest else none

/-- A key and its colon. -/
def readKey (cs : List Char) : Option (Utf16 × List Char) :=
  ((mark '"' cs).bind Utf16.readString).bind fun read =>
    (mark ':' read.2).map fun rest => (read.1, rest)

def readWord (word : List Char) (value : Value) (cs : List Char) : Option (Value × List Char) :=
  if word.isPrefixOf cs then some (value, cs.drop word.length) else none

mutual

def readValue : ℕ → List Char → Option (Value × List Char)
  | 0, _ => none
  | fuel + 1, cs =>
      match skipSpace cs with
      | [] => none
      | c :: rest =>
          if c = '"' then (Utf16.readString rest).map fun read => (.str read.1, read.2)
          else if c = '[' then
            match mark ']' rest with
            | some rest => some (.arr [], rest)
            | none => readItems fuel [] rest
          else if c = '{' then
            match mark '}' rest with
            | some rest => some (.obj [], rest)
            | none => readFields fuel [] rest
          else if c = 't' then readWord "true".toList (.bool true) (c :: rest)
          else if c = 'f' then readWord "false".toList (.bool false) (c :: rest)
          else if c = 'n' then readWord "null".toList .null (c :: rest)
          else (readNumber (c :: rest)).map fun read => (.num (Double.ofDecimal read.1), read.2)

/-- The rest of an array, after some of its items. -/
def readItems : ℕ → List Value → List Char → Option (Value × List Char)
  | 0, _, _ => none
  | fuel + 1, items, cs =>
      match readValue fuel cs with
      | none => none
      | some (item, cs) =>
          match mark ',' cs with
          | some cs => readItems fuel (items ++ [item]) cs
          | none => (mark ']' cs).map fun cs => (.arr (items ++ [item]), cs)

/-- The rest of an object, after some of its properties. -/
def readFields : ℕ → List (Utf16 × Value) → List Char → Option (Value × List Char)
  | 0, _, _ => none
  | fuel + 1, fields, cs =>
      match readKey cs with
      | none => none
      | some (key, cs) =>
          match readValue fuel cs with
          | none => none
          | some (value, cs) =>
              match mark ',' cs with
              | some cs => readFields fuel (setField fields key value) cs
              | none => (mark '}' cs).map fun cs => (.obj (setField fields key value), cs)

end

/-- `JSON.parse(text)`. -/
def parse (text : List Char) : Option Value :=
  match readValue (2 * text.length + 1) text with
  | none => none
  | some (value, rest) => if skipSpace rest = [] then some value else none

/-! ### Writing -/

mutual

/-- `JSON.stringify(value)`. -/
def stringify : Value → List Char
  | null => "null".toList
  | bool b => if b then "true".toList else "false".toList
  | num n => (Json.stringifyNumber n.value).toList
  | str s => Utf16.quote s
  | arr items => '[' :: stringifyItems items ++ [']']
  | obj fields => '{' :: stringifyFields fields ++ ['}']

def stringifyItems : List Value → List Char
  | [] => []
  | [item] => stringify item
  | item :: rest => stringify item ++ ',' :: stringifyItems rest

def stringifyFields : List (Utf16 × Value) → List Char
  | [] => []
  | [(key, value)] => Utf16.quote key ++ ':' :: stringify value
  | (key, value) :: rest => Utf16.quote key ++ ':' :: stringify value ++ ',' :: stringifyFields rest

end

example : (parse " \x7b\"a\" : [1.50, true, \"\\u00e9\"], \"a\":-0 \x7d".toList).map stringify =
    some "\x7b\"a\":0\x7d".toList := by
  decide +kernel

/-! ### What is written is read -/

section

variable {c d : Char} {cs rest : List Char}

theorem skipSpace_cons (hc : isSpace c = false) : skipSpace (c :: cs) = c :: cs := by
  simp [skipSpace, hc]

theorem mark_self (hc : isSpace c = false) : mark c (c :: cs) = some cs := by
  unfold mark
  rw [skipSpace_cons hc]
  exact if_pos rfl

theorem mark_ne (hd : isSpace d = false) (hne : d ≠ c) : mark c (d :: cs) = none := by
  unfold mark
  rw [skipSpace_cons hd]
  exact if_neg hne

theorem readKey_quote (key : Utf16) : readKey (Utf16.quote key ++ ':' :: cs) = some (key, cs) := by
  have hread : Utf16.readString (Utf16.quoteBody key ++ ['"'] ++ ':' :: cs) =
      some (key, ':' :: cs) := by
    rw [List.append_assoc]
    exact Utf16.readString_quoteBody key (':' :: cs)
  unfold readKey
  show ((mark '"' ('"' :: (Utf16.quoteBody key ++ ['"'] ++ ':' :: cs))).bind Utf16.readString).bind _ = _
  rw [mark_self rfl, Option.bind_some, hread, Option.bind_some, mark_self rfl]
  rfl

theorem head_of_readNumber {read : ℚ × List Char} (h : readNumber cs = some read) :
    ∃ c rest, cs = c :: rest ∧ (c = '-' ∨ c.isDigit = true) := by
  cases cs with
  | nil => simp [readNumber, readUnsigned, readInteger, readDigits] at h
  | cons c rest =>
      refine ⟨c, rest, rfl, ?_⟩
      by_contra hnot
      have hdigit : c.isDigit = false := by
        simpa using fun hc => hnot (Or.inr hc)
      unfold readNumber at h
      split at h
      · rename_i hminus
        exact hnot (Or.inl (List.cons.inj hminus).1)
      · simp [readUnsigned, readInteger, readDigits, hdigit] at h

/-- What begins a number begins nothing else. -/
theorem numberHead (h : c = '-' ∨ c.isDigit = true) :
    isSpace c = false ∧ c ∉ ['"', '[', ']', '{', '}', 't', 'f', 'n'] := by
  have hne : ∀ d : Char, d ≠ '-' → d.isDigit = false → c ≠ d := by
    rintro d hminus hdigit rfl
    rcases h with h | h
    · exact hminus h
    · rw [h] at hdigit
      exact absurd hdigit (by decide)
  constructor
  · simp [isSpace, hne ' ' (by decide) (by decide), hne '\t' (by decide) (by decide),
      hne '\n' (by decide) (by decide), hne '\r' (by decide) (by decide)]
  · intro hmem
    simp only [List.mem_cons, List.not_mem_nil, or_false] at hmem
    rcases hmem with rfl | rfl | rfl | rfl | rfl | rfl | rfl | rfl
    all_goals exact hne _ (by decide) (by decide) rfl

theorem readValue_number {fuel : ℕ} {q : ℚ} (h : readNumber cs = some (q, rest)) :
    readValue (fuel + 1) cs = some (.num (Double.ofDecimal q), rest) := by
  obtain ⟨c, tail, rfl, hc⟩ := head_of_readNumber h
  obtain ⟨hspace, hother⟩ := numberHead hc
  simp only [List.mem_cons, List.not_mem_nil, or_false, not_or] at hother
  obtain ⟨hquote, hopen, -, hbrace, -, ht, hf, hn⟩ := hother
  rw [readValue, skipSpace_cons hspace]
  dsimp only
  rw [if_neg hquote, if_neg hopen, if_neg hbrace, if_neg ht, if_neg hf, if_neg hn, h]
  rfl

end

/-! A value that JSON has a form for, and in which no object has a property twice. -/

mutual

def Plain : Value → Prop
  | null => True
  | bool _ => True
  | num n => ∃ q, n.value = .finite q
  | str _ => True
  | arr items => PlainItems items
  | obj fields => (fields.map Prod.fst).Nodup ∧ PlainFields fields

def PlainItems : List Value → Prop
  | [] => True
  | item :: rest => item.Plain ∧ PlainItems rest

def PlainFields : List (Utf16 × Value) → Prop
  | [] => True
  | (_, value) :: rest => value.Plain ∧ PlainFields rest

end

theorem setField_of_notMem {fields : List (Utf16 × Value)} {key : Utf16} {value : Value}
    (h : key ∉ fields.map Prod.fst) : setField fields key value = fields ++ [(key, value)] := by
  exact if_neg h

theorem readNumber_stringify {n : Double} {q : ℚ} (hn : n.value = .finite q) {rest : List Char}
    (hrest : EndsNumber rest) : readNumber (stringify (num n) ++ rest) = some (q, rest) := by
  show readNumber ((Json.stringifyNumber n.value).toList ++ rest) = _
  rw [hn]
  exact readNumber_toString (Double.isDecimal hn) hrest

/-- A value does not begin like space, nor like the end of a list. -/
theorem stringify_head (v : Value) (hv : v.Plain) :
    ∃ c cs, stringify v = c :: cs ∧ isSpace c = false ∧ c ≠ ']' := by
  cases v with
  | null => exact ⟨'n', _, rfl, rfl, by decide⟩
  | bool b =>
      cases b with
      | false => exact ⟨'f', _, rfl, rfl, by decide⟩
      | true => exact ⟨'t', _, rfl, rfl, by decide⟩
  | num n =>
      obtain ⟨q, hq⟩ := hv
      have hread := readNumber_stringify hq EndsNumber.nil
      rw [List.append_nil] at hread
      obtain ⟨c, cs, hcs, hc⟩ := head_of_readNumber hread
      obtain ⟨hspace, hother⟩ := numberHead hc
      exact ⟨c, cs, hcs, hspace, fun hclose => hother (by simp [hclose])⟩
  | str s => exact ⟨'"', _, rfl, rfl, by decide⟩
  | arr items => exact ⟨'[', _, rfl, rfl, by decide⟩
  | obj fields => exact ⟨'{', _, rfl, rfl, by decide⟩

theorem length_stringify_pos (v : Value) (hv : v.Plain) : 0 < (stringify v).length := by
  obtain ⟨c, cs, hcs, -⟩ := stringify_head v hv
  rw [hcs]
  exact Nat.succ_pos _

theorem stringifyItems_head (item : Value) (items : List Value) (hitem : item.Plain) :
    ∃ c cs, stringifyItems (item :: items) = c :: cs ∧ isSpace c = false ∧ c ≠ ']' := by
  obtain ⟨c, cs, hcs, hc⟩ := stringify_head item hitem
  cases items with
  | nil => exact ⟨c, cs, hcs, hc⟩
  | cons item' items =>
      refine ⟨c, cs ++ ',' :: stringifyItems (item' :: items), ?_, hc⟩
      show stringify item ++ ',' :: stringifyItems (item' :: items) = _
      rw [hcs]
      rfl

theorem stringifyFields_head (key : Utf16) (value : Value) (fields : List (Utf16 × Value)) :
    ∃ cs, stringifyFields ((key, value) :: fields) = '"' :: cs := by
  cases fields with
  | nil => exact ⟨_, rfl⟩
  | cons field fields => exact ⟨_, rfl⟩

/-- The mark after an item or a property ends a number. -/
theorem endsNumber_mark {c : Char} (h : c ∈ [',', ']', '}']) (cs : List Char) :
    EndsNumber (c :: cs) := by
  apply EndsNumber.cons
  simp only [List.mem_cons, List.not_mem_nil, or_false] at h ⊢
  rcases h with rfl | rfl | rfl
  all_goals decide

mutual

theorem readValue_stringify (v : Value) (hv : v.Plain) (fuel : ℕ) (rest : List Char)
    (hrest : EndsNumber rest) (hfuel : 2 * (stringify v).length ≤ fuel) :
    readValue fuel (stringify v ++ rest) = some (v, rest) := by
  cases fuel with
  | zero =>
      have hpos := length_stringify_pos v hv
      omega
  | succ fuel =>
      cases v with
      | null => rfl
      | bool b =>
          cases b with
          | false => rfl
          | true => rfl
      | num n =>
          obtain ⟨q, hq⟩ := hv
          rw [readValue_number (readNumber_stringify hq hrest), Double.ofDecimal_eq hq]
      | str s =>
          have hread := Utf16.readString_quoteBody s rest
          show readValue (fuel + 1) ('"' :: (Utf16.quoteBody s ++ ['"']) ++ rest) = _
          rw [List.cons_append, List.append_assoc, readValue, skipSpace_cons rfl]
          dsimp only
          rw [if_pos rfl]
          show (Utf16.readString (Utf16.quoteBody s ++ '"' :: rest)).map _ = _
          rw [hread]
          rfl
      | arr items =>
          have hlength : (stringify (arr items)).length = (stringifyItems items).length + 2 := by
            simp [stringify]
          show readValue (fuel + 1) ('[' :: (stringifyItems items ++ [']']) ++ rest) = _
          rw [List.cons_append, List.append_assoc, readValue, skipSpace_cons rfl]
          dsimp only
          rw [if_neg (by decide), if_pos rfl]
          cases items with
          | nil => rfl
          | cons item items =>
              obtain ⟨c, cs, hcs, hspace, hclose⟩ := stringifyItems_head item items hv.1
              have hread := readItems_stringify (item :: items) (List.cons_ne_nil _ _) hv []
                fuel rest (by omega)
              rw [hcs, List.cons_append, mark_ne hspace hclose]
              rw [hcs] at hread
              exact hread
      | obj fields =>
          have hlength : (stringify (obj fields)).length = (stringifyFields fields).length + 2 := by
            simp [stringify]
          show readValue (fuel + 1) ('{' :: (stringifyFields fields ++ ['}']) ++ rest) = _
          rw [List.cons_append, List.append_assoc, readValue, skipSpace_cons rfl]
          dsimp only
          rw [if_neg (by decide), if_neg (by decide), if_pos rfl]
          cases fields with
          | nil => rfl
          | cons field fields =>
              obtain ⟨cs, hcs⟩ := stringifyFields_head field.1 field.2 fields
              have hread := readFields_stringify (field :: fields) (List.cons_ne_nil _ _) hv.2 []
                (by simpa using hv.1) fuel rest (by omega)
              rw [hcs, List.cons_append, mark_ne rfl (by decide)]
              rw [hcs] at hread
              exact hread

theorem readItems_stringify (items : List Value) (hne : items ≠ []) (hitems : PlainItems items)
    (before : List Value) (fuel : ℕ) (rest : List Char)
    (hfuel : 2 * (stringifyItems items).length + 1 ≤ fuel) :
    readItems fuel before (stringifyItems items ++ ']' :: rest) =
      some (arr (before ++ items), rest) := by
  cases fuel with
  | zero => omega
  | succ fuel =>
      cases items with
      | nil => exact absurd rfl hne
      | cons item items =>
          cases items with
          | nil =>
              have hlength : (stringifyItems [item]).length = (stringify item).length := rfl
              have hread := readValue_stringify item hitems.1 fuel (']' :: rest)
                (endsNumber_mark (by decide) rest) (by omega)
              show readItems (fuel + 1) before (stringify item ++ ']' :: rest) = _
              rw [readItems, hread]
              dsimp only
              rw [mark_ne rfl (by decide), mark_self rfl]
              rfl
          | cons item' items =>
              have hlength : (stringifyItems (item :: item' :: items)).length =
                  (stringify item).length + 1 + (stringifyItems (item' :: items)).length := by
                simp [stringifyItems]
                omega
              have hread := readValue_stringify item hitems.1 fuel
                (',' :: (stringifyItems (item' :: items) ++ ']' :: rest))
                (endsNumber_mark (by decide) _) (by omega)
              have htail := readItems_stringify (item' :: items) (List.cons_ne_nil _ _) hitems.2
                (before ++ [item]) fuel rest (by omega)
              have hshape : stringifyItems (item :: item' :: items) ++ ']' :: rest =
                  stringify item ++ ',' :: (stringifyItems (item' :: items) ++ ']' :: rest) := by
                simp [stringifyItems]
              rw [hshape, readItems, hread]
              dsimp only
              rw [mark_self rfl]
              dsimp only
              rw [htail, List.append_assoc]
              rfl

theorem readFields_stringify (fields : List (Utf16 × Value)) (hne : fields ≠ [])
    (hfields : PlainFields fields) (before : List (Utf16 × Value))
    (hkeys : ((before ++ fields).map Prod.fst).Nodup) (fuel : ℕ) (rest : List Char)
    (hfuel : 2 * (stringifyFields fields).length + 1 ≤ fuel) :
    readFields fuel before (stringifyFields fields ++ '}' :: rest) =
      some (obj (before ++ fields), rest) := by
  cases fuel with
  | zero => omega
  | succ fuel =>
      cases fields with
      | nil => exact absurd rfl hne
      | cons field fields =>
          obtain ⟨key, value⟩ := field
          have hnew : key ∉ before.map Prod.fst := by
            rw [List.map_append, List.map_cons] at hkeys
            intro hmem
            exact (List.nodup_append.mp hkeys).2.2 key hmem key List.mem_cons_self rfl
          cases fields with
          | nil =>
              have hlength : (stringify value).length ≤ (stringifyFields [(key, value)]).length := by
                simp [stringifyFields]
                omega
              have hread := readValue_stringify value hfields.1 fuel ('}' :: rest)
                (endsNumber_mark (by decide) rest) (by omega)
              have hshape : stringifyFields [(key, value)] ++ '}' :: rest =
                  Utf16.quote key ++ ':' :: (stringify value ++ '}' :: rest) := by
                simp [stringifyFields]
              rw [hshape, readFields, readKey_quote]
              dsimp only
              rw [hread]
              dsimp only
              rw [mark_ne rfl (by decide), mark_self rfl, setField_of_notMem hnew]
              rfl
          | cons field' fields =>
              have hlength : (stringify value).length + 1 +
                  (stringifyFields (field' :: fields)).length ≤
                    (stringifyFields ((key, value) :: field' :: fields)).length := by
                simp [stringifyFields]
                omega
              have hread := readValue_stringify value hfields.1 fuel
                (',' :: (stringifyFields (field' :: fields) ++ '}' :: rest))
                (endsNumber_mark (by decide) _) (by omega)
              have htail := readFields_stringify (field' :: fields) (List.cons_ne_nil _ _) hfields.2
                (before ++ [(key, value)]) (by simpa using hkeys) fuel rest (by omega)
              have hshape : stringifyFields ((key, value) :: field' :: fields) ++ '}' :: rest =
                  Utf16.quote key ++ ':' :: (stringify value ++
                    ',' :: (stringifyFields (field' :: fields) ++ '}' :: rest)) := by
                simp [stringifyFields]
              rw [hshape, readFields, readKey_quote]
              dsimp only
              rw [hread]
              dsimp only
              rw [mark_self rfl, setField_of_notMem hnew]
              dsimp only
              rw [htail, List.append_assoc]
              rfl

end

/-- **What was written is read as it was.** -/
theorem parse_stringify (v : Value) (hv : v.Plain) : parse (stringify v) = some v := by
  have hread := readValue_stringify v hv (2 * (stringify v).length + 1) [] EndsNumber.nil
    (by omega)
  rw [List.append_nil] at hread
  unfold parse
  rw [hread]
  rfl

/-- What is written tells what it was. -/
theorem stringify_injective {v w : Value} (hv : v.Plain) (hw : w.Plain)
    (h : stringify v = stringify w) : v = w := by
  have hread := parse_stringify v hv
  rw [h, parse_stringify w hw] at hread
  exact (Option.some.inj hread).symm

/-! ### There is fuel enough -/

section

variable {c : Char} {cs rest : List Char}

theorem length_skipSpace_le (cs : List Char) : (skipSpace cs).length ≤ cs.length :=
  List.length_dropWhile_le isSpace cs

theorem length_of_mark (h : mark c cs = some rest) : rest.length < cs.length := by
  have hskip := length_skipSpace_le cs
  unfold mark at h
  split at h
  · simp at h
  · rename_i d tail hcs
    split at h
    · obtain rfl := Option.some.inj h
      rw [hcs, List.length_cons] at hskip
      omega
    · simp at h

theorem length_of_readString {s : Utf16} (h : Utf16.readString cs = some (s, rest)) :
    rest.length ≤ cs.length := by
  have hprepend : ∀ {s t : Utf16} {tail : List Char},
      (Utf16.readString tail).map (Utf16.prepend t) = some (s, rest) →
        ∃ s', Utf16.readString tail = some (s', rest) := by
    intro s t tail h
    obtain ⟨read, hread, heq⟩ := Option.map_eq_some_iff.mp h
    obtain ⟨-, rfl⟩ := Prod.mk.inj heq
    exact ⟨read.1, hread⟩
  induction cs using Utf16.readString.induct generalizing s with
  | case1 => simp [Utf16.readString] at h
  | case2 cs =>
      rw [Utf16.readString] at h
      obtain ⟨-, rfl⟩ := Prod.mk.inj (Option.some.inj h)
      simp
  | case3 a b c d cs ih =>
      rw [Utf16.readString] at h
      obtain ⟨u, -, h⟩ := Option.bind_eq_some_iff.mp h
      obtain ⟨s', hread⟩ := hprepend h
      have hshort := ih hread
      simp only [List.length_cons]
      omega
  | case4 c cs hne ih =>
      rw [Utf16.readString] at h
      · obtain ⟨u, -, h⟩ := Option.bind_eq_some_iff.mp h
        obtain ⟨s', hread⟩ := hprepend h
        have hshort := ih hread
        simp only [List.length_cons]
        omega
      · exact hne
  | case5 c cs hquote hunit hescape hcontrol =>
      rw [Utf16.readString] at h
      · rw [if_pos hcontrol] at h
        simp at h
      · exact hquote
      · exact hunit
      · exact hescape
  | case6 c cs hquote hunit hescape hcontrol ih =>
      rw [Utf16.readString] at h
      · rw [if_neg hcontrol] at h
        obtain ⟨s', hread⟩ := hprepend h
        have hshort := ih hread
        simp only [List.length_cons]
        omega
      · exact hquote
      · exact hunit
      · exact hescape

theorem length_of_readKey {key : Utf16} (h : readKey cs = some (key, rest)) :
    rest.length ≤ cs.length := by
  obtain ⟨read, hread, h⟩ := Option.bind_eq_some_iff.mp h
  obtain ⟨tail, hquote, hread⟩ := Option.bind_eq_some_iff.mp hread
  obtain ⟨rest', hcolon, heq⟩ := Option.map_eq_some_iff.mp h
  obtain ⟨-, rfl⟩ := Prod.mk.inj heq
  have hstring := length_of_readString hread
  have hmark := length_of_mark hquote
  have hmark' := length_of_mark hcolon
  omega

theorem length_of_readWord {word : List Char} {value value' : Value}
    (h : readWord word value cs = some (value', rest)) : rest.length ≤ cs.length := by
  unfold readWord at h
  split at h
  · obtain ⟨-, rfl⟩ := Prod.mk.inj (Option.some.inj h)
    simp
  · simp at h

theorem length_of_readDigits {ds : List Char} (h : readDigits cs = some (ds, rest)) :
    rest.length ≤ cs.length := by
  unfold readDigits at h
  split at h
  · simp at h
  · obtain ⟨-, rfl⟩ := Prod.mk.inj (Option.some.inj h)
    exact List.length_dropWhile_le _ cs

theorem length_of_readFraction {ds : List Char} (h : readFraction cs = some (ds, rest)) :
    rest.length ≤ cs.length := by
  unfold readFraction at h
  split at h
  · have hdigits := length_of_readDigits h
    simp only [List.length_cons]
    omega
  · obtain ⟨-, rfl⟩ := Prod.mk.inj (Option.some.inj h)
    exact le_refl _

theorem length_readSign_le (cs : List Char) : (readSign cs).2.length ≤ cs.length := by
  unfold readSign
  split
  · simp
  · simp
  · simp

theorem length_of_readExponent {e : ℤ} (h : readExponent cs = some (e, rest)) :
    rest.length ≤ cs.length := by
  unfold readExponent at h
  split at h
  · obtain ⟨-, rfl⟩ := Prod.mk.inj (Option.some.inj h)
    exact le_refl _
  · rename_i c tail
    split at h
    · obtain ⟨read, hread, heq⟩ := Option.map_eq_some_iff.mp h
      obtain ⟨-, rfl⟩ := Prod.mk.inj heq
      have hdigits := length_of_readDigits hread
      have hsign := length_readSign_le tail
      simp only [List.length_cons]
      omega
    · obtain ⟨-, rfl⟩ := Prod.mk.inj (Option.some.inj h)
      exact le_refl _

theorem length_of_readUnsigned {q : ℚ} (h : readUnsigned cs = some (q, rest)) :
    rest.length ≤ cs.length := by
  obtain ⟨⟨int, tail⟩, hint, h⟩ := Option.bind_eq_some_iff.mp h
  obtain ⟨⟨frac, tail'⟩, hfrac, h⟩ := Option.bind_eq_some_iff.mp h
  obtain ⟨⟨e, tail''⟩, hexponent, h⟩ := Option.bind_eq_some_iff.mp h
  obtain ⟨-, rfl⟩ := Prod.mk.inj (Option.some.inj h)
  have hdigits := length_of_readDigits (Option.filter_eq_some_iff.mp hint).1
  have hfraction := length_of_readFraction hfrac
  have hexp := length_of_readExponent hexponent
  omega

theorem length_of_readNumber {q : ℚ} (h : readNumber cs = some (q, rest)) :
    rest.length ≤ cs.length := by
  unfold readNumber at h
  split at h
  · obtain ⟨read, hread, heq⟩ := Option.map_eq_some_iff.mp h
    obtain ⟨-, rfl⟩ := Prod.mk.inj heq
    have hunsigned := length_of_readUnsigned hread
    simp only [List.length_cons]
    omega
  · exact length_of_readUnsigned h

/-- No reader leaves more than there was. -/
theorem length_of_readValue (fuel : ℕ) :
    (∀ cs value rest, readValue fuel cs = some (value, rest) → rest.length ≤ cs.length) ∧
    (∀ items cs value rest, readItems fuel items cs = some (value, rest) →
      rest.length ≤ cs.length) ∧
    ∀ fields cs value rest, readFields fuel fields cs = some (value, rest) →
      rest.length ≤ cs.length := by
  induction fuel with
  | zero => exact ⟨by simp [readValue], by simp [readItems], by simp [readFields]⟩
  | succ fuel ih =>
      obtain ⟨ihValue, ihItems, ihFields⟩ := ih
      refine ⟨?_, ?_, ?_⟩
      · intro cs value rest h
        have hskip := length_skipSpace_le cs
        rw [readValue] at h
        split at h
        · simp at h
        rename_i c tail hcs
        rw [hcs, List.length_cons] at hskip
        have htail : ∀ {m : ℕ}, m ≤ tail.length → m ≤ cs.length := by
          intro m hm
          omega
        split at h
        · obtain ⟨read, hread, heq⟩ := Option.map_eq_some_iff.mp h
          obtain ⟨-, rfl⟩ := Prod.mk.inj heq
          exact htail (length_of_readString hread)
        split at h
        · split at h
          · rename_i rest' hmark
            obtain ⟨-, rfl⟩ := Prod.mk.inj (Option.some.inj h)
            exact htail (length_of_mark hmark).le
          · exact htail (ihItems _ _ _ _ h)
        split at h
        · split at h
          · rename_i rest' hmark
            obtain ⟨-, rfl⟩ := Prod.mk.inj (Option.some.inj h)
            exact htail (length_of_mark hmark).le
          · exact htail (ihFields _ _ _ _ h)
        split at h
        · exact (length_of_readWord h).trans (by rw [List.length_cons]; omega)
        split at h
        · exact (length_of_readWord h).trans (by rw [List.length_cons]; omega)
        split at h
        · exact (length_of_readWord h).trans (by rw [List.length_cons]; omega)
        · obtain ⟨read, hread, heq⟩ := Option.map_eq_some_iff.mp h
          obtain ⟨-, rfl⟩ := Prod.mk.inj heq
          exact (length_of_readNumber hread).trans (by rw [List.length_cons]; omega)
      · intro items cs value rest h
        rw [readItems] at h
        split at h
        · simp at h
        rename_i item tail hitem
        have hshort := ihValue _ _ _ hitem
        split at h
        · rename_i tail' hmark
          have hmark' := length_of_mark hmark
          have hrest := ihItems _ _ _ _ h
          omega
        · obtain ⟨tail', hmark, heq⟩ := Option.map_eq_some_iff.mp h
          obtain ⟨-, rfl⟩ := Prod.mk.inj heq
          have hmark' := length_of_mark hmark
          omega
      · intro fields cs value rest h
        rw [readFields] at h
        split at h
        · simp at h
        rename_i key tail hkey
        have hshort := length_of_readKey hkey
        split at h
        · simp at h
        rename_i value' tail' hvalue
        have hshort' := ihValue _ _ _ hvalue
        split at h
        · rename_i tail'' hmark
          have hmark' := length_of_mark hmark
          have hrest := ihFields _ _ _ _ h
          omega
        · obtain ⟨tail'', hmark, heq⟩ := Option.map_eq_some_iff.mp h
          obtain ⟨-, rfl⟩ := Prod.mk.inj heq
          have hmark' := length_of_mark hmark
          omega

/-- More fuel than there is in `parse` changes nothing. -/
theorem readValue_succ (fuel : ℕ) :
    (∀ cs, 2 * cs.length + 1 ≤ fuel → readValue (fuel + 1) cs = readValue fuel cs) ∧
    (∀ items cs, 2 * cs.length + 2 ≤ fuel →
      readItems (fuel + 1) items cs = readItems fuel items cs) ∧
    ∀ fields cs, 2 * cs.length + 2 ≤ fuel →
      readFields (fuel + 1) fields cs = readFields fuel fields cs := by
  induction fuel with
  | zero =>
      refine ⟨?_, ?_, ?_⟩
      all_goals intros; omega
  | succ fuel ih =>
      obtain ⟨ihValue, ihItems, ihFields⟩ := ih
      obtain ⟨hlength, -, -⟩ := length_of_readValue fuel
      refine ⟨?_, ?_, ?_⟩
      · intro cs hcs
        have hskip := length_skipSpace_le cs
        rw [readValue, readValue]
        cases hspace : skipSpace cs with
        | nil => rfl
        | cons c tail =>
            rw [hspace, List.length_cons] at hskip
            simp only [ihItems [] tail (by omega), ihFields [] tail (by omega)]
      · intro items cs hcs
        rw [readItems, readItems, ihValue cs (by omega)]
        cases hvalue : readValue fuel cs with
        | none => rfl
        | some read =>
            obtain ⟨item, tail⟩ := read
            have hshort := hlength _ _ _ hvalue
            dsimp only
            cases hmark : mark ',' tail with
            | none => rfl
            | some tail' =>
                have hmark' := length_of_mark hmark
                exact ihItems _ _ (by omega)
      · intro fields cs hcs
        rw [readFields, readFields]
        cases hkey : readKey cs with
        | none => rfl
        | some read =>
            obtain ⟨key, tail⟩ := read
            have hshort := length_of_readKey hkey
            dsimp only
            rw [ihValue tail (by omega)]
            cases hvalue : readValue fuel tail with
            | none => rfl
            | some read =>
                obtain ⟨value, tail'⟩ := read
                have hshort' := hlength _ _ _ hvalue
                dsimp only
                cases hmark : mark ',' tail' with
                | none => rfl
                | some tail'' =>
                    have hmark' := length_of_mark hmark
                    exact ihFields _ _ (by omega)

/-- **`parse` is never short of fuel.** -/
theorem readValue_enough {fuel : ℕ} (h : 2 * cs.length + 1 ≤ fuel) :
    readValue fuel cs = readValue (2 * cs.length + 1) cs := by
  induction fuel with
  | zero => omega
  | succ fuel ih =>
      rcases Nat.eq_or_lt_of_le h with heq | hlt
      · rw [← heq]
      · rw [(readValue_succ fuel).1 cs (by omega), ih (by omega)]

end

end Value

end Js

end CommercePlatform
