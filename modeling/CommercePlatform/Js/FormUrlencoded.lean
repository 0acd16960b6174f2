/-
The form in which names and values stand in the query of a URL.

`URLSearchParams` writes each name and each value as UTF-8, a blank as `+`, a letter, a
digit and four signs as they are, and any other byte as `%` with two digits.  The
separators are thus in no name and in no value, and the pairs are read as they were
written, whatever is in them.

All of it is ASCII, so the bytes are defined first and the text is made of them.
-/
import CommercePlatform.Js.Buffer
import CommercePlatform.Js.Utf16
import Mathlib.Data.List.TakeWhile

namespace CommercePlatform

namespace Js

/-! ### ASCII -/

/-- The text of bytes that are all ASCII. -/
def asciiText (bytes : Bytes) : String := String.ofList (bytes.map fun b => Char.ofNat b.toNat)

theorem utf8EncodeChar_ascii {b : UInt8} (h : b.toNat < 128) :
    String.utf8EncodeChar (Char.ofNat b.toNat) = [b] := by
  have hval : (Char.ofNat b.toNat).val.toNat = b.toNat :=
    Utf16.toNat_charOfNat (Or.inl (by omega))
  unfold String.utf8EncodeChar
  simp [hval, show b.toNat ≤ 127 by omega]

theorem ofText_asciiText {bytes : Bytes} (h : ∀ b ∈ bytes, b.toNat < 128) :
    Buffer.ofText (asciiText bytes) = bytes := by
  unfold Buffer.ofText asciiText
  rw [String.toList_ofList]
  induction bytes with
  | nil => rfl
  | cons b rest ih =>
      rw [List.map_cons, List.flatMap_cons, utf8EncodeChar_ascii (h b List.mem_cons_self),
        ih fun c hc => h c (List.mem_cons_of_mem _ hc)]
      rfl

namespace UrlSearchParams

/-! ### Writing -/

/-- Letters, digits and `*-._`. -/
def Unreserved (b : UInt8) : Prop :=
  (48 ≤ b.toNat ∧ b.toNat ≤ 57) ∨ (65 ≤ b.toNat ∧ b.toNat ≤ 90) ∨
    (97 ≤ b.toNat ∧ b.toNat ≤ 122) ∨
    b.toNat = 42 ∨ b.toNat = 45 ∨ b.toNat = 46 ∨ b.toNat = 95

instance (b : UInt8) : Decidable (Unreserved b) := inferInstanceAs (Decidable (_ ∨ _))

def ampersand : UInt8 := 38
def equals : UInt8 := 61
def plus : UInt8 := 43
def percent : UInt8 := 37
def blank : UInt8 := 32

/-- The digit of a value below sixteen, in upper case. -/
def upperDigit (n : ℕ) : UInt8 := UInt8.ofNat (if n < 10 then 48 + n else 55 + n)

def encodeByte (b : UInt8) : Bytes :=
  if b = blank then [plus]
  else if Unreserved b then [b]
  else [percent, upperDigit (b.toNat / 16), upperDigit (b.toNat % 16)]

/-- A name or a value. -/
def encode (text : String) : Bytes := (Buffer.ofText text).flatMap encodeByte

def encodePair (pair : String × String) : Bytes := encode pair.1 ++ equals :: encode pair.2

def serialize (pairs : List (String × String)) : Bytes :=
  [ampersand].intercalate (pairs.map encodePair)

/-- `params.toString()`. -/
def toString (pairs : List (String × String)) : String := asciiText (serialize pairs)

/-! ### Reading -/

/-- The value of a digit, in either case. -/
def digitValue (b : UInt8) : Option ℕ := Buffer.unhex (Char.ofNat b.toNat)

/-- What is no escape stays as it is. -/
def percentDecode : Bytes → Bytes
  | [] => []
  | [b] => [b]
  | [b, c] => [b, c]
  | b :: c :: d :: rest =>
      match digitValue c, digitValue d with
      | some x, some y =>
          if b = percent then UInt8.ofNat (16 * x + y) :: percentDecode rest
          else b :: percentDecode (c :: d :: rest)
      | _, _ => b :: percentDecode (c :: d :: rest)

def blanks (bytes : Bytes) : Bytes := bytes.map fun b => if b = plus then blank else b

def decode (bytes : Bytes) : String := Buffer.toText (percentDecode (blanks bytes))

/-- The name ends at the first `=`, if there is one. -/
def decodePair (bytes : Bytes) : String × String :=
  (decode (bytes.takeWhile (· ≠ equals)), decode ((bytes.dropWhile (· ≠ equals)).drop 1))

/-- Nothing between two separators is no pair. -/
def deserialize (bytes : Bytes) : List (String × String) :=
  ((bytes.splitOn ampersand).filter (· ≠ [])).map decodePair

/-- `new URLSearchParams(text)`, for a text that does not begin with `?`. -/
def parse (text : String) : List (String × String) := deserialize (Buffer.ofText text)

/-! ### One name or value -/

theorem toNat_upperDigit {n : ℕ} (h : n < 16) :
    (upperDigit n).toNat = if n < 10 then 48 + n else 55 + n := by
  rw [upperDigit, UInt8.toNat_ofNat']
  by_cases hn : n < 10
  · rw [if_pos hn]
    omega
  · rw [if_neg hn]
    omega

theorem unreserved_upperDigit {n : ℕ} (h : n < 16) : Unreserved (upperDigit n) := by
  unfold Unreserved
  rw [toNat_upperDigit h]
  by_cases hn : n < 10
  · rw [if_pos hn]
    omega
  · rw [if_neg hn]
    omega

theorem digitValue_upperDigit {n : ℕ} (h : n < 16) : digitValue (upperDigit n) = some n := by
  interval_cases n <;> decide

/-- What a name or a value is written with. -/
def Written (b : UInt8) : Prop := Unreserved b ∨ b = plus ∨ b = percent

theorem written_of_mem {b c : UInt8} (h : c ∈ encodeByte b) : Written c := by
  have hb : b.toNat < 256 := b.toNat_lt
  unfold encodeByte at h
  split at h
  · exact Or.inr (Or.inl (List.mem_singleton.mp h))
  · split at h
    · rename_i hunreserved
      rw [List.mem_singleton.mp h]
      exact Or.inl hunreserved
    · simp only [List.mem_cons, List.not_mem_nil, or_false] at h
      rcases h with h | h | h
      · exact Or.inr (Or.inr h)
      · rw [h]
        exact Or.inl (unreserved_upperDigit (by omega))
      · rw [h]
        exact Or.inl (unreserved_upperDigit (by omega))

theorem written_of_mem_encode {text : String} {c : UInt8} (h : c ∈ encode text) : Written c := by
  obtain ⟨b, -, hc⟩ := List.mem_flatMap.mp h
  exact written_of_mem hc

theorem Written.toNat_lt {b : UInt8} (h : Written b) : b.toNat < 128 := by
  rcases h with h | rfl | rfl
  · unfold Unreserved at h
    omega
  · decide
  · decide

theorem Written.ne_ampersand {b : UInt8} (h : Written b) : b ≠ ampersand := by
  rintro rfl
  revert h
  unfold Written
  decide

theorem Written.ne_equals {b : UInt8} (h : Written b) : b ≠ equals := by
  rintro rfl
  revert h
  unfold Written
  decide

theorem percentDecode_cons {b : UInt8} (h : b ≠ percent) (rest : Bytes) :
    percentDecode (b :: rest) = b :: percentDecode rest := by
  match rest with
  | [] => rfl
  | [c] => rfl
  | c :: d :: rest =>
      rw [percentDecode]
      split
      · rw [if_neg h]
      · rfl

theorem percentDecode_escape (b : UInt8) (rest : Bytes) :
    percentDecode (percent :: upperDigit (b.toNat / 16) :: upperDigit (b.toNat % 16) :: rest)
      = b :: percentDecode rest := by
  have hb : b.toNat < 256 := b.toNat_lt
  have hbyte : UInt8.ofNat (16 * (b.toNat / 16) + b.toNat % 16) = b := by
    rw [Nat.div_add_mod]
    exact UInt8.ofNat_toNat
  rw [percentDecode, digitValue_upperDigit (by omega), digitValue_upperDigit (by omega)]
  simp [hbyte]

theorem ne_plus_of_unreserved {b : UInt8} (h : Unreserved b) : b ≠ plus := by
  rintro rfl
  revert h
  decide

theorem ne_percent_of_unreserved {b : UInt8} (h : Unreserved b) : b ≠ percent := by
  rintro rfl
  revert h
  decide

theorem blanks_of_unreserved {b : UInt8} (h : Unreserved b) (rest : Bytes) :
    blanks (b :: rest) = b :: blanks rest := by
  simp [blanks, ne_plus_of_unreserved h]

/-- The blanks are put back before the escapes are read, so an escaped `+` stays one. -/
theorem percentDecode_encodeByte (b : UInt8) (rest : Bytes) :
    percentDecode (blanks (encodeByte b ++ rest)) = b :: percentDecode (blanks rest) := by
  have hb : b.toNat < 256 := b.toNat_lt
  unfold encodeByte
  split
  · rename_i hblank
    rw [hblank]
    show percentDecode (blank :: blanks rest) = blank :: percentDecode (blanks rest)
    exact percentDecode_cons (by decide) _
  · split
    · rename_i hunreserved
      show percentDecode (blanks (b :: rest)) = _
      rw [blanks_of_unreserved hunreserved, percentDecode_cons (ne_percent_of_unreserved hunreserved)]
    · have hhigh := unreserved_upperDigit (show b.toNat / 16 < 16 by omega)
      have hlow := unreserved_upperDigit (show b.toNat % 16 < 16 by omega)
      show percentDecode (percent ::
        blanks (upperDigit (b.toNat / 16) :: upperDigit (b.toNat % 16) :: rest)) = _
      rw [blanks_of_unreserved hhigh, blanks_of_unreserved hlow, percentDecode_escape]

theorem percentDecode_encode (bytes : Bytes) :
    percentDecode (blanks (bytes.flatMap encodeByte)) = bytes := by
  induction bytes with
  | nil => rfl
  | cons b rest ih => rw [List.flatMap_cons, percentDecode_encodeByte, ih]

theorem decode_encode (text : String) : decode (encode text) = text := by
  rw [decode, encode, percentDecode_encode, Buffer.toText_ofText]

/-! ### The pairs -/

theorem takeWhile_append_cons {bytes : Bytes} {b : UInt8} (h : ∀ c ∈ bytes, c ≠ b) (rest : Bytes) :
    (bytes ++ b :: rest).takeWhile (· ≠ b) = bytes ∧
      (bytes ++ b :: rest).dropWhile (· ≠ b) = b :: rest := by
  have hall : ∀ c ∈ bytes, decide (c ≠ b) = true := fun c hc => decide_eq_true (h c hc)
  rw [List.takeWhile_append_of_pos hall, List.dropWhile_append_of_pos hall]
  simp

theorem decodePair_encodePair (pair : String × String) : decodePair (encodePair pair) = pair := by
  have hname : ∀ c ∈ encode pair.1, c ≠ equals := fun c hc =>
    (written_of_mem_encode hc).ne_equals
  obtain ⟨htake, hdrop⟩ := takeWhile_append_cons hname (encode pair.2)
  unfold decodePair encodePair
  rw [htake, hdrop, List.drop_succ_cons, List.drop_zero, decode_encode, decode_encode]

theorem encodePair_ne_nil (pair : String × String) : encodePair pair ≠ [] := by
  simp [encodePair]

theorem ampersand_notMem_encodePair (pair : String × String) : ampersand ∉ encodePair pair := by
  intro h
  rcases List.mem_append.mp h with h | h
  · exact (written_of_mem_encode h).ne_ampersand rfl
  · rcases List.mem_cons.mp h with h | h
    · revert h
      decide
    · exact (written_of_mem_encode h).ne_ampersand rfl

theorem deserialize_serialize (pairs : List (String × String)) :
    deserialize (serialize pairs) = pairs := by
  cases pairs with
  | nil => rfl
  | cons pair rest =>
      have hno : ∀ bytes ∈ (pair :: rest).map encodePair, ampersand ∉ bytes := by
        intro bytes hbytes
        obtain ⟨other, -, rfl⟩ := List.mem_map.mp hbytes
        exact ampersand_notMem_encodePair other
      have hall : ∀ bytes ∈ (pair :: rest).map encodePair, decide (bytes ≠ []) = true := by
        intro bytes hbytes
        obtain ⟨other, -, rfl⟩ := List.mem_map.mp hbytes
        exact decide_eq_true (encodePair_ne_nil other)
      have hdecode : decodePair ∘ encodePair = id := funext decodePair_encodePair
      rw [deserialize, serialize, List.splitOn_intercalate ampersand hno (by simp),
        List.filter_eq_self.mpr hall, List.map_map, hdecode, List.map_id]

/-- What stands in a query: nothing that ends it or that a URL would have to escape. -/
def InQuery (b : UInt8) : Prop := Written b ∨ b = ampersand ∨ b = equals

theorem inQuery_encodePair {pair : String × String} {b : UInt8} (h : b ∈ encodePair pair) :
    InQuery b := by
  rcases List.mem_append.mp h with h | h
  · exact Or.inl (written_of_mem_encode h)
  · rcases List.mem_cons.mp h with h | h
    · exact Or.inr (Or.inr h)
    · exact Or.inl (written_of_mem_encode h)

theorem inQuery_serialize {pairs : List (String × String)} {b : UInt8}
    (h : b ∈ serialize pairs) : InQuery b := by
  induction pairs with
  | nil => simp [serialize] at h
  | cons pair rest ih =>
      unfold serialize at h ih
      by_cases hrest : rest = []
      · rw [hrest, List.map_cons, List.map_nil, List.intercalate_singleton] at h
        exact inQuery_encodePair h
      · rw [List.map_cons, List.intercalate_cons_of_ne_nil (by simpa using hrest)] at h
        simp only [List.mem_append, List.mem_singleton] at h
        rcases h with (h | h) | h
        · exact inQuery_encodePair h
        · exact Or.inr (Or.inl h)
        · exact ih h

theorem InQuery.toNat_lt {b : UInt8} (h : InQuery b) : b.toNat < 128 := by
  rcases h with h | rfl | rfl
  · exact h.toNat_lt
  · decide
  · decide

/-- **The pairs are read as they were written.** -/
theorem parse_toString (pairs : List (String × String)) : parse (toString pairs) = pairs := by
  rw [parse, toString, ofText_asciiText fun b hb => (inQuery_serialize hb).toNat_lt,
    deserialize_serialize]

theorem encodeByte_alphanum {c : Char} (h : c.isAlphanum = true) :
    ∃ b : UInt8, String.utf8EncodeChar c = [b] ∧ encodeByte b = [b] ∧ Char.ofNat b.toNat = c := by
  have hrange : (65 ≤ c.toNat ∧ c.toNat ≤ 90) ∨ (97 ≤ c.toNat ∧ c.toNat ≤ 122) ∨
      (48 ≤ c.toNat ∧ c.toNat ≤ 57) := by
    have hcases : c.isUpper = true ∨ c.isLower = true ∨ c.isDigit = true := by
      rcases Bool.or_eq_true_iff.mp h with halpha | hdigit
      · rcases Bool.or_eq_true_iff.mp halpha with hupper | hlower
        · exact Or.inl hupper
        · exact Or.inr (Or.inl hlower)
      · exact Or.inr (Or.inr hdigit)
    rcases hcases with hupper | hlower | hdigit
    · exact Or.inl (of_decide_eq_true hupper)
    · obtain ⟨hleft, hright⟩ := Bool.and_eq_true_iff.mp hlower
      exact Or.inr (Or.inl ⟨of_decide_eq_true hleft, of_decide_eq_true hright⟩)
    · obtain ⟨hleft, hright⟩ := Bool.and_eq_true_iff.mp hdigit
      exact Or.inr (Or.inr ⟨of_decide_eq_true hleft, of_decide_eq_true hright⟩)
  have hbyte : (UInt8.ofNat c.toNat).toNat = c.toNat := by
    rw [UInt8.toNat_ofNat']
    omega
  have hchar : Char.ofNat (UInt8.ofNat c.toNat).toNat = c := by
    rw [hbyte, Char.ofNat_toNat]
  have hunreserved : Unreserved (UInt8.ofNat c.toNat) := by
    unfold Unreserved
    omega
  have hblank : UInt8.ofNat c.toNat ≠ blank := by
    intro heq
    have hnat : (UInt8.ofNat c.toNat).toNat = 32 := congrArg UInt8.toNat heq
    omega
  refine ⟨UInt8.ofNat c.toNat, ?_, ?_, hchar⟩
  · have hencoded : String.utf8EncodeChar (Char.ofNat (UInt8.ofNat c.toNat).toNat) = _ :=
      utf8EncodeChar_ascii (by omega)
    rwa [hchar] at hencoded
  · rw [encodeByte, if_neg hblank, if_pos hunreserved]

/-- A text of letters and digits is written as it is. -/
theorem map_encode_alphanum {text : String} (h : ∀ c ∈ text.toList, c.isAlphanum = true) :
    (encode text).map (fun b => Char.ofNat b.toNat) = text.toList := by
  unfold encode Buffer.ofText
  generalize text.toList = cs at h ⊢
  induction cs with
  | nil => rfl
  | cons c rest ih =>
      obtain ⟨b, hencoded, hbyte, hchar⟩ := encodeByte_alphanum (h c List.mem_cons_self)
      rw [List.flatMap_cons, List.flatMap_append, hencoded, List.flatMap_singleton, hbyte,
        List.map_append, ih fun d hd => h d (List.mem_cons_of_mem _ hd), List.map_singleton, hchar]
      rfl

theorem toString_alphanum {name value : String}
    (h : ∀ c ∈ name.toList ++ value.toList, c.isAlphanum = true) :
    toString [(name, value)] = name ++ "=" ++ value := by
  have hname := map_encode_alphanum fun c hc => h c (List.mem_append_left _ hc)
  have hvalue := map_encode_alphanum fun c hc => h c (List.mem_append_right _ hc)
  apply String.toList_injective
  rw [toString, asciiText, String.toList_ofList, serialize, List.map_singleton,
    List.intercalate_singleton, encodePair, List.map_append, List.map_cons, hname, hvalue,
    String.toList_append, String.toList_append, List.append_assoc]
  rfl

theorem hash_notMem_toString (pairs : List (String × String)) :
    '#' ∉ (toString pairs).toList := by
  intro h
  rw [toString, asciiText, String.toList_ofList] at h
  obtain ⟨b, hb, hchar⟩ := List.mem_map.mp h
  have hvalue : b.toNat = 35 := by
    have hnat := congrArg Char.toNat hchar
    rwa [Utf16.toNat_charOfNat (Or.inl (by have := (inQuery_serialize hb).toNat_lt; omega))] at hnat
  have hbyte : b = 35 := UInt8.toNat_inj.mp hvalue
  have hquery := inQuery_serialize hb
  rw [hbyte] at hquery
  revert hquery
  unfold InQuery Written
  decide

end UrlSearchParams

/-- What is before the query of a URL, and the pairs in it.  A fragment is no part of either. -/
def readUrl (url : String) : String × List (String × String) :=
  let rest := url.toList.takeWhile (· ≠ '#')
  (String.ofList (rest.takeWhile (· ≠ '?')),
    UrlSearchParams.parse (String.ofList ((rest.dropWhile (· ≠ '?')).drop 1)))

/-- **A URL with a query is read as it was put together.** -/
theorem readUrl_query {base : String} (hquery : '?' ∉ base.toList) (hfragment : '#' ∉ base.toList)
    (pairs : List (String × String)) :
    readUrl (base ++ "?" ++ UrlSearchParams.toString pairs) = (base, pairs) := by
  have htext : (base ++ "?" ++ UrlSearchParams.toString pairs).toList =
      base.toList ++ '?' :: (UrlSearchParams.toString pairs).toList := by
    rw [String.toList_append, String.toList_append, List.append_assoc]
    rfl
  have hno : ∀ c ∈ base.toList ++ '?' :: (UrlSearchParams.toString pairs).toList,
      decide (c ≠ '#') = true := by
    intro c hc
    apply decide_eq_true
    rintro rfl
    rcases List.mem_append.mp hc with hc | hc
    · exact hfragment hc
    · rcases List.mem_cons.mp hc with hc | hc
      · revert hc
        decide
      · exact UrlSearchParams.hash_notMem_toString pairs hc
  have hbase : ∀ c ∈ base.toList, decide (c ≠ '?') = true := by
    intro c hc
    apply decide_eq_true
    rintro rfl
    exact hquery hc
  have htake : (base.toList ++ '?' :: (UrlSearchParams.toString pairs).toList).takeWhile
      (· ≠ '#') = base.toList ++ '?' :: (UrlSearchParams.toString pairs).toList :=
    List.takeWhile_eq_self_iff.mpr hno
  unfold readUrl
  rw [htext, htake]
  dsimp only
  rw [List.takeWhile_append_of_pos hbase, List.dropWhile_append_of_pos hbase,
    List.takeWhile_cons_of_neg (by decide), List.dropWhile_cons_of_neg (by decide),
    List.drop_one, List.tail_cons, List.append_nil, String.ofList_toList, String.ofList_toList,
    UrlSearchParams.parse_toString]

end Js

end CommercePlatform
