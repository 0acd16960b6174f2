/-
Times as texts.

`toISOString` writes the milliseconds since 1970 as a date and a time of day in UTC, and raises
for a time that no `Date` has.  What it writes is read back as the same time: the fields are of
fixed width, so each is read without the others, and the date is that of one day.
-/
import CommercePlatform.Js.Literal
import CommercePlatform.Machine.Calendar

namespace CommercePlatform

namespace Js

namespace Date

/-! ### Dates with a time of day -/

structure DateTime where
  date : Calendar.Date
  hour : Fin 24
  minute : Fin 60
  second : Fin 60
  ms : Fin 1000
  deriving DecidableEq

def ofMs (t : ℤ) : DateTime where
  date := Calendar.dateFromDay (t / 86400000)
  hour := ⟨(t % 86400000).toNat / 3600000, by omega⟩
  minute := ⟨(t % 86400000).toNat / 60000 % 60, by omega⟩
  second := ⟨(t % 86400000).toNat / 1000 % 60, by omega⟩
  ms := ⟨(t % 86400000).toNat % 1000, by omega⟩

def DateTime.toMs (time : DateTime) : ℤ :=
  time.date.toDay * 86400000 +
    (((time.hour * 60 + time.minute) * 60 + time.second) * 1000 + time.ms : ℕ)

theorem toMs_ofMs (t : ℤ) : (ofMs t).toMs = t := by
  have hday := Calendar.toDay_dateFromDay (t / 86400000)
  show (Calendar.dateFromDay (t / 86400000)).toDay * 86400000 +
    ((((t % 86400000).toNat / 3600000 * 60 + (t % 86400000).toNat / 60000 % 60) * 60 +
      (t % 86400000).toNat / 1000 % 60) * 1000 + (t % 86400000).toNat % 1000 : ℕ) = t
  rw [hday]
  omega

/-! ### Writing -/

/-- A number, with zeros in front up to a width. -/
def pad (width n : ℕ) : List Char :=
  List.replicate (width - (Nat.toDigits 10 n).length) '0' ++ Nat.toDigits 10 n

/-- Four digits, or a sign and six. -/
def yearText (y : ℤ) : List Char :=
  if 0 ≤ y ∧ y ≤ 9999 then pad 4 y.toNat
  else (if y < 0 then '-' else '+') :: pad 6 y.natAbs

def DateTime.text (time : DateTime) : List Char :=
  yearText time.date.year ++ '-' :: (pad 2 (time.date.month + 1) ++ '-' ::
    (pad 2 (time.date.day + 1) ++ 'T' :: (pad 2 time.hour ++ ':' :: (pad 2 time.minute ++ ':' ::
      (pad 2 time.second ++ '.' :: (pad 3 time.ms ++ ['Z']))))))

/-- The times that a `Date` can have. -/
def InRange (t : ℤ) : Prop := -8640000000000000 ≤ t ∧ t ≤ 8640000000000000

instance (t : ℤ) : Decidable (InRange t) := inferInstanceAs (Decidable (_ ∧ _))

/-- `date.toISOString()`, or none where it raises. -/
def toISOString (t : ℤ) : Option String :=
  if InRange t then some (String.ofList (ofMs t).text) else none

/-! ### Reading -/

/-- A number of so many digits, and what is after it. -/
def readField (width : ℕ) (cs : List Char) : Option (ℕ × List Char) :=
  if (cs.take width).length = width ∧ (cs.take width).all Char.isDigit then
    some (natural (cs.take width), cs.drop width)
  else none

/-- The same after a sign that stands before it. -/
def readAfter (sign : Char) (width : ℕ) : List Char → Option (ℕ × List Char)
  | [] => none
  | c :: cs => if c = sign then readField width cs else none

def readYear : List Char → Option (ℤ × List Char)
  | '+' :: cs => (readField 6 cs).map fun read => ((read.1 : ℤ), read.2)
  | '-' :: cs => (readField 6 cs).bind fun read =>
      if read.1 = 0 then none else some (-(read.1 : ℤ), read.2)
  | cs => (readField 4 cs).map fun read => ((read.1 : ℤ), read.2)

/-- The numbers of a date and a time of day, as they are written. -/
def InFields (month day hour minute second ms : ℕ) : Prop :=
  (0 < month ∧ month ≤ 12) ∧ (0 < day ∧ day ≤ 31) ∧ hour < 24 ∧ minute < 60 ∧ second < 60 ∧ ms < 1000

instance (month day hour minute second ms : ℕ) :
    Decidable (InFields month day hour minute second ms) :=
  inferInstanceAs (Decidable (_ ∧ _))

def DateTime.ofFields (year : ℤ) (month day hour minute second ms : ℕ)
    (h : InFields month day hour minute second ms) : DateTime where
  date := {
    year := year
    month := ⟨month - 1, by unfold InFields at h; omega⟩
    day := ⟨day - 1, by unfold InFields at h; omega⟩ }
  hour := ⟨hour, h.2.2.1⟩
  minute := ⟨minute, h.2.2.2.1⟩
  second := ⟨second, h.2.2.2.2.1⟩
  ms := ⟨ms, h.2.2.2.2.2⟩

def readDateTime (cs : List Char) : Option DateTime := do
  let (year, cs) ← readYear cs
  let (month, cs) ← readAfter '-' 2 cs
  let (day, cs) ← readAfter '-' 2 cs
  let (hour, cs) ← readAfter 'T' 2 cs
  let (minute, cs) ← readAfter ':' 2 cs
  let (second, cs) ← readAfter ':' 2 cs
  let (ms, cs) ← readAfter '.' 3 cs
  if h : InFields month day hour minute second ms then
    if cs = ['Z'] then return .ofFields year month day hour minute second ms h else none
  else none

/-- `new Date(text).getTime()`, of a text in the form that `toISOString` writes. -/
def parse (text : String) : Option ℤ :=
  (readDateTime text.toList).bind fun time => if InRange time.toMs then some time.toMs else none

theorem length_pad {width n : ℕ} (hwidth : 0 < width) (h : n < 10 ^ width) :
    (pad width n).length = width := by
  have hlength := (Nat.length_toDigits_le_iff (by decide : 1 < 10) hwidth).mpr h
  unfold pad
  rw [List.length_append, List.length_replicate]
  omega

theorem isDigit_of_mem_pad {width n : ℕ} {c : Char} (h : c ∈ pad width n) : c.isDigit = true := by
  rcases List.mem_append.mp h with hzero | hdigit
  · rw [List.eq_of_mem_replicate hzero]
    rfl
  · exact Nat.isDigit_of_mem_toDigits (by decide) (by decide) hdigit

theorem natural_pad (width n : ℕ) : natural (pad width n) = n := by
  rw [pad, natural_zeros_append]
  exact Nat.ofDigitChars_ten_toDigits

theorem readField_pad {width n : ℕ} (hwidth : 0 < width) (h : n < 10 ^ width) (rest : List Char) :
    readField width (pad width n ++ rest) = some (n, rest) := by
  have hlength := length_pad hwidth h
  have hall : (pad width n).all Char.isDigit = true :=
    List.all_eq_true.mpr fun c hc => isDigit_of_mem_pad hc
  rw [readField, List.take_left' hlength, List.drop_left' hlength, if_pos ⟨hlength, hall⟩,
    natural_pad]

theorem readAfter_pad (sign : Char) {width n : ℕ} (hwidth : 0 < width) (h : n < 10 ^ width)
    (rest : List Char) : readAfter sign width (sign :: (pad width n ++ rest)) = some (n, rest) := by
  rw [readAfter, if_pos rfl, readField_pad hwidth h]

theorem readYear_of_digit {c : Char} {cs : List Char} (h : c.isDigit = true) :
    readYear (c :: cs) = (readField 4 (c :: cs)).map fun read => ((read.1 : ℤ), read.2) := by
  unfold readYear
  split
  · rename_i heq
    obtain ⟨rfl, -⟩ := List.cons.inj heq
    simp at h
  · rename_i heq
    obtain ⟨rfl, -⟩ := List.cons.inj heq
    simp at h
  · rfl

theorem readYear_yearText {y : ℤ} (h : y.natAbs < 1000000) (rest : List Char) :
    readYear (yearText y ++ rest) = some (y, rest) := by
  unfold yearText
  by_cases hshort : 0 ≤ y ∧ y ≤ 9999
  · rw [if_pos hshort]
    have hread := readField_pad (by decide : 0 < 4) (by omega : y.toNat < 10 ^ 4) rest
    cases hpad : pad 4 y.toNat with
    | nil =>
        have hlength := length_pad (by decide : 0 < 4) (by omega : y.toNat < 10 ^ 4)
        simp [hpad] at hlength
    | cons c cs =>
        have hdigit : c.isDigit = true := isDigit_of_mem_pad (hpad ▸ List.mem_cons_self)
        rw [hpad, List.cons_append] at hread
        rw [List.cons_append, readYear_of_digit hdigit, hread, Option.map_some,
          Int.toNat_of_nonneg hshort.1]
  · rw [if_neg hshort]
    have hread := readField_pad (by decide : 0 < 6) (by omega : y.natAbs < 10 ^ 6) rest
    by_cases hneg : y < 0
    · rw [if_pos hneg, List.cons_append]
      show ((readField 6 (pad 6 y.natAbs ++ rest)).bind fun read => _) = _
      rw [hread, Option.bind_some, if_neg (by omega)]
      congr 2
      omega
    · rw [if_neg hneg, List.cons_append]
      show ((readField 6 (pad 6 y.natAbs ++ rest)).map fun read => _) = _
      rw [hread, Option.map_some]
      congr 2
      omega

/-- The years of the times that a `Date` can have are of six digits at most. -/
theorem natAbs_year_lt {t : ℤ} (h : InRange t) : (ofMs t).date.year.natAbs < 1000000 := by
  obtain ⟨hbegun, hends⟩ := Calendar.dayFromYear_yearFromDay (t / 86400000)
  have hyear : (ofMs t).date.year = Calendar.yearFromDay (t / 86400000) := rfl
  rw [hyear]
  unfold InRange at h
  unfold Calendar.dayFromYear at hbegun hends
  omega

theorem readDateTime_text {time : DateTime} (h : time.date.year.natAbs < 1000000) :
    readDateTime time.text = some time := by
  obtain ⟨⟨year, month, day⟩, hour, minute, second, ms⟩ := time
  have htwo : ∀ (sign : Char) (n : ℕ) (rest : List Char), n < 100 →
      readAfter sign 2 (sign :: (pad 2 n ++ rest)) = some (n, rest) :=
    fun sign n rest hn => readAfter_pad sign (by decide) hn rest
  have hthree : ∀ (n : ℕ) (rest : List Char), n < 1000 →
      readAfter '.' 3 ('.' :: (pad 3 n ++ rest)) = some (n, rest) :=
    fun n rest hn => readAfter_pad '.' (by decide) hn rest
  unfold readDateTime DateTime.text
  simp only [readYear_yearText h, htwo _ _ _ (show (month : ℕ) + 1 < 100 by omega),
    htwo _ _ _ (show (day : ℕ) + 1 < 100 by omega), htwo _ _ _ (show (hour : ℕ) < 100 by omega),
    htwo _ _ _ (show (minute : ℕ) < 100 by omega), htwo _ _ _ (show (second : ℕ) < 100 by omega),
    hthree _ _ ms.isLt, Option.bind_eq_bind, Option.bind_some]
  have hfields : InFields (month + 1) (day + 1) hour minute second ms :=
    ⟨⟨by omega, by omega⟩, ⟨by omega, by omega⟩, hour.isLt, minute.isLt, second.isLt, ms.isLt⟩
  rw [dif_pos hfields]
  rfl

/-- **A time is read as it was written.** -/
theorem parse_toISOString {t : ℤ} {text : String} (h : toISOString t = some text) :
    parse text = some t := by
  obtain ⟨hrange, htext⟩ := (Option.ite_none_right_eq_some ..).mp h
  obtain rfl := Option.some.inj htext
  rw [parse, String.toList_ofList, readDateTime_text (natAbs_year_lt hrange), Option.bind_some,
    toMs_ofMs, if_pos hrange]

example : toISOString (-62198755200001) = some "-000002-12-31T23:59:59.999Z" := by decide +kernel

end Date

end Js

end CommercePlatform
