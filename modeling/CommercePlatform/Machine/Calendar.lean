/-
The Gregorian calendar.

A day is a number, and the first of January 1970 is 0.  There is a closed form for the day on
which a year begins.  The other way round, a year is estimated by the mean length of a year;
the estimate is off by one at most, and is put right.  Months are taken off one after the
other, whatever their lengths are.
-/
import Mathlib.Algebra.GroupWithZero.Nat
import Mathlib.Data.Int.Init

namespace Calendar

/-! ### Years -/

/-- The day on which a year begins. -/
def dayFromYear (y : ℤ) : ℤ :=
  365 * (y - 1970) + (y - 1969) / 4 - (y - 1901) / 100 + (y - 1601) / 400

def IsLeap (y : ℤ) : Prop := y % 4 = 0 ∧ (y % 100 ≠ 0 ∨ y % 400 = 0)

instance (y : ℤ) : Decidable (IsLeap y) := inferInstanceAs (Decidable (_ ∧ _))

theorem dayFromYear_succ_of_leap {y : ℤ} (h : IsLeap y) :
    dayFromYear (y + 1) = dayFromYear y + 366 := by
  unfold IsLeap at h
  unfold dayFromYear
  omega

theorem dayFromYear_succ_of_not_leap {y : ℤ} (h : ¬ IsLeap y) :
    dayFromYear (y + 1) = dayFromYear y + 365 := by
  unfold IsLeap at h
  unfold dayFromYear
  omega

/-- The year of a day. -/
def yearFromDay (d : ℤ) : ℤ :=
  let y := 1970 + d * 400 / 146097
  if d < dayFromYear y then y - 1 else if dayFromYear (y + 1) ≤ d then y + 1 else y

/-- **A day is in its year.** -/
theorem dayFromYear_yearFromDay (d : ℤ) :
    dayFromYear (yearFromDay d) ≤ d ∧ d < dayFromYear (yearFromDay d + 1) := by
  unfold yearFromDay
  generalize hy : 1970 + d * 400 / 146097 = y
  dsimp only
  by_cases hbefore : d < dayFromYear y
  · rw [if_pos hbefore, Int.sub_add_cancel]
    refine ⟨?_, hbefore⟩
    unfold dayFromYear
    omega
  · rw [if_neg hbefore]
    by_cases hafter : dayFromYear (y + 1) ≤ d
    · rw [if_pos hafter]
      refine ⟨hafter, ?_⟩
      unfold dayFromYear
      omega
    · rw [if_neg hafter]
      omega

/-! ### Parts of given lengths -/

/-- The part in which an offset is, counted from 0, and how far in it. -/
def place : List ℕ → ℕ → ℕ × ℕ
  | [], d => (0, d)
  | n :: rest, d => if d < n then (0, d) else ((place rest (d - n)).1 + 1, (place rest (d - n)).2)

theorem sum_place (ns : List ℕ) (d : ℕ) : (ns.take (place ns d).1).sum + (place ns d).2 = d := by
  induction ns generalizing d with
  | nil => simp [place]
  | cons n rest ih =>
      unfold place
      by_cases hlt : d < n
      · rw [if_pos hlt]
        simp
      · rw [if_neg hlt, List.take_succ_cons, List.sum_cons]
        have hrest := ih (d - n)
        dsimp only
        omega

theorem place_lt {ns : List ℕ} {d : ℕ} (h : d < ns.sum) :
    (place ns d).1 < ns.length ∧ ∃ n ∈ ns, (place ns d).2 < n := by
  induction ns generalizing d with
  | nil => simp at h
  | cons n rest ih =>
      unfold place
      by_cases hlt : d < n
      · rw [if_pos hlt]
        exact ⟨by simp, n, by simp, hlt⟩
      · rw [if_neg hlt]
        rw [List.sum_cons] at h
        obtain ⟨hpart, m, hm, hoffset⟩ := ih (by omega : d - n < rest.sum)
        exact ⟨by simpa using hpart, m, List.mem_cons_of_mem _ hm, hoffset⟩

/-! ### Dates -/

def monthLengths (y : ℤ) : List ℕ :=
  [31, if IsLeap y then 29 else 28, 31, 30, 31, 30, 31, 31, 30, 31, 30, 31]

/-- A date.  Months and their days are counted from 0. -/
structure Date where
  year : ℤ
  month : Fin 12
  day : Fin 31
  deriving DecidableEq

def dayWithinYear (d : ℤ) : ℕ := (d - dayFromYear (yearFromDay d)).toNat

theorem dayWithinYear_lt (d : ℤ) : dayWithinYear d < (monthLengths (yearFromDay d)).sum := by
  obtain ⟨hbegun, hends⟩ := dayFromYear_yearFromDay d
  unfold dayWithinYear monthLengths
  by_cases hleap : IsLeap (yearFromDay d)
  · rw [dayFromYear_succ_of_leap hleap] at hends
    simp only [if_pos hleap, List.sum_cons, List.sum_nil]
    omega
  · rw [dayFromYear_succ_of_not_leap hleap] at hends
    simp only [if_neg hleap, List.sum_cons, List.sum_nil]
    omega

theorem length_le_of_mem {y : ℤ} {n : ℕ} (h : n ∈ monthLengths y) : n ≤ 31 := by
  unfold monthLengths at h
  simp only [List.mem_cons, List.not_mem_nil, or_false] at h
  by_cases hleap : IsLeap y
  · rw [if_pos hleap] at h
    omega
  · rw [if_neg hleap] at h
    omega

/-- The date of a day. -/
def dateFromDay (d : ℤ) : Date where
  year := yearFromDay d
  month := ⟨(place (monthLengths (yearFromDay d)) (dayWithinYear d)).1,
    (place_lt (dayWithinYear_lt d)).1⟩
  day := ⟨(place (monthLengths (yearFromDay d)) (dayWithinYear d)).2, by
    obtain ⟨-, n, hn, hlt⟩ := place_lt (dayWithinYear_lt d)
    exact Nat.lt_of_lt_of_le hlt (length_le_of_mem hn)⟩

def Date.toDay (date : Date) : ℤ :=
  dayFromYear date.year + ((monthLengths date.year).take date.month).sum + date.day

/-- **A date is that of one day.** -/
theorem toDay_dateFromDay (d : ℤ) : (dateFromDay d).toDay = d := by
  have hplace := sum_place (monthLengths (yearFromDay d)) (dayWithinYear d)
  have hbegun := (dayFromYear_yearFromDay d).1
  have hwithin : (dayWithinYear d : ℤ) = d - dayFromYear (yearFromDay d) := by
    unfold dayWithinYear
    omega
  show dayFromYear (yearFromDay d) + (((monthLengths (yearFromDay d)).take
    (place (monthLengths (yearFromDay d)) (dayWithinYear d)).1).sum : ℕ) +
      ((place (monthLengths (yearFromDay d)) (dayWithinYear d)).2 : ℕ) = d
  omega

example : dateFromDay 11016 = { year := 2000, month := 1, day := 28 } := by decide

end Calendar
