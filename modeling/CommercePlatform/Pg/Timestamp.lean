/-
Times that are reckoned, and stored.

A time that lies some seconds ahead is reckoned in doubles, and `Date` takes what comes out if it
is a number that is not too large; what is left of a millisecond is dropped.  Any other `Date` is
no time, and the server does not read what it prints as.  Of the times that a `Date` can have the
server has all but the first ones: its calendar begins in 4714 BC, and ends later.
-/
import CommercePlatform.Js.IsoDate
import CommercePlatform.Js.ToNumber

namespace CommercePlatform

namespace Js

/-! ### Doubles with a sign -/

/-- The nearest double, if there were no largest one. -/
def toDouble (q : ℚ) : ℚ := if q < 0 then -nearest (-q) else nearest q

/-- A whole number of 53 binary places is a double. -/
theorem nearest_natCast {n : ℕ} (h : n < 2 ^ 53) : nearest n = n := by
  have hplace : lastPlace n ≤ 0 := by
    unfold lastPlace
    rw [Int.log_natCast]
    have hlog : Nat.log 2 n < 53 := by
      by_cases hzero : n = 0
      · simp [hzero]
      · exact Nat.log_lt_of_lt_pow hzero h
    omega
  obtain ⟨k, hk⟩ := Int.eq_ofNat_of_zero_le (Int.neg_nonneg.mpr hplace)
  apply nearest_of_multiple (m := n * 2 ^ k)
  have hsplit : lastPlace n = -(k : ℤ) := by omega
  rw [hsplit, zpow_neg, zpow_natCast]
  push_cast
  field_simp

theorem toDouble_intCast {z : ℤ} (h : z.natAbs < 2 ^ 53) : toDouble z = z := by
  unfold toDouble
  split
  · rename_i hneg
    have hz : z < 0 := by exact_mod_cast hneg
    have habs : -(z : ℚ) = (z.natAbs : ℚ) := by
      rw [← Int.cast_natCast, Int.ofNat_natAbs_of_nonpos hz.le, Int.cast_neg]
    rw [habs, nearest_natCast h, ← habs, neg_neg]
  · rename_i hpos
    have hz : 0 ≤ z := by
      by_contra hneg
      exact hpos (by exact_mod_cast (not_le.mp hneg))
    have habs : (z : ℚ) = (z.natAbs : ℚ) := by
      rw [← Int.cast_natCast, Int.natAbs_of_nonneg hz]
    rw [habs, nearest_natCast h]

namespace Date

/-! ### Some seconds ahead -/

/-- `new Date(now + seconds * 1000)`, or none for a `Date` that is no time. -/
def after (now : ℤ) : Number → Option ℤ
  | .finite seconds =>
      let time := toDouble (now + toDouble (toDouble seconds * 1000))
      if |time| ≤ 8640000000000000 then some (if time < 0 then ⌈time⌉ else ⌊time⌋) else none
  | _ => none

/-- **Whole seconds are added as they are.** -/
theorem after_intCast {now seconds : ℤ} (hseconds : seconds.natAbs ≤ 8640000000000)
    (hrange : InRange (now + seconds * 1000)) :
    after now (.finite seconds) = some (now + seconds * 1000) := by
  have hproduct : toDouble seconds * 1000 = ((seconds * 1000 : ℤ) : ℚ) := by
    rw [toDouble_intCast (by omega)]
    push_cast
    rfl
  have hsum : (now : ℚ) + ((seconds * 1000 : ℤ) : ℚ) = ((now + seconds * 1000 : ℤ) : ℚ) := by
    push_cast
    rfl
  unfold InRange at hrange
  have habs : |((now + seconds * 1000 : ℤ) : ℚ)| ≤ 8640000000000000 := by
    rw [abs_le]
    constructor
    · exact_mod_cast hrange.1
    · exact_mod_cast hrange.2
  unfold after
  simp only
  rw [hproduct, toDouble_intCast (by omega), hsum, toDouble_intCast (by omega), if_pos habs,
    Int.ceil_intCast, Int.floor_intCast, ite_self]

example : [.nan, .finite 3600, .finite (3 / 2), .finite (10 ^ 15)].map (after 7) =
    [none, some 3600007, some 1507, none] := by
  decide +kernel

end Date

end Js

open Js

/-! ### `TIMESTAMPTZ` -/

/-- The first time that the server has. -/
def firstTimestamp : ℤ := -210866803200000

/-- A parameter of type `TIMESTAMPTZ`. -/
def timestamptzParam : Option ℤ → Except Error ℤ
  | none => .error (.invalidText "timestamp with time zone")
  | some time => if time < firstTimestamp then .error .timestampOutOfRange else .ok time

theorem timestamptzParam_eq_ok {date : Option ℤ} {time : ℤ} :
    timestamptzParam date = .ok time ↔ date = some time ∧ firstTimestamp ≤ time := by
  cases date with
  | none => simp [timestamptzParam]
  | some t =>
      by_cases hfirst : t < firstTimestamp
      · simp only [timestamptzParam, if_pos hfirst, reduceCtorEq, Option.some.injEq, false_iff]
        rintro ⟨rfl, hle⟩
        omega
      · simp only [timestamptzParam, if_neg hfirst, Except.ok.injEq, Option.some.injEq]
        constructor
        · rintro rfl
          exact ⟨rfl, not_lt.mp hfirst⟩
        · exact fun h => h.1

/-- The time that the server stores of a `Date`, if it does not raise. -/
def storedTime (date : Option ℤ) : Option ℤ := (timestamptzParam date).toOption

theorem mem_storedTime {date : Option ℤ} {time : ℤ} :
    time ∈ storedTime date ↔ timestamptzParam date = .ok time := by
  unfold storedTime
  cases timestamptzParam date with
  | error e => simp [Except.toOption]
  | ok t => simp [Except.toOption]

end CommercePlatform
