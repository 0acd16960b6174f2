/-
Which numbers there are.

A number that is written in JSON is rounded to the nearest double, and a double prints as the
shortest decimal that is rounded to it.  So of the decimals only those are numbers that come out
of this as they went in, and what a number prints as is read as that number.

Seventeen digits tell any two doubles apart, so the search for the shortest decimal never gets to
its end; there it would take the double itself, which is a decimal as well.
-/
import CommercePlatform.Js.Value
import Mathlib.Data.Int.Log
import Mathlib.Tactic.Ring

namespace CommercePlatform

namespace Js

/-! ### Doubles -/

/-- The nearest whole number, and of two the even one. -/
def roundHalfEven (q : ℚ) : ℤ :=
  if q - ⌊q⌋ < 1 / 2 then ⌊q⌋
  else if 1 / 2 < q - ⌊q⌋ then ⌊q⌋ + 1
  else if ⌊q⌋ % 2 = 0 then ⌊q⌋ else ⌊q⌋ + 1

/-- The exponent of the last of the 53 binary places of a number. -/
def lastPlace (q : ℚ) : ℤ := max (-1074) (Int.log 2 q - 52)

/-- The nearest double, if there were no largest one. -/
def nearest (q : ℚ) : ℚ := roundHalfEven (q / 2 ^ lastPlace q) * 2 ^ lastPlace q

/-- The decimals of `k` digits on both sides of a number, the nearer one first. -/
def neighbours (x : ℚ) (k : ℕ) : List ℚ :=
  let unit : ℚ := 10 ^ (Int.log 10 x + 1 - k)
  if roundHalfEven (x / unit) = ⌊x / unit⌋ then [⌊x / unit⌋ * unit, (⌊x / unit⌋ + 1 : ℤ) * unit]
  else [(⌊x / unit⌋ + 1 : ℤ) * unit, ⌊x / unit⌋ * unit]

/-- The shortest decimal that is rounded to a double. -/
def shortest (x : ℚ) : ℚ :=
  (((List.range 17).flatMap fun k => neighbours x (k + 1)).find? fun c =>
    0 < c ∧ nearest c = x).getD x

/-- The number that a decimal is read as. -/
def Number.ofDecimal (q : ℚ) : Number :=
  if 2 ^ 1024 ≤ nearest |q| then if q < 0 then .negInf else .posInf
  else if nearest |q| = 0 then .finite 0
  else .finite (if q < 0 then -shortest (nearest |q|) else shortest (nearest |q|))

example : Number.ofDecimal (1000000000000000055511151231257827 / 10 ^ 34) = .finite (1 / 10) := by
  decide +kernel

/-! ### A double is rounded to itself -/

theorem roundHalfEven_intCast (z : ℤ) : roundHalfEven z = z := by
  simp [roundHalfEven]

theorem roundHalfEven_le {q : ℚ} {z : ℤ} (h : q < z) : roundHalfEven q ≤ z := by
  have hfloor : ⌊q⌋ < z := Int.floor_lt.mpr h
  unfold roundHalfEven
  split
  · omega
  split
  · omega
  split
  · omega
  · omega

theorem nearest_of_multiple {x : ℚ} {m : ℤ} (h : x = m * 2 ^ lastPlace x) : nearest x = x := by
  have hne : (2 : ℚ) ^ lastPlace x ≠ 0 := zpow_ne_zero _ (by norm_num)
  have hdiv : x / 2 ^ lastPlace x = m := by
    rw [div_eq_iff hne]
    exact h
  unfold nearest
  rw [hdiv, roundHalfEven_intCast]
  exact h.symm

theorem nearest_zero : nearest 0 = 0 := by
  apply nearest_of_multiple (m := 0)
  simp

/-- The 53 places of a double, or the next power of two. -/
theorem nearest_nearest {q : ℚ} (hx : 0 < nearest q) :
    nearest (nearest q) = nearest q := by
  obtain ⟨m, hm⟩ : ∃ m, m = roundHalfEven (q / 2 ^ lastPlace q) := ⟨_, rfl⟩
  obtain ⟨e, he⟩ : ∃ e, e = lastPlace q := ⟨_, rfl⟩
  have htwo : (0 : ℚ) < 2 ^ e := zpow_pos (by norm_num) _
  have hnearest : nearest q = m * 2 ^ e := by
    unfold nearest
    rw [hm, he]
  have hplaces : Int.log 2 q - 52 ≤ e := by
    rw [he]
    exact le_max_right _ _
  have hle : m ≤ 2 ^ 53 := by
    rw [hm]
    apply roundHalfEven_le
    rw [← he, div_lt_iff₀ htwo]
    calc q < 2 ^ (Int.log 2 q + 1) := by exact_mod_cast Int.lt_zpow_succ_log_self one_lt_two q
      _ ≤ 2 ^ (e + 53) := zpow_le_zpow_right₀ (by norm_num) (by omega)
      _ = ((2 ^ 53 : ℤ) : ℚ) * 2 ^ e := by
        rw [zpow_add₀ (by norm_num), mul_comm]
        norm_num
  rcases lt_or_eq_of_le hle with hlt | heq
  · -- The last place of the double is no higher.
    have hplace : lastPlace (nearest q) ≤ e := by
      have hbound : nearest q < ((2 : ℕ) : ℚ) ^ (e + 53) := by
        rw [hnearest, Nat.cast_ofNat, zpow_add₀ (by norm_num), mul_comm]
        apply mul_lt_mul_of_pos_left _ htwo
        exact_mod_cast hlt
      have hlog := (Int.lt_zpow_iff_log_lt one_lt_two hx).mp hbound
      refine max_le ?_ (by omega)
      rw [he]
      exact le_max_left _ _
    obtain ⟨k, hk⟩ := Int.eq_ofNat_of_zero_le (Int.sub_nonneg.mpr hplace)
    have hsplit : e = k + lastPlace (nearest q) := by omega
    apply nearest_of_multiple (m := m * 2 ^ k)
    calc nearest q = m * 2 ^ e := hnearest
      _ = m * (2 ^ (k : ℤ) * 2 ^ lastPlace (nearest q)) := by
        rw [← zpow_add₀ (by norm_num), ← hsplit]
      _ = ((m * 2 ^ k : ℤ) : ℚ) * 2 ^ lastPlace (nearest q) := by
        rw [zpow_natCast, ← mul_assoc]
        push_cast
        rfl
  · -- It is a power of two, and its last place is the next one.
    have hpower : nearest q = ((2 : ℕ) : ℚ) ^ (e + 53) := by
      rw [hnearest, heq, Nat.cast_ofNat, zpow_add₀ (by norm_num), mul_comm]
      norm_num
    have hlow : -1074 ≤ e := by
      rw [he]
      exact le_max_left _ _
    have hplace : lastPlace (nearest q) = e + 1 := by
      unfold lastPlace
      rw [hpower, Int.log_zpow one_lt_two]
      omega
    apply nearest_of_multiple (m := 2 ^ 52)
    calc nearest q = 2 ^ (e + 53) := hpower
      _ = 2 ^ ((52 : ℤ) + lastPlace (nearest q)) := by
        rw [hplace]
        congr 1
        omega
      _ = ((2 ^ 52 : ℤ) : ℚ) * 2 ^ lastPlace (nearest q) := by
        rw [zpow_add₀ (by norm_num)]
        norm_num

/-- What is found is a neighbour that is rounded to the double. -/
theorem shortest_cases (x : ℚ) :
    shortest x = x ∨
      0 < shortest x ∧ nearest (shortest x) = x ∧ ∃ k, shortest x ∈ neighbours x k := by
  unfold shortest
  cases hfind : ((List.range 17).flatMap fun k => neighbours x (k + 1)).find? fun c =>
      0 < c ∧ nearest c = x with
  | none => exact Or.inl rfl
  | some c =>
      have hc : 0 < c ∧ nearest c = x := by simpa using List.find?_some hfind
      obtain ⟨k, -, hmem⟩ := List.mem_flatMap.mp (List.mem_of_find?_eq_some hfind)
      exact Or.inr ⟨hc.1, hc.2, k + 1, hmem⟩

theorem nearest_shortest {x : ℚ} (hx : nearest x = x) : nearest (shortest x) = x := by
  rcases shortest_cases x with hsame | ⟨-, hnearest, -⟩
  · rw [hsame, hx]
  · exact hnearest

theorem shortest_pos {x : ℚ} (hx : 0 < x) : 0 < shortest x := by
  rcases shortest_cases x with hsame | ⟨hpos, -, -⟩
  · rw [hsame]
    exact hx
  · exact hpos

theorem nearest_nonneg {q : ℚ} (hq : 0 ≤ q) : 0 ≤ nearest q := by
  have htwo : (0 : ℚ) < 2 ^ lastPlace q := zpow_pos (by norm_num) _
  have hround : 0 ≤ roundHalfEven (q / 2 ^ lastPlace q) := by
    have hfloor : 0 ≤ ⌊q / 2 ^ lastPlace q⌋ := Int.floor_nonneg.mpr (by positivity)
    unfold roundHalfEven
    split_ifs <;> omega
  unfold nearest
  exact mul_nonneg (by exact_mod_cast hround) htwo.le

/-- What is finite is zero, or a double with its sign, as it prints. -/
theorem Number.ofDecimal_cases {q d : ℚ} (h : Number.ofDecimal q = .finite d) :
    ¬ 2 ^ 1024 ≤ nearest |q| ∧ (nearest |q| = 0 ∧ d = 0 ∨
      0 < nearest |q| ∧
        d = if q < 0 then -shortest (nearest |q|) else shortest (nearest |q|)) := by
  unfold Number.ofDecimal at h
  split at h
  · split at h
    · simp at h
    · simp at h
  rename_i hfits
  split at h
  · rename_i hzero
    exact ⟨hfits, Or.inl ⟨hzero, (Number.finite.inj h).symm⟩⟩
  · rename_i hzero
    have hpos := lt_of_le_of_ne (nearest_nonneg (abs_nonneg q)) (Ne.symm hzero)
    exact ⟨hfits, Or.inr ⟨hpos, (Number.finite.inj h).symm⟩⟩

/-- **What a number prints as is read as that number.** -/
theorem Number.ofDecimal_printed {q d : ℚ} (h : Number.ofDecimal q = .finite d) :
    Number.ofDecimal d = .finite d := by
  obtain ⟨hfits, ⟨-, rfl⟩ | ⟨hx, hd⟩⟩ := Number.ofDecimal_cases h
  · simp [Number.ofDecimal, nearest_zero]
  have hsame := nearest_shortest (nearest_nearest hx)
  have hpos := shortest_pos hx
  have habs : |d| = shortest (nearest |q|) ∧ (d < 0 ↔ q < 0) := by
    rw [hd]
    split
    · rename_i hneg
      rw [abs_neg, abs_of_pos hpos]
      exact ⟨rfl, by simp [hneg, hpos]⟩
    · rename_i hneg
      rw [abs_of_pos hpos]
      exact ⟨rfl, by simp [hneg, hpos.le]⟩
  unfold Number.ofDecimal
  rw [habs.1, hsame, if_neg hfits, if_neg hx.ne']
  simp only [habs.2]
  rw [← hd]

/-! ### A number is a decimal -/

/-- Some power of ten makes it whole. -/
def IsDecimal (q : ℚ) : Prop := ∃ e : ℕ, (q * 10 ^ e).den = 1

theorem IsDecimal.of_mul {q : ℚ} {z : ℤ} {e : ℕ} (h : q * 10 ^ e = z) : IsDecimal q :=
  ⟨e, by rw [h]; exact Rat.den_intCast z⟩

theorem IsDecimal.neg {q : ℚ} (h : IsDecimal q) : IsDecimal (-q) := by
  obtain ⟨e, he⟩ := h
  exact ⟨e, by rw [neg_mul, Rat.den_neg_eq_den, he]⟩

/-- A whole number of a power of ten, or of a power of what divides ten. -/
theorem IsDecimal.mul_zpow (z : ℤ) {b c : ℕ} (hten : b * c = 10) (e : ℤ) :
    IsDecimal (z * (b : ℚ) ^ e) := by
  have hb : (b : ℚ) ≠ 0 := by
    rintro hb
    have hzero : b = 0 := by exact_mod_cast hb
    rw [hzero, zero_mul] at hten
    omega
  cases e with
  | ofNat n =>
      have hmul : (z * (b : ℚ) ^ (Int.ofNat n)) * 10 ^ 0 = ((z * (b : ℤ) ^ n : ℤ) : ℚ) := by
        push_cast
        simp
      exact .of_mul hmul
  | negSucc n =>
      have hmul : (z * (b : ℚ) ^ (Int.negSucc n)) * 10 ^ (n + 1) =
          ((z * (c : ℤ) ^ (n + 1) : ℤ) : ℚ) := by
        have hten' : (10 : ℚ) = b * c := by exact_mod_cast hten.symm
        rw [hten', mul_pow, zpow_negSucc]
        push_cast
        field_simp
      exact .of_mul hmul

theorem isDecimal_nearest (q : ℚ) : IsDecimal (nearest q) := by
  have h := IsDecimal.mul_zpow (roundHalfEven (q / 2 ^ lastPlace q)) (b := 2) (c := 5) rfl
    (lastPlace q)
  exact_mod_cast h

theorem isDecimal_of_mem_neighbours {x c : ℚ} {k : ℕ} (h : c ∈ neighbours x k) : IsDecimal c := by
  have hunit : ∀ z : ℤ, IsDecimal (z * (10 : ℚ) ^ (Int.log 10 x + 1 - k)) := by
    intro z
    have h := IsDecimal.mul_zpow z (b := 10) (c := 1) rfl (Int.log 10 x + 1 - k)
    exact_mod_cast h
  unfold neighbours at h
  dsimp only at h
  split at h
  · rcases List.mem_pair.mp h with rfl | rfl
    · exact hunit _
    · exact hunit _
  · rcases List.mem_pair.mp h with rfl | rfl
    · exact hunit _
    · exact hunit _

theorem isDecimal_shortest {x : ℚ} (hx : IsDecimal x) : IsDecimal (shortest x) := by
  rcases shortest_cases x with hsame | ⟨-, -, k, hmem⟩
  · rw [hsame]
    exact hx
  · exact isDecimal_of_mem_neighbours hmem

theorem Number.isDecimal_of_ofDecimal {q d : ℚ} (h : Number.ofDecimal q = .finite d) :
    IsDecimal d := by
  obtain ⟨-, ⟨-, rfl⟩ | ⟨-, rfl⟩⟩ := Number.ofDecimal_cases h
  · exact ⟨0, by simp⟩
  · have hshortest := isDecimal_shortest (isDecimal_nearest |q|)
    split
    · exact hshortest.neg
    · exact hshortest

/-- A number as a program has it: a decimal that comes out of `ofDecimal`, or none. -/
structure Double where
  value : Number
  printed : ∀ d, value = .finite d → Number.ofDecimal d = .finite d
  deriving DecidableEq

namespace Double

@[ext] theorem ext {a b : Double} (h : a.value = b.value) : a = b := by
  cases a
  cases b
  simp only at h
  subst h
  rfl

def ofDecimal (q : ℚ) : Double := ⟨Number.ofDecimal q, fun _ h => Number.ofDecimal_printed h⟩

theorem isDecimal {a : Double} {d : ℚ} (h : a.value = .finite d) : IsDecimal d :=
  Number.isDecimal_of_ofDecimal (a.printed d h)

theorem ofDecimal_eq {a : Double} {d : ℚ} (h : a.value = .finite d) : ofDecimal d = a := by
  ext
  rw [h]
  exact a.printed d h

end Double

end Js

end CommercePlatform
