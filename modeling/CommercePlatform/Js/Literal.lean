/-
How numbers are written.

`JSON.parse` reads a number from the front of a text: digits without a leading zero, perhaps a
fraction, perhaps an exponent.  `String` writes it in one of four forms, by where its point stands.
A number that is written is read as itself, by whatever form.
-/
import CommercePlatform.Js.Double
import Mathlib.Data.List.TakeWhile
import Mathlib.Data.Nat.Prime.Basic

namespace CommercePlatform

namespace Js

/-! ### Reading -/

def natural (ds : List Char) : ℕ := Nat.ofDigitChars 10 ds 0

/-- Digits, and at least one. -/
def readDigits (cs : List Char) : Option (List Char × List Char) :=
  if cs.takeWhile Char.isDigit = [] then none
  else some (cs.takeWhile Char.isDigit, cs.dropWhile Char.isDigit)

def readInteger (cs : List Char) : Option (List Char × List Char) :=
  (readDigits cs).filter fun read => ¬ (1 < read.1.length ∧ read.1.head? = some '0')

def readFraction : List Char → Option (List Char × List Char)
  | '.' :: cs => readDigits cs
  | cs => some ([], cs)

/-- Is there a minus sign in front of the digits? -/
def readSign : List Char → Bool × List Char
  | '-' :: cs => (true, cs)
  | '+' :: cs => (false, cs)
  | cs => (false, cs)

def readExponent : List Char → Option (ℤ × List Char)
  | [] => some (0, [])
  | c :: cs =>
      if c = 'e' ∨ c = 'E' then
        (readDigits (readSign cs).2).map fun read =>
          (if (readSign cs).1 then -(natural read.1 : ℤ) else natural read.1, read.2)
      else some (0, c :: cs)

def readUnsigned (cs : List Char) : Option (ℚ × List Char) := do
  let (int, cs) ← readInteger cs
  let (frac, cs) ← readFraction cs
  let (e, cs) ← readExponent cs
  return (natural (int ++ frac) * 10 ^ (e - frac.length), cs)

/-- The decimal at the front, and what is after it. -/
def readNumber : List Char → Option (ℚ × List Char)
  | '-' :: cs => (readUnsigned cs).map fun read => (-read.1, read.2)
  | cs => readUnsigned cs

example : readNumber "-12.50e-1,".toList = some (-5 / 4, [',']) := by decide +kernel

/-! ### Where a number ends -/

/-- What is after a number does not go on with it. -/
def EndsNumber (rest : List Char) : Prop :=
  ∀ c, rest.head? = some c → c.isDigit = false ∧ c ≠ '.' ∧ c ≠ 'e' ∧ c ≠ 'E'

theorem EndsNumber.cons {c : Char} {cs : List Char} (h : c ∈ [',', '}', ']', ':']) :
    EndsNumber (c :: cs) := by
  intro c' hc'
  obtain rfl := Option.some.inj hc'
  simp only [List.mem_cons, List.not_mem_nil, or_false] at h
  rcases h with rfl | rfl | rfl | rfl
  all_goals decide

theorem EndsNumber.nil : EndsNumber [] := by
  intro c hc
  simp at hc

theorem readDigits_append {ds rest : List Char} (hne : ds ≠ []) (hds : ∀ d ∈ ds, d.isDigit = true)
    (hrest : ∀ c, rest.head? = some c → c.isDigit = false) :
    readDigits (ds ++ rest) = some (ds, rest) := by
  have htake : (ds ++ rest).takeWhile Char.isDigit = ds ∧
      (ds ++ rest).dropWhile Char.isDigit = rest := by
    rw [List.takeWhile_append_of_pos hds, List.dropWhile_append_of_pos hds]
    cases rest with
    | nil => simp
    | cons c cs => simp [hrest c rfl]
  unfold readDigits
  rw [htake.1, htake.2, if_neg hne]

theorem readExponent_of_ends {rest : List Char} (h : EndsNumber rest) :
    readExponent rest = some (0, rest) := by
  cases rest with
  | nil => rfl
  | cons c cs =>
      obtain ⟨-, -, hlower, hupper⟩ := h c rfl
      exact if_neg (by simp [hlower, hupper])

/-! ### The parts of a number -/

/-- The fraction with its point, if there is one. -/
def fraction (frac : List Char) : List Char := if frac = [] then [] else '.' :: frac

theorem readFraction_append {frac tail : List Char} (hfrac : ∀ d ∈ frac, d.isDigit = true)
    (htail : ∀ c, tail.head? = some c → c.isDigit = false ∧ c ≠ '.') :
    readFraction (fraction frac ++ tail) = some (frac, tail) := by
  unfold fraction
  split
  · rename_i hnil
    subst hnil
    cases tail with
    | nil => rfl
    | cons c cs =>
        have hpoint := (htail c rfl).2
        show readFraction (c :: cs) = _
        unfold readFraction
        split
        · rename_i heq
          exact absurd (List.cons.inj heq).1 hpoint
        · rfl
  · rename_i hne
    exact readDigits_append hne hfrac fun c hc => (htail c hc).1

/-- A number of an integer, a fraction and whatever exponent. -/
theorem readUnsigned_append {int frac tail rest : List Char} {e : ℤ} (hne : int ≠ [])
    (hint : ∀ d ∈ int, d.isDigit = true) (hlead : int.head? = some '0' → int.length = 1)
    (hfrac : ∀ d ∈ frac, d.isDigit = true)
    (htail : ∀ c, tail.head? = some c → c.isDigit = false ∧ c ≠ '.')
    (hexponent : readExponent tail = some (e, rest)) :
    readUnsigned (int ++ (fraction frac ++ tail)) =
      some ((natural (int ++ frac) : ℚ) * 10 ^ (e - frac.length), rest) := by
  have hhead : ∀ c, (fraction frac ++ tail).head? = some c → c.isDigit = false := by
    intro c hc
    unfold fraction at hc
    split at hc
    · exact (htail c hc).1
    · obtain rfl := Option.some.inj hc
      decide
  have hinteger : readInteger (int ++ (fraction frac ++ tail)) =
      some (int, fraction frac ++ tail) := by
    unfold readInteger
    rw [readDigits_append hne hint hhead, Option.filter_some, if_pos]
    simp only [decide_eq_true_eq, not_and]
    intro hlength hzero
    have := hlead hzero
    omega
  unfold readUnsigned
  simp only [hinteger, readFraction_append hfrac htail, hexponent, Option.bind_eq_bind,
    Option.bind_some]
  rfl

/-! ### The forms of a number -/

theorem natural_zeros_append (n : ℕ) (ds : List Char) :
    natural (List.replicate n '0' ++ ds) = natural ds := by
  unfold natural
  rw [Nat.ofDigitChars_append, Nat.ofDigitChars_replicate_zero, mul_zero]

theorem natural_append_zeros (ds : List Char) (n : ℕ) :
    natural (ds ++ List.replicate n '0') = 10 ^ n * natural ds := by
  unfold natural
  rw [Nat.ofDigitChars_append, Nat.ofDigitChars_replicate_zero]

/-- The digits of a number are a significant part and zeros. -/
theorem significant_append (ds : List Char) :
    ∃ z, ds = (ds.reverse.dropWhile (· = '0')).reverse ++ List.replicate z '0' := by
  refine ⟨(ds.reverse.takeWhile (· = '0')).length, ?_⟩
  have hzeros : ds.reverse.takeWhile (· = '0') =
      List.replicate (ds.reverse.takeWhile (· = '0')).length '0' := by
    refine List.eq_replicate_of_mem fun c hc => ?_
    simpa using List.mem_takeWhile_imp hc
  have hsplit := congrArg List.reverse
    (List.takeWhile_append_dropWhile (p := fun c => decide (c = '0')) (l := ds.reverse))
  rw [List.reverse_append, List.reverse_reverse, hzeros, List.reverse_replicate] at hsplit
  simpa using hsplit.symm

/-- Digits without a leading zero, unless they are it. -/
structure Digits (ds : List Char) : Prop where
  ne_nil : ds ≠ []
  isDigit : ∀ d ∈ ds, d.isDigit = true
  lead : ds.head? = some '0' → ds = ['0']

theorem readDigits_toDigits (n : ℕ) {rest : List Char} (hrest : EndsNumber rest) :
    readDigits (Nat.toDigits 10 n ++ rest) = some (Nat.toDigits 10 n, rest) := by
  apply readDigits_append Nat.toDigits_ne_nil
  · intro d hd
    exact Nat.isDigit_of_mem_toDigits (by decide) (by decide) hd
  · intro c hc
    exact (hrest c hc).1

/-- The exponent that is written is read. -/
theorem readExponent_written (n : ℤ) {rest : List Char} (hrest : EndsNumber rest) :
    readExponent ('e' :: ((if n < 0 then ['-'] else ['+']) ++ (Nat.toDigits 10 n.natAbs ++ rest))) =
      some (n, rest) := by
  have hvalue : natural (Nat.toDigits 10 n.natAbs) = n.natAbs := Nat.ofDigitChars_ten_toDigits
  unfold readExponent
  dsimp only
  rw [if_pos (Or.inl rfl)]
  split
  · show (readDigits (Nat.toDigits 10 n.natAbs ++ rest)).map _ = _
    rw [readDigits_toDigits _ hrest]
    show some (-(natural (Nat.toDigits 10 n.natAbs) : ℤ), rest) = _
    rw [hvalue]
    congr 2
    omega
  · show (readDigits (Nat.toDigits 10 n.natAbs ++ rest)).map _ = _
    rw [readDigits_toDigits _ hrest]
    show some ((natural (Nat.toDigits 10 n.natAbs) : ℤ), rest) = _
    rw [hvalue]
    congr 2
    omega

/-- The significant digits of a number, one in front of the point and the others after it. -/
theorem exponential_eq {ds : List Char} (hds : Digits ds) (hne : ds ≠ ['0']) (n : ℤ) :
    ∃ d frac z, ds = (d :: frac) ++ List.replicate z '0' ∧ d ≠ '0' ∧
      Number.exponential ds n = [d] ++ (fraction frac ++
        ('e' :: ((if n - 1 < 0 then ['-'] else ['+']) ++ Nat.toDigits 10 (n - 1).natAbs))) := by
  have hhead : ds.head? ≠ some '0' := fun h => hne (hds.lead h)
  obtain ⟨z, hz⟩ := significant_append ds
  unfold Number.exponential
  cases hsig : (ds.reverse.dropWhile (· = '0')).reverse with
  | nil =>
      rw [hsig, List.nil_append] at hz
      cases z with
      | zero => exact absurd hz hds.ne_nil
      | succ z =>
          rw [hz] at hhead
          simp [List.replicate_succ] at hhead
  | cons d frac =>
      rw [hsig] at hz
      refine ⟨d, frac, z, hz, ?_, ?_⟩
      · rintro rfl
        rw [hz] at hhead
        simp at hhead
      · cases frac with
        | nil => simp [fraction]
        | cons f frac => simp [fraction]

theorem readUnsigned_exponential {ds rest : List Char} {p : ℕ} (hds : Digits ds) (hne : ds ≠ ['0'])
    (hrest : EndsNumber rest) :
    readUnsigned (Number.exponential ds (ds.length - p) ++ rest) =
      some ((natural ds : ℚ) * 10 ^ (-(p : ℤ)), rest) := by
  obtain ⟨d, frac, z, hz, hd, htext⟩ := exponential_eq hds hne (ds.length - p)
  have hdigit : ∀ c ∈ d :: frac, c.isDigit = true := by
    intro c hc
    apply hds.isDigit
    rw [hz]
    exact List.mem_append_left _ hc
  have htail : ∀ c, ('e' :: ((if (ds.length - p : ℤ) - 1 < 0 then ['-'] else ['+']) ++
      (Nat.toDigits 10 ((ds.length - p : ℤ) - 1).natAbs ++ rest))).head? = some c →
      c.isDigit = false ∧ c ≠ '.' := by
    intro c hc
    obtain rfl := Option.some.inj hc
    decide
  have hread := readUnsigned_append (List.cons_ne_nil d [])
    (fun c hc => hdigit c (by simp_all)) (fun _ => rfl)
    (fun c hc => hdigit c (List.mem_cons_of_mem d hc)) htail
    (readExponent_written ((ds.length - p : ℤ) - 1) hrest)
  have hshape : Number.exponential ds (ds.length - p) ++ rest = [d] ++ (fraction frac ++
      ('e' :: ((if (ds.length - p : ℤ) - 1 < 0 then ['-'] else ['+']) ++
        (Nat.toDigits 10 ((ds.length - p : ℤ) - 1).natAbs ++ rest)))) := by
    rw [htext]
    simp
  have hnatural : natural ds = 10 ^ z * natural ([d] ++ frac) := by
    rw [hz]
    exact natural_append_zeros _ z
  have hlength : (ds.length - p : ℤ) - 1 - frac.length = z + -(p : ℤ) := by
    rw [hz]
    simp
    omega
  rw [hshape, hread, hlength, hnatural, zpow_add₀ (by norm_num)]
  congr 2
  push_cast
  rw [zpow_natCast]
  ring

/-- **A number is read as the number that it is, in each of its forms.** -/
theorem readUnsigned_decimal {ds rest : List Char} {p : ℕ} (hds : Digits ds)
    (hzero : ds = ['0'] → p = 0) (hrest : EndsNumber rest) :
    readUnsigned (Number.decimal ds p ++ rest) =
      some ((natural ds : ℚ) * 10 ^ (-(p : ℤ)), rest) := by
  have htail : ∀ c, rest.head? = some c → c.isDigit = false ∧ c ≠ '.' :=
    fun c hc => ⟨(hrest c hc).1, (hrest c hc).2.1⟩
  have hlength : 0 < ds.length := List.length_pos_of_ne_nil hds.ne_nil
  unfold Number.decimal
  dsimp only
  split
  · rename_i hlarge
    refine readUnsigned_exponential hds (fun hds' => ?_) hrest
    rw [hds', hzero hds'] at hlarge
    simp at hlarge
  split
  · rename_i hp
    have hread : readUnsigned (ds ++ (fraction [] ++ rest)) = some (_, rest) :=
      readUnsigned_append hds.ne_nil hds.isDigit (fun h => by rw [hds.lead h]; rfl)
        (fun d hd => by simp at hd) htail (readExponent_of_ends hrest)
    subst hp
    simpa [fraction] using hread
  rename_i hp
  have hlead : ds.head? ≠ some '0' := fun h => hp (hzero (hds.lead h))
  split
  · rename_i hpoint
    obtain ⟨k, hk⟩ : ∃ k : ℕ, (ds.length - p : ℤ) = k := ⟨ds.length - p, by omega⟩
    rw [hk, Int.toNat_natCast]
    have hint : (ds.take k).head? = ds.head? := by
      rw [List.head?_take, if_neg (by omega)]
    have hne : ds.take k ≠ [] := by
      intro hnil
      rw [hnil] at hint
      exact hds.ne_nil (List.head?_eq_none_iff.mp hint.symm)
    have hfrac : ds.drop k ≠ [] := by
      intro hnil
      have hlong := List.drop_eq_nil_iff.mp hnil
      omega
    have hread : readUnsigned (ds.take k ++ (fraction (ds.drop k) ++ rest)) = some (_, rest) :=
      readUnsigned_append hne (fun d hd => hds.isDigit d (List.mem_of_mem_take hd))
        (fun h => absurd (hint ▸ h) hlead) (fun d hd => hds.isDigit d (List.mem_of_mem_drop hd))
        htail (readExponent_of_ends hrest)
    rw [List.take_append_drop, List.length_drop] at hread
    have hplaces : (0 : ℤ) - (ds.length - k : ℕ) = -p := by omega
    rw [hplaces] at hread
    simpa [fraction, hfrac] using hread
  · rename_i hsmall hpoint
    obtain ⟨k, hk⟩ : ∃ k : ℕ, (-(ds.length - p : ℤ)).toNat = k := ⟨_, rfl⟩
    rw [hk]
    have hdigits : ∀ d ∈ List.replicate k '0' ++ ds, d.isDigit = true := by
      intro d hd
      rcases List.mem_append.mp hd with hzero | hd
      · rw [List.eq_of_mem_replicate hzero]
        decide
      · exact hds.isDigit d hd
    have hne : List.replicate k '0' ++ ds ≠ [] := by
      simp [hds.ne_nil]
    have hread : readUnsigned (['0'] ++ (fraction (List.replicate k '0' ++ ds) ++ rest)) =
        some (_, rest) :=
      readUnsigned_append (List.cons_ne_nil _ _) (fun d hd => by simp at hd; rw [hd]; decide)
        (fun _ => rfl) hdigits htail (readExponent_of_ends hrest)
    have hnatural : natural (['0'] ++ (List.replicate k '0' ++ ds)) = natural ds := by
      rw [← List.append_assoc]
      exact natural_zeros_append (k + 1) ds
    have hplaces : (0 : ℤ) - (List.replicate k '0' ++ ds).length = -p := by
      simp
      omega
    rw [hnatural, hplaces] at hread
    simpa [fraction, hne] using hread

/-! ### What is written -/

theorem den_mul_pow_eq_one_iff (q : ℚ) (e : ℕ) : (q * 10 ^ e).den = 1 ↔ q.den ∣ 10 ^ e := by
  have hden : (q.den : ℚ) ≠ 0 := by exact_mod_cast q.den_ne_zero
  constructor
  · intro h
    have hwhole : ((q * 10 ^ e).num : ℚ) = q * 10 ^ e := Rat.coe_int_num_of_den_eq_one h
    have hmul : (q * 10 ^ e).num * (q.den : ℤ) = q.num * 10 ^ e := by
      have hcast : ((q * 10 ^ e).num : ℚ) * q.den = q.num * 10 ^ e := by
        rw [hwhole, mul_right_comm, Rat.mul_den_eq_num]
      exact_mod_cast hcast
    have hdvd : q.den ∣ q.num.natAbs * 10 ^ e := by
      have habs := congrArg Int.natAbs hmul
      rw [Int.natAbs_mul, Int.natAbs_mul, Int.natAbs_pow, Int.natAbs_natCast] at habs
      exact ⟨(q * 10 ^ e).num.natAbs, by rw [mul_comm q.den]; exact habs.symm⟩
    exact q.reduced.symm.dvd_of_dvd_mul_left hdvd
  · rintro ⟨k, hk⟩
    have hmul : q * 10 ^ e = ((q.num * k : ℤ) : ℚ) := by
      have hten : (10 : ℚ) ^ e = q.den * k := by exact_mod_cast hk
      rw [hten, ← mul_assoc, Rat.mul_den_eq_num]
      push_cast
      rfl
    rw [hmul]
    exact Rat.den_intCast _

/-- A power of ten that a number divides need not be larger than the number's length. -/
theorem dvd_pow_log2 {d e : ℕ} (h : d ∣ 10 ^ e) : d ∣ 10 ^ Nat.log2 d := by
  have hd : d ≠ 0 := by
    rintro rfl
    have hzero := Nat.eq_zero_of_zero_dvd h
    exact absurd hzero (by positivity)
  have hten : ∀ n : ℕ, (10 : ℕ) ^ n = 2 ^ n * 5 ^ n := Nat.mul_pow 2 5
  rw [hten] at h
  obtain ⟨a, b, ha, hb, rfl⟩ := (Nat.dvd_mul).mp h
  obtain ⟨i, -, rfl⟩ := (Nat.dvd_prime_pow Nat.prime_two).mp ha
  obtain ⟨j, -, rfl⟩ := (Nat.dvd_prime_pow Nat.prime_five).mp hb
  have hi : i ≤ Nat.log2 (2 ^ i * 5 ^ j) := by
    apply (Nat.le_log2 hd).mpr
    exact Nat.le_mul_of_pos_right _ (by positivity)
  have hj : j ≤ Nat.log2 (2 ^ i * 5 ^ j) := by
    apply (Nat.le_log2 hd).mpr
    calc 2 ^ j ≤ 5 ^ j := Nat.pow_le_pow_left (by omega) j
      _ ≤ 2 ^ i * 5 ^ j := Nat.le_mul_of_pos_left _ (by positivity)
  rw [hten]
  exact Nat.mul_dvd_mul (pow_dvd_pow 2 hi) (pow_dvd_pow 5 hj)

theorem places_spec {q : ℚ} {fuel e : ℕ}
    (h : ∃ j, e ≤ j ∧ j < e + fuel ∧ (q * 10 ^ j).den = 1) :
    (q * 10 ^ Number.places q fuel e).den = 1 := by
  induction fuel generalizing e with
  | zero =>
      obtain ⟨j, hlow, hhigh, -⟩ := h
      omega
  | succ fuel ih =>
      unfold Number.places
      split
      · rename_i hwhole
        exact hwhole
      · rename_i hnot
        apply ih
        obtain ⟨j, hlow, hhigh, hwhole⟩ := h
        refine ⟨j, ?_, by omega, hwhole⟩
        rcases Nat.eq_or_lt_of_le hlow with rfl | hlt
        · exact absurd hwhole hnot
        · omega

/-- A decimal has the places that are looked for. -/
theorem IsDecimal.places {q : ℚ} (hq : IsDecimal q) :
    (q * 10 ^ Number.places q (Nat.log2 q.den + 1) 0).den = 1 := by
  obtain ⟨e, he⟩ := hq
  apply places_spec
  refine ⟨Nat.log2 q.den, by omega, by omega, ?_⟩
  rw [den_mul_pow_eq_one_iff] at he ⊢
  exact dvd_pow_log2 he

theorem digits_toDigits (n : ℕ) : Digits (Nat.toDigits 10 n) where
  ne_nil := Nat.toDigits_ne_nil
  isDigit d hd := Nat.isDigit_of_mem_toDigits (by decide) (by decide) hd
  lead h := by
    induction n using Nat.strong_induction_on with
    | _ n ih =>
        rcases Nat.lt_or_ge n 10 with hlt | hge
        · rw [Nat.toDigits_of_lt_base hlt] at h ⊢
          rw [Option.some.inj h]
        · rw [Nat.toDigits_of_base_le (by decide) hge,
            List.head?_append_of_ne_nil _ Nat.toDigits_ne_nil] at h
          have hzero := congrArg natural (ih (n / 10) (by omega) h)
          unfold natural at hzero
          rw [Nat.ofDigitChars_ten_toDigits] at hzero
          have hten : n / 10 = 0 := hzero
          omega

theorem readNumber_of_unsigned {cs : List Char} {read : ℚ × List Char}
    (h : readUnsigned cs = some read) : readNumber cs = some read := by
  unfold readNumber
  split
  · simp [readUnsigned, readInteger, readDigits] at h
  · exact h

/-- **A decimal is read as it is written.** -/
theorem readNumber_toString {q : ℚ} (hq : IsDecimal q) {rest : List Char}
    (hrest : EndsNumber rest) :
    readNumber ((Number.finite q).toString.toList ++ rest) = some (q, rest) := by
  obtain ⟨p, hp⟩ : ∃ p, p = Number.places q (Nat.log2 q.den + 1) 0 := ⟨_, rfl⟩
  have hwhole : ((q * 10 ^ p).num : ℚ) = q * 10 ^ p := by
    apply Rat.coe_int_num_of_den_eq_one
    rw [hp]
    exact hq.places
  obtain ⟨n, hn⟩ : ∃ n, n = (q * 10 ^ p).num.natAbs := ⟨_, rfl⟩
  have hpow : (0 : ℚ) < 10 ^ p := by positivity
  have habs : (n : ℚ) * 10 ^ (-(p : ℤ)) = |q| := by
    have hcast : (n : ℚ) = |q| * 10 ^ p := by
      rw [hn, Nat.cast_natAbs, Int.cast_abs, hwhole, abs_mul, abs_of_pos hpow]
    rw [hcast, zpow_neg, zpow_natCast, mul_assoc, mul_inv_cancel₀ hpow.ne', mul_one]
  have hzero : Nat.toDigits 10 n = ['0'] → p = 0 := by
    intro hdigits
    have hn0 := congrArg natural hdigits
    unfold natural at hn0
    rw [Nat.ofDigitChars_ten_toDigits] at hn0
    have hq0 : q = 0 := by
      have hn0' : n = 0 := hn0
      rw [hn0'] at habs
      simpa using habs.symm
    rw [hp, hq0]
    unfold Number.places
    rw [if_pos (by simp)]
  have hread := readUnsigned_decimal (digits_toDigits n) hzero hrest
  unfold natural at hread
  rw [Nat.ofDigitChars_ten_toDigits, habs] at hread
  have htext : (Number.finite q).toString.toList =
      if q < 0 then '-' :: Number.decimal (Nat.toDigits 10 n) p
      else Number.decimal (Nat.toDigits 10 n) p := by
    unfold Number.toString Number.digits
    rw [String.toList_ofList]
    dsimp only
    rw [← hp, ← hn]
  rw [htext]
  split
  · rename_i hneg
    show (readUnsigned (Number.decimal (Nat.toDigits 10 n) p ++ rest)).map _ = _
    rw [hread, abs_of_neg hneg]
    simp
  · rename_i hpos
    rw [abs_of_nonneg (not_lt.mp hpos)] at hread
    exact readNumber_of_unsigned hread

end Js

end CommercePlatform
