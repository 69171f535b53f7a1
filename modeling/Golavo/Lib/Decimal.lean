import Mathlib.Data.Rat.Lemmas
import Mathlib.Data.Rat.Cast.Order
import Mathlib.Algebra.Order.Field.Basic
import Mathlib.Algebra.Order.Ring.Abs
import Mathlib.Algebra.BigOperators.Group.List.Basic
import Mathlib.Tactic.FieldSimp
import Mathlib.Tactic.GCongr
import Mathlib.Tactic.Ring
import Mathlib.Tactic.Linarith
import Mathlib.Tactic.Positivity
import Mathlib.Tactic.NormNum

/-! # Finite decimals and rounding

A **decimal** is `mantissa · 10^(-places)` in lowest terms, so equal numbers are equal structures.
Every binary floating-point value is one. `Decimal.units n` rounds to `n` places, ties to even, and
gives the result as an integer number of `10^(-n)` units: the arithmetic of rounded values is then
integer arithmetic. -/

namespace Golavo.Lib

/-! ## Integer division rounded to nearest, ties to even -/

/-- `a / b` rounded to the nearest integer, a tie to the even one. -/
def divRoundHalfEven (a : Int) (b : Nat) : Int :=
  let q := a / b
  let r := a % b
  if 2 * r < b then q else if (b : Int) < 2 * r then q + 1 else if q % 2 = 0 then q else q + 1

/-- Rounding is off by at most half a unit. -/
theorem abs_sub_divRoundHalfEven (a : Int) {b : Nat} (hb : 0 < b) :
    |2 * (a - divRoundHalfEven a b * b)| ≤ b := by
  have hdiv : (b : Int) * (a / b) + a % b = a := Int.mul_ediv_add_emod a b
  have hb' : (0 : Int) < b := by exact_mod_cast hb
  have hlo := Int.emod_nonneg a hb'.ne'
  have hhi := Int.emod_lt_of_pos a hb'
  have hcomm : a / (b : Int) * b = b * (a / b) := Int.mul_comm _ _
  unfold divRoundHalfEven
  simp only
  rw [abs_le]
  split_ifs with h1 h2 h3 <;> constructor <;> simp only [add_mul, one_mul, hcomm] <;> omega

/-- An exact quotient is kept. -/
@[simp] theorem divRoundHalfEven_mul (q : Int) {b : Nat} (hb : 0 < b) :
    divRoundHalfEven (q * b) b = q := by
  have hb' : (b : Int) ≠ 0 := by exact_mod_cast hb.ne'
  simp [divRoundHalfEven, Int.mul_ediv_cancel _ hb', hb]

theorem divRoundHalfEven_nonneg {a : Int} (ha : 0 ≤ a) (b : Nat) : 0 ≤ divRoundHalfEven a b := by
  have hq : 0 ≤ a / (b : Int) := Int.ediv_nonneg ha (Int.natCast_nonneg b)
  unfold divRoundHalfEven
  simp only
  split_ifs <;> omega

/-! ## Decimals in lowest terms -/

/-- A finite decimal `mantissa · 10^(-places)`, with no trailing zero after the point. -/
structure Decimal where
  mantissa : Int
  places : Nat
  lowest : places = 0 ∨ mantissa % 10 ≠ 0
  deriving DecidableEq, Repr

namespace Decimal

/-- Drop the trailing zeros after the point. -/
def strip : Int → Nat → Int × Nat
  | m, 0 => (m, 0)
  | m, k + 1 => if m % 10 = 0 then strip (m / 10) k else (m, k + 1)

theorem strip_lowest (m : Int) (k : Nat) : (strip m k).2 = 0 ∨ (strip m k).1 % 10 ≠ 0 := by
  induction k generalizing m with
  | zero => exact .inl rfl
  | succ k ih =>
      by_cases h : m % 10 = 0
      · rw [strip, if_pos h]
        exact ih (m / 10)
      · exact .inr (by rw [strip, if_neg h]; exact h)

/-- The decimal `m · 10^(-k)`. -/
def ofScaled (m : Int) (k : Nat) : Decimal :=
  ⟨(strip m k).1, (strip m k).2, strip_lowest m k⟩

instance (n : Nat) [n.AtLeastTwo] : OfNat Decimal n := ⟨ofScaled n 0⟩

/-- The rational a decimal denotes. -/
def toRat (d : Decimal) : ℚ := d.mantissa / 10 ^ d.places

theorem strip_value (m : Int) (k : Nat) :
    ((strip m k).1 : ℚ) / 10 ^ (strip m k).2 = m / 10 ^ k := by
  induction k generalizing m with
  | zero => rfl
  | succ k ih =>
      by_cases h : m % 10 = 0
      · have hm : (m : ℚ) = ((m / 10 : Int) : ℚ) * 10 := by
          have : m = m / 10 * 10 := by omega
          exact_mod_cast this
        rw [strip, if_pos h, ih, hm, pow_succ]
        field_simp
      · rw [strip, if_neg h]

@[simp] theorem toRat_ofScaled (m : Int) (k : Nat) : (ofScaled m k).toRat = m / 10 ^ k :=
  strip_value m k

/-- A decimal is rebuilt from its own parts. -/
@[simp] theorem ofScaled_parts (d : Decimal) : ofScaled d.mantissa d.places = d := by
  obtain ⟨m, k, h⟩ := d
  cases k with
  | zero => rfl
  | succ k =>
      have hm : ¬ m % 10 = 0 := h.resolve_left (Nat.succ_ne_zero k)
      simp [ofScaled, strip, hm]

/-- A trailing zero changes nothing. -/
theorem ofScaled_mul_ten (m : Int) (k : Nat) : ofScaled (m * 10) (k + 1) = ofScaled m k := by
  have h : m * 10 % 10 = 0 := by omega
  have hd : m * 10 / 10 = m := by omega
  simp [ofScaled, strip, h, hd]

theorem ofScaled_mul_pow (m : Int) (k j : Nat) :
    ofScaled (m * 10 ^ j) (k + j) = ofScaled m k := by
  induction j with
  | zero => simp
  | succ j ih => rw [pow_succ, ← mul_assoc, ← Nat.add_assoc, ofScaled_mul_ten, ih]

/-- Equal values are equal decimals. -/
theorem toRat_injective : Function.Injective toRat := by
  intro a b h
  have hcross : a.mantissa * 10 ^ b.places = b.mantissa * 10 ^ a.places := by
    have ha : (10 : ℚ) ^ a.places ≠ 0 := by positivity
    have hb : (10 : ℚ) ^ b.places ≠ 0 := by positivity
    have := (div_eq_div_iff ha hb).mp h
    exact_mod_cast this
  calc a = ofScaled (a.mantissa * 10 ^ b.places) (a.places + b.places) := by
        rw [ofScaled_mul_pow, ofScaled_parts]
    _ = ofScaled (b.mantissa * 10 ^ a.places) (b.places + a.places) := by
        rw [hcross, Nat.add_comm]
    _ = b := by rw [ofScaled_mul_pow, ofScaled_parts]

/-! ## Order -/

instance : LE Decimal :=
  ⟨fun a b => a.mantissa * 10 ^ b.places ≤ b.mantissa * 10 ^ a.places⟩

instance : LT Decimal := ⟨fun a b => ¬ b ≤ a⟩

instance (a b : Decimal) : Decidable (a ≤ b) :=
  inferInstanceAs (Decidable (a.mantissa * 10 ^ b.places ≤ b.mantissa * 10 ^ a.places))

instance (a b : Decimal) : Decidable (a < b) := inferInstanceAs (Decidable (¬ b ≤ a))

/-- Decimals are ordered as their values are. -/
theorem le_iff {a b : Decimal} : a ≤ b ↔ a.toRat ≤ b.toRat := by
  have ha : (0 : ℚ) < 10 ^ a.places := by positivity
  have hb : (0 : ℚ) < 10 ^ b.places := by positivity
  show a.mantissa * 10 ^ b.places ≤ b.mantissa * 10 ^ a.places ↔ _
  simp only [toRat]
  rw [div_le_div_iff₀ ha hb]
  exact_mod_cast Iff.rfl

theorem lt_iff {a b : Decimal} : a < b ↔ a.toRat < b.toRat := by
  show ¬ b ≤ a ↔ _
  rw [le_iff, not_le]

/-! ## Arithmetic -/

instance : Zero Decimal := ⟨ofScaled 0 0⟩

instance : One Decimal := ⟨ofScaled 1 0⟩

instance : Add Decimal :=
  ⟨fun a b => ofScaled (a.mantissa * 10 ^ b.places + b.mantissa * 10 ^ a.places)
    (a.places + b.places)⟩

instance : Sub Decimal :=
  ⟨fun a b => ofScaled (a.mantissa * 10 ^ b.places - b.mantissa * 10 ^ a.places)
    (a.places + b.places)⟩

instance : Mul Decimal := ⟨fun a b => ofScaled (a.mantissa * b.mantissa) (a.places + b.places)⟩

/-- The absolute value. -/
def abs (a : Decimal) : Decimal := ofScaled |a.mantissa| a.places

@[simp] theorem toRat_zero : (0 : Decimal).toRat = 0 := by
  show (ofScaled 0 0).toRat = 0
  simp

@[simp] theorem toRat_one : (1 : Decimal).toRat = 1 := by
  show (ofScaled 1 0).toRat = 1
  simp

@[simp] theorem toRat_add (a b : Decimal) : (a + b).toRat = a.toRat + b.toRat := by
  show (ofScaled _ _).toRat = _
  rw [toRat_ofScaled, pow_add]
  simp only [toRat]
  push_cast
  field_simp

@[simp] theorem toRat_sub (a b : Decimal) : (a - b).toRat = a.toRat - b.toRat := by
  show (ofScaled _ _).toRat = _
  rw [toRat_ofScaled, pow_add]
  simp only [toRat]
  push_cast
  field_simp

@[simp] theorem toRat_mul (a b : Decimal) : (a * b).toRat = a.toRat * b.toRat := by
  show (ofScaled _ _).toRat = _
  rw [toRat_ofScaled, pow_add]
  simp only [toRat]
  push_cast
  field_simp

@[simp] theorem toRat_abs (a : Decimal) : a.abs.toRat = |a.toRat| := by
  have ha : (0 : ℚ) < 10 ^ a.places := by positivity
  rw [abs, toRat_ofScaled, toRat, abs_div, abs_of_pos ha]
  push_cast
  rfl

instance : AddCommMonoid Decimal where
  add_assoc a b c := toRat_injective (by simp [add_assoc])
  zero_add a := toRat_injective (by simp)
  add_zero a := toRat_injective (by simp)
  add_comm a b := toRat_injective (by simp [add_comm])
  nsmul := nsmulRec

/-- The value of a decimal, as a homomorphism. -/
def toRatHom : Decimal →+ ℚ where
  toFun := toRat
  map_zero' := toRat_zero
  map_add' := toRat_add

/-- The value of a sum is the sum of the values. -/
@[simp] theorem toRat_sum (l : List Decimal) : l.sum.toRat = (l.map toRat).sum :=
  map_list_sum toRatHom l

/-! ## Rounding -/

/-- `round(d, n)` as a number of `10^(-n)` units. -/
def units (n : Nat) (d : Decimal) : Int :=
  if d.places ≤ n then d.mantissa * 10 ^ (n - d.places)
  else divRoundHalfEven d.mantissa (10 ^ (d.places - n))

/-- `round(d, n)`: the nearest decimal of `n` places, a tie to the even one. -/
def round (n : Nat) (d : Decimal) : Decimal := ofScaled (d.units n) n

/-- Rounding to `n` places is off by at most half a unit of the last one. -/
theorem abs_sub_units (n : Nat) (d : Decimal) :
    |2 * (d.toRat * 10 ^ n - d.units n)| ≤ 1 := by
  unfold units
  split_ifs with h
  · obtain ⟨j, rfl⟩ := Nat.exists_eq_add_of_le h
    have : d.toRat * 10 ^ (d.places + j) - ((d.mantissa * 10 ^ j : Int) : ℚ) = 0 := by
      simp only [toRat, pow_add]
      push_cast
      field_simp
      ring
    rw [Nat.add_sub_cancel_left, this]
    norm_num
  · obtain ⟨j, hj⟩ := Nat.exists_eq_add_of_le (Nat.le_of_not_le h)
    have hsub : d.places - n = j := by omega
    have hpow : (0 : ℚ) < 10 ^ j := by positivity
    have hround := abs_sub_divRoundHalfEven d.mantissa (b := 10 ^ j) (by positivity)
    have hrat : |2 * ((d.mantissa : ℚ) - divRoundHalfEven d.mantissa (10 ^ j) * 10 ^ j)|
        ≤ 10 ^ j := by exact_mod_cast hround
    have hval : d.toRat * 10 ^ n = d.mantissa / 10 ^ j := by
      rw [toRat, hj, pow_add]
      field_simp
    rw [hsub, hval]
    have hfac : 2 * ((d.mantissa : ℚ) / 10 ^ j - divRoundHalfEven d.mantissa (10 ^ j)) =
        2 * ((d.mantissa : ℚ) - divRoundHalfEven d.mantissa (10 ^ j) * 10 ^ j) / 10 ^ j := by
      field_simp
    rw [hfac, abs_div, abs_of_pos hpow, div_le_one hpow]
    exact hrat

/-- A value that has at most `n` places is its own number of units. -/
@[simp] theorem units_ofScaled (n : Nat) (u : Int) : (ofScaled u n).units n = u := by
  have h := abs_sub_units n (ofScaled u n)
  have hpow : (10 : ℚ) ^ n ≠ 0 := by positivity
  rw [toRat_ofScaled, div_mul_cancel₀ _ hpow] at h
  have h' : |2 * (u - (ofScaled u n).units n)| ≤ 1 := by exact_mod_cast h
  rw [abs_le] at h'
  omega

/-- Rounding to `n` places is off by at most half a unit of the last one. -/
theorem abs_round_sub (n : Nat) (d : Decimal) :
    |(d.round n).toRat - d.toRat| ≤ 1 / 2 / 10 ^ n := by
  have hpow : (0 : ℚ) < 10 ^ n := by positivity
  have h := abs_sub_units n d
  have hval : (d.round n).toRat - d.toRat = -(2 * (d.toRat * 10 ^ n - d.units n)) / 2 / 10 ^ n := by
    rw [round, toRat_ofScaled]
    field_simp
    ring
  rw [hval, abs_div, abs_div, abs_neg, abs_of_pos hpow, abs_of_pos (two_pos : (0 : ℚ) < 2)]
  gcongr

/-- Rounding is idempotent. -/
@[simp] theorem round_round (n : Nat) (d : Decimal) : (d.round n).round n = d.round n := by
  simp [round]

/-- A value that has at most `n` places. -/
def HasPlaces (n : Nat) (d : Decimal) : Prop := ∃ u, d = ofScaled u n

theorem hasPlaces_round (n : Nat) (d : Decimal) : HasPlaces n (d.round n) := ⟨_, rfl⟩

theorem hasPlaces_zero (n : Nat) : HasPlaces n 0 := ⟨0, toRat_injective (by simp)⟩

theorem HasPlaces.add {n : Nat} {a b : Decimal} (ha : HasPlaces n a) (hb : HasPlaces n b) :
    HasPlaces n (a + b) := by
  obtain ⟨u, rfl⟩ := ha
  obtain ⟨v, rfl⟩ := hb
  refine ⟨u + v, toRat_injective ?_⟩
  rw [toRat_add, toRat_ofScaled, toRat_ofScaled, toRat_ofScaled]
  push_cast
  ring

theorem HasPlaces.sub {n : Nat} {a b : Decimal} (ha : HasPlaces n a) (hb : HasPlaces n b) :
    HasPlaces n (a - b) := by
  obtain ⟨u, rfl⟩ := ha
  obtain ⟨v, rfl⟩ := hb
  refine ⟨u - v, toRat_injective ?_⟩
  rw [toRat_sub, toRat_ofScaled, toRat_ofScaled, toRat_ofScaled]
  push_cast
  ring

theorem hasPlaces_one (n : Nat) : HasPlaces n 1 := by
  have hpow : (10 : ℚ) ^ n ≠ 0 := by positivity
  refine ⟨10 ^ n, toRat_injective ?_⟩
  rw [toRat_one, toRat_ofScaled]
  push_cast
  rw [div_self hpow]

theorem HasPlaces.sum {n : Nat} {l : List Decimal} (h : ∀ d ∈ l, HasPlaces n d) :
    HasPlaces n l.sum := by
  induction l with
  | nil => exact hasPlaces_zero n
  | cons d l ih =>
      rw [List.sum_cons]
      exact (h d List.mem_cons_self).add (ih fun x hx => h x (List.mem_cons_of_mem _ hx))

/-- Rounding leaves a value of at most `n` places alone. -/
theorem HasPlaces.round_eq {n : Nat} {d : Decimal} (h : HasPlaces n d) : d.round n = d := by
  obtain ⟨u, rfl⟩ := h
  rw [round, units_ofScaled]

theorem units_nonneg {d : Decimal} (h : 0 ≤ d.toRat) (n : Nat) : 0 ≤ d.units n := by
  have hm : 0 ≤ d.mantissa := by
    have hp : (0 : ℚ) < 10 ^ d.places := by positivity
    have : (0 : ℚ) ≤ d.mantissa := by
      have := mul_nonneg h hp.le
      rwa [toRat, div_mul_cancel₀ _ hp.ne'] at this
    exact_mod_cast this
  unfold units
  split_ifs
  · positivity
  · exact divRoundHalfEven_nonneg hm _

theorem round_le_one {d : Decimal} (h : d.toRat ≤ 1) (n : Nat) : (d.round n).toRat ≤ 1 := by
  have hpow : (0 : ℚ) < 10 ^ n := by positivity
  have hunits := (abs_le.mp (abs_sub_units n d)).1
  have hscaled : d.toRat * 10 ^ n ≤ 10 ^ n := by nlinarith
  -- an integer at most half above a bound is at most the bound
  have hint : d.units n ≤ 10 ^ n := by
    have : 2 * (d.units n : ℚ) ≤ 2 * 10 ^ n + 1 := by linarith
    have : 2 * d.units n ≤ 2 * 10 ^ n + 1 := by exact_mod_cast this
    omega
  rw [round, toRat_ofScaled, div_le_one hpow]
  exact_mod_cast hint

theorem round_nonneg {d : Decimal} (h : 0 ≤ d.toRat) (n : Nat) : 0 ≤ (d.round n).toRat := by
  have hu : (0 : ℚ) ≤ d.units n := by exact_mod_cast units_nonneg h n
  rw [round, toRat_ofScaled]
  positivity

end Decimal

end Golavo.Lib
