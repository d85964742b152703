import Mathlib.Tactic.LinearCombination
import Bundler.Proofs.Decimal.Rounding

/-! # Decimals that read back

What is written for a double lies in the interval of the numbers that round to it.
-/

namespace Bundler.Decimal

namespace Interval

variable {interval : Interval} {point n : Nat}

theorem contains_of_nearest? {unit : Nat} (found : interval.nearest? point unit = some n) :
    interval.contains n = true := by
  rw [nearest?] at found
  split at found
  next below above =>
      injection found with same
      rw [← same]
      split
      next => exact above
      next => exact below
  next below _ =>
      injection found with same
      rwa [← same]
  next _ above =>
      injection found with same
      rwa [← same]
  next => cases found

/-- However few digits are tried, the result lies in the interval. -/
theorem contains_roundest (inside : interval.contains point = true) :
    ∀ zeros, interval.contains (interval.roundest point zeros) = true
  | 0 => inside
  | zeros + 1 => by
    rw [roundest]
    split
    next found => exact contains_of_nearest? found
    next => exact contains_roundest inside zeros

theorem between_of_contains (inside : interval.contains n = true) :
    (interval.lo < n ∨ interval.lo = n ∧ interval.closed = true) ∧
      (n < interval.hi ∨ n = interval.hi ∧ interval.closed = true) := by
  rw [contains] at inside
  split at inside
  next closed =>
      rw [Bool.and_eq_true, decide_eq_true_eq, decide_eq_true_eq] at inside
      simp only [closed, and_true]
      omega
  next =>
      rw [Bool.and_eq_true, decide_eq_true_eq, decide_eq_true_eq] at inside
      exact ⟨.inl inside.1, .inl inside.2⟩

end Interval

namespace Binary64

/-- The exponent of the double before. -/
theorem exponentAt_before (n : Nat) :
    exponentAt n = if mantissaAt (n + 1) = fullMantissa ∧ exponentAt (n + 1) ≠ leastExponent
      then exponentAt (n + 1) - 1 else exponentAt (n + 1) := by
  simp only [exponentAt, mantissaAt, fullMantissa, leastExponent]
  by_cases least : (n + 1) / 0x10000000000000 = 0
  · simp only [least, if_true]
    split_ifs <;> omega
  · simp only [least, if_false]
    split_ifs <;> omega

/-- The distance to the midpoint before a double, in quarters of the last bit of its mantissa. -/
def lowerGap (mantissa : Nat) (exponent : Int) : Nat :=
  if mantissa = fullMantissa ∧ exponent ≠ leastExponent then 1 else 2

theorem midpoint_before (n : Nat) :
    2 * (valueAt n + valueAt (n + 1)) =
      (4 * mantissaAt (n + 1) - lowerGap (mantissaAt (n + 1)) (exponentAt (n + 1))) *
        2 ^ exponentAt (n + 1) := by
  have two : (2 : ℚ) ≠ 0 := by norm_num
  have here : valueAt (n + 1) = mantissaAt (n + 1) * 2 ^ exponentAt (n + 1) := rfl
  have before : valueAt n = valueAt (n + 1) - 2 ^ exponentAt n := by
    rw [valueAt_succ, valueAt]
    ring
  rw [before, here, exponentAt_before n, lowerGap]
  split
  next =>
      rw [zpow_sub_one₀ two]
      push_cast
      ring
  next =>
      push_cast
      ring

theorem midpoint_behind (n : Nat) :
    2 * (valueAt n + valueAt (n + 1)) = (4 * mantissaAt n + 2) * 2 ^ exponentAt n := by
  rw [valueAt_succ, valueAt]
  ring

/-- The number of decimal places that a quarter of the last bit is a multiple of. -/
def places (exponent : Int) : Nat := (2 - exponent).toNat

/-- A quarter of the last bit, in units of the last decimal place. -/
def scale (exponent : Int) : Nat :=
  if places exponent = 0 then Nat.pow 2 (exponent - 2).toNat else Nat.pow 5 (places exponent)

theorem scale_eq (exponent : Int) : 4 * (scale exponent : ℚ) = 2 ^ exponent * 10 ^ places exponent := by
  have two : (2 : ℚ) ≠ 0 := by norm_num
  rw [scale]
  split
  next whole =>
      have exponent_eq : exponent = ((exponent - 2).toNat : Int) + 2 := by
        rw [places] at whole
        omega
      have power : (2 : ℚ) ^ exponent = 2 ^ (exponent - 2).toNat * 4 := by
        conv_lhs => rw [exponent_eq]
        rw [zpow_add₀ two, zpow_natCast]
        norm_num
      rw [whole, pow_zero, mul_one, power, Nat.pow_eq]
      push_cast
      ring
  next fraction =>
      have exponent_eq : exponent = 2 - (places exponent : Int) := by
        rw [places] at fraction ⊢
        omega
      have power (n : Nat) : (2 : ℚ) ^ (2 - (n : Int)) * 2 ^ n = 4 := by
        rw [zpow_sub₀ two, zpow_natCast, div_mul_cancel₀ _ (pow_ne_zero n two)]
        norm_num
      have power := power (places exponent)
      rw [← exponent_eq] at power
      have ten : (10 : ℚ) ^ places exponent = 2 ^ places exponent * 5 ^ places exponent := by
        rw [← mul_pow]
        norm_num
      rw [ten, ← mul_assoc, power, Nat.pow_eq]
      push_cast
      ring

/-- The decimals that round to a double, in units of the last decimal place. -/
def readBack (mantissa : Nat) (exponent : Int) : Interval where
  lo := (4 * mantissa - lowerGap mantissa exponent) * scale exponent
  hi := (4 * mantissa + 2) * scale exponent
  closed := mantissa % 2 == 0

theorem printFinite_eq (mantissa : Nat) (exponent : Int) :
    printFinite mantissa exponent =
      positional
        ((readBack mantissa exponent).roundest (4 * mantissa * scale exponent)
          (Nat.toDigits 10 (4 * mantissa * scale exponent)).length)
        (places exponent) := rfl

section

variable {mantissa : Nat}

theorem lowerGap_le (pos : mantissa ≠ 0) (exponent : Int) : lowerGap mantissa exponent ≤ 4 * mantissa := by
  rw [lowerGap]
  split
  next => omega
  next => omega

theorem scale_pos (exponent : Int) : 0 < scale exponent := by
  rw [scale]
  split
  next => exact Nat.pow_pos (by decide)
  next => exact Nat.pow_pos (by decide)

theorem contains_readBack (pos : mantissa ≠ 0) (exponent : Int) :
    (readBack mantissa exponent).contains (4 * mantissa * scale exponent) = true := by
  have gap : 0 < lowerGap mantissa exponent := by
    rw [lowerGap]
    split <;> decide
  have lower : (4 * mantissa - lowerGap mantissa exponent) * scale exponent <
      4 * mantissa * scale exponent := Nat.mul_lt_mul_of_pos_right (by omega) (scale_pos exponent)
  have upper : 4 * mantissa * scale exponent < (4 * mantissa + 2) * scale exponent :=
    Nat.mul_lt_mul_of_pos_right (by omega) (scale_pos exponent)
  rw [Interval.contains]
  simp only [readBack, lower, upper, lower.le, upper.le, decide_true, Bool.and_self, ite_self]

theorem mantissaAt_ne_zero {n : Nat} (pos : n ≠ 0) : mantissaAt n ≠ 0 := by
  rw [mantissaAt, fullMantissa]
  split
  next => exact pos
  next => omega

/-- The bounds of the interval are the midpoints. -/
theorem readBack_lo (n : Nat) :
    ((readBack (mantissaAt (n + 1)) (exponentAt (n + 1))).lo : ℚ) =
      (valueAt n + valueAt (n + 1)) / 2 * 10 ^ places (exponentAt (n + 1)) := by
  have small := lowerGap_le (mantissaAt_ne_zero (Nat.succ_ne_zero n)) (exponentAt (n + 1))
  rw [readBack, Nat.cast_mul, Nat.cast_sub small]
  push_cast
  linear_combination
    (4 * (mantissaAt (n + 1) : ℚ) - lowerGap (mantissaAt (n + 1)) (exponentAt (n + 1))) / 4 *
      scale_eq (exponentAt (n + 1)) -
    10 ^ places (exponentAt (n + 1)) / 4 * midpoint_before n

theorem readBack_hi (n : Nat) :
    ((readBack (mantissaAt n) (exponentAt n)).hi : ℚ) =
      (valueAt n + valueAt (n + 1)) / 2 * 10 ^ places (exponentAt n) := by
  rw [readBack]
  push_cast
  linear_combination
    (4 * (mantissaAt n : ℚ) + 2) / 4 * scale_eq (exponentAt n) -
    10 ^ places (exponentAt n) / 4 * midpoint_behind n

end

/-- A number in the interval rounds to the double. -/
theorem roundsTo_of_contains {bits : UInt64} {r : Nat} (bound : bits ≤ infinityBits)
    (inside : (readBack (mantissaAt bits.toNat) (exponentAt bits.toNat)).contains r = true) :
    RoundsTo (r / 10 ^ places (exponentAt bits.toNat)) bits := by
  have unit : (0 : ℚ) < 10 ^ places (exponentAt bits.toNat) := by positivity
  have even : (readBack (mantissaAt bits.toNat) (exponentAt bits.toNat)).closed = true ↔
      bits.toNat % 2 = 0 := by
    rw [readBack, beq_iff_eq, mantissaAt_even]
  obtain ⟨lower, upper⟩ := Interval.between_of_contains inside
  rw [even] at lower upper
  refine roundsTo_of_between bound (fun n before => ?_) ?_
  · have middle := readBack_lo n
    rw [before] at middle
    refine lower.imp (fun less => ?_) (fun same => ⟨?_, same.2⟩)
    · have less : ((readBack (mantissaAt bits.toNat) (exponentAt bits.toNat)).lo : ℚ) < r := by
        exact_mod_cast less
      rw [middle, ← lt_div_iff₀ unit] at less
      linarith
    · rw [← same.1, middle, mul_div_assoc, div_self unit.ne']
      ring
  · have middle := readBack_hi bits.toNat
    refine upper.imp (fun less => ?_) (fun same => ⟨?_, same.2⟩)
    · have less : (r : ℚ) < (readBack (mantissaAt bits.toNat) (exponentAt bits.toNat)).hi := by
        exact_mod_cast less
      rw [middle, ← div_lt_iff₀ unit] at less
      linarith
    · rw [same.1, middle, mul_div_assoc, div_self unit.ne']
      ring

/-- What is written for a finite double rounds to it. -/
theorem exists_print_roundsTo {bits : UInt64} (finite : bits < infinityBits) :
    ∃ n places : Nat, (ofBits bits).print = positional n places ∧ RoundsTo (n / 10 ^ places) bits := by
  have bound : bits ≤ infinityBits := UInt64.le_of_lt finite
  rw [ofBits_eq finite, print]
  by_cases zero : bits.toNat = 0
  · have none : mantissaAt 0 = 0 := by decide
    have value : valueAt bits.toNat = (0 : Nat) / 10 ^ 0 := by
      rw [zero, valueAt, none]
      simp
    refine ⟨0, 0, ?_, value ▸ roundsTo_valueAt bound⟩
    rw [zero, none, if_pos rfl]
    decide
  · have some := mantissaAt_ne_zero zero
    rw [if_neg some, if_neg Bool.false_ne_true, printFinite_eq]
    exact ⟨_, _, rfl, roundsTo_of_contains bound (Interval.contains_roundest (contains_readBack some _) _)⟩

end Binary64

end Bundler.Decimal
