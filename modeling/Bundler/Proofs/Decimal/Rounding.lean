import Mathlib.Algebra.Order.Field.Power
import Mathlib.Data.Rat.Defs
import Mathlib.Order.Monotone.Basic
import Mathlib.Tactic.FieldSimp
import Mathlib.Tactic.Linarith
import Mathlib.Tactic.Ring
import Bundler.Decimal.Binary64

/-! # Rounding to double precision

A number is rounded to the nearest double, and where two are equally near to the one with an even mantissa.
The bits of the doubles count them in the order of their values, so a number rounds to the only double for
which it lies between the midpoints on both sides.
-/

namespace Bundler.Decimal.Binary64

/-- The absolute value.  What is too large for a double counts as the next power of two. -/
def magnitude : Binary64 → ℚ
  | .notANumber => 0
  | .infinite _ => 2 ^ 1024
  | .finite _ mantissa exponent => mantissa * 2 ^ exponent

/-- Whether the mantissa is even.  That of what is too large counts as even. -/
def isEven : Binary64 → Bool
  | .notANumber => false
  | .infinite _ => true
  | .finite _ mantissa _ => mantissa % 2 == 0

/-- The bits of the infinity that is not negative.  Smaller ones are those of the finite doubles that are
    not negative. -/
def infinityBits : UInt64 := 0x7FF0000000000000

/-- A number that is not negative is rounded to the double with these bits. -/
def RoundsTo (number : ℚ) (bits : UInt64) : Prop :=
  bits ≤ infinityBits ∧ ∀ other ≤ infinityBits, other ≠ bits →
    |number - (ofBits bits).magnitude| < |number - (ofBits other).magnitude| ∨
      |number - (ofBits bits).magnitude| = |number - (ofBits other).magnitude| ∧ (ofBits bits).isEven = true

/-! ## The doubles in their order -/

/-- The mantissa of the double with the number. -/
def mantissaAt (n : Nat) : Nat := if n / fullMantissa = 0 then n else fullMantissa + n % fullMantissa

/-- The exponent of the double with the number. -/
def exponentAt (n : Nat) : Int :=
  if n / fullMantissa = 0 then leastExponent else leastExponent + (n / fullMantissa : Nat) - 1

/-- The value of the double with the number. -/
def valueAt (n : Nat) : ℚ := mantissaAt n * 2 ^ exponentAt n

theorem mantissaAt_even (n : Nat) : mantissaAt n % 2 = n % 2 := by
  rw [mantissaAt, fullMantissa]
  split
  next => rfl
  next => omega

/-- The next double is one unit of the mantissa away. -/
theorem valueAt_succ (n : Nat) : valueAt (n + 1) = (mantissaAt n + 1) * 2 ^ exponentAt n := by
  have two : (2 : ℚ) ≠ 0 := by norm_num
  rcases Nat.lt_or_ge (n % fullMantissa + 1) fullMantissa with inside | last
  · -- The exponent stays as it is.
    have same : (n + 1) / fullMantissa = n / fullMantissa := by
      rw [fullMantissa] at inside ⊢
      omega
    have up : (n + 1) % fullMantissa = n % fullMantissa + 1 := by
      rw [fullMantissa] at inside ⊢
      omega
    rw [valueAt, exponentAt, exponentAt, mantissaAt, mantissaAt, same, up]
    split
    next => push_cast; rfl
    next => push_cast; ring
  · -- The mantissa starts again, at half of what it would be.
    have up : (n + 1) / fullMantissa = n / fullMantissa + 1 := by
      rw [fullMantissa] at last ⊢
      omega
    have again : (n + 1) % fullMantissa = 0 := by
      rw [fullMantissa] at last ⊢
      omega
    have full : n % fullMantissa + 1 = fullMantissa := by
      rw [fullMantissa] at last ⊢
      omega
    rw [valueAt, exponentAt, exponentAt, mantissaAt, mantissaAt, up, again, if_neg (Nat.succ_ne_zero _),
      if_neg (Nat.succ_ne_zero _)]
    split
    next least =>
        have whole : n + 1 = fullMantissa := by
          rw [fullMantissa] at full least ⊢
          omega
        rw [least, ← whole]
        push_cast
        simp
    next =>
        have exponent : leastExponent + ((n / fullMantissa + 1 : Nat) : Int) - 1 =
            (leastExponent + ((n / fullMantissa : Nat) : Int) - 1) + 1 := by
          push_cast
          ring
        have whole : ((n % fullMantissa : Nat) : ℚ) + 1 = (fullMantissa : ℚ) := by
          exact_mod_cast full
        rw [exponent, zpow_add_one₀ two]
        push_cast
        rw [add_assoc, whole]
        ring

theorem valueAt_strictMono : StrictMono valueAt := by
  refine strictMono_nat_of_lt_succ fun n => ?_
  have unit : (0 : ℚ) < 2 ^ exponentAt n := by positivity
  rw [valueAt_succ, valueAt]
  linarith

section Bits

variable {bits : UInt64}

theorem ofBits_eq (finite : bits < infinityBits) :
    ofBits bits = .finite false (mantissaAt bits.toNat) (exponentAt bits.toNat) := by
  have bound : bits.toNat < 0x7FF0000000000000 := UInt64.lt_iff_toNat_lt.mp finite
  have sign : bits.toNat / 0x8000000000000000 = 0 := by omega
  have small : bits.toNat / fullMantissa % 0x800 = bits.toNat / fullMantissa := by
    rw [fullMantissa]
    omega
  have finite : bits.toNat / fullMantissa ≠ 0x7FF := by
    rw [fullMantissa]
    omega
  rw [ofBits, mantissaAt, exponentAt]
  simp only [small, finite, sign, if_false]
  split
  next least =>
      have fraction : bits.toNat % fullMantissa = bits.toNat := by
        rw [fullMantissa] at least ⊢
        omega
      rw [fraction]
      rfl
  next => rfl

/-- These are the bits of the finite doubles that are not negative. -/
theorem lt_infinityBits_iff :
    bits < infinityBits ↔ ∃ mantissa exponent, ofBits bits = .finite false mantissa exponent := by
  refine ⟨fun finite => ⟨_, _, ofBits_eq finite⟩, ?_⟩
  rintro ⟨mantissa, exponent, decoded⟩
  have size : bits.toNat < 2 ^ 64 := bits.toNat_lt
  have value : infinityBits.toNat = 0x7FF0000000000000 := rfl
  rw [UInt64.lt_iff_toNat_lt, value]
  have sign : bits.toNat / 0x8000000000000000 ≠ 1 ∧ bits.toNat / fullMantissa % 0x800 ≠ 0x7FF := by
    rw [ofBits] at decoded
    split_ifs at decoded with top
    next => injection decoded with sign; exact ⟨by simpa using sign, top⟩
    next => injection decoded with sign; exact ⟨by simpa using sign, top⟩
  rw [fullMantissa] at sign
  omega

theorem ofBits_infinityBits : ofBits infinityBits = .infinite false := by decide

theorem magnitude_ofBits (bound : bits ≤ infinityBits) : (ofBits bits).magnitude = valueAt bits.toNat := by
  rcases UInt64.lt_or_eq_of_le bound with finite | rfl
  · rw [ofBits_eq finite, magnitude, valueAt]
  · have mantissa : mantissaAt infinityBits.toNat = fullMantissa := by decide
    have exponent : exponentAt infinityBits.toNat = 972 := by decide
    have full : ((fullMantissa : Nat) : ℚ) = 2 ^ 52 := by norm_num [fullMantissa]
    rw [ofBits_infinityBits, magnitude, valueAt, mantissa, exponent, full, zpow_ofNat, ← pow_add]

theorem isEven_ofBits (bound : bits ≤ infinityBits) : (ofBits bits).isEven = (bits.toNat % 2 == 0) := by
  rcases UInt64.lt_or_eq_of_le bound with finite | rfl
  · rw [ofBits_eq finite, isEven, mantissaAt_even]
  · decide

end Bits

/-! ## The nearest double -/

section Distances

variable {lower upper number : ℚ}

theorem nearer_upper (below : lower < upper) :
    |number - upper| < |number - lower| ↔ lower + upper < 2 * number := by
  constructor
  · intro nearer
    cases abs_cases (number - upper) <;> cases abs_cases (number - lower) <;> linarith
  · intro beyond
    cases abs_cases (number - upper) <;> cases abs_cases (number - lower) <;> linarith

theorem nearer_lower (below : lower < upper) :
    |number - lower| < |number - upper| ↔ 2 * number < lower + upper := by
  constructor
  · intro nearer
    cases abs_cases (number - upper) <;> cases abs_cases (number - lower) <;> linarith
  · intro before
    cases abs_cases (number - upper) <;> cases abs_cases (number - lower) <;> linarith

theorem equally_near (below : lower < upper) :
    |number - lower| = |number - upper| ↔ lower + upper = 2 * number := by
  constructor
  · intro same
    cases abs_cases (number - upper) <;> cases abs_cases (number - lower) <;> linarith
  · intro middle
    cases abs_cases (number - upper) <;> cases abs_cases (number - lower) <;> linarith

end Distances

/-- A number rounds to a double if it lies between the midpoints on both sides, or if it is one of them
    and the double is even. -/
theorem roundsTo_of_between {number : ℚ} {bits : UInt64} (bound : bits ≤ infinityBits)
    (lower : ∀ n, n + 1 = bits.toNat → valueAt n + valueAt bits.toNat < 2 * number ∨
      valueAt n + valueAt bits.toNat = 2 * number ∧ bits.toNat % 2 = 0)
    (upper : 2 * number < valueAt bits.toNat + valueAt (bits.toNat + 1) ∨
      valueAt bits.toNat + valueAt (bits.toNat + 1) = 2 * number ∧ bits.toNat % 2 = 0) :
    RoundsTo number bits := by
  refine ⟨bound, fun other otherBound different => ?_⟩
  rw [magnitude_ofBits bound, magnitude_ofBits otherBound, isEven_ofBits bound]
  rcases Nat.lt_trichotomy other.toNat bits.toNat with below | same | above
  · obtain ⟨n, before⟩ : ∃ n, n + 1 = bits.toNat := ⟨bits.toNat - 1, by omega⟩
    have least : valueAt other.toNat ≤ valueAt n := valueAt_strictMono.monotone (by omega)
    have apart : valueAt other.toNat < valueAt bits.toNat := valueAt_strictMono below
    rcases lower n before with inside | ⟨middle, even⟩
    · exact .inl ((nearer_upper apart).mpr (by linarith))
    · rcases least.lt_or_eq with further | next
      · exact .inl ((nearer_upper apart).mpr (by linarith))
      · exact .inr ⟨((equally_near apart).mpr (by linarith)).symm, by simp [even]⟩
  · exact absurd (UInt64.toNat_inj.mp same) different
  · have most : valueAt (bits.toNat + 1) ≤ valueAt other.toNat := valueAt_strictMono.monotone above
    have apart : valueAt bits.toNat < valueAt other.toNat := valueAt_strictMono above
    rcases upper with inside | ⟨middle, even⟩
    · exact .inl ((nearer_lower apart).mpr (by linarith))
    · rcases most.lt_or_eq with further | next
      · exact .inl ((nearer_lower apart).mpr (by linarith))
      · exact .inr ⟨(equally_near apart).mpr (by linarith), by simp [even]⟩

/-- The value of a double rounds to the double. -/
theorem roundsTo_valueAt {bits : UInt64} (bound : bits ≤ infinityBits) : RoundsTo (valueAt bits.toNat) bits := by
  refine roundsTo_of_between bound (fun n before => .inl ?_) (.inl ?_)
  · have below : valueAt n < valueAt bits.toNat := valueAt_strictMono (by omega)
    linarith
  · have above : valueAt bits.toNat < valueAt (bits.toNat + 1) := valueAt_strictMono (Nat.lt_succ_self _)
    linarith

/-- Two doubles that are equally near and nearest cannot both be even, as there is another between them. -/
theorem RoundsTo.not_lt {number : ℚ} {first second : UInt64} (rounds : RoundsTo number first)
    (other : RoundsTo number second) : ¬ first.toNat < second.toNat := by
  intro below
  have different : second ≠ first := by
    rintro rfl
    exact Nat.lt_irrefl _ below
  have apart : valueAt first.toNat < valueAt second.toNat := valueAt_strictMono below
  have forth := rounds.2 second other.1 different
  have back := other.2 first rounds.1 different.symm
  rw [magnitude_ofBits rounds.1, magnitude_ofBits other.1, isEven_ofBits rounds.1, beq_iff_eq] at forth
  rw [magnitude_ofBits rounds.1, magnitude_ofBits other.1, isEven_ofBits other.1, beq_iff_eq] at back
  rcases forth with nearer | ⟨same, even⟩
  · rcases back with further | ⟨same, -⟩
    · exact absurd nearer (not_lt_of_gt further)
    · exact absurd nearer (same ▸ lt_irrefl _)
  · rcases back with further | ⟨-, even'⟩
    · exact absurd further (same ▸ lt_irrefl _)
    · -- The double behind the first one is before the second one, and nearer than both.
      have bound : second.toNat ≤ infinityBits.toNat := UInt64.le_iff_toNat_le.mp other.1
      have size : second.toNat < 2 ^ 64 := second.toNat_lt
      obtain ⟨middle, at_middle⟩ : ∃ middle : UInt64, middle.toNat = first.toNat + 1 :=
        ⟨.ofNat (first.toNat + 1), by rw [UInt64.toNat_ofNat', Nat.mod_eq_of_lt (by omega)]⟩
      have bound : middle ≤ infinityBits := by
        have := UInt64.le_iff_toNat_le.mp other.1
        exact UInt64.le_iff_toNat_le.mpr (by omega)
      have different : middle ≠ first := by
        rintro rfl
        omega
      have up : valueAt first.toNat < valueAt middle.toNat := valueAt_strictMono (by omega)
      have down : valueAt middle.toNat < valueAt second.toNat := valueAt_strictMono (by omega)
      have between : |number - valueAt middle.toNat| < |number - valueAt first.toNat| :=
        (nearer_upper up).mpr (by linarith [(equally_near apart).mp same])
      have nearest := rounds.2 middle bound different
      rw [magnitude_ofBits rounds.1, magnitude_ofBits bound] at nearest
      rcases nearest with further | ⟨same, -⟩
      · exact absurd between (not_lt_of_gt further)
      · exact absurd between (same ▸ lt_irrefl _)

/-- A number rounds to one double only. -/
theorem RoundsTo.unique {number : ℚ} {first second : UInt64} (rounds : RoundsTo number first)
    (other : RoundsTo number second) : first = second := by
  rcases Nat.lt_trichotomy first.toNat second.toNat with below | same | above
  · exact absurd below (rounds.not_lt other)
  · exact UInt64.toNat_inj.mp same
  · exact absurd above (other.not_lt rounds)

end Bundler.Decimal.Binary64
