import Mathlib.Algebra.Field.Rat
import Mathlib.Data.List.DropRight
import Mathlib.Tactic.FieldSimp
import Mathlib.Tactic.Ring
import Bundler.Decimal.Shortest

/-! # Digits with a point

A decimal is written as its whole part, and behind a point its fraction if there is any.  The whole part
does not start with a zero that could be left out.
-/

namespace Bundler.Decimal

/-- The digits of a whole part. -/
def IsWhole (digits : List Char) : Prop :=
  digits ≠ [] ∧ (∀ c ∈ digits, c.isDigit = true) ∧ (digits.length ≤ 1 ∨ digits.head? ≠ some '0')

/-- A fraction behind its point. -/
def pointed : (fraction : List Char) → List Char
  | [] => []
  | c :: rest => '.' :: c :: rest

theorem pointed_of_ne_nil {fraction : List Char} (some : fraction ≠ []) : pointed fraction = '.' :: fraction := by
  cases fraction with
  | nil => exact absurd rfl some
  | cons c rest => rfl

/-- The value of the digits of a decimal. -/
def decimalValue (whole fraction : List Char) : ℚ :=
  Nat.ofDigitChars 10 (whole ++ fraction) 0 / 10 ^ fraction.length

theorem head?_toDigits {n : Nat} (pos : n ≠ 0) : (Nat.toDigits 10 n).head? ≠ some '0' := by
  induction n using Nat.strongRecOn with
  | ind n ih =>
      rw [Nat.toDigits_eq_if (by decide)]
      split
      next small =>
          have digits : ∀ d < 10, d ≠ 0 → d.digitChar ≠ '0' := by decide
          simpa using digits n small pos
      next large =>
          rw [List.head?_append_of_ne_nil _ Nat.toDigits_ne_nil]
          exact ih (n / 10) (by omega) (by omega)

/-- The zeros at the end of a fraction add nothing. -/
theorem decimalValue_append_zeros (whole fraction : List Char) (zeros : Nat) :
    decimalValue whole (fraction ++ List.replicate zeros '0') = decimalValue whole fraction := by
  have shift : Nat.ofDigitChars 10 (whole ++ (fraction ++ List.replicate zeros '0')) 0 =
      10 ^ zeros * Nat.ofDigitChars 10 (whole ++ fraction) 0 := by
    rw [← List.append_assoc, Nat.ofDigitChars_append, Nat.ofDigitChars_replicate_zero]
  rw [decimalValue, decimalValue, shift, List.length_append, List.length_replicate, pow_add]
  push_cast
  field_simp

/-- The digits of a number, with zeros before them so that there is one more than there are places. -/
def padded (n places : Nat) : List Char :=
  List.replicate (places + 1 - (Nat.toDigits 10 n).length) '0' ++ Nat.toDigits 10 n

section Padded

variable (n places : Nat)

theorem length_padded : (padded n places).length = max (places + 1) (Nat.toDigits 10 n).length := by
  rw [padded, List.length_append, List.length_replicate]
  omega

theorem isDigit_of_mem_padded : ∀ c ∈ padded n places, c.isDigit = true := by
  intro c mem
  rcases List.mem_append.mp mem with mem | mem
  · rw [(List.mem_replicate.mp mem).2]
    decide
  · exact Nat.isDigit_of_mem_toDigits (by decide) (by decide) mem

theorem ofDigitChars_padded : Nat.ofDigitChars 10 (padded n places) 0 = n := by
  rw [padded, Nat.ofDigitChars_append, Nat.ofDigitChars_replicate_zero, Nat.mul_zero,
    Nat.ofDigitChars_ten_toDigits]

/-- What is before the places starts with a zero only if it is nothing else. -/
theorem isWhole_padded : IsWhole ((padded n places).take ((padded n places).length - places)) := by
  have long := length_padded n places
  refine ⟨?_, fun c mem => isDigit_of_mem_padded n places c (List.mem_of_mem_take mem), ?_⟩
  · rw [← List.length_pos_iff, List.length_take]
    omega
  · rcases Nat.lt_or_ge places (Nat.toDigits 10 n).length with many | few
    · have exact_digits : padded n places = Nat.toDigits 10 n := by
        rw [padded, Nat.sub_eq_zero_of_le many, List.replicate_zero, List.nil_append]
      by_cases zero : n = 0
      · left
        rw [List.length_take, exact_digits, zero]
        exact Nat.min_le_right _ _
      · right
        rw [exact_digits, List.head?_take, if_neg (by omega)]
        exact head?_toDigits zero
    · left
      rw [List.length_take]
      omega

theorem toList_positional :
    (positional n places).toList =
      (padded n places).take ((padded n places).length - places) ++
        pointed (((padded n places).drop ((padded n places).length - places)).rdropWhile (· == '0')) := by
  rw [positional, List.splitAt_eq]
  dsimp only
  split
  next none =>
      have nothing : ((padded n places).drop ((padded n places).length - places)).rdropWhile (· == '0') = [] :=
        none
      rw [nothing, pointed, List.append_nil]
      exact String.toList_ofList
  next some =>
      have something : ((padded n places).drop ((padded n places).length - places)).rdropWhile (· == '0') ≠ [] :=
        some
      rw [pointed_of_ne_nil something]
      exact String.toList_ofList

end Padded

/-- What is written for a decimal has a whole part and maybe a fraction, and they have its value. -/
theorem positional_eq (n places : Nat) :
    ∃ whole fraction, (positional n places).toList = whole ++ pointed fraction ∧ IsWhole whole ∧
      (∀ c ∈ fraction, c.isDigit = true) ∧ decimalValue whole fraction = n / 10 ^ places := by
  let whole := (padded n places).take ((padded n places).length - places)
  let behind := (padded n places).drop ((padded n places).length - places)
  let fraction := behind.rdropWhile (· == '0')
  have parts : whole ++ behind = padded n places := List.take_append_drop _ _
  have zeros : behind.rtakeWhile (· == '0') = List.replicate (behind.rtakeWhile (· == '0')).length '0' :=
    List.eq_replicate_iff.mpr ⟨rfl, fun c mem => by simpa using List.mem_rtakeWhile_imp mem⟩
  have behind_eq : fraction ++ List.replicate (behind.rtakeWhile (· == '0')).length '0' = behind := by
    rw [← zeros]
    exact List.rdropWhile_append_rtakeWhile
  refine ⟨whole, fraction, ?_, isWhole_padded n places, ?_, ?_⟩
  · exact toList_positional n places
  · intro c mem
    have mem : c ∈ behind := behind_eq ▸ List.mem_append_left _ mem
    exact isDigit_of_mem_padded n places c (List.mem_of_mem_drop mem)
  · have long := length_padded n places
    have behind_length : behind.length = places := by
      rw [List.length_drop]
      omega
    rw [← decimalValue_append_zeros whole fraction (behind.rtakeWhile (· == '0')).length, behind_eq,
      decimalValue, parts, ofDigitChars_padded, behind_length]

end Bundler.Decimal
