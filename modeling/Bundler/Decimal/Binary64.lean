import Bundler.Decimal.Shortest

/-!
# Double precision numbers

A number literal is kept as the 64 bits of its double, so that every value, also each of the
not-a-numbers and the two zeros, is told from every other. Here the bits are decoded into an exact
value and written with the fewest digits that read back as the same double, always positionally.
-/

namespace Bundler.Decimal

/-- The value of a double: a finite one is `mantissa * 2 ^ exponent`, negated if `negative`. -/
inductive Binary64 where
  | notANumber
  | infinite (negative : Bool)
  | finite (negative : Bool) (mantissa : Nat) (exponent : Int)
  deriving Repr, DecidableEq

namespace Binary64

/-- The least mantissa of a double that has all its bits of precision. -/
def fullMantissa : Nat := 0x10000000000000

/-- The exponent of the doubles closest to zero. -/
def leastExponent : Int := -1074

/-- Decodes a sign bit, eleven exponent bits and fifty-two fraction bits. -/
def ofBits (bits : UInt64) : Binary64 :=
  let n := bits.toNat
  let negative := n / 0x8000000000000000 == 1
  let exponent : Nat := n / fullMantissa % 0x800
  let fraction : Nat := n % fullMantissa
  if exponent = 0x7FF then
    if fraction = 0 then .infinite negative else .notANumber
  else if exponent = 0 then .finite negative fraction leastExponent
  else .finite negative (fullMantissa + fraction) (leastExponent + (exponent : Int) - 1)

/-- Writes `mantissa * 2 ^ exponent`, for a mantissa other than zero, with the fewest digits that
    round to it. In quarters of the last mantissa bit the neighbours' midpoints are two away, or
    one on the lower side of a power of two, whose lower neighbour is twice as near. A midpoint
    itself rounds to an even mantissa. -/
def printFinite (mantissa : Nat) (exponent : Int) : String :=
  let lowerGap := if mantissa = fullMantissa ∧ exponent ≠ leastExponent then 1 else 2
  let places := (2 - exponent).toNat
  let scale : Nat := if places = 0 then Nat.pow 2 (exponent - 2).toNat else Nat.pow 5 places
  let point := 4 * mantissa * scale
  let interval : Interval :=
    ⟨(4 * mantissa - lowerGap) * scale, (4 * mantissa + 2) * scale, mantissa % 2 == 0⟩
  positional (interval.roundest point (Nat.toDigits 10 point).length) places

/-- Writes a double. Both zeros keep their sign. -/
def print : Binary64 → String
  | .notANumber => "NaN"
  | .infinite negative => if negative then "-Infinity" else "Infinity"
  | .finite negative mantissa exponent =>
    let digits := if mantissa = 0 then "0" else printFinite mantissa exponent
    if negative then "-" ++ digits else digits

end Binary64

end Bundler.Decimal
