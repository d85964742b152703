/-!
# Shortest decimals

The number of an interval with the fewest significant digits. All is exact arithmetic on naturals:
the caller scales its interval so that its bounds are whole numbers, and gives a point inside it.
`Interval.roundest` tries the decimal grids from the coarsest on, and takes the point of the first
grid that meets the interval; of two such points the one nearer to the given one, of two equally
near the greater. `positional` then writes the result with a decimal point.
-/

namespace Bundler.Decimal

/-- The naturals from `lo` to `hi`, with or without both of these. -/
structure Interval where
  lo : Nat
  hi : Nat
  closed : Bool
  deriving Repr, DecidableEq

namespace Interval

/-- Whether a number lies in the interval. -/
def contains (interval : Interval) (n : Nat) : Bool :=
  if interval.closed then interval.lo ≤ n && n ≤ interval.hi
  else interval.lo < n && n < interval.hi

/-- The multiple of `unit` in the interval that is next to `point`. -/
def nearest? (interval : Interval) (point unit : Nat) : Option Nat :=
  let below := point / unit * unit
  let above := below + unit
  match interval.contains below, interval.contains above with
  | true, true => some (if above - point ≤ point - below then above else below)
  | true, false => some below
  | false, true => some above
  | false, false => none

/-- The number of the interval with the most trailing zeros, at most `zeros` of them. -/
def roundest (interval : Interval) (point : Nat) : (zeros : Nat) → Nat
  | 0 => point
  | zeros + 1 =>
    match interval.nearest? point (Nat.pow 10 (zeros + 1)) with
    | some n => n
    | none => interval.roundest point zeros

end Interval

/-- Writes `n / 10 ^ places` with a decimal point, without zeros at the end of the fraction and
    without the point if the fraction is empty. -/
def positional (n places : Nat) : String :=
  let digits := Nat.toDigits 10 n
  let padded := List.replicate (places + 1 - digits.length) '0' ++ digits
  let (whole, fraction) := padded.splitAt (padded.length - places)
  match (fraction.reverse.dropWhile (· == '0')).reverse with
  | [] => String.ofList whole
  | fraction => String.ofList (whole ++ '.' :: fraction)

end Bundler.Decimal
