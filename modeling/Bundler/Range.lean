/-!
# Ranges

A half-open range of byte offsets into a text.
-/

namespace Bundler

/-- The bytes from `start` on, up to but without `stop`. -/
structure Range where
  start : Nat
  stop : Nat
  deriving Repr, DecidableEq, Inhabited

namespace Range

/-- The number of bytes in the range, none if its ends are out of order. -/
def length (range : Range) : Nat := range.stop - range.start

/-- Whether no byte lies in the range. -/
def isEmpty (range : Range) : Bool := range.stop ≤ range.start

/-- The greatest offset that a diagnostic can carry. -/
def maxOffset : Nat := 0xFFFFFFFF

/-- The range with offsets past `maxOffset` pulled back to it. -/
def saturated (range : Range) : Range :=
  ⟨min range.start maxOffset, min range.stop maxOffset⟩

/-- A range is empty exactly when its length is zero. -/
theorem isEmpty_iff (range : Range) : range.isEmpty = true ↔ range.length = 0 := by
  simp only [isEmpty, length, decide_eq_true_eq]
  omega

end Range

end Bundler
