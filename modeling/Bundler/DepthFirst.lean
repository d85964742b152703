/-!
# Depth-first search

A walk over a finite graph that is given by the list of successors of each vertex. `DepthFirst.walk`
enters every vertex at most once and notes both when it enters and when it leaves it, so that a
vertex that is left has all its successors entered before.
-/

namespace Bundler

/-- How far a walk has come. -/
structure DepthFirst (α : Type) where
  /-- The vertices entered, the last one first. -/
  entered : List α := []
  /-- The vertices left, the last one first. -/
  left : List α := []
  deriving Repr

namespace DepthFirst

variable {α : Type} [DecidableEq α]

/-- Walks on from a vertex, unless it has been entered before. The first number bounds the length
    of the path from here; every path of a walk is at most as long as there are vertices. -/
def visit (successors : α → List α) : (depth : Nat) → DepthFirst α → α → DepthFirst α
  | 0, walked, _ => walked
  | depth + 1, walked, vertex =>
    if vertex ∈ walked.entered then walked
    else
      let walked := (successors vertex).foldl (visit successors depth)
        { walked with entered := vertex :: walked.entered }
      { walked with left := vertex :: walked.left }

/-- The walk from one vertex in a graph of at most `vertices` vertices. -/
def walk (successors : α → List α) (vertices : Nat) (start : α) : DepthFirst α :=
  visit successors vertices {} start

end DepthFirst

end Bundler
