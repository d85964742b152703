import Bundler.Proofs.Symbols.Access
import Bundler.Graph.Basic

/-! # Access to marks

How the marks of a graph read back after a change.
-/

namespace Bundler.Graph

variable {graph : Graph}

theorem markAt_modifyMark (id other : NodeId) (f : Mark → Mark) :
    (graph.modifyMark id f).markAt other =
      if other = id ∧ id.index < graph.marks.size then f (graph.markAt other)
      else graph.markAt other := by
  obtain ⟨i⟩ := id
  obtain ⟨j⟩ := other
  simp only [markAt, modifyMark, Array.getD_eq_getD_getElem?, Array.getElem?_modify,
    NodeId.mk.injEq]
  by_cases same : j = i
  · subst same
    by_cases inside : j < graph.marks.size <;> simp [inside]
  · simp [same, Ne.symm same]

theorem markAt_modifyMark_self {id : NodeId} (inside : id.index < graph.marks.size) (f : Mark → Mark) :
    (graph.modifyMark id f).markAt id = f (graph.markAt id) := by
  rw [markAt_modifyMark, if_pos ⟨rfl, inside⟩]

theorem markAt_modifyMark_of_ne {id other : NodeId} (different : other ≠ id) (f : Mark → Mark) :
    (graph.modifyMark id f).markAt other = graph.markAt other := by
  rw [markAt_modifyMark, if_neg fun both => different both.1]

end Bundler.Graph
