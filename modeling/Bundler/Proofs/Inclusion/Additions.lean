import Bundler.Proofs.Inclusion.Termination

/-! # What is newly added

Including a node or a declaration says whether it adds something.  The answer can be taken at its word, both
ways: it is yes exactly if some node or declaration is included that was not included before.  What can also
change are the flags of external modules, but never alone: an external module comes to be used only with a
declaration that it provides.
-/

namespace Bundler

/-- Which nodes and declarations a selection has decides what it takes. -/
theorem Selection.Takes.of_eq {graph : Graph} {s t : Selection} {item : Includable}
    (takes : s.Takes graph item) (nodes : t.nodes = s.nodes) (declarations : t.declarations = s.declarations) :
    t.Takes graph item := by
  cases item with
  | node id => simpa only [Selection.Takes, nodes, declarations] using takes
  | declaration id => simpa only [Selection.Takes, declarations] using takes

namespace Graph

/-- The flag of some node or declaration is not the same in both graphs.  An id that is out of range has
    none, and reads as not included in either graph. -/
inductive Changes (graph other : Graph) : Prop where
  | node {id} : other.includesNode id ≠ graph.includesNode id → Changes graph other
  | declaration {id} : other.includesDeclaration id ≠ graph.includesDeclaration id → Changes graph other

variable {graph other : Graph} {items : List Includable} {added : Bool}

/-- Without a change to a node or a declaration there is none at all. -/
theorem Closes.changes_iff (closes : Closes graph items other) : Changes graph other ↔ other ≠ graph := by
  constructor
  · rintro (differs | differs) rfl
    · exact differs rfl
    · exact differs rfl
  · intro differs
    by_contra unchanged
    -- With the same flags both selections take the same, so the graph has all that was asked for already.
    refine differs (closes.eq_self_iff.mpr fun item member => (closes.takes item member).of_eq ?_ ?_)
    · funext id
      by_contra other
      exact unchanged (.node (Ne.symm other))
    · funext id
      by_contra other
      exact unchanged (.declaration (Ne.symm other))

/-- However deep a run changes something, and whatever answers are dropped on the way, its answer says
    whether there has been a change. -/
theorem Includes.changes_iff (grounded : graph.Grounded) (holds : ∀ item ∈ items, graph.Holds item)
    (includes : Includes graph items added other) : added = true ↔ Changes graph other := by
  rw [(includes.closes grounded holds).changes_iff, ← Bool.not_eq_false, Ne, not_iff_not]
  exact (includes.adds grounded holds).eq_false_iff

/-- A run over one thing says whether anything changes, and nothing does if it does not say so. -/
theorem Includes.tells {item : Includable} (includes : Includes graph [item] added other)
    (grounded : graph.Grounded) (holds : graph.Holds item) :
    (added = true ↔ Changes graph other) ∧ (added = false → other = graph) := by
  have holds : ∀ other ∈ [item], graph.Holds other := List.forall_mem_singleton.mpr holds
  exact ⟨includes.changes_iff grounded holds, (includes.adds grounded holds).same⟩

/-- In every reachable state, including a node or a declaration says that it adds something exactly if it
    changes the flag of a node or a declaration.  If it does not say so, the state stays the same. -/
theorem added_iff_changes (reachable : graph.Reachable) :
    (∀ id : NodeId, id.index < graph.nodes.size →
      ((graph.retainNode id).1 = true ↔ Changes graph (graph.retainNode id).2) ∧
      ((graph.retainNode id).1 = false → (graph.retainNode id).2 = graph)) ∧
    ∀ id : DeclId, id.index < graph.symbols.declarations.size →
      ((graph.retainDeclaration id).1 = true ↔ Changes graph (graph.retainDeclaration id).2) ∧
      ((graph.retainDeclaration id).1 = false → (graph.retainDeclaration id).2 = graph) := by
  have grounded := reachable.intact.sound.grounded
  constructor
  · intro id inside
    exact ((includes_iff_retainNode grounded inside).mpr rfl).tells grounded inside
  · intro id inside
    exact ((includes_iff_retainDeclaration grounded inside).mpr rfl).tells grounded inside

/-- Including one of two constants with each other as initial values changes a flag, and including the
    other one then changes nothing. -/
theorem added_entwined : ∃ graph, graph.Reachable ∧
    ((graph.retainDeclaration ⟨3⟩).1 = true ∧ Changes graph (graph.retainDeclaration ⟨3⟩).2) ∧
    ((graph.retainDeclaration ⟨3⟩).2.retainDeclaration ⟨5⟩).1 = false ∧
      ((graph.retainDeclaration ⟨3⟩).2.retainDeclaration ⟨5⟩).2 = (graph.retainDeclaration ⟨3⟩).2 := by
  have reachable : Reachable ((resolve {}).outcome (link.outcome entwined).2).2 :=
    .resolve {} (.link (.made made_entwined))
  obtain ⟨-, first⟩ := added_iff_changes reachable
  obtain ⟨-, second⟩ := added_iff_changes (.retainDeclaration ⟨3⟩ reachable)
  have added : (((resolve {}).outcome (link.outcome entwined).2).2.retainDeclaration ⟨3⟩).1 = true := by
    decide +kernel
  have nothing : ((((resolve {}).outcome (link.outcome entwined).2).2.retainDeclaration
      ⟨3⟩).2.retainDeclaration ⟨5⟩).1 = false := by decide +kernel
  refine ⟨_, reachable, ⟨added, ((first ⟨3⟩ ?_).1).mp added⟩, nothing, (second ⟨5⟩ ?_).2 nothing⟩
  all_goals decide +kernel

end Graph

end Bundler
