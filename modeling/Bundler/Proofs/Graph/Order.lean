import Bundler.Proofs.DepthFirst
import Bundler.Proofs.Graph.Soundness
import Bundler.Graph.Order

/-! # What the order of execution contains

The order of execution lists every module that the entry reaches along imports and re-exports.
-/

namespace Bundler

theorem Symbols.card_moduleIds (symbols : Symbols) :
    symbols.moduleIds.toFinset.card < symbols.modules.size + 1 := by
  refine Nat.lt_succ_of_le (Nat.le_trans (List.toFinset_card_le _) ?_)
  simp [moduleIds]

namespace Graph

variable {graph : Graph}

/-- The dependencies of a module are the modules of the graph that its statements link to. -/
theorem Sound.mem_dependencies (sound : graph.Sound) {id source : ModuleId} :
    source ∈ graph.dependencies id ↔ graph.Links id (.internal source) := by
  simp only [dependencies, List.mem_filterMap]
  constructor
  · rintro ⟨statement, member, linked⟩
    obtain ⟨body, found⟩ := sound.grounded.statement member
    refine ⟨statement.id, body, statement, found, ?_⟩
    split at linked
    next other link =>
        cases linked
        exact link
    next => cases linked
  · rintro ⟨node, body, statement, found, link⟩
    refine ⟨statement, mem_statements.mpr ⟨node, body, ?_⟩, by rw [link]⟩
    rw [nodeAt_of_getElem? found]

theorem Sound.dependencies_known (sound : graph.Sound) : ∀ id ∈ graph.symbols.moduleIds.toFinset,
    ∀ source ∈ graph.dependencies id, source ∈ graph.symbols.moduleIds.toFinset := by
  intro id _ source member
  exact List.mem_toFinset.mpr (Symbols.mem_moduleIds.mpr (sound.known (sound.mem_dependencies.mp member)))

/-- The entry is executed, and so is every module that an executed one links to. -/
theorem Sound.executionOrder (sound : graph.Sound) (entry : graph.HasProvider (.internal graph.entry)) :
    graph.entry ∈ graph.executionOrder ∧
      ∀ id ∈ graph.executionOrder, ∀ source, graph.Links id (.internal source) →
        source ∈ graph.executionOrder := by
  obtain ⟨start, closed⟩ := DepthFirst.closed_walk sound.dependencies_known graph.symbols.card_moduleIds
    (List.mem_toFinset.mpr (Symbols.mem_moduleIds.mpr entry))
  simp only [Graph.executionOrder, List.mem_reverse]
  exact ⟨start, fun id member source links => closed id member source (sound.mem_dependencies.mpr links)⟩

/-- Whatever an executed module reaches is executed. -/
theorem Sound.executed (sound : graph.Sound) (entry : graph.HasProvider (.internal graph.entry))
    {id home : ModuleId} (executed : id ∈ graph.executionOrder) (reaches : graph.Reaches id home) :
    home ∈ graph.executionOrder := by
  induction reaches with
  | refl => exact executed
  | tail _ links ih => exact (sound.executionOrder entry).2 _ ih _ links

end Graph

end Bundler
