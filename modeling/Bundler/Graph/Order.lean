import Bundler.Graph.Basic
import Bundler.Symbols.Link

/-!
# Order of execution

Linking a graph links its symbols and then orders the modules that the entry needs, each behind the
modules that it imports or exports from, as far as these do not need each other.
-/

namespace Bundler.Graph

/-- A step on the symbols of a graph. -/
def onSymbols {α : Type} (step : Step Symbols α) : Step Graph α :=
  Step.within Graph.symbols (fun graph symbols => { graph with symbols }) step

/-- The modules of the graph that a module imports or exports from, in the order of its
    statements. -/
def dependencies (graph : Graph) (id : ModuleId) : List ModuleId :=
  (graph.statements id).filterMap fun statement =>
    match statement.source? with
    | some (.internal source) => some source
    | _ => none

/-- The modules that the entry needs, dependencies first. -/
def executionOrder (graph : Graph) : List ModuleId :=
  (DepthFirst.walk graph.dependencies (graph.symbols.modules.size + 1) graph.entry).left.reverse

/-- Finds what all imports and exports denote, and the order of the modules. -/
def link : Step Graph Unit := do
  onSymbols Symbols.link
  modify fun graph => { graph with order := graph.executionOrder }

end Bundler.Graph
