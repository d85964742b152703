import Bundler.Graph.Order
import Bundler.Proofs.Graph.Entries
import Bundler.Proofs.Inclusion.Selection
import Bundler.Proofs.Symbols.Tables

/-! # Finding things out about a program

Linking and resolving leave the program as it is: they add declarations for what comes from outside,
give imports their targets, and note what exports and nodes denote.
-/

namespace Bundler.Graph

variable {graph other : Graph}

/-- The other graph is the same program, of which more may be known. -/
structure Annotates (graph other : Graph) : Prop where
  nodes : other.nodes = graph.nodes
  scopes : other.scopes = graph.scopes
  entry : other.entry = graph.entry
  /-- The order of the modules may have been found. -/
  order : other.order = graph.order ∨ other.order = graph.executionOrder
  marks : other.marks.size = graph.marks.size
  modules : other.symbols.modules.size = graph.symbols.modules.size
  moduleAt : ∀ id, ∃ resolvedExports,
    other.symbols.moduleAt id = { graph.symbols.moduleAt id with resolvedExports }
  externals : other.symbols.externals.size = graph.symbols.externals.size
  declarations : graph.symbols.declarations.size ≤ other.symbols.declarations.size
  owner : ∀ {id}, graph.HasDeclaration id →
    (other.symbols.declarationAt id).owner = (graph.symbols.declarationAt id).owner
  kind : ∀ {id}, graph.HasDeclaration id →
    (graph.symbols.declarationAt id).kind.Becomes (other.symbols.declarationAt id).kind

namespace Annotates

theorem refl (graph : Graph) : Annotates graph graph :=
  ⟨rfl, rfl, rfl, .inl rfl, rfl, rfl, fun _ => ⟨_, rfl⟩, rfl, Nat.le_refl _, fun _ => rfl,
    fun _ => .same⟩

theorem nodeAt (annotates : Annotates graph other) (id : NodeId) :
    other.nodeAt id = graph.nodeAt id := by
  rw [Graph.nodeAt, annotates.nodes]
  rfl

theorem body (annotates : Annotates graph other) (id : ModuleId) :
    (other.symbols.moduleAt id).body = (graph.symbols.moduleAt id).body := by
  obtain ⟨_, same⟩ := annotates.moduleAt id
  rw [same]

theorem statements (annotates : Annotates graph other) (id : ModuleId) :
    other.statements id = graph.statements id := by
  simp only [Graph.statements, annotates.body, annotates.nodeAt]

/-- The order of execution is a matter of the program alone. -/
theorem executionOrder (annotates : Annotates graph other) :
    other.executionOrder = graph.executionOrder := by
  have same : other.dependencies = graph.dependencies := by
    funext id
    rw [dependencies, annotates.statements]
    rfl
  rw [Graph.executionOrder, same, annotates.modules, annotates.entry]
  rfl

theorem extension (annotates : Annotates graph other) : Extends graph other where
  node found := by rwa [annotates.nodes]
  modules := Nat.le_of_eq annotates.modules.symm
  externals := Nat.le_of_eq annotates.externals.symm
  namespaceDecl {id} _ := by
    obtain ⟨_, same⟩ := annotates.moduleAt id
    rw [same]
  body {id node} member := annotates.body id ▸ member
  declarations := annotates.declarations
  owner := annotates.owner
  kind := annotates.kind

theorem trans {last : Graph} (first : Annotates graph other) (second : Annotates other last) :
    Annotates graph last := by
  have both := first.extension.trans second.extension
  refine ⟨second.nodes.trans first.nodes, second.scopes.trans first.scopes,
    second.entry.trans first.entry, ?_, second.marks.trans first.marks,
    second.modules.trans first.modules, fun id => ?_, second.externals.trans first.externals,
    both.declarations, both.owner, both.kind⟩
  · rcases second.order with same | found
    · rw [same]
      exact first.order
    · exact .inr (found.trans first.executionOrder)
  · obtain ⟨_, before⟩ := first.moduleAt id
    obtain ⟨resolvedExports, after⟩ := second.moduleAt id
    exact ⟨resolvedExports, by rw [after, before]⟩

theorem ofSymbols {symbols : Symbols} (extension : Extends graph (graph.withSymbols symbols))
    (modules : symbols.modules.size = graph.symbols.modules.size)
    (moduleAt : ∀ id, ∃ resolvedExports,
      symbols.moduleAt id = { graph.symbols.moduleAt id with resolvedExports })
    (externals : symbols.externals.size = graph.symbols.externals.size) :
    Annotates graph (graph.withSymbols symbols) :=
  { extension with
    nodes := rfl
    scopes := rfl
    entry := rfl
    order := .inl rfl
    marks := rfl
    modules := modules
    moduleAt := moduleAt
    externals := externals }

end Annotates

/-- Every import has its target, and no node denotes an import. -/
structure Bound (graph : Graph) : Prop where
  linked : ∀ {id}, graph.HasDeclaration id → graph.Targeted id
  final : ∀ {id declaration}, graph.denotation? id = some declaration → graph.Final declaration

/-- A change that finds out more about a program and includes nothing. -/
structure Enriches (graph other : Graph) : Prop extends Annotates graph other where
  selection : other.selection = graph.selection
  added : ∀ {id}, other.HasDeclaration id → graph.HasDeclaration id ∨ other.Final id
  sound : graph.Sound → other.Sound
  bound : graph.Sound → graph.Bound → other.Bound

/-- A step that finds out more about a program, includes nothing and declares nothing twice. -/
structure Develops (graph other : Graph) : Prop extends Enriches graph other where
  remembers : graph.symbols.Remembers other.symbols

namespace Enriches

theorem refl (graph : Graph) : Enriches graph graph :=
  { Annotates.refl graph with
    selection := rfl
    added := .inl
    sound := id
    bound := fun _ => id }

theorem trans {last : Graph} (first : Enriches graph other) (second : Enriches other last) :
    Enriches graph last :=
  { first.toAnnotates.trans second.toAnnotates with
    selection := second.selection.trans first.selection
    added := fun inside => by
      rcases second.added inside with between | final
      · rcases first.added between with before | final
        · exact .inl before
        · exact .inr (second.extension.final between final)
      · exact .inr final
    sound := fun before => second.sound (first.sound before)
    bound := fun sound before => second.bound (first.sound sound) (first.bound sound before) }

theorem ofSymbols {symbols : Symbols} (annotates : Annotates graph (graph.withSymbols symbols))
    (included : ∀ id, (graph.withSymbols symbols).includesDeclaration id =
      graph.includesDeclaration id)
    (used : ∀ id, (symbols.externalAt id).used = (graph.symbols.externalAt id).used)
    (added : ∀ {id}, (graph.withSymbols symbols).HasDeclaration id →
      graph.HasDeclaration id ∨ (graph.withSymbols symbols).Final id)
    (sound : graph.Sound → (graph.withSymbols symbols).Sound) :
    Enriches graph (graph.withSymbols symbols) :=
  { annotates with
    selection := by
      ext id
      · rfl
      · exact included id
      · exact used id
    added := added
    sound := sound
    bound := fun before bound =>
      { linked := fun inside => (added inside).elim
          (fun before => annotates.extension.targeted before (bound.linked before)) (·.targeted)
        final := fun denoted =>
          annotates.extension.final (before.denoted denoted).inside (bound.final denoted) } }

end Enriches

namespace Develops

theorem refl (graph : Graph) : Develops graph graph := ⟨Enriches.refl graph, .refl _⟩

theorem trans {last : Graph} (first : Develops graph other) (second : Develops other last) :
    Develops graph last :=
  ⟨first.toEnriches.trans second.toEnriches, first.remembers.trans second.remembers⟩

end Develops

end Bundler.Graph
