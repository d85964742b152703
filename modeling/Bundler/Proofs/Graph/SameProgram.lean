import Bundler.Proofs.Graph.Annotation
import Bundler.Proofs.Inclusion.Closure

/-! # Inclusion and naming

Including and naming leave the program and all that has been found out about it as they are: only
flags and names in the output change.
-/

namespace Bundler.Graph

variable {graph other : Graph}

/-- The graphs differ in no more than what is included and how it is named in the output. -/
structure SameProgram (graph other : Graph) : Prop where
  nodes : other.nodes = graph.nodes
  scopes : other.scopes = graph.scopes
  entry : other.entry = graph.entry
  order : other.order = graph.order
  marks : other.marks.size = graph.marks.size
  resolutionAt : ∀ id, other.resolutionAt id = graph.resolutionAt id
  modules : other.symbols.modules = graph.symbols.modules
  globals : other.symbols.globals = graph.symbols.globals
  declarations : other.symbols.declarations.size = graph.symbols.declarations.size
  declarationAt : ∀ id, ∃ included outputName, other.symbols.declarationAt id =
    { graph.symbols.declarationAt id with included, outputName }
  externals : other.symbols.externals.size = graph.symbols.externals.size
  externalAt : ∀ id, ∃ used outputName, other.symbols.externalAt id =
    { graph.symbols.externalAt id with used, outputName }

theorem Alike.sameProgram (alike : Alike graph other) : SameProgram graph other := by
  have sizes := alike.sizes
  obtain ⟨s, rfl⟩ := alike
  exact ⟨rfl, rfl, rfl, rfl, sizes.1, resolutionAt_select s, rfl, rfl, sizes.2.1,
    fun id => ⟨_, _, declarationAt_select s id⟩, sizes.2.2, fun id => ⟨_, _, externalAt_select s id⟩⟩

namespace SameProgram

variable (same : SameProgram graph other)

include same

theorem moduleAt (id : ModuleId) : other.symbols.moduleAt id = graph.symbols.moduleAt id := by
  rw [Symbols.moduleAt, same.modules]
  rfl

theorem kind (id : DeclId) :
    (other.symbols.declarationAt id).kind = (graph.symbols.declarationAt id).kind := by
  obtain ⟨_, _, entry⟩ := same.declarationAt id
  rw [entry]

theorem agrees : Agrees graph other where
  nodes := same.nodes
  marks := same.marks
  resolutionAt := same.resolutionAt
  declarations := same.declarations
  externals := same.externals
  kind := same.kind
  exports id := by rw [same.moduleAt]
  body {id node} := by rw [same.moduleAt]
  order := by rw [same.order]
  entry := same.entry

theorem annotates : Annotates graph other where
  nodes := same.nodes
  scopes := same.scopes
  entry := same.entry
  order := .inl same.order
  marks := same.marks
  modules := congrArg Array.size same.modules
  moduleAt id := ⟨_, same.moduleAt id⟩
  externals := same.externals
  declarations := Nat.le_of_eq same.declarations.symm
  owner {id} _ := by
    obtain ⟨_, _, entry⟩ := same.declarationAt id
    rw [entry]
  kind {id} _ := by
    rw [same.kind]
    exact .same

theorem sound (sound : graph.Sound) : other.Sound := by
  have extension := same.annotates.extension
  refine sound.step extension (same.nodes ▸ sound.arena) ?_ (fun {id} there => .inl ?_)
    (fun {id} there => .inr ?_) (fun {id} there => .inl ?_) ?_ ?_ (fun id => .inl ?_)
    fun {id declaration} denoted => .inl ?_
  · rw [same.marks, same.nodes, sound.marks]
  · exact ⟨Nat.lt_of_lt_of_eq there (congrArg Array.size same.modules), same.moduleAt id⟩
  · obtain ⟨included, outputName, entry⟩ := same.declarationAt id
    have before := extension.declarationSound
      (sound.declarations (Nat.lt_of_lt_of_eq there same.declarations))
    rw [entry]
    exact ⟨before.declared, before.imported, before.namespaceOf, before.provided⟩
  · obtain ⟨used, outputName, entry⟩ := same.externalAt id
    exact ⟨Nat.lt_of_lt_of_eq there same.externals, by rw [entry]⟩
  · intro name declaration found
    exact .inl (same.globals ▸ found)
  · rw [same.scopes, same.modules, sound.scopeCount]
  · rw [same.scopes]
  · exact ⟨same.agrees.denotation? id ▸ denoted, same.agrees.nodeAt id⟩

theorem remembers : graph.symbols.Remembers other.symbols := by
  refine .ofTables same.globals (fun id => ?_) fun id => ?_
  · obtain ⟨_, _, entry⟩ := same.externalAt id
    rw [entry]
  · obtain ⟨_, _, entry⟩ := same.declarationAt id
    rw [entry]
    exact ⟨rfl, .inl rfl⟩

theorem bound (bound : graph.Bound) : other.Bound where
  linked {id} inside source name := by
    rw [same.kind]
    exact bound.linked (Nat.lt_of_lt_of_eq inside same.declarations) source name
  final {id declaration} denoted source name target := by
    rw [same.kind]
    exact bound.final (same.agrees.denotation? id ▸ denoted) source name target

end SameProgram

end Bundler.Graph
