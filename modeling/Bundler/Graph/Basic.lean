import Bundler.Diagnostic.Frame
import Bundler.Scope
import Bundler.Statement

/-!
# Module graphs

A program as a graph of modules: what was written, which never changes, and what has been found out
about it, which only grows. The nodes of all modules share one arena; a second array marks for each
of them what is known.
-/

namespace Bundler

/-- The file that holds a module. -/
def ModuleId.file (id : ModuleId) : FileId := ⟨id.index⟩

/-- A node of the arena. -/
structure Node where
  /-- The module that the node belongs to. -/
  owner : ModuleId
  fragment : Fragment
  deriving Repr

instance : Inhabited Node := ⟨⟨default, .expr (.literal default .null)⟩⟩

/-- What a name or a property access turned out to be. -/
inductive Resolution where
  /-- It denotes a declaration. -/
  | declaration (id : DeclId)
  /-- It reads a property that its namespace does not have. -/
  | undefined
  /-- It is evaluated as written, its parts were looked at one by one. -/
  | fallback
  deriving Repr, DecidableEq

/-- What is known about a node. -/
structure Mark where
  /-- Whether the node has been looked at. -/
  bound : Bool := false
  /-- Whether the node is part of the bundle. -/
  included : Bool := false
  resolution : Option Resolution := none
  deriving Repr, DecidableEq, Inhabited

/-- A program and what is known about it. -/
structure Graph where
  nodes : Array Node
  marks : Array Mark
  scopes : Scopes
  symbols : Symbols
  /-- The module that the bundle stands for. -/
  entry : ModuleId
  /-- The modules that the entry needs, itself included, each behind those that it needs. -/
  order : List ModuleId := []
  warnings : Array Diagnostic := #[]

namespace Graph

/-- The node with the given id. -/
def nodeAt (graph : Graph) (id : NodeId) : Node := graph.nodes.getD id.index default

/-- What is known about a node. -/
def markAt (graph : Graph) (id : NodeId) : Mark := graph.marks.getD id.index default

/-- Changes what is known about a node. -/
def modifyMark (graph : Graph) (id : NodeId) (f : Mark → Mark) : Graph :=
  { graph with marks := graph.marks.modify id.index f }

/-- What a node turned out to be, as far as it is known. -/
def resolutionAt (graph : Graph) (id : NodeId) : Option Resolution := (graph.markAt id).resolution

/-- The declaration that a node denotes. -/
def denotation? (graph : Graph) (id : NodeId) : Option DeclId :=
  match graph.resolutionAt id with
  | some (.declaration declaration) => some declaration
  | _ => none

/-- The statements of a module. -/
def statements (graph : Graph) (id : ModuleId) : List (Statement Label) :=
  (graph.symbols.moduleAt id).body.toList.filterMap fun node =>
    match (graph.nodeAt node).fragment with
    | .statement body => some body
    | .expr _ => none

/-- The module with the given name, the first one if there are several. -/
def moduleNamed? (graph : Graph) (name : String) : Option ModuleId :=
  graph.symbols.moduleIds.find? fun id => (graph.symbols.moduleAt id).id = name

/-- The modules as files. -/
def sources (graph : Graph) : Sources where
  name? file := graph.symbols.modules[file.index]?.map (·.id)
  text? file := graph.symbols.modules[file.index]?.map (·.source)

end Graph

end Bundler
