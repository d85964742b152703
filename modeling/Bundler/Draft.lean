import Bundler.Graph.Basic
import Bundler.Step

/-!
# Drafts

A draft is a program under construction. Modules can be added first and filled later in any order,
so that they may import each other. Every statement is printed to the source of its module and gets
its nodes with their exact places. `Draft.finish` makes the graph.

A statement that declares or exports a name twice is refused, but what was done before that was
noticed stays: the statement keeps its text and its nodes.
-/

namespace Bundler

/-- A program under construction. -/
structure Draft where
  nodes : Array Node := #[]
  scopes : Scopes := {}
  symbols : Symbols := {}
  /-- The exports of local names, with the exporting module, the local and the exported name. The
      local names may be declared later. -/
  localExports : Array (ModuleId × String × String) := #[]
  deriving Inhabited

namespace Draft

variable {α : Type}

/-- Adds a module without statements, and its scope. -/
def addModule (draft : Draft) (id : String) : ModuleId × Draft :=
  let (moduleId, symbols) := draft.symbols.addModule id
  let (_, scopes) := draft.scopes.create none moduleId
  (moduleId, { draft with symbols, scopes })

/-- Adds an external module. -/
def addExternal (draft : Draft) (id : String) : ExternalId × Draft :=
  let (externalId, symbols) := draft.symbols.addExternal id
  (externalId, { draft with symbols })

/-- Adds a statement at the end of a module. -/
def addStatement (draft : Draft) (owner : ModuleId) (statement : Statement α) :
    Statement Label × Draft :=
  let start := (draft.symbols.moduleAt owner).source.utf8ByteSize
  let placed := statement.place start draft.nodes.size
  let nodes := (Fragment.ofStatement placed).map (Node.mk owner)
  let symbols := draft.symbols.modifyModule owner fun m =>
    { m with source := m.source ++ statement.print ++ "\n", body := m.body.push placed.id }
  (placed, { draft with nodes := draft.nodes ++ nodes, symbols })

/-- Adds an expression as a statement, and gives the node of the expression. -/
def addExpression (draft : Draft) (owner : ModuleId) (body : Expr α) : NodeId × Draft :=
  let (placed, draft) := draft.addStatement owner (.expression body.tag body)
  (⟨placed.id.index - 1⟩, draft)

/-- Adds a statement, and a declaration that is made from it. -/
def addDeclaring (draft : Draft) (owner : ModuleId) (statement : Statement α) (name : String)
    (kind : NodeId → DeclarationKind) : DeclId × Draft :=
  let (placed, draft) := draft.addStatement owner statement
  let (id, symbols) :=
    draft.symbols.addDeclaration name (some (.internal owner)) (kind placed.id)
  (id, { draft with symbols })

/-- Binds a name in the scope of a module. -/
def bind (owner : ModuleId) (name : String) (id : DeclId) : Step Draft Unit := do
  let draft ← get
  let scopes ← Step.ofExcept (draft.scopes.declare draft.symbols owner.scope name id)
  set { draft with scopes }

/-- Makes a name an export of a module. -/
def addExport (owner : ModuleId) (name : String) (entry : Export) : Step Draft Unit := do
  let draft ← get
  let symbols ← Step.ofExcept (draft.symbols.addExport owner name entry)
  set { draft with symbols }

/-- Adds a declaration of a name. -/
def declare (owner : ModuleId) (mode : Mode) (name : String) (init : Option (Expr Unit))
    (exported : Bool) : Step Draft DeclId := do
  let id ← modifyGet fun draft =>
    draft.addDeclaring owner (.declare () exported mode () name init) name .declared
  bind owner name id
  if exported then addExport owner name (.own id)
  return id

/-- Adds an import of `imported` as `binding`. Who imports an external module as a whole, or its
    default export, proposes a name for it. -/
def importFrom (owner : ModuleId) (source : Provider) (imported binding : String) :
    Step Draft DeclId := do
  let id ← modifyGet fun draft =>
    let specifier := draft.symbols.specifier source
    draft.addDeclaring owner (.importFrom () source specifier imported binding) binding
      fun _ => .imported source imported none
  bind owner binding id
  match source with
  | .external externalId =>
    if imported = wholeModule ∨ imported = defaultExport then
      modify fun draft =>
        { draft with symbols := draft.symbols.proposeName externalId binding }
  | .internal _ => pure ()
  return id

/-- Adds an export of the local name `binding` as `exported`. -/
def exportLocal (draft : Draft) (owner : ModuleId) (binding exported : String) : Draft :=
  let (_, draft) := draft.addStatement owner (Statement.exportList () binding exported)
  { draft with localExports := draft.localExports.push (owner, binding, exported) }

/-- Adds a statement that exports from another module. -/
def addExportFrom (draft : Draft) (owner : ModuleId) (source : Provider) (clause : Clause) :
    Draft :=
  let specifier := draft.symbols.specifier source
  (draft.addStatement owner (Statement.exportFrom () source specifier clause)).2

/-- Adds an export of what another module exports as `imported`. -/
def exportFrom (owner : ModuleId) (source : Provider) (imported exported : String) :
    Step Draft Unit := do
  modify fun draft => draft.addExportFrom owner source (.single imported exported)
  addExport owner exported (.again source imported)

/-- Adds an export of all exports of another module as one object. -/
def exportWhole (owner : ModuleId) (source : Provider) (exported : String) : Step Draft Unit := do
  modify fun draft => draft.addExportFrom owner source (.whole exported)
  addExport owner exported (.again source wholeModule)

/-- Adds an export of all exports of another module but its default. -/
def exportAll (draft : Draft) (owner : ModuleId) (source : Provider) : Draft :=
  let draft := draft.addExportFrom owner source .all
  { draft with symbols := draft.symbols.addStarExport owner source }

/-- Makes the export of a local name, which has to be declared by now. -/
def finishExport (scopes : Scopes) (symbols : Symbols) :
    ModuleId × String × String → Except Fault Symbols
  | (owner, binding, exported) =>
    match scopes.binding? owner.scope binding with
    | some id => symbols.addExport owner exported (.own id)
    | none => .error (.undeclaredExport (symbols.moduleAt owner).id binding)

/-- The graph of the program, with the module that a bundle is made for. -/
def finish (draft : Draft) (entry : ModuleId) : Except Fault Graph := do
  let symbols ← draft.localExports.toList.foldlM (finishExport draft.scopes) draft.symbols
  return {
    nodes := draft.nodes
    marks := Array.replicate draft.nodes.size {}
    scopes := draft.scopes
    symbols
    entry }

end Draft

end Bundler
