import Bundler.Expr.Chain
import Bundler.Graph.Order
import Bundler.Options
import Bundler.Path

/-!
# Denotation

Finds out what every name and every property access of the program denotes. A chain of properties
read from a namespace is followed through the exports of modules, from namespace to namespace, as
far as its keys go; where it can be followed to its end, the access denotes a declaration and no
part of it is looked at on its own, so the namespaces on the way are not referred to. A key that a
namespace does not have makes the access `undefined`, with a warning.

Every node is looked at once.
-/

namespace Bundler

/-- The code of the warning about a property that a namespace does not have. -/
def missingExport : String := "MISSING_EXPORT"

/-- Where to read about the warning. -/
def missingExportUrl : String :=
  "https://github.com/rollup/rollup/wiki/Troubleshooting#name-is-not-exported-by-module"

/-- Where a chain of keys leads to. -/
inductive Destination where
  /-- All keys were followed. -/
  | declaration (id : DeclId)
  /-- A module does not export a key. -/
  | missing (exporter : Provider) (key : ChainKey)
  /-- A key is read from something that is no namespace. -/
  | beyond
  deriving Repr, DecidableEq

namespace Graph

/-- Does something about a node, unless the node has been looked at before. -/
def once (id : NodeId) (step : Step Graph Unit) : Step Graph Unit := do
  unless ((← get).markAt id).bound do
    modify fun graph => graph.modifyMark id fun mark => { mark with bound := true }
    step

/-- Sets what a node turned out to be. -/
def settle (id : NodeId) (resolution : Resolution) : Step Graph Unit :=
  modify fun graph => graph.modifyMark id fun mark => { mark with resolution := some resolution }

/-- The declaration that a name of a module denotes. -/
def lookup (owner : ModuleId) (name : String) : Step Graph DeclId :=
  modifyGet fun graph =>
    let (id, symbols) := graph.scopes.find graph.symbols owner.scope name
    (symbols.denoted id, { graph with symbols })

/-- Follows keys from a declaration. -/
def follow : DeclId → List ChainKey → Step Graph Destination
  | id, [] => return .declaration id
  | id, key :: rest => do
    match ((← get).symbols.declarationAt id).namespace? with
    | none => return .beyond
    | some exporter =>
      match ← onSymbols (Symbols.resolveExport? exporter key.name) with
      | some next => follow next rest
      | none => return .missing exporter key

/-- The warning that a module reads a key that another does not export. -/
def missingExportWarning (symbols : Symbols) (options : Options) (owner : ModuleId)
    (exporter : Provider) (key : ChainKey) : Diagnostic :=
  let importer := Path.display (symbols.moduleAt owner).id options.cwd
  let exporter := Path.display (symbols.specifier exporter) options.cwd
  let warning : Diagnostic :=
    { severity := .warning
      code := missingExport
      message := "'" ++ key.name ++ "' is not exported by '" ++ exporter ++ "'"
      primary := ⟨owner.file, key.range.saturated⟩
      url := some missingExportUrl }
  ((warning.withField "missing" key.name).withField "importer" importer).withField "exporter"
    exporter

/-- Warns about a key that a module does not export. -/
def warn (options : Options) (owner : ModuleId) (exporter : Provider) (key : ChainKey) :
    Step Graph Unit :=
  modify fun graph =>
    { graph with
      warnings :=
        graph.warnings.push (missingExportWarning graph.symbols options owner exporter key) }

/-- Proposes a name for the external module that a declaration comes from, if it does. -/
def proposeFor (id : DeclId) (hint : String) : Step Graph Unit :=
  modify fun graph =>
    match (graph.symbols.declarationAt id).kind with
    | .provided source _ => { graph with symbols := graph.symbols.proposeName source hint }
    | _ => graph

/-- Resolves a property access as a whole, and says whether its parts are settled with it. -/
def resolveAccess (options : Options) (owner : ModuleId) (access : Expr Label) :
    Step Graph Bool := do
  match access.chain? with
  | some (.ident _ root, keys) =>
    match ← follow (← lookup owner root) keys with
    | .declaration id =>
      settle access.id (.declaration id)
      proposeFor id root
      return true
    | .missing exporter key =>
      warn options owner exporter key
      settle access.id .undefined
      return true
    | .beyond =>
      settle access.id .fallback
      return false
  | _ =>
    settle access.id .fallback
    return false

mutual

/-- Resolves an expression of a module and its parts. -/
def resolveExpr (options : Options) (owner : ModuleId) : Expr Label → Step Graph Unit
  | .ident label name => once label.id do
    settle label.id (.declaration (← lookup owner name))
  | .literal label _ => once label.id (return ())
  | .member label object key => once label.id do
    unless ← resolveAccess options owner (.member label object key) do
      resolveExpr options owner object
  | .index label object key => once label.id do
    unless ← resolveAccess options owner (.index label object key) do
      resolveExpr options owner object
      resolveExpr options owner key
  | .call label callee arguments => once label.id do
    resolveExpr options owner callee
    resolveExprs options owner arguments
  | .assign label target value => once label.id do
    resolveExpr options owner target
    resolveExpr options owner value

/-- Resolves some expressions of a module and their parts. -/
def resolveExprs (options : Options) (owner : ModuleId) : List (Expr Label) → Step Graph Unit
  | [] => return ()
  | e :: rest => do
    resolveExpr options owner e
    resolveExprs options owner rest

end

/-- Resolves the expressions of a statement. -/
def resolveStatement (options : Options) (owner : ModuleId) (statement : Statement Label) :
    Step Graph Unit :=
  once statement.id (resolveExprs options owner statement.children)

/-- Resolves a node and what is below it. -/
def resolveNode (options : Options) (id : NodeId) : Step Graph Unit := do
  match (← get).nodeAt id with
  | ⟨owner, .statement body⟩ => resolveStatement options owner body
  | ⟨owner, .expr body⟩ => resolveExpr options owner body

/-- Resolves all statements of a module. -/
def resolveModule (options : Options) (id : ModuleId) : Step Graph Unit := do
  ((← get).statements id).forM (resolveStatement options id)

/-- Resolves all modules that the entry needs. -/
def resolve (options : Options) : Step Graph Unit := do
  (← get).order.forM (resolveModule options)

end Graph

end Bundler
