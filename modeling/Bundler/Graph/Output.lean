import Bundler.Graph.Basic
import Bundler.Options
import Bundler.Patch
import Bundler.Symbols.OutputText
import Bundler.Step

/-!
# The text of modules in the bundle

The text of a module in the bundle is its source with edits: statements that are not included are
removed along with those that only link modules, keywords that export are removed, and every
expression that denotes a declaration is replaced by the declaration's name. A namespace object that
the bundle needs is defined behind the module.
-/

namespace Bundler

/-- A module in the bundle: its text, and the edits that lead to it. -/
structure EmittedModule where
  id : String
  rendered : Rendered
  deriving Repr, DecidableEq

namespace Graph

/-- Changes a patch by an edit that may be refused. -/
def edit (change : Patch → Except Fault Patch) : Step Patch Unit := do
  set (← Step.ofExcept (change (← get)))

/-- Replaces the text of a range, unless it is the same already. -/
def rename (range : Range) (text : String) : Step Patch Unit := do
  unless (← get).slice? range = some text do
    edit fun patch => patch.rename range text

/-- The text that stands for a node in the bundle, if it is not the text of its parts. -/
def replacement? (graph : Graph) (format : Format) (id : NodeId) : Option String :=
  match graph.resolutionAt id with
  | some (.declaration declaration) => some (graph.symbols.outputText format declaration)
  | some .undefined => some "undefined"
  | some .fallback | none => none

mutual

/-- Renames what an expression denotes, or what its parts denote. -/
def emitExpr (graph : Graph) (format : Format) : Expr Label → Step Patch Unit
  | .ident label _ | .literal label _ =>
    match graph.replacement? format label.id with
    | some text => rename label.range text
    | none => return ()
  | .member label object _ =>
    match graph.replacement? format label.id with
    | some text => rename label.range text
    | none => emitExpr graph format object
  | .index label object key =>
    match graph.replacement? format label.id with
    | some text => rename label.range text
    | none => do
      emitExpr graph format object
      emitExpr graph format key
  | .call label callee arguments =>
    match graph.replacement? format label.id with
    | some text => rename label.range text
    | none => do
      emitExpr graph format callee
      emitExprs graph format arguments
  | .assign label target value =>
    match graph.replacement? format label.id with
    | some text => rename label.range text
    | none => do
      emitExpr graph format target
      emitExpr graph format value

/-- Renames what some expressions denote. -/
def emitExprs (graph : Graph) (format : Format) : List (Expr Label) → Step Patch Unit
  | [] => return ()
  | e :: rest => do
    emitExpr graph format e
    emitExprs graph format rest

end

/-- Renames what a node denotes, or what is denoted below it. -/
def emitNode (graph : Graph) (format : Format) (id : NodeId) : Step Patch Unit :=
  match (graph.nodeAt id).fragment with
  | .statement body => emitExprs graph format body.children
  | .expr body => emitExpr graph format body

/-- The range of a statement along with the line break behind it. -/
def lineRange (patch : Patch) (range : Range) : Range :=
  if patch.slice? ⟨range.stop, range.stop + 1⟩ = some "\n" then ⟨range.start, range.stop + 1⟩
  else range

/-- Edits the text of a statement. -/
def emitStatement (graph : Graph) (format : Format) (statement : Statement Label) :
    Step Patch Unit := do
  if !(graph.markAt statement.id).included || statement.isLinkage then
    edit fun patch => patch.remove (lineRange patch statement.range)
  else
    match statement.keywordRange? with
    | some range => edit fun patch => patch.remove range
    | none => pure ()
    emitExprs graph format statement.children

/-- A name as a key of an object. -/
def objectKey (name : String) : String :=
  if Identifier.isPlain name then name else Text.quote name

/-- The object of all exports of a module. -/
def objectText (symbols : Symbols) (format : Format) (exports : List (String × DeclId)) :
    String :=
  if exports.isEmpty then "\x7b\x7d"
  else
    let members := exports.map fun (name, declaration) =>
      "  " ++ objectKey name ++ ": " ++ symbols.outputText format declaration
    "\x7b\n" ++ ",\n".intercalate members ++ "\n\x7d"

/-- The definition of a module's namespace object. -/
def namespaceText (graph : Graph) (options : Options) (id : ModuleId) : String :=
  let m := graph.symbols.moduleAt id
  let object := objectText graph.symbols options.format m.resolvedExports
  let init := if options.freezeNamespaces then "Object.freeze(" ++ object ++ ")" else object
  "\nconst " ++ graph.symbols.outputText options.format m.namespaceDecl ++ " = " ++ init ++ ";\n"

/-- Edits the text of a module. -/
def patchModule (graph : Graph) (options : Options) (id : ModuleId) : Step Patch Unit := do
  (graph.statements id).forM (emitStatement graph options.format)
  if (graph.symbols.declarationAt (graph.symbols.moduleAt id).namespaceDecl).included then
    modify fun patch => patch.append (graph.namespaceText options id)

/-- The text of a module in the bundle. -/
def emitModule (graph : Graph) (options : Options) (id : ModuleId) : Except Fault EmittedModule :=
  let m := graph.symbols.moduleAt id
  match (graph.patchModule options id).outcome { source := m.source } with
  | (.ok _, patch) => .ok ⟨m.id, patch.apply⟩
  | (.error fault, _) => .error fault

end Graph

end Bundler
