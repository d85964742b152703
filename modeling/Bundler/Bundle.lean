import Bundler.Graph.Output
import Bundler.Graph.OutputNames
import Bundler.Graph.Denotation
import Bundler.Graph.Inclusion
import Bundler.Text.Blank

/-!
# Bundles

`Graph.bundle` links, resolves, shakes and names a graph and writes it as one module: imports of
what comes from external modules, the text of every module in the order of execution, and the
exports of the entry, with a blank line between them.
-/

namespace Bundler

/-- A program as one module. -/
structure Bundle where
  code : String
  modules : List EmittedModule
  warnings : List Diagnostic

namespace Symbols

/-- The declaration for an external module's export `name`, if it is part of the bundle. -/
def includedExport? (symbols : Symbols) (id : ExternalId) (name : String) : Option DeclId :=
  (symbols.externalAt id).declarations[name]?.filter fun declaration =>
    (symbols.declarationAt declaration).included

/-- What a standard module imports from an external one by name. -/
def namedImports (symbols : Symbols) (id : ExternalId) : List String :=
  let included := (symbols.externalAt id).declarations.toList.filter fun (name, declaration) =>
    isNamed name && (symbols.declarationAt declaration).included
  included.map fun (name, declaration) => printAs name (symbols.outputText .es declaration)

/-- The statements by which a standard module imports what it needs from an external one. -/
def esImports (symbols : Symbols) (id : ExternalId) : List String :=
  let source := " from " ++ Text.quote (symbols.externalAt id).id ++ ";"
  let whole := (symbols.includedExport? id wholeModule).toList.map fun declaration =>
    "import * as " ++ symbols.outputText .es declaration ++ source
  let byDefault :=
    (symbols.includedExport? id defaultExport).toList.map (symbols.outputText .es)
  let named := symbols.namedImports id
  let clauses := byDefault ++
    (if named.isEmpty then [] else ["\x7b " ++ ", ".intercalate named ++ " \x7d"])
  whole ++ (if clauses.isEmpty then [] else ["import " ++ ", ".intercalate clauses ++ source])

/-- The statements by which a CommonJS module requires an external one. Its default export is the
    property of that name, or the module itself if it has no such property. -/
def cjsImports (symbols : Symbols) (id : ExternalId) : List String :=
  let external := symbols.externalAt id
  let name := external.name
  let required := "var " ++ name ++ " = require(" ++ Text.quote external.id ++ ");"
  match symbols.includedExport? id defaultExport with
  | some declaration =>
    let binding := symbols.outputText .cjs declaration
    if binding = name then [required]
    else [required,
      "var " ++ binding ++ " = 'default' in " ++ name ++ " ? " ++ name ++ "['default'] : " ++ name ++
        ";"]
  | none => [required]

/-- What stands before the modules of a bundle. -/
def header (symbols : Symbols) : Format → String
  | .es => Text.trimRight ("\n".intercalate (symbols.usedExternals.flatMap symbols.esImports))
  | .cjs =>
    Text.trimRight ("\n".intercalate
      ("'use strict';\n" :: symbols.usedExternals.flatMap symbols.cjsImports))

/-- What stands behind the modules of a bundle. -/
def footer (symbols : Symbols) (exports : List (String × DeclId)) : Format → String
  | .es =>
    if exports.isEmpty then ""
    else
      let specifiers := exports.map fun (name, declaration) =>
        printAs (symbols.outputText .es declaration) name
      "export \x7b " ++ ", ".intercalate specifiers ++ " \x7d;"
  | .cjs =>
    "\n".intercalate (exports.map fun (name, declaration) =>
      "exports." ++ name ++ " = " ++ symbols.outputText .cjs declaration ++ ";")

end Symbols

namespace Graph

/-- The text of a bundle with the given modules. Sections without text are left out. -/
def bundleText (graph : Graph) (format : Format) (modules : List EmittedModule) : String :=
  let header := graph.symbols.header format
  let footer := graph.symbols.footer (graph.symbols.moduleAt graph.entry).resolvedExports format
  let sections := header :: modules.map (fun m => Text.trim m.rendered.code) ++ [footer]
  "\n\n".intercalate (sections.filter fun text => !text.isEmpty) ++ "\n"

/-- Writes a graph that is linked, resolved, shaken and named. -/
def emit (graph : Graph) (options : Options) : Except Fault Bundle := do
  let modules ← graph.order.mapM (graph.emitModule options)
  return {
    code := graph.bundleText options.format modules
    modules
    warnings := graph.warnings.toList }

/-- Bundles a graph. -/
def bundle (options : Options) : Step Graph Bundle := do
  link
  resolve options
  modify retainEntryExports
  modify fun graph => graph.shake.2
  modify (assignNames options)
  Step.ofExcept ((← get).emit options)

end Graph

end Bundler
