import Std.Data.TreeSet
import Bundler.DepthFirst
import Bundler.Symbols.Origin
import Bundler.Step

/-!
# Linking

Linking finds the target of every import, and then for every module the declarations that its
exports denote. Both stop at the first name that cannot be found; what has been found before stays.
-/

namespace Bundler

namespace Symbols

/-- The modules of the graph whose names a module exports with `export *`. -/
def starModules (symbols : Symbols) (id : ModuleId) : List ModuleId :=
  (symbols.moduleAt id).starSources.toList.filterMap fun
    | .internal source => some source
    | .external _ => none

/-- The names that a module of the graph exports, in order: those that it exports by itself, and
    those but the default of every module that it reaches through `export *`. What external modules
    would add to them is not known. -/
def exportedNames (symbols : Symbols) (id : ModuleId) : List String :=
  let reached := (DepthFirst.walk symbols.starModules (symbols.modules.size + 1) id).left
  let names := reached.flatMap fun source =>
    let names := (symbols.moduleAt source).exports.keys
    if source = id then names else names.filter (· ≠ defaultExport)
  (Std.TreeSet.ofList names).toList

/-- The declaration that a module exports under a name. -/
def resolveExport? (source : Provider) (name : String) : Step Symbols (Option DeclId) := do
  let (id, symbols) ← Step.ofExcept ((← get).exportedDeclaration? source name)
  set symbols
  return id

/-- Sets the target of an import. -/
def setTarget (symbols : Symbols) (id target : DeclId) : Symbols :=
  symbols.modifyDeclaration id fun declaration =>
    match declaration.kind with
    | .imported source name _ => { declaration with kind := .imported source name (some target) }
    | _ => declaration

/-- Finds the target of a declaration that is an import without one. -/
def linkImport (id : DeclId) : Step Symbols Unit := do
  let symbols ← get
  match symbols.declarationAt id with
  | { kind := .imported source name none, owner, .. } =>
    match ← Step.ofExcept (symbols.declarationOrigin? id) with
    | some origin =>
      let (target, symbols) := symbols.intern origin
      set (symbols.setTarget id target)
    | none =>
      let importer := (owner.map symbols.specifier).getD ""
      throw (.missingImport importer (symbols.specifier source) name)
  | _ => return ()

/-- Finds what the given exports of a module denote. A name that turns out not to be provided is no
    export. -/
def resolveExports (id : ModuleId) : List String → Step Symbols (List (String × DeclId))
  | [] => return []
  | name :: rest => do
    let found ← resolveExport? (.internal id) name
    let resolved ← resolveExports id rest
    return (found.map fun declaration => (name, declaration)).toList ++ resolved

/-- Finds what the exports of a module denote. -/
def linkExports (id : ModuleId) : Step Symbols Unit := do
  let resolvedExports ← resolveExports id ((← get).exportedNames id)
  modify fun symbols => symbols.modifyModule id fun m => { m with resolvedExports }

/-- Links all imports, in the order of their declarations, and then the exports of all modules. -/
def link : Step Symbols Unit := do
  (← get).declarationIds.forM linkImport
  (← get).moduleIds.forM linkExports

end Symbols

end Bundler
