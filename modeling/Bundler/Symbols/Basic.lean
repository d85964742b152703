import Bundler.Declaration
import Bundler.Fault
import Bundler.Identifier
import Bundler.Module

/-!
# Symbols

The modules of a program, the external modules that they use, and all declarations. Whatever refers
to one of these does so by its id, so this is the only place that holds them.
-/

namespace Bundler

/-- The modules and declarations of a program. -/
structure Symbols where
  modules : Array Module := #[]
  externals : Array External := #[]
  declarations : Array Declaration := #[]
  /-- The declarations of names that nothing in the program declares. -/
  globals : Std.TreeMap String DeclId := {}
  deriving Inhabited

namespace Symbols

/-- The module with the given id. -/
def moduleAt (symbols : Symbols) (id : ModuleId) : Module :=
  symbols.modules.getD id.index default

/-- The external module with the given id. -/
def externalAt (symbols : Symbols) (id : ExternalId) : External :=
  symbols.externals.getD id.index default

/-- The declaration with the given id. -/
def declarationAt (symbols : Symbols) (id : DeclId) : Declaration :=
  symbols.declarations.getD id.index default

/-- The ids of all modules, in order. -/
def moduleIds (symbols : Symbols) : List ModuleId :=
  (List.range symbols.modules.size).map ModuleId.mk

/-- The ids of all external modules, in order. -/
def externalIds (symbols : Symbols) : List ExternalId :=
  (List.range symbols.externals.size).map ExternalId.mk

/-- The ids of all declarations, in order. -/
def declarationIds (symbols : Symbols) : List DeclId :=
  (List.range symbols.declarations.size).map DeclId.mk

/-- Changes a module. -/
def modifyModule (symbols : Symbols) (id : ModuleId) (f : Module → Module) : Symbols :=
  { symbols with modules := symbols.modules.modify id.index f }

/-- Changes an external module. -/
def modifyExternal (symbols : Symbols) (id : ExternalId) (f : External → External) : Symbols :=
  { symbols with externals := symbols.externals.modify id.index f }

/-- Changes a declaration. -/
def modifyDeclaration (symbols : Symbols) (id : DeclId) (f : Declaration → Declaration) :
    Symbols :=
  { symbols with declarations := symbols.declarations.modify id.index f }

/-- The id under which a module is known to its author. -/
def specifier (symbols : Symbols) : Provider → String
  | .internal id => (symbols.moduleAt id).id
  | .external id => (symbols.externalAt id).id

/-- Adds a declaration. -/
def addDeclaration (symbols : Symbols) (name : String) (owner : Option Provider)
    (kind : DeclarationKind) : DeclId × Symbols :=
  (⟨symbols.declarations.size⟩,
    { symbols with declarations := symbols.declarations.push { name, owner, kind } })

/-- Adds a module without statements, and the declaration of its namespace object. -/
def addModule (symbols : Symbols) (id : String) : ModuleId × Symbols :=
  let moduleId : ModuleId := ⟨symbols.modules.size⟩
  let (namespaceDecl, symbols) := symbols.addDeclaration (Identifier.ofModuleId id)
    (some (.internal moduleId)) (.namespaceOf moduleId)
  (moduleId, { symbols with modules := symbols.modules.push { id, namespaceDecl } })

/-- Adds an external module. -/
def addExternal (symbols : Symbols) (id : String) : ExternalId × Symbols :=
  (⟨symbols.externals.size⟩,
    { symbols with
      externals := symbols.externals.push { id, proposedName := Identifier.ofModuleId id } })

/-- Adds an export to a module that does not export the name yet. -/
def addExport (symbols : Symbols) (id : ModuleId) (name : String) (entry : Export) :
    Except Fault Symbols :=
  if (symbols.moduleAt id).exports.contains name then
    .error (.duplicateExport (symbols.moduleAt id).id name)
  else
    .ok (symbols.modifyModule id fun m => { m with exports := m.exports.insert name entry })

/-- Lets a module export all names of another, but the default. -/
def addStarExport (symbols : Symbols) (id : ModuleId) (source : Provider) : Symbols :=
  symbols.modifyModule id fun m => { m with starSources := m.starSources.push source }

/-- Counts one more proposal of a name for an external module. -/
def proposeName (symbols : Symbols) (id : ExternalId) (hint : String) : Symbols :=
  symbols.modifyExternal id (·.propose hint)

/-- The declaration of a name that nothing in the program declares. All uses of the name share
    it. -/
def globalDeclaration (symbols : Symbols) (name : String) : DeclId × Symbols :=
  match symbols.globals[name]? with
  | some id => (id, symbols)
  | none =>
    let (id, symbols) := symbols.addDeclaration name none .free
    (id, { symbols with globals := symbols.globals.insert name id })

/-- The name that a declaration for an external module's export `name` has in the program. -/
def providedName (symbols : Symbols) (id : ExternalId) (name : String) : String :=
  if name = wholeModule ∨ name = defaultExport then (symbols.externalAt id).proposedName else name

/-- The declaration of what an external module exports as `name`. All uses of it share it. -/
def externalDeclaration (symbols : Symbols) (id : ExternalId) (name : String) :
    DeclId × Symbols :=
  match (symbols.externalAt id).declarations[name]? with
  | some declId => (declId, symbols)
  | none =>
    let (declId, symbols) := symbols.addDeclaration (symbols.providedName id name)
      (some (.external id)) (.provided id name)
    (declId, symbols.modifyExternal id fun external =>
      { external with declarations := external.declarations.insert name declId })

/-- The declaration of the object of all exports of a module. -/
def namespaceDeclaration (symbols : Symbols) : Provider → DeclId × Symbols
  | .internal id => ((symbols.moduleAt id).namespaceDecl, symbols)
  | .external id => symbols.externalDeclaration id wholeModule

/-- What a declaration denotes: the target of an import, once it is known, and any other
    declaration itself. -/
def denoted (symbols : Symbols) (id : DeclId) : DeclId :=
  match (symbols.declarationAt id).kind with
  | .imported _ _ (some target) => target
  | _ => id

end Symbols

end Bundler
