import Bundler.Graph.Basic
import Bundler.Options
import Bundler.Symbols.OutputText

/-!
# Names in the bundle

All modules of a bundle share one scope, so names that are free to stand side by side in the program
may collide. Each declaration keeps its name if nobody has taken it before, and gets the first free
one of `name$1`, `name$2`, … otherwise. Names are taken by the globals that the bundle uses, then by
what the output refers to on its own, then by external modules and what is imported from them, and
then by the declarations of the modules in the order of their execution.
-/

namespace Bundler

/-- The first name that is not taken among `base$n`, `base$(n + 1)`, …, of which it tries `tries`. -/
def numberedName (taken : List String) (base : String) : (tries : Nat) → (n : Nat) → String
  | 0, n => base ++ "$" ++ toString n
  | tries + 1, n =>
    let candidate := base ++ "$" ++ toString n
    if taken.contains candidate then numberedName taken base tries (n + 1) else candidate

/-- A name that is not taken: `base` if possible. Of more numbered names than there are names taken,
    one is free. -/
def freshName (taken : List String) (base : String) : String :=
  if taken.contains base then numberedName taken base taken.length 1 else base

/-- Symbols that are being named, and the names that are taken. -/
structure Naming where
  symbols : Symbols
  taken : List String

namespace Naming

/-- Takes a name. -/
def reserve (naming : Naming) (name : String) : Naming :=
  { naming with taken := name :: naming.taken }

/-- Gives a declaration a name like `base`. -/
def nameDeclaration (naming : Naming) (id : DeclId) (base : String) : Naming :=
  let name := freshName naming.taken base
  { symbols := naming.symbols.modifyDeclaration id fun declaration =>
      { declaration with outputName := some name }
    taken := name :: naming.taken }

/-- Gives a name to what is imported from an external module, if it is part of the bundle and
    imported on its own. -/
def nameBinding (naming : Naming) (binding : String × DeclId) : Naming :=
  if Symbols.isNamed binding.1 && (naming.symbols.declarationAt binding.2).included then
    naming.nameDeclaration binding.2 binding.1
  else
    naming

/-- Gives an external module its name, and names to what is imported from it. A standard module
    imports these by name; a CommonJS one reads them as properties. -/
def nameExternal (format : Format) (naming : Naming) (id : ExternalId) : Naming :=
  let name := freshName naming.taken (naming.symbols.externalAt id).name
  let symbols := naming.symbols.modifyExternal id fun external =>
    { external with outputName := some name }
  let naming : Naming := { symbols, taken := name :: naming.taken }
  let naming :=
    if symbols.aliasesDefault id format then naming.reserve (Symbols.defaultAlias name)
    else naming
  if format.isEs then
    (symbols.externalAt id).declarations.toList.foldl nameBinding naming
  else
    naming

/-- Gives a declaration of a module its name. -/
def nameOwn (naming : Naming) (id : DeclId) : Naming :=
  naming.nameDeclaration id (naming.symbols.declarationAt id).name

end Naming

namespace Symbols

/-- The external modules that the bundle needs. -/
def usedExternals (symbols : Symbols) : List ExternalId :=
  symbols.externalIds.filter fun id => (symbols.externalAt id).used

/-- The names of the globals that the bundle uses. -/
def usedGlobals (symbols : Symbols) : List String :=
  (symbols.declarations.toList.filter fun declaration =>
    declaration.kind.isFree && declaration.included).map (·.name)

/-- Whether a declaration is defined in the bundle by a statement or as a namespace object. -/
def isDefined (declaration : Declaration) : Bool :=
  match declaration.kind with
  | .declared _ | .namespaceOf _ => true
  | _ => false

/-- The declarations that a module contributes to the bundle. -/
def contributions (symbols : Symbols) (id : ModuleId) : List DeclId :=
  symbols.declarationIds.filter fun declId =>
    let declaration := symbols.declarationAt declId
    isDefined declaration && declaration.included && declaration.owner == some (.internal id)

end Symbols

/-- The names that the output itself refers to. -/
def Options.ownNames (options : Options) : List String :=
  (if options.freezeNamespaces then ["Object"] else []) ++
    (if options.format.isEs then [] else ["exports", "module", "require"])

namespace Graph

/-- Names all that is part of the bundle. -/
def assignNames (options : Options) (graph : Graph) : Graph :=
  let naming : Naming :=
    { symbols := graph.symbols, taken := options.ownNames ++ graph.symbols.usedGlobals }
  let naming := graph.symbols.usedExternals.foldl (Naming.nameExternal options.format) naming
  let naming := (graph.order.flatMap graph.symbols.contributions).foldl Naming.nameOwn naming
  { graph with symbols := naming.symbols }

end Graph

end Bundler
