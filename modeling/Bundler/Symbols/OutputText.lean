import Bundler.Format
import Bundler.Symbols.Basic

/-!
# The text of a symbol in the bundle

The text by which the bundle refers to a declaration. It depends on the format of the output: what
an external module exports is a name of its own in a standard module, and a property of the required
object in a CommonJS module.
-/

namespace Bundler.Symbols

/-- Whether the declaration for an external module's export `name` is there and included. -/
def includesExport (symbols : Symbols) (id : ExternalId) (name : String) : Bool :=
  match (symbols.externalAt id).declarations[name]? with
  | some declaration => (symbols.declarationAt declaration).included
  | none => false

/-- Whether a name stands for one export of a module that is not its default. -/
def isNamed (name : String) : Bool := name != wholeModule && name != defaultExport

/-- Whether the default export of an external module needs a name other than that of the module:
    when the bundle also uses the module as a whole, or reads further exports as its properties. -/
def aliasesDefault (symbols : Symbols) (id : ExternalId) (format : Format) : Bool :=
  symbols.includesExport id defaultExport &&
    (symbols.includesExport id wholeModule ||
      (!format.isEs &&
        (symbols.externalAt id).declarations.keys.any fun name =>
          isNamed name && symbols.includesExport id name))

/-- The name of an external module's default export beside the module's name. -/
def defaultAlias (moduleName : String) : String := moduleName ++ "__default"

/-- The text that refers to what an external module exports as `name`. -/
def providedText (symbols : Symbols) (format : Format) (source : ExternalId) (name : String)
    (outputName : Option String) : String :=
  let moduleName := (symbols.externalAt source).name
  if name = wholeModule then moduleName
  else if name = defaultExport then
    if symbols.aliasesDefault source format then defaultAlias moduleName else moduleName
  else if format.isEs then outputName.getD name
  else moduleName ++ "." ++ name

/-- The text that refers to a declaration, reached through at most `depth` imports. -/
def textWithin (symbols : Symbols) (format : Format) : (depth : Nat) → DeclId → String
  | depth, id =>
    let declaration := symbols.declarationAt id
    match declaration.kind with
    | .declared _ | .namespaceOf _ => declaration.outputName.getD declaration.name
    | .imported _ _ (some target) =>
      match depth with
      | 0 => declaration.name
      | depth + 1 => symbols.textWithin format depth target
    | .imported _ _ none | .free => declaration.name
    | .provided source name => symbols.providedText format source name declaration.outputName

/-- The text that refers to a declaration in a bundle of the given format. -/
def outputText (symbols : Symbols) (format : Format) (id : DeclId) : String :=
  symbols.textWithin format symbols.declarations.size id

end Bundler.Symbols
