import Bundler.Format
import Bundler.Json.Reader

/-!
# Options

What a caller decides about a bundle: the module format of the output, the directory that paths in
warnings are shown relative to, and whether namespace objects are frozen. `Options.ofJson?` reads
them from a JSON text.
-/

namespace Bundler

namespace Format

/-- The format with the given name in options. -/
def ofKey? (key : String) : Option Format :=
  [Format.es, Format.cjs].find? fun format => format.name == key

/-- Reads a format from JSON: its name, or an object that maps the name to `null`. -/
def ofJson? : Json.Value → Option Format
  | .string (some key) => ofKey? key
  | .object [(some key, .null)] => ofKey? key
  | _ => none

end Format

/-- The options of a bundle. -/
structure Options where
  format : Format := .es
  cwd : Option String := none
  freezeNamespaces : Bool := true
  deriving Repr, DecidableEq, Inhabited

namespace Options

/-- Reads a working directory from JSON, where `null` stands for none. -/
def cwdOfJson? : Json.Value → Option (Option String)
  | .null => some none
  | .string (some text) => some (some text)
  | _ => none

/-- Reads a truth value from JSON. -/
def boolOfJson? : Json.Value → Option Bool
  | .bool value => some value
  | _ => none

/-- The values of an object's members with the given key. -/
def valuesOf (key : String) (members : List (Option String × Json.Value)) : List Json.Value :=
  (members.filter fun member => member.1 == some key).map (·.2)

/-- Reads the only member among some of equal key, or takes the default if there is none. -/
def single? {α : Type} (read? : Json.Value → Option α) (default : α) :
    List Json.Value → Option α
  | [] => some default
  | [value] => read? value
  | _ => none

/-- Reads options from JSON: an object with any of the keys `format`, `cwd` and `freezeNamespaces`,
    each at most once, or an array of up to three values in that order. Further keys of an object
    are ignored. -/
def ofJsonValue? : Json.Value → Option Options
  | .object members => do
    guard (members.all fun member => member.1.isSome)
    let defaults : Options := {}
    return {
      format := ← single? Format.ofJson? defaults.format (valuesOf "format" members)
      cwd := ← single? cwdOfJson? defaults.cwd (valuesOf "cwd" members)
      freezeNamespaces := ← single? boolOfJson? defaults.freezeNamespaces
        (valuesOf "freezeNamespaces" members) }
  | .array values => do
    guard (values.length ≤ 3)
    let defaults : Options := {}
    return {
      format := ← single? Format.ofJson? defaults.format (values[0]?.toList)
      cwd := ← single? cwdOfJson? defaults.cwd (values[1]?.toList)
      freezeNamespaces := ← single? boolOfJson? defaults.freezeNamespaces (values[2]?.toList) }
  | _ => none

/-- Reads options from a JSON text. -/
def ofJson? (text : String) : Option Options :=
  (Json.Value.ofText? text).bind ofJsonValue?

end Options

end Bundler
