/-!
# Formats

The two kinds of module that a bundle can be. They differ in how they import and export, and in how
they refer to what comes from an external module.
-/

namespace Bundler

/-- How the output imports and exports: as a standard module, or as a CommonJS one. -/
inductive Format where
  | es
  | cjs
  deriving Repr, DecidableEq, Inhabited

namespace Format

/-- The format that a name stands for on a command line. -/
def ofName? : String → Option Format
  | "es" | "esm" | "module" => some .es
  | "cjs" | "commonjs" => some .cjs
  | _ => none

/-- The one name of a format in options. -/
def name : Format → String
  | .es => "es"
  | .cjs => "cjs"

/-- Whether the output is a standard module. -/
def isEs : Format → Bool
  | .es => true
  | .cjs => false

end Format

end Bundler
