/-!
# Ids

Modules, external modules, declarations, nodes and scopes are kept in arenas and named by their
position there. Each kind of id is a type of its own, so that none is taken for another.
-/

namespace Bundler

/-- A module of the graph. -/
structure ModuleId where
  index : Nat
  deriving Repr, DecidableEq, Inhabited

/-- A module that stays outside of the bundle. -/
structure ExternalId where
  index : Nat
  deriving Repr, DecidableEq, Inhabited

/-- A declaration. -/
structure DeclId where
  index : Nat
  deriving Repr, DecidableEq, Inhabited

/-- A statement or an expression. -/
structure NodeId where
  index : Nat
  deriving Repr, DecidableEq, Inhabited

/-- A scope. -/
structure ScopeId where
  index : Nat
  deriving Repr, DecidableEq, Inhabited

/-- What an import or a re-export takes names from. -/
inductive Provider where
  | internal (id : ModuleId)
  | external (id : ExternalId)
  deriving Repr, DecidableEq, Inhabited

/-- The name that asks for all exports of a module in one object. -/
def wholeModule : String := "*"

/-- The name of a module's default export. -/
def defaultExport : String := "default"

end Bundler
