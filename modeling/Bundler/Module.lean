import Std.Data.TreeMap
import Bundler.Id

/-!
# Modules

The modules of the graph with what they export, and the external modules with the names proposed for
them. An external module is bound to one name in the bundle; the program may propose several, and
the one proposed most often wins.
-/

namespace Bundler

/-- What a module exports under a name. -/
inductive Export where
  /-- A declaration of its own, which may be an import. -/
  | own (declaration : DeclId)
  /-- What another module exports as `imported`. -/
  | again (source : Provider) (imported : String)
  deriving Repr, DecidableEq

/-- A module of the graph. -/
structure Module where
  id : String
  /-- The declaration of the module's namespace object. -/
  namespaceDecl : DeclId
  /-- The text of the module. -/
  source : String := ""
  /-- The statements of the module. -/
  body : Array NodeId := #[]
  /-- The names that the module exports by itself. -/
  exports : Std.TreeMap String Export := {}
  /-- The modules of which it exports all names but the default. -/
  starSources : Array Provider := #[]
  /-- Each name that the module exports, in order, with the declaration that it denotes. -/
  resolvedExports : List (String × DeclId) := []
  deriving Inhabited

/-- A module that stays outside of the bundle. -/
structure External where
  id : String
  /-- The name for the module that has been proposed most often. -/
  proposedName : String
  /-- How often each name has been proposed. The counts have no width: those of 32 bits are the same
      as long as no name is proposed more than 4294967295 times. -/
  hints : Std.TreeMap String Nat := {}
  /-- How often the most proposed name has been proposed. -/
  support : Nat := 0
  /-- The name of the module in the bundle. -/
  outputName : Option String := none
  /-- The declarations for what the program takes from the module, by exported name. -/
  declarations : Std.TreeMap String DeclId := {}
  /-- Whether the bundle needs the module. -/
  used : Bool := false
  deriving Inhabited

namespace External

/-- The name of the module in the bundle, as far as it is known. -/
def name (external : External) : String := external.outputName.getD external.proposedName

/-- Counts one more proposal of a name. It becomes the name of the module when it has been proposed
    more often than every other. -/
def propose (external : External) (hint : String) : External :=
  let count := external.hints.getD hint 0 + 1
  let hints := external.hints.insert hint count
  if external.support < count then
    { external with hints, proposedName := hint, support := count }
  else
    { external with hints }

end External

end Bundler
