import Bundler.Id

/-!
# Declarations

What a name of the program can stand for, and what the bundle does with it.
-/

namespace Bundler

/-- What a declaration is. -/
inductive DeclarationKind where
  /-- A statement of the owning module declares it. -/
  | declared (statement : NodeId)
  /-- An import of `name` from a module. The target is what the import denotes, once that is
      known. -/
  | imported (source : Provider) (name : String) (target : Option DeclId)
  /-- The object of all exports of a module. -/
  | namespaceOf (id : ModuleId)
  /-- What an external module exports as `name`. -/
  | provided (source : ExternalId) (name : String)
  /-- Nothing in the program declares it. -/
  | free
  deriving Repr, DecidableEq, Inhabited

namespace DeclarationKind

/-- Whether the declaration is the namespace object of a module of the graph. -/
def isNamespace : DeclarationKind → Bool
  | .namespaceOf _ => true
  | _ => false

/-- Whether the declaration comes from an external module. -/
def isProvided : DeclarationKind → Bool
  | .provided _ _ => true
  | _ => false

/-- Whether nothing in the program declares it. -/
def isFree : DeclarationKind → Bool
  | .free => true
  | _ => false

end DeclarationKind

/-- A declaration. -/
structure Declaration where
  /-- The name in the program. -/
  name : String
  /-- The module that the declaration belongs to. -/
  owner : Option Provider
  kind : DeclarationKind
  /-- Whether the declaration is part of the bundle. -/
  included : Bool := false
  /-- The name in the bundle. -/
  outputName : Option String := none
  deriving Repr, DecidableEq, Inhabited

namespace Declaration

/-- The module whose exports are the properties of the declaration, if it denotes one. -/
def namespace? (declaration : Declaration) : Option Provider :=
  match declaration.kind with
  | .namespaceOf id => some (.internal id)
  | .provided source name => if name = wholeModule then some (.external source) else none
  | _ => none

/-- Whether the properties of the declaration are the exports of a module. -/
def isNamespace (declaration : Declaration) : Bool := declaration.namespace?.isSome

/-- The module that the declaration comes from. For a namespace this is the module that it stands
    for. -/
def home? (declaration : Declaration) : Option Provider :=
  match declaration.kind with
  | .namespaceOf id => some (.internal id)
  | .provided source _ => some (.external source)
  | _ => declaration.owner

end Declaration

end Bundler
