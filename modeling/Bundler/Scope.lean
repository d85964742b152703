import Bundler.Symbols.Basic

/-!
# Scopes

Which declaration a name stands for. A scope binds names and may lie in another scope, which is
asked for the names that it does not bind itself. A name that no scope binds is global.
-/

namespace Bundler

/-- A scope of a module. -/
structure Scope where
  parent : Option ScopeId
  owner : ModuleId
  bindings : Std.TreeMap String DeclId := {}
  deriving Inhabited

/-- The scopes of a program. A scope is always made after the one that it lies in. -/
structure Scopes where
  all : Array Scope := #[]
  deriving Inhabited

namespace Scopes

/-- The scope with the given id. -/
def scopeAt (scopes : Scopes) (id : ScopeId) : Scope := scopes.all.getD id.index default

/-- Makes a scope that binds no names. -/
def create (scopes : Scopes) (parent : Option ScopeId) (owner : ModuleId) : ScopeId × Scopes :=
  (⟨scopes.all.size⟩, ⟨scopes.all.push { parent, owner }⟩)

/-- Binds a name that the scope does not bind yet. -/
def declare (scopes : Scopes) (symbols : Symbols) (id : ScopeId) (name : String)
    (declaration : DeclId) : Except Fault Scopes :=
  let scope := scopes.scopeAt id
  if scope.bindings.contains name then
    .error (.duplicateBinding (symbols.moduleAt scope.owner).id name)
  else
    .ok ⟨scopes.all.modify id.index fun scope =>
      { scope with bindings := scope.bindings.insert name declaration }⟩

/-- What the scope itself binds a name to. -/
def binding? (scopes : Scopes) (id : ScopeId) (name : String) : Option DeclId :=
  (scopes.scopeAt id).bindings[name]?

/-- Looks a name up in a scope and, if it is not bound there, in at most `depth` scopes around
    it. -/
def lookup? (scopes : Scopes) (name : String) : (depth : Nat) → ScopeId → Option DeclId
  | depth, id =>
    match scopes.binding? id name with
    | some declaration => some declaration
    | none =>
      match depth, (scopes.scopeAt id).parent with
      | depth + 1, some parent => scopes.lookup? name depth parent
      | _, _ => none

/-- The declaration that a name stands for in a scope. -/
def find (scopes : Scopes) (symbols : Symbols) (id : ScopeId) (name : String) :
    DeclId × Symbols :=
  match scopes.lookup? name scopes.all.size id with
  | some declaration => (declaration, symbols)
  | none => symbols.globalDeclaration name

end Scopes

/-- The outermost scope of a module, which is made along with it. -/
def ModuleId.scope (id : ModuleId) : ScopeId := ⟨id.index⟩

end Bundler
