import Bundler.Symbols.Basic

/-!
# Origins of exports

What a module exports under a name is found by following re-exports and imports to where the name
is declared. `Symbols.exportOrigin?` only searches: it tells what the name denotes, or that the
module does not provide it, or that the search runs in a circle. `Symbols.intern` then gives the
declaration, and makes it first if it stands for something of an external module that nobody has
asked for yet.

The search keeps the requests that it is working on. To come upon one of these again through an
explicit re-export or an import is a fault; through `export *` it only means that this way does not
lead to the name, since modules may well export each other's names.
-/

namespace Bundler

/-- Where an export comes from. -/
inductive Origin where
  | declaration (id : DeclId)
  /-- What an external module exports as `name`. -/
  | provided (source : ExternalId) (name : String)
  deriving Repr, DecidableEq

/-- The first origin that a search finds among some modules. -/
def firstOrigin? (search : Provider → Except Fault (Option Origin)) :
    List Provider → Except Fault (Option Origin)
  | [] => .ok none
  | source :: rest => do
    match ← search source with
    | some origin => return some origin
    | none => firstOrigin? search rest

namespace Symbols

/-- The origin of a module's namespace object. -/
def namespaceOrigin (symbols : Symbols) : Provider → Origin
  | .internal id => .declaration (symbols.moduleAt id).namespaceDecl
  | .external id => .provided id wholeModule

/-- The origin of `name` in a module, where the name for the whole module stands for its namespace
    object and every other name is searched for. -/
def requestOrigin? (symbols : Symbols)
    (search : Provider → String → Except Fault (Option Origin)) (source : Provider)
    (name : String) : Except Fault (Option Origin) :=
  if name = wholeModule then .ok (some (symbols.namespaceOrigin source)) else search source name

/-- The origin of a declaration: that of its import as long as it is an import whose target is not
    known, and the declaration that it denotes otherwise. -/
def bindingOrigin? (symbols : Symbols)
    (search : Provider → String → Except Fault (Option Origin)) (id : DeclId) :
    Except Fault (Option Origin) :=
  match (symbols.declarationAt id).kind with
  | .imported _ _ (some target) => .ok (some (.declaration target))
  | .imported source name none => symbols.requestOrigin? search source name
  | _ => .ok (some (.declaration id))

/-- Searches for the export `name` of a module. The trail holds the requests in progress, and `star`
    says whether an `export *` led here. The first number bounds the length of the trail. -/
def search? (symbols : Symbols) : (depth : Nat) → (trail : List (ModuleId × String)) →
    (star : Bool) → Provider → String → Except Fault (Option Origin)
  | _, _, _, .external id, name => .ok (some (.provided id name))
  | 0, _, _, .internal _, _ => .ok none
  | depth + 1, trail, star, .internal id, name =>
    if (id, name) ∈ trail then
      if star then .ok none else .error (.circularReexport (symbols.moduleAt id).id name)
    else
      let trail := (id, name) :: trail
      match (symbols.moduleAt id).exports[name]? with
      | some (.own declaration) =>
        symbols.bindingOrigin? (search? symbols depth trail false) declaration
      | some (.again source imported) =>
        symbols.requestOrigin? (search? symbols depth trail false) source imported
      | none =>
        if name = defaultExport then .ok none
        else
          firstOrigin? (fun source => search? symbols depth trail true source name)
            (symbols.moduleAt id).starSources.toList

/-- A bound for the length of every trail. A trail never repeats a request, and the names in it are
    the one that the search started with, names that some export is taken from, and names that some
    declaration imports. -/
def trailBound (symbols : Symbols) : Nat :=
  let exported := symbols.modules.toList.flatMap fun m => m.exports.keys
  symbols.modules.size * (symbols.declarations.size + exported.length + 1) + 1

/-- Finds what a module exports under a name. -/
def exportOrigin? (symbols : Symbols) (source : Provider) (name : String) :
    Except Fault (Option Origin) :=
  symbols.search? symbols.trailBound [] false source name

/-- Finds what a declaration denotes. -/
def declarationOrigin? (symbols : Symbols) (id : DeclId) : Except Fault (Option Origin) :=
  symbols.bindingOrigin? (symbols.search? symbols.trailBound [] false) id

/-- The declaration of an origin. -/
def intern (symbols : Symbols) : Origin → DeclId × Symbols
  | .declaration id => (id, symbols)
  | .provided source name => symbols.externalDeclaration source name

/-- The declaration that a module exports under a name, which is made if it is not there yet. -/
def exportedDeclaration? (symbols : Symbols) (source : Provider) (name : String) :
    Except Fault (Option DeclId × Symbols) := do
  match ← symbols.exportOrigin? source name with
  | some origin =>
    let (id, symbols) := symbols.intern origin
    return (some id, symbols)
  | none => return (none, symbols)

end Symbols

end Bundler
