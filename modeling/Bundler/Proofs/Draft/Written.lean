import Bundler.Proofs.Draft.Finish
import Bundler.Proofs.Symbols.Tables

/-! # Declarations as they are written

Building a draft makes declarations of names, imports without targets, and namespaces.  Targets, and
declarations of what comes from outside, are made only later, when they are asked for.
-/

namespace Bundler

/-- A kind that is written in the program. -/
def DeclarationKind.Written : DeclarationKind → Prop
  | .declared _ | .imported _ _ none | .namespaceOf _ => True
  | .imported _ _ (some _) | .provided _ _ | .free => False

namespace Symbols

variable {before after symbols : Symbols}

/-- All declarations are of kinds that are written in the program. -/
def Written (symbols : Symbols) : Prop := ∀ id, (symbols.declarationAt id).kind.Written

theorem Written.listed (written : symbols.Written) : symbols.Listed where
  free {id} kind := by
    have here := written id
    rw [kind] at here
    exact here.elim
  provided {id source name} kind := by
    have here := written id
    rw [kind] at here
    exact here.elim

theorem Written.untargeted (written : symbols.Written) {id target : DeclId} {source name} :
    (symbols.declarationAt id).kind ≠ .imported source name (some target) := by
  intro kind
  have here := written id
  rw [kind] at here
  exact here

/-- The declarations all have the property. -/
def Each (P : Declaration → Prop) (symbols : Symbols) : Prop := ∀ id, P (symbols.declarationAt id)

theorem Each.of_declarations {P : Declaration → Prop} (same : after.declarations = before.declarations)
    (each : before.Each P) : after.Each P := by
  intro id
  rw [declarationAt, same]
  exact each id

end Symbols

namespace Draft

open Step (Preserves)

variable {draft : Draft} {owner : ModuleId}

/-! ## What is added -/

section Each

variable {P : Declaration → Prop}

theorem each_bind (name : String) (id : DeclId) :
    Preserves (fun draft => draft.symbols.Each P) (bind owner name id) := by
  intro draft each
  rw [bind_outcome]
  split <;> exact each

theorem each_addExport (name : String) (entry : Export) :
    Preserves (fun draft => draft.symbols.Each P) (addExport owner name entry) := by
  intro draft each
  rw [addExport_outcome]
  split
  next symbols added =>
      rw [symbols_of_addExport added]
      exact each.of_declarations rfl
  next => exact each

variable (added : ∀ name owner {kind}, DeclarationKind.Written kind → P { name, owner, kind })

include added

theorem each_addDeclaration {symbols : Symbols} (each : symbols.Each P) (name : String)
    (owner : Option Provider) (kind : DeclarationKind) (new : kind.Written) :
    (symbols.addDeclaration name owner kind).2.Each P := by
  intro id
  rw [Symbols.declarationAt_addDeclaration]
  split
  · exact added name owner new
  · exact each id

theorem each_addDeclaring (each : draft.symbols.Each P) (owner : ModuleId)
    (statement : Statement Unit) (name : String) (kind : NodeId → DeclarationKind)
    (new : ∀ node, (kind node).Written) :
    (draft.addDeclaring owner statement name kind).2.symbols.Each P := by
  have stated : (draft.addStatement owner statement).2.symbols.Each P := each.of_declarations rfl
  exact each_addDeclaration added stated name (some (.internal owner)) _ (new _)

theorem each_declare (mode : Mode) (name : String) (init : Option (Expr Unit)) (exported : Bool) :
    Preserves (fun draft => draft.symbols.Each P) (declare owner mode name init exported) :=
  preserves_declare (fun _ each => each_addDeclaring added each owner _ name _ fun _ => trivial)
    (each_bind name) fun id => each_addExport name (.own id)

theorem each_importFrom (source : Provider) (imported binding : String) :
    Preserves (fun draft => draft.symbols.Each P) (importFrom owner source imported binding) :=
  preserves_importFrom (fun _ each => each_addDeclaring added each owner _ binding _ fun _ => trivial)
    (each_bind binding) fun _ _ _ _ each => each.of_declarations rfl

/-- What holds of every declaration as it is added holds of all declarations of a draft. -/
theorem Built.each {draft : Draft} (built : Built draft) : draft.symbols.Each P := by
  induction built with
  | empty => exact fun _ => added _ _ trivial
  | addModule _ id each =>
      exact Symbols.Each.of_declarations rfl
        (each_addDeclaration added each _ _ (.namespaceOf _) trivial)
  | addExternal _ id each => exact each.of_declarations rfl
  | addExpression _ there body each => exact each.of_declarations rfl
  | declare _ there mode name init exported each =>
      exact each_declare added mode name init exported _ each
  | importFrom _ there known imported binding each =>
      exact each_importFrom added _ imported binding _ each
  | exportLocal _ there binding exported each => exact each.of_declarations rfl
  | exportFrom _ there known imported exported each =>
      rw [exportFrom_outcome]
      exact each_addExport exported _ _ (each.of_declarations rfl)
  | exportWhole _ there known exported each =>
      rw [exportWhole_outcome]
      exact each_addExport exported _ _ (each.of_declarations rfl)
  | exportAll _ there known each => exact each.of_declarations rfl

end Each

theorem declarations_finishExports {items : List (ModuleId × String × String)}
    {scopes : Scopes} {symbols after : Symbols}
    (finished : items.foldlM (finishExport scopes) symbols = .ok after) :
    after.declarations = symbols.declarations := by
  refine finishExports_induction (P := fun after => after.declarations = symbols.declarations)
    (fun item _ before after finished same => ?_) finished rfl
  obtain ⟨id, -, added⟩ := finishExport_eq finished
  rw [symbols_of_addExport added]
  exact same

end Draft

namespace Graph.Made

variable {graph : Graph} (made : graph.Made)

include made

/-- What holds of every declaration as it is added holds of all declarations of a finished program. -/
theorem each {P : Declaration → Prop}
    (added : ∀ name owner {kind}, DeclarationKind.Written kind → P { name, owner, kind }) :
    graph.symbols.Each P := by
  obtain ⟨built, -, finished⟩ := made
  obtain ⟨symbols, exports, rfl⟩ := Draft.finish_eq finished
  exact (built.each added).of_declarations (Draft.declarations_finishExports exports)

/-- The declarations of a finished program are those that are written in it. -/
theorem written : graph.symbols.Written := 
  made.each (P := fun declaration => declaration.kind.Written) fun _ _ _ new => new

/-- The declarations of a finished program have no names in the output yet. -/
theorem unnamed (id : DeclId) : (graph.symbols.declarationAt id).outputName = none :=
  made.each (P := fun declaration => declaration.outputName = none) (fun _ _ _ _ => rfl) id

end Graph.Made

end Bundler
