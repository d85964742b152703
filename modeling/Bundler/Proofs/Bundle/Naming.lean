import Bundler.Proofs.Graph.SameProgram
import Bundler.Graph.OutputNames

/-! # What naming changes

Giving names to what is part of a bundle changes no more than the names in the output.
-/

namespace Bundler

namespace Symbols

variable {before after : Symbols}

/-- The symbols differ in no more than the names in the output. -/
structure Renames (before after : Symbols) : Prop where
  modules : after.modules = before.modules
  globals : after.globals = before.globals
  declarations : after.declarations.size = before.declarations.size
  declarationAt : ∀ id, ∃ outputName,
    after.declarationAt id = { before.declarationAt id with outputName }
  externals : after.externals.size = before.externals.size
  externalAt : ∀ id, ∃ outputName, after.externalAt id = { before.externalAt id with outputName }

namespace Renames

theorem refl (symbols : Symbols) : Renames symbols symbols :=
  ⟨rfl, rfl, rfl, fun _ => ⟨_, rfl⟩, rfl, fun _ => ⟨_, rfl⟩⟩

theorem trans {last : Symbols} (first : Renames before after) (second : Renames after last) :
    Renames before last := by
  refine ⟨second.modules.trans first.modules, second.globals.trans first.globals,
    second.declarations.trans first.declarations, fun id => ?_,
    second.externals.trans first.externals, fun id => ?_⟩
  · obtain ⟨_, between⟩ := first.declarationAt id
    obtain ⟨outputName, final⟩ := second.declarationAt id
    exact ⟨outputName, by rw [final, between]⟩
  · obtain ⟨_, between⟩ := first.externalAt id
    obtain ⟨outputName, final⟩ := second.externalAt id
    exact ⟨outputName, by rw [final, between]⟩

end Renames

theorem renames_modifyDeclaration (symbols : Symbols) (id : DeclId) (outputName : Option String) :
    Renames symbols
      (symbols.modifyDeclaration id fun declaration => { declaration with outputName }) := by
  refine ⟨rfl, rfl, by simp [modifyDeclaration], fun other => ?_, rfl, fun other => ⟨_, rfl⟩⟩
  rw [declarationAt_modifyDeclaration]
  split <;> exact ⟨_, rfl⟩

theorem renames_modifyExternal (symbols : Symbols) (id : ExternalId) (outputName : Option String) :
    Renames symbols (symbols.modifyExternal id fun external => { external with outputName }) := by
  refine ⟨rfl, rfl, rfl, fun other => ⟨_, rfl⟩, by simp [modifyExternal], fun other => ?_⟩
  rw [externalAt_modifyExternal]
  split <;> exact ⟨_, rfl⟩

end Symbols

namespace Naming

open Symbols (Renames)

theorem renames_nameDeclaration (naming : Naming) (id : DeclId) (base : String) :
    Renames naming.symbols (naming.nameDeclaration id base).symbols :=
  Symbols.renames_modifyDeclaration _ _ _

theorem renames_nameOwn (naming : Naming) (id : DeclId) :
    Renames naming.symbols (naming.nameOwn id).symbols :=
  renames_nameDeclaration _ _ _

theorem renames_nameBinding (naming : Naming) (binding : String × DeclId) :
    Renames naming.symbols (naming.nameBinding binding).symbols := by
  rw [nameBinding]
  split
  · exact renames_nameDeclaration _ _ _
  · exact Renames.refl _

theorem renames_foldl {α : Type} {name : Naming → α → Naming}
    (renames : ∀ naming a, Renames naming.symbols (name naming a).symbols) (list : List α)
    (naming : Naming) : Renames naming.symbols (list.foldl name naming).symbols := by
  induction list generalizing naming with
  | nil => exact Renames.refl _
  | cons a rest ih => exact (renames naming a).trans (ih _)

theorem renames_nameExternal (format : Format) (naming : Naming) (id : ExternalId) :
    Renames naming.symbols (nameExternal format naming id).symbols := by
  have first := Symbols.renames_modifyExternal naming.symbols id
    (some (freshName naming.taken (naming.symbols.externalAt id).name))
  rw [nameExternal]
  generalize naming.symbols.modifyExternal id _ = symbols at first ⊢
  split
  · apply first.trans
    split
    · exact renames_foldl renames_nameBinding _ ⟨symbols, _⟩
    · exact renames_foldl renames_nameBinding _ ⟨symbols, _⟩
  · split
    · exact first
    · exact first

end Naming

namespace Graph

/-- Naming changes symbols only, and there only names in the output. -/
theorem assignNames_eq (options : Options) (graph : Graph) :
    ∃ symbols, graph.symbols.Renames symbols ∧ assignNames options graph = { graph with symbols } := by
  refine ⟨_, ?_, rfl⟩
  exact (Naming.renames_foldl (Naming.renames_nameExternal options.format) _
    ⟨graph.symbols, _⟩).trans
    (Naming.renames_foldl Naming.renames_nameOwn _ _)

theorem sameProgram_assignNames (options : Options) (graph : Graph) :
    SameProgram graph (assignNames options graph) := by
  obtain ⟨symbols, renames, same⟩ := assignNames_eq options graph
  rw [same]
  refine ⟨rfl, rfl, rfl, rfl, rfl, fun _ => rfl, renames.modules, renames.globals,
    renames.declarations, fun id => ?_, renames.externals, fun id => ?_⟩
  · obtain ⟨outputName, entry⟩ := renames.declarationAt id
    exact ⟨_, outputName, entry⟩
  · obtain ⟨outputName, entry⟩ := renames.externalAt id
    exact ⟨_, outputName, entry⟩

theorem selection_assignNames (options : Options) (graph : Graph) :
    (assignNames options graph).selection = graph.selection := by
  obtain ⟨symbols, renames, same⟩ := assignNames_eq options graph
  rw [same]
  ext id
  · rfl
  · obtain ⟨outputName, entry⟩ := renames.declarationAt id
    exact (congrArg Declaration.included entry :)
  · obtain ⟨outputName, entry⟩ := renames.externalAt id
    exact (congrArg External.used entry :)

end Graph

end Bundler
