import Bundler.Proofs.Exports.Search
import Bundler.Proofs.Step
import Bundler.Symbols.Link

/-! # Resolution of exports

Asking for a declaration is a search, after which the declaration of the origin is made if there is
none yet.  The target of an import is found in the same way.
-/

namespace Bundler.Symbols

/-- Asking for an export searches for its origin and takes the declaration of that. -/
theorem resolveExport?_outcome (symbols : Symbols) (source : Provider) (name : String) :
    (resolveExport? source name).outcome symbols =
      match symbols.exportOrigin? source name with
      | .ok (some origin) => (.ok (some (symbols.intern origin).1), (symbols.intern origin).2)
      | .ok none => (.ok none, symbols)
      | .error fault => (.error fault, symbols) := by
  simp only [resolveExport?, exportedDeclaration?, Step.outcome_bind, Step.outcome_get,
    Step.outcome_ofExcept]
  cases symbols.exportOrigin? source name with
  | error fault => rfl
  | ok origin => cases origin <;> rfl

/-- Asking for an export is sound and complete.  The declaration that is found is that of an origin
    which the module provides; nothing is found only where nothing is provided; and the one fault
    there is names a request that leads back to itself by an explicit last step. -/
theorem resolveExport?_sound_complete (symbols : Symbols) (source : Provider) (name : String) :
    match (resolveExport? source name).outcome symbols with
    | (.ok (some id), after) =>
      ∃ origin, symbols.Provides source name origin ∧ symbols.intern origin = (id, after)
    | (.ok none, after) => after = symbols ∧ ∀ origin, ¬ symbols.Provides source name origin
    | (.error fault, after) =>
      after = symbols ∧
        ∃ r, fault = .circularReexport (symbols.moduleAt r.1).id r.2 ∧ symbols.Circular r := by
  have spec := symbols.exportOrigin?_spec source name
  rw [resolveExport?_outcome]
  cases result : symbols.exportOrigin? source name with
  | error fault =>
      rw [result] at spec
      obtain ⟨-, r, -, -, named, circular⟩ := spec
      exact ⟨rfl, r, named, circular⟩
  | ok found =>
      rw [result] at spec
      cases found with
      | none => exact ⟨rfl, spec⟩
      | some origin => exact ⟨origin, spec, rfl⟩

/-! ## Imports -/

section Import

variable {symbols : Symbols} {id : DeclId} {source : Provider} {name : String}

theorem declarationOrigin?_of_kind (kind : (symbols.declarationAt id).kind = .imported source name none) :
    symbols.declarationOrigin? id = symbols.requestOrigin? symbols.exportOrigin? source name := by
  rw [declarationOrigin?, bindingOrigin?, kind]
  rfl

theorem linkImport_of_kind (kind : (symbols.declarationAt id).kind = .imported source name none) :
    (linkImport id).outcome symbols =
      match symbols.declarationOrigin? id with
      | .ok (some origin) => (.ok (), (symbols.intern origin).2.setTarget id (symbols.intern origin).1)
      | .ok none =>
        (.error (.missingImport (((symbols.declarationAt id).owner.map symbols.specifier).getD "")
          (symbols.specifier source) name), symbols)
      | .error fault => (.error fault, symbols) := by
  simp only [linkImport, Step.outcome_bind, Step.outcome_get]
  split
  next found =>
      rw [found] at kind ⊢
      cases kind
      simp only [Step.outcome_bind, Step.outcome_ofExcept]
      cases symbols.declarationOrigin? id with
      | error fault => rfl
      | ok found => cases found <;> rfl
  next different =>
      generalize symbols.declarationAt id = declaration at *
      cases declaration
      cases kind
      exact absurd rfl (different _ _ _ _ _ _)

/-- Only an import without a target is linked. -/
theorem linkImport_of_targeted
    (targeted : ∀ source name, (symbols.declarationAt id).kind ≠ .imported source name none) :
    (linkImport id).outcome symbols = (.ok (), symbols) := by
  simp only [linkImport, Step.outcome_bind, Step.outcome_get]
  split
  next found => exact absurd (congrArg Declaration.kind found) (targeted _ _)
  next => rfl

end Import

end Bundler.Symbols
