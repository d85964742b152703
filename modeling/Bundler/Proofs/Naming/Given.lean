import Bundler.Proofs.Bundle.Naming
import Bundler.Proofs.Naming.Fresh

/-! # Names that have been given

Naming goes through declarations and external modules one after the other.  Each step gives one of them
a fresh name and leaves the names of all others alone, and what it looks at beside the names does not
change on the way.
-/

namespace Bundler

/-- What can be given a name in the bundle. -/
inductive Nameable where
  | declaration (id : DeclId)
  | external (id : ExternalId)
  deriving DecidableEq

namespace Symbols

variable {symbols before after : Symbols}

/-- The name that has been given. -/
def nameOf? (symbols : Symbols) : Nameable → Option String
  | .declaration id => (symbols.declarationAt id).outputName
  | .external id => (symbols.externalAt id).outputName

/-- What is there to be given a name. -/
def Has (symbols : Symbols) : Nameable → Prop
  | .declaration id => id.index < symbols.declarations.size
  | .external id => id.index < symbols.externals.size

instance (symbols : Symbols) : (a : Nameable) → Decidable (symbols.Has a)
  | .declaration id => inferInstanceAs (Decidable (id.index < symbols.declarations.size))
  | .external id => inferInstanceAs (Decidable (id.index < symbols.externals.size))

theorem mem_usedExternals {id : ExternalId} :
    id ∈ symbols.usedExternals ↔ symbols.Has (.external id) ∧ (symbols.externalAt id).used = true := by
  simp only [usedExternals, externalIds, List.mem_filter, List.mem_map, List.mem_range]
  constructor
  · rintro ⟨⟨_, inside, rfl⟩, used⟩
    exact ⟨inside, used⟩
  · rintro ⟨inside, used⟩
    exact ⟨⟨id.index, inside, rfl⟩, used⟩

theorem mem_usedExternals_of_used {id : ExternalId} (used : (symbols.externalAt id).used = true) :
    id ∈ symbols.usedExternals := by
  refine mem_usedExternals.mpr ⟨?_, used⟩
  by_contra outside
  rw [externalAt_of_le (Nat.not_lt.mp outside)] at used
  cases used

theorem nameOf?_modifyDeclaration (id : DeclId) (name : String) (a : Nameable) :
    (symbols.modifyDeclaration id fun declaration =>
        { declaration with outputName := some name }).nameOf? a =
      if a = .declaration id ∧ symbols.Has (.declaration id) then some name
      else symbols.nameOf? a := by
  cases a with
  | external =>
      rw [if_neg (by simp)]
      rfl
  | declaration other =>
      simp only [nameOf?, declarationAt_modifyDeclaration, Has, Nameable.declaration.injEq]
      split <;> rfl

theorem nameOf?_modifyExternal (id : ExternalId) (name : String) (a : Nameable) :
    (symbols.modifyExternal id fun external =>
        { external with outputName := some name }).nameOf? a =
      if a = .external id ∧ symbols.Has (.external id) then some name else symbols.nameOf? a := by
  cases a with
  | declaration =>
      rw [if_neg (by simp)]
      rfl
  | external other =>
      simp only [nameOf?, externalAt_modifyExternal, Has, Nameable.external.injEq]
      split <;> rfl

namespace Renames

variable (renames : Renames before after)

include renames

theorem has (a : Nameable) : after.Has a ↔ before.Has a := by
  cases a with
  | declaration => rw [Has, renames.declarations]; rfl
  | external => rw [Has, renames.externals]; rfl

theorem kind (id : DeclId) : (after.declarationAt id).kind = (before.declarationAt id).kind := by
  obtain ⟨_, entry⟩ := renames.declarationAt id
  rw [entry]

theorem name (id : DeclId) : (after.declarationAt id).name = (before.declarationAt id).name := by
  obtain ⟨_, entry⟩ := renames.declarationAt id
  rw [entry]

theorem owner (id : DeclId) : (after.declarationAt id).owner = (before.declarationAt id).owner := by
  obtain ⟨_, entry⟩ := renames.declarationAt id
  rw [entry]

theorem included (id : DeclId) :
    (after.declarationAt id).included = (before.declarationAt id).included := by
  obtain ⟨_, entry⟩ := renames.declarationAt id
  rw [entry]

theorem exported (id : ExternalId) :
    (after.externalAt id).declarations = (before.externalAt id).declarations := by
  obtain ⟨_, entry⟩ := renames.externalAt id
  rw [entry]

theorem used (id : ExternalId) : (after.externalAt id).used = (before.externalAt id).used := by
  obtain ⟨_, entry⟩ := renames.externalAt id
  rw [entry]

theorem includesExport (id : ExternalId) (name : String) :
    after.includesExport id name = before.includesExport id name := by
  simp only [Symbols.includesExport, renames.exported, renames.included]

theorem aliasesDefault (id : ExternalId) (format : Format) :
    after.aliasesDefault id format = before.aliasesDefault id format := by
  simp only [Symbols.aliasesDefault, renames.includesExport, renames.exported]

end Renames

end Symbols

namespace Naming

/-! ## The steps for an external module -/

/-- Gives an external module a name. -/
def nameModule (naming : Naming) (id : ExternalId) : Naming :=
  let name := freshName naming.taken (naming.symbols.externalAt id).name
  { symbols := naming.symbols.modifyExternal id fun external =>
      { external with outputName := some name }
    taken := name :: naming.taken }

/-- Takes the name for the default export of an external module, if it needs one. -/
def reserveAlias (format : Format) (id : ExternalId) (name : String) (naming : Naming) : Naming :=
  if naming.symbols.aliasesDefault id format then naming.reserve (Symbols.defaultAlias name)
  else naming

/-- What is imported by name from an external module. -/
def bindings (format : Format) (symbols : Symbols) (id : ExternalId) : List (String × DeclId) :=
  if format.isEs then (symbols.externalAt id).declarations.toList else []

theorem nameExternal_eq (format : Format) (naming : Naming) (id : ExternalId) :
    nameExternal format naming id =
      (bindings format (naming.nameModule id).symbols id).foldl nameBinding
        ((naming.nameModule id).reserveAlias format id
          (freshName naming.taken (naming.symbols.externalAt id).name)) := by
  rw [nameExternal, bindings]
  split
  · rfl
  · rfl

theorem symbols_reserveAlias (format : Format) (id : ExternalId) (name : String) (naming : Naming) :
    (naming.reserveAlias format id name).symbols = naming.symbols := by
  rw [reserveAlias]
  split <;> rfl

theorem nameOf?_nameDeclaration (naming : Naming) (id : DeclId) (base : String) (a : Nameable) :
    (naming.nameDeclaration id base).symbols.nameOf? a =
      if a = .declaration id ∧ naming.symbols.Has (.declaration id) then
        some (freshName naming.taken base)
      else naming.symbols.nameOf? a :=
  Symbols.nameOf?_modifyDeclaration id _ a

theorem nameOf?_nameModule (naming : Naming) (id : ExternalId) (a : Nameable) :
    (naming.nameModule id).symbols.nameOf? a =
      if a = .external id ∧ naming.symbols.Has (.external id) then
        some (freshName naming.taken (naming.symbols.externalAt id).name)
      else naming.symbols.nameOf? a :=
  Symbols.nameOf?_modifyExternal id _ a

theorem renames_nameModule (naming : Naming) (id : ExternalId) :
    naming.symbols.Renames (naming.nameModule id).symbols :=
  Symbols.renames_modifyExternal _ _ _

end Naming

end Bundler
