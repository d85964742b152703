import Bundler.Proofs.Draft.Growing
import Bundler.Proofs.Graph.Lasting
import Bundler.Proofs.Naming.Given
import Bundler.Proofs.Text.Identifiers

/-! # What names are made of

A name in the output is the name that it was made of, or a numbered one of that.  The name of a declaration
is made of the one that it has in the program, or outside of it if it comes from there; the name of an
external module is made of its id, or of a name that the program proposes.  Since numbered names contain `$`,
a name without it is the very one that it was made of.
-/

namespace Bundler

open Identifier (Legal isPlain)

/-- The name, or a numbered name of a variant. -/
inductive Variant (base : String) : String → Prop where
  | same : Variant base base
  | numbered {name : String} (n : Nat) : Variant base name →
    Variant base (name ++ "$" ++ toString n)

namespace Variant

variable {base middle name : String}

theorem trans (first : Variant base middle) (second : Variant middle name) : Variant base name := by
  induction second with
  | same => exact first
  | numbered n _ ih => exact .numbered n ih

theorem freshName (taken : List String) (base : String) : Variant base (freshName taken base) := by
  rw [Bundler.freshName]
  split
  · obtain ⟨i, same, -⟩ := exists_numberedName_eq taken base taken.length 1
    rw [same]
    exact .numbered (1 + i) .same
  · exact .same

/-- Numbers make a plain name legal if it is not yet. -/
theorem eq_or_legal (variant : Variant base name) (plain : isPlain base = true) :
    name = base ∨ Legal name := by
  induction variant with
  | same => exact .inl rfl
  | numbered n _ ih =>
      rcases ih with rfl | legal
      · exact .inr (Identifier.legal_numbered plain n)
      · exact .inr (Identifier.legal_numbered legal.1 n)

theorem legal (variant : Variant base name) (legal : Legal base) : Legal name := by
  rcases variant.eq_or_legal legal.1 with rfl | legal'
  · exact legal
  · exact legal'

/-- A name without `$` is the one that it was made of. -/
theorem eq_base (variant : Variant base name) (unmarked : '$' ∉ name.toList) : name = base := by
  cases variant with
  | same => rfl
  | numbered n _ => exact absurd (by simp [String.toList_append]) unmarked

end Variant

/-- The name that a declaration has where it is declared. -/
def Declaration.baseName (declaration : Declaration) : String :=
  match declaration.kind with
  | .provided _ name => name
  | _ => declaration.name

/-- The name is that of the module's id, or one that has been proposed for it. -/
def External.Suggests (external : External) (name : String) : Prop :=
  name = Identifier.ofModuleId external.id ∨ name ∈ external.hints

namespace Symbols

variable {symbols after : Symbols}

/-- All names in the output are made of names that are there for it. -/
structure Derived (symbols : Symbols) : Prop where
  declaration : ∀ {id name}, (symbols.declarationAt id).outputName = some name →
    Variant (symbols.declarationAt id).baseName name
  external : ∀ {id : ExternalId}, id.index < symbols.externals.size →
    ∃ base, (symbols.externalAt id).Suggests base ∧ Variant base (symbols.externalAt id).name

theorem suggests_propose {external : External} {name : String} (hint : String)
    (suggested : external.Suggests name) : (external.propose hint).Suggests name :=
  suggested.imp (fun named => (External.id_propose external hint).symm ▸ named)
    fun proposed => External.mem_hints_propose.mpr (.inr proposed)

/-- A name that is proposed is one that may be taken. -/
theorem suggested_propose {external : External} (hint : String)
    (suggested : ∃ base, external.Suggests base ∧ Variant base external.name) :
    ∃ base, (external.propose hint).Suggests base ∧ Variant base (external.propose hint).name := by
  obtain ⟨base, suggests, variant⟩ := suggested
  have before : (external.propose hint).name = external.name ∨ (external.propose hint).name = hint := by
    rw [External.propose]
    split
    · rw [External.name, External.name]
      cases external.outputName with
      | none => exact .inr rfl
      | some name => exact .inl rfl
    · exact .inl rfl
  rcases before with same | same
  · exact ⟨base, suggests_propose hint suggests, same ▸ variant⟩
  · rw [same]
    exact ⟨hint, .inr (External.mem_hints_propose.mpr (.inl rfl)), .same⟩

namespace Derived

theorem addDeclaration (derived : symbols.Derived) (name : String) (owner : Option Provider)
    (kind : DeclarationKind) : (symbols.addDeclaration name owner kind).2.Derived where
  declaration {id output} named := by
    rw [declarationAt_addDeclaration] at named ⊢
    split at named
    · cases named
    next different =>
        rw [if_neg different]
        exact derived.declaration named
  external := derived.external

/-- An external module whose name stays made as it was may change otherwise. -/
theorem modifyExternal (derived : symbols.Derived) {id : ExternalId} {change : External → External}
    (keeps : (∃ base, (symbols.externalAt id).Suggests base ∧ Variant base (symbols.externalAt id).name) →
      ∃ base, (change (symbols.externalAt id)).Suggests base ∧
        Variant base (change (symbols.externalAt id)).name) :
    (symbols.modifyExternal id change).Derived where
  declaration := derived.declaration
  external {other} inside := by
    have before : other.index < symbols.externals.size := by simpa [Symbols.modifyExternal] using inside
    rw [externalAt_modifyExternal]
    split
    next same =>
        obtain ⟨rfl, -⟩ := same
        exact keeps (derived.external before)
    next => exact derived.external before

theorem modifyDeclaration (derived : symbols.Derived) {id : DeclId} {change : Declaration → Declaration}
    (keeps : ∀ name, (change (symbols.declarationAt id)).outputName = some name →
      Variant (change (symbols.declarationAt id)).baseName name) :
    (symbols.modifyDeclaration id change).Derived where
  declaration {other name} named := by
    rw [declarationAt_modifyDeclaration] at named ⊢
    split at named
    next same =>
        obtain ⟨rfl, inside⟩ := same
        rw [if_pos ⟨rfl, inside⟩]
        exact keeps name named
    next different =>
        rw [if_neg different]
        exact derived.declaration named
  external := derived.external

/-- Whatever a program asks for and mentions, names stay made of what is there. -/
theorem lasting : Lasting (fun _ => True) (fun _ => True) Derived where
  asks _ := asks_any _
  external source name _ derived := by
    rw [externalDeclaration]
    split
    · exact derived
    · exact (derived.addDeclaration _ _ _).modifyExternal id
  global _ derived := by
    rw [globalDeclaration]
    split
    · exact derived
    · exact ⟨(derived.addDeclaration _ _ _).declaration, derived.external⟩
  target {symbols} id target derived := by
    refine ⟨fun {other name} named => ?_, derived.external⟩
    rcases symbols.setTarget_cases id target other with same | ⟨_, _, _, kind, same⟩
    · rw [same] at named ⊢
      exact derived.declaration named
    · rw [same] at named ⊢
      have before := derived.declaration named
      rwa [Declaration.baseName, kind] at before
  exports id resolvedExports derived := ⟨derived.declaration, derived.external⟩
  propose id hint _ derived := derived.modifyExternal (suggested_propose hint)

/-- While a program is built no names are given, and names for external modules are only proposed. -/
theorem growing : Draft.Growing (fun _ => True) Derived where
  empty := by
    constructor
    · intro id name named
      cases named
    · exact fun inside => absurd inside (Nat.not_lt_zero _)
  addModule _ derived := ⟨(derived.addDeclaration _ _ _).declaration, derived.external⟩
  addExternal {symbols} id derived := by
    refine ⟨derived.declaration, fun {other} inside => ?_⟩
    rw [externalAt_addExternal]
    split
    next =>
        refine ⟨Identifier.ofModuleId id, .inl rfl, ?_⟩
        rw [External.name, Option.getD_none]
        dsimp only
        exact .same
    next different =>
        obtain ⟨i⟩ := other
        simp only [addExternal, Array.size_push, ExternalId.mk.injEq] at inside different
        have before : (⟨i⟩ : ExternalId).index < symbols.externals.size := by
          dsimp only
          omega
        exact derived.external before
  lengthen _ _ _ derived := ⟨derived.declaration, derived.external⟩
  declare _ _ _ derived := derived.addDeclaration _ _ _
  importFrom _ _ derived := derived.addDeclaration _ _ _
  propose _ derived := lasting.propose _ trivial derived
  exports _ _ _ _ derived := ⟨derived.declaration, derived.external⟩
  star _ _ derived := ⟨derived.declaration, derived.external⟩

end Derived

end Symbols

/-! ## Naming -/

namespace Naming

/-- Nothing but names has changed, and these are made of what is there. -/
structure Derives (symbols : Symbols) (naming : Naming) : Prop where
  renames : symbols.Renames naming.symbols
  derived : naming.symbols.Derived

namespace Derives

variable {symbols : Symbols} {naming : Naming} (derives : Derives symbols naming)

include derives

theorem nameDeclaration {id : DeclId} {base : String}
    (made : (symbols.declarationAt id).baseName = base) :
    Derives symbols (naming.nameDeclaration id base) where
  renames := derives.renames.trans (naming.renames_nameDeclaration id base)
  derived := by
    refine derives.derived.modifyDeclaration fun name named => ?_
    cases named
    have same : (naming.symbols.declarationAt id).baseName = base := by
      rw [← made, Declaration.baseName, Declaration.baseName, derives.renames.kind, derives.renames.name]
    exact same ▸ .freshName naming.taken _

theorem nameModule (id : ExternalId) : Derives symbols (naming.nameModule id) where
  renames := derives.renames.trans (naming.renames_nameModule id)
  derived := by
    refine derives.derived.modifyExternal fun ⟨base, suggests, variant⟩ => ?_
    exact ⟨base, suggests, variant.trans (.freshName naming.taken _)⟩

theorem reserveAlias (format : Format) (id : ExternalId) (name : String) :
    Derives symbols (naming.reserveAlias format id name) := by
  rw [Naming.reserveAlias]
  split
  · exact ⟨derives.renames, derives.derived⟩
  · exact derives

theorem nameExternal (format : Format) {id : ExternalId}
    (listed : ∀ binding ∈ (symbols.externalAt id).declarations.toList,
      (symbols.declarationAt binding.2).kind = .provided id binding.1) :
    Derives symbols (naming.nameExternal format id) := by
  have module := derives.nameModule id
  rw [nameExternal_eq]
  refine List.foldlRecOn _ _ (module.reserveAlias format id _) fun naming derives binding member => ?_
  rw [bindings, module.renames.exported] at member
  split at member
  · rw [nameBinding]
    split
    · refine derives.nameDeclaration ?_
      rw [Declaration.baseName, listed binding member]
    · exact derives
  · exact absurd member List.not_mem_nil

theorem nameOwn {id : DeclId} (defined : Symbols.isDefined (symbols.declarationAt id) = true) :
    Derives symbols (naming.nameOwn id) := by
  rw [Naming.nameOwn, derives.renames.name]
  refine derives.nameDeclaration ?_
  rw [Declaration.baseName]
  split
  next kind => rw [Symbols.isDefined, kind] at defined; cases defined
  next => rfl

end Derives

end Naming

end Bundler
