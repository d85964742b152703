import Mathlib.Data.List.Forall2
import Bundler.Proofs.Symbols.Tables
import Bundler.Graph.Basic

/-! # Twins

A program and the same program with further modules beside it number what comes from outside differently,
since both make these declarations when they are first asked for.  Their declarations are twins if they
are written at the same place in both, or stand for the same thing from outside.  The larger program
encloses the smaller one if all that the smaller one knows is known there of the twins.
-/

namespace Bundler

/-! ## Where declarations occur -/

section Lifts

variable {twin more : DeclId → DeclId → Prop}

/-- The kinds are the same, up to the targets of imports. -/
inductive DeclarationKind.Twins (twin : DeclId → DeclId → Prop) :
    DeclarationKind → DeclarationKind → Prop where
  | declared {statement} : Twins twin (.declared statement) (.declared statement)
  | unlinked {source name} : Twins twin (.imported source name none) (.imported source name none)
  | linked {source name id other} : twin id other →
    Twins twin (.imported source name (some id)) (.imported source name (some other))
  | namespaceOf {id} : Twins twin (.namespaceOf id) (.namespaceOf id)
  | provided {source name} : Twins twin (.provided source name) (.provided source name)
  | free : Twins twin .free .free

inductive Origin.Twins (twin : DeclId → DeclId → Prop) : Origin → Origin → Prop where
  | declaration {id other} : twin id other → Twins twin (.declaration id) (.declaration other)
  | provided {source name} : Twins twin (.provided source name) (.provided source name)

/-- What is known about a node is the same. -/
inductive Resolution.Twins (twin : DeclId → DeclId → Prop) :
    Option Resolution → Option Resolution → Prop where
  | unknown : Twins twin none none
  | declaration {id other} : twin id other →
    Twins twin (some (.declaration id)) (some (.declaration other))
  | undefined : Twins twin (some .undefined) (some .undefined)
  | fallback : Twins twin (some .fallback) (some .fallback)

/-- The same names are exported, for twins. -/
def ExportTwins (twin : DeclId → DeclId → Prop) :
    List (String × DeclId) → List (String × DeclId) → Prop :=
  List.Forall₂ fun entry other => other.1 = entry.1 ∧ twin entry.2 other.2

theorem DeclarationKind.Twins.mono {kind other : DeclarationKind} (twins : kind.Twins twin other)
    (mono : ∀ {id other}, twin id other → more id other) : kind.Twins more other := by
  cases twins with
  | declared => exact .declared
  | unlinked => exact .unlinked
  | linked target => exact .linked (mono target)
  | namespaceOf => exact .namespaceOf
  | provided => exact .provided
  | free => exact .free

theorem Resolution.Twins.mono {resolution other : Option Resolution}
    (twins : Resolution.Twins twin resolution other) (mono : ∀ {id other}, twin id other → more id other) :
    Resolution.Twins more resolution other := by
  cases twins with
  | unknown => exact .unknown
  | declaration found => exact .declaration (mono found)
  | undefined => exact .undefined
  | fallback => exact .fallback

theorem ExportTwins.mono {exports others : List (String × DeclId)}
    (twins : ExportTwins twin exports others)
    (mono : ∀ {id other}, twin id other → more id other) : ExportTwins more exports others :=
  twins.imp fun _ _ both => ⟨both.1, mono both.2⟩

end Lifts

/-- The declarations are written in the same way, with twins as targets. -/
structure Declaration.Twins (twin : DeclId → DeclId → Prop) (declaration other : Declaration) : Prop where
  name : other.name = declaration.name
  owner : other.owner = declaration.owner
  kind : declaration.kind.Twins twin other.kind

/-- The external modules are the same, up to what is taken from them. -/
def External.Twins (external other : External) : Prop :=
  ∃ declarations used, other = { external with declarations, used }

namespace External.Twins

variable {external other last : External}

theorem refl (external : External) : External.Twins external external := ⟨_, _, rfl⟩

theorem trans (first : external.Twins other) (second : other.Twins last) : external.Twins last := by
  obtain ⟨_, _, rfl⟩ := first
  obtain ⟨declarations, used, rfl⟩ := second
  exact ⟨declarations, used, rfl⟩

theorem symm (twins : external.Twins other) : other.Twins external := by
  obtain ⟨_, _, rfl⟩ := twins
  exact ⟨_, _, rfl⟩

theorem propose (twins : external.Twins other) (hint : String) :
    (external.propose hint).Twins (other.propose hint) := by
  obtain ⟨declarations, used, rfl⟩ := twins
  refine ⟨declarations, used, ?_⟩
  rw [External.propose, External.propose]
  split <;> rfl

end External.Twins

namespace Symbols

variable {count old : Nat} {core whole before middle after : Symbols}

/-! ## Twins -/

/-- The declaration of the larger program stands for the same as that of the smaller one.  The first so
    many declarations are written in both. -/
inductive Twins (count : Nat) (core whole : Symbols) : DeclId → DeclId → Prop where
  | written {id} : id.index < count → Twins count core whole id id
  | provided {source} {name : String} {id other} :
    (core.externalAt source).declarations[name]? = some id →
    (whole.externalAt source).declarations[name]? = some other → Twins count core whole id other
  | free {name : String} {id other} :
    core.globals[name]? = some id → whole.globals[name]? = some other → Twins count core whole id other

theorem Twins.mono {core' whole' : Symbols} {id other : DeclId} (remembers : core.Remembers core')
    (remembers' : whole.Remembers whole') (twins : Twins count core whole id other) :
    Twins count core' whole' id other := by
  cases twins with
  | written small => exact .written small
  | provided found found' => exact .provided (remembers.provided found) (remembers'.provided found')
  | free found found' => exact .free (remembers.globals found) (remembers'.globals found')

theorem Twins.symm {id other : DeclId} (twins : Twins count core whole id other) :
    Twins count whole core other id := by
  cases twins with
  | written small => exact .written small
  | provided found found' => exact .provided found' found
  | free found found' => exact .free found' found

/-- All that the smaller program has is in the larger one, and what is known about it is the same. -/
structure Encloses (count : Nat) (core whole : Symbols) : Prop where
  inside : count ≤ core.declarations.size
  inside' : count ≤ whole.declarations.size
  modules : core.modules.size ≤ whole.modules.size
  externals : core.externals.size ≤ whole.externals.size
  moduleAt : ∀ {id}, id.index < core.modules.size → ∃ resolvedExports,
    ExportTwins (Twins count core whole) (core.moduleAt id).resolvedExports resolvedExports ∧
      whole.moduleAt id = { core.moduleAt id with resolvedExports }
  own : ∀ {id} {name : String} {declaration},
    (core.moduleAt id).exports[name]? = some (.own declaration) → declaration.index < count
  home : ∀ {id}, id.index < core.modules.size → (core.moduleAt id).namespaceDecl.index < count
  externalAt : ∀ {id}, id.index < core.externals.size →
    (core.externalAt id).Twins (whole.externalAt id)
  provided : ∀ {source} {name : String} {id}, (core.externalAt source).declarations[name]? = some id →
    ∃ other, (whole.externalAt source).declarations[name]? = some other
  globals : ∀ {name : String} {id}, core.globals[name]? = some id →
    ∃ other, whole.globals[name]? = some other
  declarationAt : ∀ {id}, id.index < count →
    (core.declarationAt id).Twins (Twins count core whole) (whole.declarationAt id)

namespace Encloses

variable (encloses : Encloses count core whole)

include encloses

theorem exports {id : ModuleId} (inside : id.index < core.modules.size) :
    (whole.moduleAt id).exports = (core.moduleAt id).exports := by
  obtain ⟨_, -, entry⟩ := encloses.moduleAt inside
  rw [entry]

theorem starSources {id : ModuleId} (inside : id.index < core.modules.size) :
    (whole.moduleAt id).starSources = (core.moduleAt id).starSources := by
  obtain ⟨_, -, entry⟩ := encloses.moduleAt inside
  rw [entry]

theorem moduleName {id : ModuleId} (inside : id.index < core.modules.size) :
    (whole.moduleAt id).id = (core.moduleAt id).id := by
  obtain ⟨_, -, entry⟩ := encloses.moduleAt inside
  rw [entry]

theorem kind {id : DeclId} (small : id.index < count) :
    (core.declarationAt id).kind.Twins (Twins count core whole) (whole.declarationAt id).kind :=
  (encloses.declarationAt small).kind

end Encloses

/-! ## One-sided changes -/

/-- The change adds declarations and leaves the first so many, and the first so many modules, as they
    are. -/
structure Leaves (old count : Nat) (before after : Symbols) : Prop where
  remembers : before.Remembers after
  modules : before.modules.size = after.modules.size
  externals : before.externals.size = after.externals.size
  declarations : before.declarations.size ≤ after.declarations.size
  moduleAt : ∀ {id}, id.index < old → after.moduleAt id = before.moduleAt id
  externalAt : ∀ id, (before.externalAt id).Twins (after.externalAt id)
  declarationAt : ∀ {id}, id.index < count → after.declarationAt id = before.declarationAt id

namespace Leaves

theorem refl (symbols : Symbols) : Leaves old count symbols symbols :=
  ⟨.refl symbols, rfl, rfl, Nat.le_refl _, fun _ => rfl, fun _ => .refl _, fun _ => rfl⟩

theorem trans (first : Leaves old count before middle) (second : Leaves old count middle after) :
    Leaves old count before after where
  remembers := first.remembers.trans second.remembers
  modules := first.modules.trans second.modules
  externals := first.externals.trans second.externals
  declarations := Nat.le_trans first.declarations second.declarations
  moduleAt small := (second.moduleAt small).trans (first.moduleAt small)
  externalAt id := (first.externalAt id).trans (second.externalAt id)
  declarationAt small := (second.declarationAt small).trans (first.declarationAt small)

end Leaves

/-- What the larger program finds out about its further modules does not matter. -/
theorem Encloses.extend_whole (encloses : Encloses count core whole)
    (leaves : Leaves core.modules.size count whole after) : Encloses count core after where
  inside := encloses.inside
  inside' := Nat.le_trans encloses.inside' leaves.declarations
  modules := leaves.modules ▸ encloses.modules
  externals := leaves.externals ▸ encloses.externals
  moduleAt small := by
    obtain ⟨resolvedExports, twins, entry⟩ := encloses.moduleAt small
    exact ⟨resolvedExports, twins.mono (·.mono (.refl core) leaves.remembers),
      (leaves.moduleAt small).trans entry⟩
  own := encloses.own
  home := encloses.home
  externalAt small := (encloses.externalAt small).trans (leaves.externalAt _)
  provided found := by
    obtain ⟨other, found'⟩ := encloses.provided found
    exact ⟨other, leaves.remembers.provided found'⟩
  globals found := by
    obtain ⟨other, found'⟩ := encloses.globals found
    exact ⟨other, leaves.remembers.globals found'⟩
  declarationAt small := by
    have twins := encloses.declarationAt small
    rw [leaves.declarationAt small]
    exact { twins with kind := twins.kind.mono (·.mono (.refl core) leaves.remembers) }

/-- What the smaller program asks for is covered if it has been asked for in the larger one. -/
theorem Encloses.extend_core (encloses : Encloses count core whole)
    (leaves : Leaves core.modules.size count core after)
    (provided : ∀ {source} {name : String} {id}, (after.externalAt source).declarations[name]? = some id →
      (core.externalAt source).declarations[name]? = some id ∨
        ∃ other, (whole.externalAt source).declarations[name]? = some other)
    (globals : ∀ {name : String} {id}, after.globals[name]? = some id →
      core.globals[name]? = some id ∨ ∃ other, whole.globals[name]? = some other) :
    Encloses count after whole where
  inside := Nat.le_trans encloses.inside leaves.declarations
  inside' := encloses.inside'
  modules := leaves.modules ▸ encloses.modules
  externals := leaves.externals ▸ encloses.externals
  moduleAt {id} small := by
    have small := Nat.lt_of_lt_of_eq small leaves.modules.symm
    obtain ⟨resolvedExports, twins, entry⟩ := encloses.moduleAt small
    rw [leaves.moduleAt small]
    exact ⟨resolvedExports, twins.mono (·.mono leaves.remembers (.refl whole)), entry⟩
  own {id name declaration} found := by
    have small := Nat.lt_of_lt_of_eq (lt_of_export found) leaves.modules.symm
    rw [leaves.moduleAt small] at found
    exact encloses.own found
  home small := by
    have small := Nat.lt_of_lt_of_eq small leaves.modules.symm
    rw [leaves.moduleAt small]
    exact encloses.home small
  externalAt small :=
    (leaves.externalAt _).symm.trans (encloses.externalAt (Nat.lt_of_lt_of_eq small leaves.externals.symm))
  provided found := (provided found).elim encloses.provided id
  globals found := (globals found).elim encloses.globals id
  declarationAt small := by
    have twins := encloses.declarationAt small
    rw [leaves.declarationAt small]
    exact { twins with kind := twins.kind.mono (·.mono leaves.remembers (.refl whole)) }

end Symbols

end Bundler
