import Mathlib.Tactic.Common
import Bundler.Symbols.Basic

/-! # Access to symbols

How the entries of the arenas read back after each change.  An id that is out of range reads as the
default entry, which exports nothing and imports nothing.  A proposal of a name is counted for that name
only.
-/

namespace Bundler

namespace Symbols

variable {symbols : Symbols}

theorem getElem?_empty_ne {α : Type} {name : String} {a : α} :
    ({} : Std.TreeMap String α)[name]? ≠ some a := by
  rw [Std.TreeMap.getElem?_emptyc]
  simp

/-! ## Ids out of range -/

theorem moduleAt_of_le {id : ModuleId} (outside : symbols.modules.size ≤ id.index) :
    symbols.moduleAt id = default := by
  simp [moduleAt, Array.getD, Nat.not_lt.mpr outside]

theorem declarationAt_of_le {id : DeclId} (outside : symbols.declarations.size ≤ id.index) :
    symbols.declarationAt id = default := by
  simp [declarationAt, Array.getD, Nat.not_lt.mpr outside]

theorem externalAt_of_le {id : ExternalId} (outside : symbols.externals.size ≤ id.index) :
    symbols.externalAt id = default := by
  simp [externalAt, Array.getD, Nat.not_lt.mpr outside]

theorem lt_of_export {id : ModuleId} {name : String} {entry : Export}
    (found : (symbols.moduleAt id).exports[name]? = some entry) :
    id.index < symbols.modules.size := by
  by_contra outside
  rw [moduleAt_of_le (Nat.not_lt.mp outside)] at found
  exact getElem?_empty_ne found

theorem lt_of_mem_starSources {id : ModuleId} {source : Provider}
    (member : source ∈ (symbols.moduleAt id).starSources) : id.index < symbols.modules.size := by
  by_contra outside
  rw [moduleAt_of_le (Nat.not_lt.mp outside)] at member
  exact absurd member (Array.not_mem_empty source)

theorem lt_of_mem_body {id : ModuleId} {node : NodeId} (member : node ∈ (symbols.moduleAt id).body) :
    id.index < symbols.modules.size := by
  by_contra outside
  rw [moduleAt_of_le (Nat.not_lt.mp outside)] at member
  exact absurd member (Array.not_mem_empty node)

theorem lt_of_mem_resolvedExports {id : ModuleId} {entry : String × DeclId}
    (member : entry ∈ (symbols.moduleAt id).resolvedExports) : id.index < symbols.modules.size := by
  by_contra outside
  rw [moduleAt_of_le (Nat.not_lt.mp outside)] at member
  exact absurd member List.not_mem_nil

theorem lt_of_provided {id : ExternalId} {name : String} {declaration : DeclId}
    (found : (symbols.externalAt id).declarations[name]? = some declaration) :
    id.index < symbols.externals.size := by
  by_contra outside
  rw [externalAt_of_le (Nat.not_lt.mp outside)] at found
  exact getElem?_empty_ne found

theorem lt_of_imported {id : DeclId} {source name target}
    (kind : (symbols.declarationAt id).kind = .imported source name target) :
    id.index < symbols.declarations.size := by
  by_contra outside
  rw [declarationAt_of_le (Nat.not_lt.mp outside)] at kind
  cases kind

theorem mem_moduleIds {id : ModuleId} :
    id ∈ symbols.moduleIds ↔ id.index < symbols.modules.size := by
  simp only [moduleIds, List.mem_map, List.mem_range]
  constructor
  · rintro ⟨_, inside, rfl⟩
    exact inside
  · intro inside
    exact ⟨id.index, inside, rfl⟩

theorem mem_declarationIds {id : DeclId} :
    id ∈ symbols.declarationIds ↔ id.index < symbols.declarations.size := by
  simp only [declarationIds, List.mem_map, List.mem_range]
  constructor
  · rintro ⟨_, inside, rfl⟩
    exact inside
  · intro inside
    exact ⟨id.index, inside, rfl⟩

/-- The ids of further declarations come behind those that are there. -/
theorem declarationIds_of_le {before after : Symbols}
    (more : before.declarations.size ≤ after.declarations.size) :
    ∃ added, after.declarationIds = before.declarationIds ++ added := by
  obtain ⟨count, same⟩ := Nat.exists_eq_add_of_le more
  rw [declarationIds, same, List.range_add, List.map_append]
  exact ⟨_, rfl⟩

theorem moduleAt_mem {id : ModuleId} (inside : id.index < symbols.modules.size) :
    symbols.moduleAt id ∈ symbols.modules.toList := by
  simp [moduleAt, Array.getD, inside]

theorem declarationAt_mem {id : DeclId} (inside : id.index < symbols.declarations.size) :
    symbols.declarationAt id ∈ symbols.declarations.toList := by
  simp [declarationAt, Array.getD, inside]

/-! ## Changed entries -/

theorem moduleAt_modifyModule (id other : ModuleId) (f : Module → Module) :
    (symbols.modifyModule id f).moduleAt other =
      if other = id ∧ id.index < symbols.modules.size then f (symbols.moduleAt other)
      else symbols.moduleAt other := by
  obtain ⟨i⟩ := id
  obtain ⟨j⟩ := other
  simp only [moduleAt, modifyModule, Array.getD_eq_getD_getElem?, Array.getElem?_modify,
    ModuleId.mk.injEq]
  by_cases same : j = i
  · subst same
    by_cases inside : j < symbols.modules.size <;> simp [inside]
  · simp [same, Ne.symm same]

theorem externalAt_modifyExternal (id other : ExternalId) (f : External → External) :
    (symbols.modifyExternal id f).externalAt other =
      if other = id ∧ id.index < symbols.externals.size then f (symbols.externalAt other)
      else symbols.externalAt other := by
  obtain ⟨i⟩ := id
  obtain ⟨j⟩ := other
  simp only [externalAt, modifyExternal, Array.getD_eq_getD_getElem?, Array.getElem?_modify,
    ExternalId.mk.injEq]
  by_cases same : j = i
  · subst same
    by_cases inside : j < symbols.externals.size <;> simp [inside]
  · simp [same, Ne.symm same]

theorem declarationAt_modifyDeclaration (id other : DeclId) (f : Declaration → Declaration) :
    (symbols.modifyDeclaration id f).declarationAt other =
      if other = id ∧ id.index < symbols.declarations.size then f (symbols.declarationAt other)
      else symbols.declarationAt other := by
  obtain ⟨i⟩ := id
  obtain ⟨j⟩ := other
  simp only [declarationAt, modifyDeclaration, Array.getD_eq_getD_getElem?, Array.getElem?_modify,
    DeclId.mk.injEq]
  by_cases same : j = i
  · subst same
    by_cases inside : j < symbols.declarations.size <;> simp [inside]
  · simp [same, Ne.symm same]

/-! ## Added entries -/

theorem getD_push {α : Type} (entries : Array α) (new other : α) (i : Nat) :
    (entries.push new).getD i other = if i = entries.size then new else entries.getD i other := by
  simp only [Array.getD_eq_getD_getElem?, Array.getElem?_push]
  split <;> rfl

theorem declarationAt_addDeclaration (name : String) (owner : Option Provider)
    (kind : DeclarationKind) (id : DeclId) :
    (symbols.addDeclaration name owner kind).2.declarationAt id =
      if id = ⟨symbols.declarations.size⟩ then { name, owner, kind } else symbols.declarationAt id := by
  obtain ⟨i⟩ := id
  simp only [declarationAt, addDeclaration, getD_push, DeclId.mk.injEq]

theorem moduleAt_addModule (name : String) (id : ModuleId) :
    (symbols.addModule name).2.moduleAt id =
      if id = ⟨symbols.modules.size⟩ then
        { id := name, namespaceDecl := ⟨symbols.declarations.size⟩ }
      else symbols.moduleAt id := by
  obtain ⟨i⟩ := id
  simp only [moduleAt, addModule, addDeclaration, getD_push, ModuleId.mk.injEq]

theorem externalAt_addExternal (name : String) (id : ExternalId) :
    (symbols.addExternal name).2.externalAt id =
      if id = ⟨symbols.externals.size⟩ then
        { id := name, proposedName := Identifier.ofModuleId name }
      else symbols.externalAt id := by
  obtain ⟨i⟩ := id
  simp only [externalAt, addExternal, getD_push, ExternalId.mk.injEq]

end Symbols

/-! ## Proposed names -/

namespace External

theorem id_propose (external : External) (hint : String) :
    (external.propose hint).id = external.id := by
  rw [External.propose]
  split <;> rfl

theorem outputName_propose (external : External) (hint : String) :
    (external.propose hint).outputName = external.outputName := by
  rw [External.propose]
  split <;> rfl

theorem hints_propose (external : External) (hint : String) :
    (external.propose hint).hints = external.hints.insert hint (external.hints.getD hint 0 + 1) := by
  rw [External.propose]
  split <;> rfl

theorem mem_hints_propose {external : External} {hint other : String} :
    other ∈ (external.propose hint).hints ↔ other = hint ∨ other ∈ external.hints := by
  rw [hints_propose, Std.TreeMap.mem_insert, Std.compare_eq_iff_eq, eq_comm]

/-- A proposal counts for the name that it is about, and for no other. -/
theorem getD_hints_propose (external : External) (hint other : String) :
    (external.propose hint).hints.getD other 0 =
      external.hints.getD other 0 + if other = hint then 1 else 0 := by
  rw [hints_propose, Std.TreeMap.getD_insert]
  by_cases same : other = hint
  · subst same
    simp
  · simp [same, Ne.symm same]

end External

end Bundler
