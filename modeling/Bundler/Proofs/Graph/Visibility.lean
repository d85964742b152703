import Mathlib.Logic.Relation
import Bundler.Proofs.Graph.Grounded

/-! # Visibility

A module can only refer to declarations of modules that it reaches along imports and re-exports, and
to whatever comes from outside.  A program that is extended keeps its nodes, the statements of its
modules and the kinds of its declarations, except that imports may be given a target, so what is
visible stays visible.
-/

namespace Bundler

/-- What a kind may turn into: only an import changes, when its target is found. -/
inductive DeclarationKind.Becomes : DeclarationKind → DeclarationKind → Prop where
  | same {kind} : Becomes kind kind
  | linked {source name target} :
    Becomes (.imported source name none) (.imported source name (some target))

theorem DeclarationKind.Becomes.trans {a b c : DeclarationKind} (ab : Becomes a b)
    (bc : Becomes b c) : Becomes a c := by
  cases ab with
  | same => exact bc
  | linked =>
      cases bc with
      | same => exact .linked

theorem DeclarationKind.Becomes.eq {a b : DeclarationKind} (becomes : Becomes a b)
    (final : ∀ source name target, b ≠ .imported source name target) : a = b := by
  cases becomes with
  | same => rfl
  | linked => exact absurd rfl (final _ _ _)

theorem DeclarationKind.Becomes.eq_or_linked {a b : DeclarationKind} (becomes : Becomes a b) :
    b = a ∨ ∃ source name target, a = .imported source name none ∧
      b = .imported source name (some target) := by
  cases becomes with
  | same => exact .inl rfl
  | linked => exact .inr ⟨_, _, _, rfl, rfl⟩

theorem DeclarationKind.Becomes.untargeted {a : DeclarationKind} {source name}
    (becomes : Becomes a (.imported source name none)) : a = .imported source name none := by
  cases becomes
  rfl

theorem DeclarationKind.Becomes.imported {a : DeclarationKind} {source name target}
    (becomes : Becomes a (.imported source name target)) :
    ∃ earlier, a = .imported source name earlier := by
  cases becomes with
  | same => exact ⟨_, rfl⟩
  | linked => exact ⟨_, rfl⟩

namespace Graph

variable {graph other : Graph}

/-- The declaration is there. -/
def HasDeclaration (graph : Graph) (id : DeclId) : Prop :=
  id.index < graph.symbols.declarations.size

/-- The module is there. -/
def HasProvider (graph : Graph) : Provider → Prop
  | .internal id => id.index < graph.symbols.modules.size
  | .external id => id.index < graph.symbols.externals.size

instance (graph : Graph) : (source : Provider) → Decidable (graph.HasProvider source)
  | .internal id => inferInstanceAs (Decidable (id.index < graph.symbols.modules.size))
  | .external id => inferInstanceAs (Decidable (id.index < graph.symbols.externals.size))

/-- A statement of the module imports or re-exports from the source. -/
def Links (graph : Graph) (id : ModuleId) (source : Provider) : Prop :=
  ∃ node ∈ (graph.symbols.moduleAt id).body, ∃ statement,
    graph.nodes[node.index]? = some ⟨id, .statement statement⟩ ∧ statement.source? = some source

/-- A chain of imports and re-exports leads from one module to the other. -/
def Reaches (graph : Graph) : ModuleId → ModuleId → Prop :=
  Relation.ReflTransGen fun id source => graph.Links id (.internal source)

/-- The declaration belongs to a module that the given one reaches, if it belongs to a module of the
    graph at all. -/
structure Visible (graph : Graph) (id : ModuleId) (declaration : DeclId) : Prop where
  inside : graph.HasDeclaration declaration
  declared : ∀ {statement}, (graph.symbols.declarationAt declaration).kind = .declared statement →
    ∃ home, (graph.symbols.declarationAt declaration).owner = some (.internal home) ∧
      graph.Reaches id home
  imported : ∀ {source name target},
    (graph.symbols.declarationAt declaration).kind = .imported source name target →
    ∃ home, (graph.symbols.declarationAt declaration).owner = some (.internal home) ∧
      graph.Reaches id home
  namespaceOf : ∀ {home}, (graph.symbols.declarationAt declaration).kind = .namespaceOf home →
    graph.Reaches id home

/-- The declaration is no import, so it stands for itself. -/
def Final (graph : Graph) (id : DeclId) : Prop :=
  ∀ source name target, (graph.symbols.declarationAt id).kind ≠ .imported source name target

/-- The declaration is no import, or one whose target is known. -/
def Targeted (graph : Graph) (id : DeclId) : Prop :=
  ∀ source name, (graph.symbols.declarationAt id).kind ≠ .imported source name none

theorem Final.targeted {id : DeclId} (final : graph.Final id) : graph.Targeted id :=
  fun source name => final source name none

theorem Reaches.trans {id middle home : ModuleId} (first : graph.Reaches id middle)
    (second : graph.Reaches middle home) : graph.Reaches id home :=
  Relation.ReflTransGen.trans first second

theorem Visible.through {id middle : ModuleId} {declaration : DeclId}
    (reaches : graph.Reaches id middle) (visible : graph.Visible middle declaration) :
    graph.Visible id declaration where
  inside := visible.inside
  declared kind := by
    obtain ⟨home, owner, rest⟩ := visible.declared kind
    exact ⟨home, owner, reaches.trans rest⟩
  imported kind := by
    obtain ⟨home, owner, rest⟩ := visible.imported kind
    exact ⟨home, owner, reaches.trans rest⟩
  namespaceOf kind := reaches.trans (visible.namespaceOf kind)

/-! ## Extensions -/

/-- The other graph has all that the graph has. -/
structure Extends (graph other : Graph) : Prop where
  node : ∀ {i : Nat} {node : Node}, graph.nodes[i]? = some node → other.nodes[i]? = some node
  modules : graph.symbols.modules.size ≤ other.symbols.modules.size
  externals : graph.symbols.externals.size ≤ other.symbols.externals.size
  namespaceDecl : ∀ {id}, graph.HasProvider (.internal id) →
    (other.symbols.moduleAt id).namespaceDecl = (graph.symbols.moduleAt id).namespaceDecl
  body : ∀ {id : ModuleId} {node : NodeId}, node ∈ (graph.symbols.moduleAt id).body →
    node ∈ (other.symbols.moduleAt id).body
  declarations : graph.symbols.declarations.size ≤ other.symbols.declarations.size
  owner : ∀ {id}, graph.HasDeclaration id →
    (other.symbols.declarationAt id).owner = (graph.symbols.declarationAt id).owner
  kind : ∀ {id}, graph.HasDeclaration id →
    (graph.symbols.declarationAt id).kind.Becomes (other.symbols.declarationAt id).kind

namespace Extends

theorem refl (graph : Graph) : Extends graph graph :=
  ⟨id, Nat.le_refl _, Nat.le_refl _, fun _ => rfl, id, Nat.le_refl _, fun _ => rfl, fun _ => .same⟩

theorem hasDeclaration (extension : Extends graph other) {id : DeclId}
    (inside : graph.HasDeclaration id) : other.HasDeclaration id :=
  Nat.lt_of_lt_of_le inside extension.declarations

theorem hasProvider (extension : Extends graph other) {source : Provider}
    (there : graph.HasProvider source) : other.HasProvider source := by
  cases source with
  | internal id => exact Nat.lt_of_lt_of_le there extension.modules
  | external id => exact Nat.lt_of_lt_of_le there extension.externals

theorem trans {last : Graph} (first : Extends graph other) (second : Extends other last) :
    Extends graph last where
  node found := second.node (first.node found)
  modules := Nat.le_trans first.modules second.modules
  externals := Nat.le_trans first.externals second.externals
  namespaceDecl there :=
    (second.namespaceDecl (first.hasProvider there)).trans (first.namespaceDecl there)
  body member := second.body (first.body member)
  declarations := Nat.le_trans first.declarations second.declarations
  owner inside := (second.owner (first.hasDeclaration inside)).trans (first.owner inside)
  kind inside := (first.kind inside).trans (second.kind (first.hasDeclaration inside))

theorem links (extension : Extends graph other) {id : ModuleId} {source : Provider}
    (links : graph.Links id source) : other.Links id source := by
  obtain ⟨node, member, statement, found, link⟩ := links
  exact ⟨node, extension.body member, statement, extension.node found, link⟩

theorem reaches (extension : Extends graph other) {id home : ModuleId}
    (reaches : graph.Reaches id home) : other.Reaches id home :=
  Relation.ReflTransGen.mono (fun _ _ => extension.links) _ _ reaches

theorem final (extension : Extends graph other) {id : DeclId} (inside : graph.HasDeclaration id)
    (final : graph.Final id) : other.Final id := by
  intro source name target kind
  obtain ⟨earlier, before⟩ := (kind ▸ extension.kind inside).imported
  exact final _ _ _ before

theorem targeted (extension : Extends graph other) {id : DeclId} (inside : graph.HasDeclaration id)
    (targeted : graph.Targeted id) : other.Targeted id := by
  intro source name kind
  exact targeted source name (kind ▸ extension.kind inside).untargeted

theorem visible (extension : Extends graph other) {id : ModuleId} {declaration : DeclId}
    (visible : graph.Visible id declaration) : other.Visible id declaration where
  inside := extension.hasDeclaration visible.inside
  declared {statement} kind := by
    have before := (extension.kind visible.inside).eq (by simp [kind])
    obtain ⟨home, owned, reaches⟩ := visible.declared (before.trans kind)
    exact ⟨home, (extension.owner visible.inside).trans owned, extension.reaches reaches⟩
  imported {source name target} kind := by
    obtain ⟨earlier, before⟩ := (kind ▸ extension.kind visible.inside).imported
    obtain ⟨home, owned, reaches⟩ := visible.imported before
    exact ⟨home, (extension.owner visible.inside).trans owned, extension.reaches reaches⟩
  namespaceOf {home} kind := by
    have before := (extension.kind visible.inside).eq (by simp [kind])
    exact extension.reaches (visible.namespaceOf (before.trans kind))

end Extends

end Graph

end Bundler
