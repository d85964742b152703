import Bundler.Proofs.Graph.Visibility

/-! # Soundness

What holds of every program from its first module on: whatever a module, a declaration or a node is
said to refer to is there, of the right kind, and visible from where it is referred to.  Each
condition is one on a single entry, so that a step has to look only at the entries that it changes;
the others keep theirs in every extension.
-/

namespace Bundler.Graph

variable {graph other : Graph}

/-- The declaration is one that the module makes by itself, by declaring or importing a name. -/
structure Belongs (graph : Graph) (id : ModuleId) (declaration : DeclId) : Prop where
  inside : graph.HasDeclaration declaration
  owner : (graph.symbols.declarationAt declaration).owner = some (.internal id)
  home : ∀ other, (graph.symbols.declarationAt declaration).kind ≠ .namespaceOf other

/-- The node is a statement of the module that declares the name. -/
def DeclaredBy (graph : Graph) (id : ModuleId) (node : NodeId) (name : String) : Prop :=
  node ∈ (graph.symbols.moduleAt id).body ∧ ∃ label exported mode nameLabel init,
    graph.nodes[node.index]? =
      some ⟨id, .statement (.declare label exported mode nameLabel name init)⟩

/-! ## Conditions on single entries -/

/-- The node is a statement of the module, and what it links to is there. -/
def StatementSound (graph : Graph) (id : ModuleId) (node : NodeId) : Prop :=
  ∃ statement, graph.nodes[node.index]? = some ⟨id, .statement statement⟩ ∧
    ∀ source, statement.source? = some source → graph.HasProvider source

structure ModuleSound (graph : Graph) (id : ModuleId) (m : Module) : Prop where
  namespaceDecl : graph.HasDeclaration m.namespaceDecl ∧
    (graph.symbols.declarationAt m.namespaceDecl).kind = .namespaceOf id
  body : ∀ node ∈ m.body, graph.StatementSound id node
  own : ∀ {name : String} {declaration}, m.exports[name]? = some (.own declaration) →
    graph.Belongs id declaration
  again : ∀ {name : String} {source imported},
    m.exports[name]? = some (.again source imported) → graph.Links id source
  star : ∀ source ∈ m.starSources, graph.Links id source
  resolved : ∀ entry ∈ m.resolvedExports, graph.Visible id entry.2 ∧ graph.Final entry.2

structure DeclarationSound (graph : Graph) (id : DeclId) (declaration : Declaration) : Prop where
  declared : ∀ {statement}, declaration.kind = .declared statement → ∃ owner,
    declaration.owner = some (.internal owner) ∧ graph.DeclaredBy owner statement declaration.name
  imported : ∀ {source name target}, declaration.kind = .imported source name target → ∃ owner,
    declaration.owner = some (.internal owner) ∧ graph.Links owner source ∧
      ∀ found, target = some found → graph.Visible owner found ∧ graph.Final found
  namespaceOf : ∀ {owner}, declaration.kind = .namespaceOf owner →
    graph.HasProvider (.internal owner) ∧ (graph.symbols.moduleAt owner).namespaceDecl = id
  provided : ∀ {source name}, declaration.kind = .provided source name →
    graph.HasProvider (.external source)

/-- What stands for something from outside is there and visible everywhere. -/
def ExternalSound (graph : Graph) (id : ExternalId) (external : External) : Prop :=
  ∀ {name : String} {declaration}, external.declarations[name]? = some declaration →
    graph.HasDeclaration declaration ∧
      (graph.symbols.declarationAt declaration).kind = .provided id name

/-- The scope binds declarations of the module that it belongs to, and lies in no other. -/
structure ScopeSound (graph : Graph) (id : ModuleId) (scope : Scope) : Prop where
  parent : scope.parent = none
  binding : ∀ {name : String} {declaration}, scope.bindings[name]? = some declaration →
    graph.Belongs id declaration

structure Sound (graph : Graph) : Prop where
  arena : Arena graph.nodes
  marks : graph.marks.size = graph.nodes.size
  modules : ∀ {id}, graph.HasProvider (.internal id) →
    graph.ModuleSound id (graph.symbols.moduleAt id)
  declarations : ∀ {id}, graph.HasDeclaration id →
    graph.DeclarationSound id (graph.symbols.declarationAt id)
  externals : ∀ {id}, graph.HasProvider (.external id) →
    graph.ExternalSound id (graph.symbols.externalAt id)
  globals : ∀ {name : String} {declaration}, graph.symbols.globals[name]? = some declaration →
    graph.HasDeclaration declaration ∧
      (graph.symbols.declarationAt declaration).kind = .free
  scopeCount : graph.scopes.all.size = graph.symbols.modules.size
  scopes : ∀ {id : ModuleId}, graph.ScopeSound id (graph.scopes.scopeAt id.scope)
  denoted : ∀ {id declaration}, graph.denotation? id = some declaration →
    graph.Visible (graph.nodeAt id).owner declaration

/-! ## Extensions keep the conditions -/

theorem Belongs.visible {id : ModuleId} {declaration : DeclId} (belongs : graph.Belongs id declaration) :
    graph.Visible id declaration where
  inside := belongs.inside
  declared _ := ⟨id, belongs.owner, .refl⟩
  imported _ := ⟨id, belongs.owner, .refl⟩
  namespaceOf kind := absurd kind (belongs.home _)

namespace Extends

theorem belongs (extension : Extends graph other) {id : ModuleId} {declaration : DeclId}
    (belongs : graph.Belongs id declaration) : other.Belongs id declaration where
  inside := extension.hasDeclaration belongs.inside
  owner := (extension.owner belongs.inside).trans belongs.owner
  home home kind := by
    have before := (extension.kind belongs.inside).eq (by simp [kind])
    exact belongs.home home (before.trans kind)

theorem declaredBy (extension : Extends graph other) {id : ModuleId} {node : NodeId} {name : String}
    (declared : graph.DeclaredBy id node name) : other.DeclaredBy id node name := by
  obtain ⟨member, label, exported, mode, nameLabel, init, found⟩ := declared
  exact ⟨extension.body member, label, exported, mode, nameLabel, init, extension.node found⟩

theorem kind_eq (extension : Extends graph other) {id : DeclId} {kind : DeclarationKind}
    (before : graph.HasDeclaration id ∧ (graph.symbols.declarationAt id).kind = kind)
    (final : ∀ source name target, kind ≠ .imported source name target) :
    other.HasDeclaration id ∧ (other.symbols.declarationAt id).kind = kind := by
  refine ⟨extension.hasDeclaration before.1, ?_⟩
  rcases (extension.kind before.1).eq_or_linked with same | ⟨_, _, _, open_, -⟩
  · exact same.trans before.2
  · exact absurd (before.2.symm.trans open_) (final _ _ _)

theorem statementSound (extension : Extends graph other) {id : ModuleId} {node : NodeId}
    (sound : graph.StatementSound id node) : other.StatementSound id node := by
  obtain ⟨statement, found, known⟩ := sound
  exact ⟨statement, extension.node found, fun source link => extension.hasProvider (known source link)⟩

theorem moduleSound (extension : Extends graph other) {id : ModuleId} {m : Module}
    (sound : graph.ModuleSound id m) : other.ModuleSound id m where
  namespaceDecl := extension.kind_eq sound.namespaceDecl (by simp)
  body node member := extension.statementSound (sound.body node member)
  own found := extension.belongs (sound.own found)
  again found := extension.links (sound.again found)
  star source member := extension.links (sound.star source member)
  resolved entry member :=
    have before := sound.resolved entry member
    ⟨extension.visible before.1, extension.final before.1.inside before.2⟩

theorem declarationSound (extension : Extends graph other) {id : DeclId} {declaration : Declaration}
    (sound : graph.DeclarationSound id declaration) : other.DeclarationSound id declaration where
  declared kind := by
    obtain ⟨owner, owned, declared⟩ := sound.declared kind
    exact ⟨owner, owned, extension.declaredBy declared⟩
  imported kind := by
    obtain ⟨owner, owned, link, found⟩ := sound.imported kind
    refine ⟨owner, owned, extension.links link, fun target some => ?_⟩
    obtain ⟨visible, final⟩ := found target some
    exact ⟨extension.visible visible, extension.final visible.inside final⟩
  namespaceOf kind := by
    obtain ⟨there, same⟩ := sound.namespaceOf kind
    exact ⟨extension.hasProvider there, (extension.namespaceDecl there).trans same⟩
  provided kind := extension.hasProvider (sound.provided kind)

theorem externalSound (extension : Extends graph other) {id : ExternalId} {external : External}
    (sound : graph.ExternalSound id external) : other.ExternalSound id external := fun found =>
  extension.kind_eq (sound found) (by simp)

theorem scopeSound (extension : Extends graph other) {id : ModuleId} {scope : Scope}
    (sound : graph.ScopeSound id scope) : other.ScopeSound id scope where
  parent := sound.parent
  binding found := extension.belongs (sound.binding found)

end Extends

theorem Sound.known (sound : graph.Sound) {id : ModuleId} {source : Provider}
    (links : graph.Links id source) : graph.HasProvider source := by
  obtain ⟨node, member, statement, found, link⟩ := links
  obtain ⟨other, at_node, known⟩ := (sound.modules (Symbols.lt_of_mem_body member)).body node member
  rw [found] at at_node
  cases at_node
  exact known source link

theorem Sound.provided (sound : graph.Sound) {source : ExternalId} {name : String} {id : DeclId}
    (found : (graph.symbols.externalAt source).declarations[name]? = some id) :
    (graph.symbols.declarationAt id).kind = .provided source name :=
  (sound.externals (Symbols.lt_of_provided found) found).2

/-- All ids of a sound graph lead to an entry. -/
theorem Sound.grounded (sound : graph.Sound) : graph.Grounded where
  arena := sound.arena
  marks := sound.marks
  body {owner id} member := by
    obtain ⟨statement, found, -⟩ := (sound.modules (Symbols.lt_of_mem_body member)).body id member
    exact ⟨statement, found⟩
  denoted found := (sound.denoted found).inside
  declared {id statement} inside kind := by
    obtain ⟨owner, -, -, label, exported, mode, nameLabel, init, found⟩ :=
      (sound.declarations inside).declared kind
    exact (Array.getElem?_eq_some_iff.mp found).1
  target {id source name target} kind := by
    obtain ⟨owner, -, -, visible⟩ := (sound.declarations (Symbols.lt_of_imported kind)).imported kind
    exact (visible target rfl).1.inside
  exported {id declaration} member := by
    obtain ⟨entry, listed, rfl⟩ := List.mem_map.mp member
    exact ((sound.modules (Symbols.lt_of_mem_resolvedExports listed)).resolved entry listed).1.inside
  provided {id source name} kind := by
    have inside : graph.HasDeclaration id := by
      by_contra outside
      rw [Symbols.declarationAt_of_le (Nat.not_lt.mp outside)] at kind
      cases kind
    exact (sound.declarations inside).provided kind

/-- A step keeps a program sound if it leaves or makes every single entry sound. -/
theorem Sound.step (sound : graph.Sound) (extension : Extends graph other)
    (arena : Arena other.nodes) (marks : other.marks.size = other.nodes.size)
    (modules : ∀ {id}, other.HasProvider (.internal id) →
      graph.HasProvider (.internal id) ∧ other.symbols.moduleAt id = graph.symbols.moduleAt id ∨
        other.ModuleSound id (other.symbols.moduleAt id))
    (declarations : ∀ {id}, other.HasDeclaration id →
      graph.HasDeclaration id ∧
          other.symbols.declarationAt id = graph.symbols.declarationAt id ∨
        other.DeclarationSound id (other.symbols.declarationAt id))
    (externals : ∀ {id}, other.HasProvider (.external id) →
      graph.HasProvider (.external id) ∧
          (other.symbols.externalAt id).declarations = (graph.symbols.externalAt id).declarations ∨
        other.ExternalSound id (other.symbols.externalAt id))
    (globals : ∀ {name : String} {declaration},
      other.symbols.globals[name]? = some declaration →
      graph.symbols.globals[name]? = some declaration ∨
        other.HasDeclaration declaration ∧
          (other.symbols.declarationAt declaration).kind = .free)
    (scopeCount : other.scopes.all.size = other.symbols.modules.size)
    (scopes : ∀ id : ModuleId, other.scopes.scopeAt id.scope = graph.scopes.scopeAt id.scope ∨
      other.ScopeSound id (other.scopes.scopeAt id.scope))
    (denoted : ∀ {id declaration}, other.denotation? id = some declaration →
      graph.denotation? id = some declaration ∧ other.nodeAt id = graph.nodeAt id ∨
        other.Visible (other.nodeAt id).owner declaration) : other.Sound where
  arena := arena
  marks := marks
  modules there := by
    rcases modules there with ⟨before, same⟩ | changed
    · rw [same]
      exact extension.moduleSound (sound.modules before)
    · exact changed
  declarations there := by
    rcases declarations there with ⟨before, same⟩ | changed
    · rw [same]
      exact extension.declarationSound (sound.declarations before)
    · exact changed
  externals there := by
    rcases externals there with ⟨before, same⟩ | changed
    · intro name declaration found
      rw [same] at found
      exact extension.externalSound (sound.externals before) found
    · exact changed
  globals found := by
    rcases globals found with before | changed
    · exact extension.kind_eq (sound.globals before) (by simp)
    · exact changed
  scopeCount := scopeCount
  scopes {id} := by
    rcases scopes id with same | changed
    · rw [same]
      exact extension.scopeSound sound.scopes
    · exact changed
  denoted found := by
    rcases denoted found with ⟨before, same⟩ | changed
    · rw [same]
      exact extension.visible (sound.denoted before)
    · exact changed

/-- Whether a graph is sound says nothing about its entry, its order and its warnings. -/
theorem Sound.withRest (sound : graph.Sound) (entry : ModuleId) (order : List ModuleId)
    (warnings : Array Diagnostic) : ({ graph with entry, order, warnings } : Graph).Sound := by
  have extension : Extends graph { graph with entry, order, warnings } := { Extends.refl graph with }
  exact sound.step extension sound.arena sound.marks (fun there => .inl ⟨there, rfl⟩)
    (fun inside => .inl ⟨inside, rfl⟩) (fun there => .inl ⟨there, rfl⟩) .inl sound.scopeCount
    (fun _ => .inl rfl) fun found => .inl ⟨found, rfl⟩

end Bundler.Graph
