import Bundler.Proofs.Graph.Soundness
import Bundler.Graph.Inclusion

/-! # Changes of symbols

Each way to change the symbols of a graph extends the graph, and keeps it sound if the entry that is
changed or added is sound afterwards.
-/

namespace Bundler.Graph

variable {graph other : Graph}

/-- The same graph with other symbols. -/
def withSymbols (graph : Graph) (symbols : Symbols) : Graph := { graph with symbols }

/-! ## Declarations -/

section Declarations

variable (name : String) (owner : Option Provider) (kind : DeclarationKind)

/-- The graph with a declaration more. -/
def addDeclaration (graph : Graph) : Graph :=
  graph.withSymbols (graph.symbols.addDeclaration name owner kind).2

variable {name owner kind}

theorem declarationAt_addDeclaration_of_has {id : DeclId} (inside : graph.HasDeclaration id) :
    (graph.addDeclaration name owner kind).symbols.declarationAt id =
      graph.symbols.declarationAt id := by
  rw [addDeclaration, withSymbols, Symbols.declarationAt_addDeclaration, if_neg]
  rintro rfl
  exact Nat.lt_irrefl _ inside

theorem declarationAt_addDeclaration_new :
    (graph.addDeclaration name owner kind).symbols.declarationAt ⟨graph.symbols.declarations.size⟩ =
      { name, owner, kind } := by
  rw [addDeclaration, withSymbols, Symbols.declarationAt_addDeclaration, if_pos rfl]

theorem hasDeclaration_addDeclaration {id : DeclId} :
    (graph.addDeclaration name owner kind).HasDeclaration id ↔
      graph.HasDeclaration id ∨ id = ⟨graph.symbols.declarations.size⟩ := by
  obtain ⟨i⟩ := id
  simp only [HasDeclaration, addDeclaration, withSymbols, Symbols.addDeclaration, Array.size_push,
    DeclId.mk.injEq]
  omega

/-- An added declaration is not included, just like an id out of range. -/
theorem includesDeclaration_addDeclaration (id : DeclId) :
    (graph.addDeclaration name owner kind).includesDeclaration id = graph.includesDeclaration id := by
  rw [includesDeclaration, addDeclaration, withSymbols, Symbols.declarationAt_addDeclaration]
  split
  next new =>
      rw [includesDeclaration, Symbols.declarationAt_of_le (new ▸ Nat.le_refl _)]
      rfl
  next => rfl

theorem extends_addDeclaration : Extends graph (graph.addDeclaration name owner kind) where
  node found := found
  modules := Nat.le_refl _
  externals := Nat.le_refl _
  namespaceDecl _ := rfl
  body member := member
  declarations := by simp [addDeclaration, withSymbols, Symbols.addDeclaration]
  owner inside := by rw [declarationAt_addDeclaration_of_has inside]
  kind inside := by
    rw [declarationAt_addDeclaration_of_has inside]
    exact .same

theorem Sound.addDeclaration (sound : graph.Sound)
    (new : (graph.addDeclaration name owner kind).DeclarationSound
      ⟨graph.symbols.declarations.size⟩ { name, owner, kind }) :
    (graph.addDeclaration name owner kind).Sound := by
  refine sound.step extends_addDeclaration sound.arena sound.marks (fun there => .inl ⟨there, rfl⟩)
    ?_ (fun there => .inl ⟨there, rfl⟩) .inl sound.scopeCount (fun _ => .inl rfl)
    fun found => .inl ⟨found, rfl⟩
  intro id inside
  rcases hasDeclaration_addDeclaration.mp inside with before | rfl
  · exact .inl ⟨before, declarationAt_addDeclaration_of_has before⟩
  · rw [declarationAt_addDeclaration_new]
    exact .inr new

end Declarations

/-! ## Modules -/

section Modules

/-- The graph with a module changed. -/
def modifyModule (graph : Graph) (id : ModuleId) (change : Module → Module) : Graph :=
  graph.withSymbols (graph.symbols.modifyModule id change)

variable {id : ModuleId} {change : Module → Module}

theorem hasProvider_modifyModule {source : Provider} :
    (graph.modifyModule id change).HasProvider source ↔ graph.HasProvider source := by
  cases source <;>
    simp [HasProvider, modifyModule, withSymbols, Symbols.modifyModule]

theorem extends_modifyModule
    (keeps : ∀ m, (change m).namespaceDecl = m.namespaceDecl ∧ (change m).body = m.body) :
    Extends graph (graph.modifyModule id change) where
  node found := found
  modules := by simp [modifyModule, withSymbols, Symbols.modifyModule]
  externals := Nat.le_refl _
  namespaceDecl {other} _ := by
    rw [modifyModule, withSymbols, Symbols.moduleAt_modifyModule]
    split
    · exact (keeps _).1
    · rfl
  body {other node} member := by
    rw [modifyModule, withSymbols, Symbols.moduleAt_modifyModule]
    split
    · rwa [(keeps _).2]
    · exact member
  declarations := Nat.le_refl _
  owner _ := rfl
  kind _ := .same

theorem Sound.modifyModule (sound : graph.Sound)
    (extension : Extends graph (graph.modifyModule id change))
    (changed : graph.HasProvider (.internal id) →
      (graph.modifyModule id change).ModuleSound id (change (graph.symbols.moduleAt id))) :
    (graph.modifyModule id change).Sound := by
  refine sound.step extension sound.arena sound.marks ?_ (fun inside => .inl ⟨inside, rfl⟩)
    (fun there => .inl ⟨there, rfl⟩) .inl ?_ (fun _ => .inl rfl) fun found => .inl ⟨found, rfl⟩
  · intro other there
    rw [Graph.modifyModule, withSymbols, Symbols.moduleAt_modifyModule]
    split
    next same =>
        obtain ⟨rfl, inside⟩ := same
        exact .inr (changed inside)
    next => exact .inl ⟨hasProvider_modifyModule.mp there, rfl⟩
  · simpa [Graph.modifyModule, withSymbols, Symbols.modifyModule] using sound.scopeCount

end Modules

/-! ## External modules -/

section Externals

/-- The graph with an external module changed. -/
def modifyExternal (graph : Graph) (id : ExternalId) (change : External → External) : Graph :=
  graph.withSymbols (graph.symbols.modifyExternal id change)

variable {id : ExternalId} {change : External → External}

theorem hasProvider_modifyExternal {source : Provider} :
    (graph.modifyExternal id change).HasProvider source ↔ graph.HasProvider source := by
  cases source <;>
    simp [HasProvider, modifyExternal, withSymbols, Symbols.modifyExternal]

theorem extends_modifyExternal : Extends graph (graph.modifyExternal id change) where
  node found := found
  modules := Nat.le_refl _
  externals := by simp [modifyExternal, withSymbols, Symbols.modifyExternal]
  namespaceDecl _ := rfl
  body member := member
  declarations := Nat.le_refl _
  owner _ := rfl
  kind _ := .same

theorem Sound.modifyExternal (sound : graph.Sound)
    (changed : graph.HasProvider (.external id) →
      (change (graph.symbols.externalAt id)).declarations =
          (graph.symbols.externalAt id).declarations ∨
        (graph.modifyExternal id change).ExternalSound id (change (graph.symbols.externalAt id))) :
    (graph.modifyExternal id change).Sound := by
  refine sound.step extends_modifyExternal sound.arena sound.marks (fun there => .inl ⟨there, rfl⟩)
    (fun inside => .inl ⟨inside, rfl⟩) ?_ .inl sound.scopeCount (fun _ => .inl rfl)
    fun found => .inl ⟨found, rfl⟩
  intro other there
  have before := hasProvider_modifyExternal.mp there
  rw [Graph.modifyExternal, withSymbols, Symbols.externalAt_modifyExternal]
  split
  next same =>
      obtain ⟨rfl, inside⟩ := same
      exact (changed inside).imp_left fun same => ⟨inside, same⟩
  next => exact .inl ⟨before, rfl⟩

end Externals

end Bundler.Graph
