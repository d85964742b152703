import Bundler.Proofs.Draft.Statements
import Bundler.Proofs.Step

/-! # Building a draft

A draft is built by adding modules, external modules and statements in any order.  A statement that is
refused may have changed the draft before it was, so it counts as well.  Every such draft is sound.
-/

namespace Bundler

namespace Draft

/-- The drafts that can be made. Every statement is added to a module that is there, and every module
    that it names is there too. -/
inductive Built : Draft → Prop where
  | empty : Built {}
  | addModule {draft} (built : Built draft) (id : String) : Built (draft.addModule id).2
  | addExternal {draft} (built : Built draft) (id : String) : Built (draft.addExternal id).2
  | addExpression {draft owner} (built : Built draft)
    (there : draft.graph.HasProvider (.internal owner)) (body : Expr Unit) :
    Built (draft.addExpression owner body).2
  | declare {draft owner} (built : Built draft) (there : draft.graph.HasProvider (.internal owner))
    (mode : Mode) (name : String) (init : Option (Expr Unit)) (exported : Bool) :
    Built ((declare owner mode name init exported).outcome draft).2
  | importFrom {draft owner source} (built : Built draft)
    (there : draft.graph.HasProvider (.internal owner)) (known : draft.graph.HasProvider source)
    (imported binding : String) : Built ((importFrom owner source imported binding).outcome draft).2
  | exportLocal {draft owner} (built : Built draft)
    (there : draft.graph.HasProvider (.internal owner)) (binding exported : String) :
    Built (draft.exportLocal owner binding exported)
  | exportFrom {draft owner source} (built : Built draft)
    (there : draft.graph.HasProvider (.internal owner)) (known : draft.graph.HasProvider source)
    (imported exported : String) : Built ((exportFrom owner source imported exported).outcome draft).2
  | exportWhole {draft owner source} (built : Built draft)
    (there : draft.graph.HasProvider (.internal owner)) (known : draft.graph.HasProvider source)
    (exported : String) : Built ((exportWhole owner source exported).outcome draft).2
  | exportAll {draft owner source} (built : Built draft)
    (there : draft.graph.HasProvider (.internal owner)) (known : draft.graph.HasProvider source) :
    Built (draft.exportAll owner source)

variable {draft : Draft} {owner : ModuleId}

/-! ## Modules -/

theorem sound_empty : ({} : Draft).graph.Sound where
  arena := ⟨by simp [graph], by simp [graph]⟩
  marks := rfl
  modules there := absurd there (Nat.not_lt_zero _)
  declarations inside := absurd inside (Nat.not_lt_zero _)
  externals there := absurd there (Nat.not_lt_zero _)
  globals found := absurd found Symbols.getElem?_empty_ne
  scopeCount := rfl
  scopes := ⟨rfl, fun found => absurd found Symbols.getElem?_empty_ne⟩
  denoted found := by
    rw [denotation?_graph] at found
    cases found

theorem extends_addModule (id : String) :
    Graph.Extends draft.graph (draft.addModule id).2.graph where
  node found := found
  modules := by simp [graph, addModule, Symbols.addModule, Symbols.addDeclaration]
  externals := Nat.le_refl _
  namespaceDecl {other} there := by
    apply congrArg Module.namespaceDecl
    rw [symbols_graph, symbols_graph, addModule, Symbols.moduleAt_addModule, if_neg]
    rintro rfl
    exact Nat.lt_irrefl _ there
  body {other node} member := by
    rw [symbols_graph, addModule, Symbols.moduleAt_addModule]
    split
    next same =>
        have outside : draft.symbols.moduleAt other = default :=
          Symbols.moduleAt_of_le (same ▸ Nat.le_refl _)
        rw [symbols_graph, outside] at member
        exact absurd member (Array.not_mem_empty node)
    next => exact member
  declarations := by simp [graph, addModule, Symbols.addModule, Symbols.addDeclaration]
  owner inside := congrArg Declaration.owner (Graph.declarationAt_addDeclaration_of_has inside)
  kind {other} inside := by
    have same : ((draft.addModule id).2.graph.symbols.declarationAt other).kind =
        (draft.graph.symbols.declarationAt other).kind :=
      congrArg Declaration.kind (Graph.declarationAt_addDeclaration_of_has inside)
    rw [same]
    exact .same

theorem scopeAt_addModule (id : String) (scope : ScopeId) :
    (draft.addModule id).2.graph.scopes.scopeAt scope =
      if scope.index = draft.scopes.all.size then
        { parent := none, owner := ⟨draft.symbols.modules.size⟩ }
      else draft.scopes.scopeAt scope := by
  simp only [graph, addModule, Scopes.scopeAt, Scopes.create, Symbols.addModule, Symbols.getD_push]

theorem sound_addModule (sound : draft.graph.Sound) (id : String) :
    (draft.addModule id).2.graph.Sound := by
  have extension : Graph.Extends draft.graph (draft.addModule id).2.graph := extends_addModule id
  have new : (draft.addModule id).2.symbols.moduleAt ⟨draft.symbols.modules.size⟩ =
      { id, namespaceDecl := ⟨draft.symbols.declarations.size⟩ } := by
    rw [addModule, Symbols.moduleAt_addModule, if_pos rfl]
  have object : (draft.addModule id).2.graph.symbols.declarationAt
      ⟨draft.symbols.declarations.size⟩ =
        { name := Identifier.ofModuleId id, owner := some (.internal ⟨draft.symbols.modules.size⟩),
          kind := .namespaceOf ⟨draft.symbols.modules.size⟩ } := by
    refine (Symbols.declarationAt_addDeclaration (Identifier.ofModuleId id)
      (some (.internal ⟨draft.symbols.modules.size⟩)) (.namespaceOf ⟨draft.symbols.modules.size⟩)
      ⟨draft.symbols.declarations.size⟩).trans ?_
    rw [if_pos rfl]
  have inside : (draft.addModule id).2.graph.HasDeclaration ⟨draft.symbols.declarations.size⟩ := by
    simp [Graph.HasDeclaration, graph, addModule, Symbols.addModule, Symbols.addDeclaration]
  have there : (draft.addModule id).2.graph.HasProvider (.internal ⟨draft.symbols.modules.size⟩) := by
    simp [Graph.HasProvider, graph, addModule, Symbols.addModule, Symbols.addDeclaration]
  refine sound.step extension sound.arena sound.marks ?_ ?_ (fun there => .inl ⟨there, rfl⟩) .inl ?_ ?_
    (fun found => by rw [denotation?_graph] at found; cases found)
  · intro other known
    by_cases same : other = ⟨draft.symbols.modules.size⟩
    · subst same
      rw [symbols_graph, new]
      exact .inr ⟨⟨inside, by rw [object]⟩, by simp,
        fun found => absurd found Symbols.getElem?_empty_ne,
        fun found => absurd found Symbols.getElem?_empty_ne, by simp, by simp⟩
    · refine .inl ⟨?_, ?_⟩
      · obtain ⟨i⟩ := other
        simp only [Graph.HasProvider, graph, addModule, Symbols.addModule, Symbols.addDeclaration,
          Array.size_push, ModuleId.mk.injEq] at known same ⊢
        omega
      · rw [symbols_graph, addModule, Symbols.moduleAt_addModule, if_neg same]
        rfl
  · intro declaration known
    by_cases same : declaration = ⟨draft.symbols.declarations.size⟩
    · subst same
      rw [object]
      refine .inr ⟨by simp, by simp, fun {owner} kind => ?_, by simp⟩
      cases kind
      exact ⟨there, by rw [symbols_graph, new]⟩
    · have before : draft.graph.HasDeclaration declaration := by
        obtain ⟨i⟩ := declaration
        simp only [Graph.HasDeclaration, graph, addModule, Symbols.addModule, Symbols.addDeclaration,
          Array.size_push, DeclId.mk.injEq] at known same ⊢
        omega
      exact .inl ⟨before, Graph.declarationAt_addDeclaration_of_has before⟩
  · have count := sound.scopeCount
    simpa [graph, addModule, Scopes.create, Symbols.addModule, Symbols.addDeclaration] using count
  · intro other
    rw [scopeAt_addModule]
    split
    · exact .inr ⟨rfl, fun found => absurd found Symbols.getElem?_empty_ne⟩
    · exact .inl rfl

theorem sound_addExternal (sound : draft.graph.Sound) (id : String) :
    (draft.addExternal id).2.graph.Sound := by
  have extension : Graph.Extends draft.graph (draft.addExternal id).2.graph :=
    { Graph.Extends.refl draft.graph with
      externals := by simp [graph, addExternal, Symbols.addExternal] }
  refine sound.step extension sound.arena sound.marks (fun there => .inl ⟨there, rfl⟩)
    (fun inside => .inl ⟨inside, rfl⟩) ?_ .inl sound.scopeCount (fun _ => .inl rfl)
    (fun found => by rw [denotation?_graph] at found; cases found)
  intro other known
  rw [symbols_graph, addExternal, Symbols.externalAt_addExternal]
  split
  · exact .inr fun found => absurd found Symbols.getElem?_empty_ne
  next different =>
      refine .inl ⟨?_, rfl⟩
      obtain ⟨i⟩ := other
      simp only [Graph.HasProvider, graph, addExternal, Symbols.addExternal, Array.size_push,
        ExternalId.mk.injEq] at known different ⊢
      omega

/-! ## Names -/

theorem bind_outcome (name : String) (id : DeclId) :
    (bind owner name id).outcome draft =
      match draft.scopes.declare draft.symbols owner.scope name id with
      | .ok scopes => (.ok (), { draft with scopes })
      | .error fault => (.error fault, draft) := by
  simp only [bind, Step.outcome_bind, Step.outcome_get, Step.outcome_ofExcept]
  cases draft.scopes.declare draft.symbols owner.scope name id <;> rfl

theorem addExport_outcome (name : String) (entry : Export) :
    (addExport owner name entry).outcome draft =
      match draft.symbols.addExport owner name entry with
      | .ok symbols => (.ok (), { draft with symbols })
      | .error fault => (.error fault, draft) := by
  simp only [addExport, Step.outcome_bind, Step.outcome_get, Step.outcome_ofExcept]
  cases draft.symbols.addExport owner name entry <;> rfl

/-- A scope with a name more. -/
def bindName (name : String) (id : DeclId) (scope : Scope) : Scope :=
  { scope with bindings := scope.bindings.insert name id }

theorem scopes_of_declare {scopes after : Scopes} {symbols : Symbols} {id : ScopeId} {name : String}
    {declaration : DeclId} (declared : scopes.declare symbols id name declaration = .ok after) :
    after = ⟨scopes.all.modify id.index (bindName name declaration)⟩ := by
  rw [Scopes.declare] at declared
  split at declared
  · cases declared
  · cases declared
    rfl

theorem scopeAt_modify (scopes : Scopes) (id other : ScopeId) (change : Scope → Scope) :
    (Scopes.mk (scopes.all.modify id.index change)).scopeAt other =
      if other = id ∧ id.index < scopes.all.size then change (scopes.scopeAt other)
      else scopes.scopeAt other := by
  obtain ⟨i⟩ := id
  obtain ⟨j⟩ := other
  simp only [Scopes.scopeAt, Array.getD_eq_getD_getElem?, Array.getElem?_modify, ScopeId.mk.injEq]
  by_cases same : j = i
  · subst same
    by_cases inside : j < scopes.all.size <;> simp [inside]
  · simp [same, Ne.symm same]

/-- Binding a name of the module, or failing to, leaves all entries sound. -/
theorem sound_bind (sound : draft.graph.Sound) (name : String) {id : DeclId}
    (belongs : draft.graph.Belongs owner id) :
    ((bind owner name id).outcome draft).2.graph.Sound ∧
      Graph.Extends draft.graph ((bind owner name id).outcome draft).2.graph := by
  rw [bind_outcome]
  split
  next scopes declared =>
      have extension : Graph.Extends draft.graph { draft with scopes }.graph :=
        { Graph.Extends.refl draft.graph with }
      refine ⟨?_, extension⟩
      have changed := scopes_of_declare declared
      subst changed
      refine sound.step extension sound.arena sound.marks (fun there => .inl ⟨there, rfl⟩)
        (fun inside => .inl ⟨inside, rfl⟩) (fun there => .inl ⟨there, rfl⟩) .inl ?_ (fun other => ?_)
        (fun found => by rw [denotation?_graph] at found; cases found)
      · have count := sound.scopeCount
        simpa [graph] using count
      · dsimp only [graph]
        rw [scopeAt_modify]
        split
        next same =>
            have here : other = owner := by
              have index := congrArg ScopeId.index same.1
              obtain ⟨i⟩ := other
              obtain ⟨j⟩ := owner
              exact congrArg ModuleId.mk index
            subst here
            have old := extension.scopeSound (@sound.scopes other)
            refine .inr ⟨old.parent, fun {key declaration} found => ?_⟩
            rw [bindName] at found
            rw [Std.TreeMap.getElem?_insert] at found
            split at found
            · cases found
              exact extension.belongs belongs
            · exact old.binding found
        next => exact .inl rfl
  next => exact ⟨sound, Graph.Extends.refl _⟩

theorem symbols_of_addExport {symbols after : Symbols} {name : String} {entry : Export}
    (added : symbols.addExport owner name entry = .ok after) :
    after = symbols.modifyModule owner fun m => { m with exports := m.exports.insert name entry } := by
  rw [Symbols.addExport] at added
  split at added
  · cases added
  · cases added
    rfl

/-- What an export of the module may be. -/
def ExportSound (graph : Graph) (owner : ModuleId) : Export → Prop
  | .own declaration => graph.Belongs owner declaration
  | .again source _ => graph.Links owner source

theorem sound_insertExport {graph : Graph} (sound : graph.Sound) {name : String} {entry : Export}
    (entrySound : ExportSound graph owner entry) :
    (graph.modifyModule owner fun m => { m with exports := m.exports.insert name entry }).Sound := by
  have extension : Graph.Extends graph
      (graph.modifyModule owner fun m => { m with exports := m.exports.insert name entry }) :=
    Graph.extends_modifyModule fun _ => ⟨rfl, rfl⟩
  apply sound.modifyModule extension
  intro there
  have old := extension.moduleSound (sound.modules there)
  refine ⟨old.namespaceDecl, old.body, fun {key declaration} found => ?_,
    fun {key source imported} found => ?_, old.star, old.resolved⟩ <;>
    rw [Std.TreeMap.getElem?_insert] at found <;>
    split at found
  · cases found
    exact extension.belongs entrySound
  · exact old.own found
  · cases found
    exact extension.links entrySound
  · exact old.again found

theorem sound_addExport (sound : draft.graph.Sound) (name : String) (entry : Export)
    (entrySound : ExportSound draft.graph owner entry) :
    ((addExport owner name entry).outcome draft).2.graph.Sound := by
  rw [addExport_outcome]
  split
  next symbols added =>
      rw [symbols_of_addExport added]
      exact sound_insertExport sound entrySound
  next => exact sound

/-! ## Statements that declare -/

section Declaring

variable (statement : Statement Unit) (name : String) (kind : NodeId → DeclarationKind)

theorem graph_addDeclaring : (draft.addDeclaring owner statement name kind).2.graph =
    (draft.addStatement owner statement).2.graph.addDeclaration name (some (.internal owner))
      (kind (draft.addStatement owner statement).1.id) := rfl

theorem id_addDeclaring : (draft.addDeclaring owner statement name kind).1 =
    ⟨(draft.addStatement owner statement).2.graph.symbols.declarations.size⟩ := rfl

theorem sound_addDeclaring (sound : draft.graph.Sound)
    (there : draft.graph.HasProvider (.internal owner))
    (known : ∀ source, statement.source? = some source → draft.graph.HasProvider source)
    (home : ∀ node other, kind node ≠ .namespaceOf other)
    (new : ∀ id, ((draft.addStatement owner statement).2.graph.addDeclaration name
        (some (.internal owner)) (kind (draft.addStatement owner statement).1.id)).DeclarationSound id
      { name, owner := some (.internal owner),
        kind := kind (draft.addStatement owner statement).1.id }) :
    (draft.addDeclaring owner statement name kind).2.graph.Sound ∧
      (draft.addDeclaring owner statement name kind).2.graph.Belongs owner
        (draft.addDeclaring owner statement name kind).1 := by
  have placed := sound_addStatement sound there statement known
  refine ⟨placed.addDeclaration (new _), ?_⟩
  rw [graph_addDeclaring, id_addDeclaring]
  refine ⟨Graph.hasDeclaration_addDeclaration.mpr (.inr rfl), ?_, ?_⟩
  · rw [Graph.declarationAt_addDeclaration_new]
  · rw [Graph.declarationAt_addDeclaration_new]
    exact home _

end Declaring

theorem declaredBy_addStatement (there : draft.graph.HasProvider (.internal owner)) (exported : Bool)
    (mode : Mode) (name : String) (init : Option (Expr Unit)) :
    (draft.addStatement owner (.declare () exported mode () name init)).2.graph.DeclaredBy owner
      (draft.addStatement owner (.declare () exported mode () name init)).1.id name :=
  ⟨mem_body_addStatement there, _, _, _, _, _, node_addStatement⟩

theorem sound_declare (sound : draft.graph.Sound)
    (there : draft.graph.HasProvider (.internal owner)) (mode : Mode) (name : String)
    (init : Option (Expr Unit)) (exported : Bool) :
    ((declare owner mode name init exported).outcome draft).2.graph.Sound := by
  have declared := declaredBy_addStatement there exported mode name init
  obtain ⟨added, belongs⟩ := sound_addDeclaring (.declare () exported mode () name init) name
    .declared sound there (by simp [Statement.source?]) (by simp) fun id => by
      refine ⟨fun {statement} kind => ?_, by simp, by simp, by simp⟩
      cases kind
      exact ⟨owner, rfl, Graph.extends_addDeclaration.declaredBy declared⟩
  rw [declare, Step.outcome_bind, Step.outcome_modifyGet]
  generalize draft.addDeclaring owner (.declare () exported mode () name init) name .declared = made
    at added belongs ⊢
  obtain ⟨id, after⟩ := made
  obtain ⟨bound, extension⟩ := sound_bind added name belongs
  apply Step.after_bind (fun after : Draft => after.graph.Sound) (fun _ _ => bound)
  intro _ _
  generalize (bind owner name id).outcome after = outcome at bound extension ⊢
  split
  · have exported := sound_addExport bound name (.own id) (extension.belongs belongs)
    exact Step.after_bind (fun after : Draft => after.graph.Sound) (fun _ _ => exported)
      fun _ _ => exported
  · exact bound

theorem sound_importFrom (sound : draft.graph.Sound)
    (there : draft.graph.HasProvider (.internal owner)) {source : Provider}
    (known : draft.graph.HasProvider source) (imported binding : String) :
    ((importFrom owner source imported binding).outcome draft).2.graph.Sound := by
  have links : (draft.addStatement owner (.importFrom () source (draft.symbols.specifier source)
      imported binding)).2.graph.Links owner source := links_addStatement there rfl
  obtain ⟨added, belongs⟩ := sound_addDeclaring
    (.importFrom () source (draft.symbols.specifier source) imported binding) binding
    (fun _ => .imported source imported none) sound there
    (fun _ link => by cases link; exact known) (by simp) fun id => by
      refine ⟨by simp, fun {from_ name target} kind => ?_, by simp, by simp⟩
      cases kind
      exact ⟨owner, rfl, Graph.extends_addDeclaration.links links, by simp⟩
  rw [importFrom, Step.outcome_bind, Step.outcome_modifyGet]
  dsimp only
  generalize draft.addDeclaring owner _ binding _ = made at added belongs ⊢
  obtain ⟨id, after⟩ := made
  obtain ⟨bound, -⟩ := sound_bind added binding belongs
  apply Step.after_bind (fun after : Draft => after.graph.Sound) (fun _ _ => bound)
  intro _ _
  split
  · split
    · exact bound.modifyExternal fun _ => .inl (by rw [External.propose]; split <;> rfl)
    · exact bound
  · exact bound

section Preserves

open Step (Preserves)

variable {P : Draft → Prop} {name imported binding : String} {source : Provider}

/-- What holds after adding a declaration holds after all of it, if binding and exporting keep it. -/
theorem after_declare {mode : Mode} {init : Option (Expr Unit)} {exported : Bool}
    (added : P (draft.addDeclaring owner (.declare () exported mode () name init) name .declared).2)
    (binds : ∀ id, Preserves P (bind owner name id))
    (exports : exported = true → ∀ id, Preserves P (addExport owner name (.own id))) :
    P ((declare owner mode name init exported).outcome draft).2 := by
  rw [declare, Step.outcome_bind, Step.outcome_modifyGet]
  dsimp only
  refine Preserves.bind (binds _) (fun _ => ?_) _ added
  split
  next here => exact (exports here _).bind fun _ => Preserves.pure _
  next => exact Preserves.pure _

/-- What holds after adding an import holds after all of it, if binding and proposing a name keep it. -/
theorem after_importFrom
    (added : P (draft.addDeclaring owner
      (.importFrom () source (draft.symbols.specifier source) imported binding) binding
      fun _ => .imported source imported none).2)
    (binds : ∀ id, Preserves P (bind owner binding id))
    (proposes : ∀ id, source = .external id → imported = wholeModule ∨ imported = defaultExport →
      ∀ draft, P draft → P { draft with symbols := draft.symbols.proposeName id binding }) :
    P ((importFrom owner source imported binding).outcome draft).2 := by
  rw [importFrom, Step.outcome_bind, Step.outcome_modifyGet]
  dsimp only
  refine Preserves.bind (binds _) (fun _ => ?_) _ added
  split
  next external =>
      split
      next proposed => exact Preserves.bind (proposes external rfl proposed) fun _ => Preserves.pure _
      next => exact Preserves.pure _
  next => exact Preserves.pure _

/-- A declaration keeps what adding, binding and exporting keep. -/
theorem preserves_declare {mode : Mode} {init : Option (Expr Unit)} {exported : Bool}
    (adds : ∀ draft, P draft →
      P (draft.addDeclaring owner (.declare () exported mode () name init) name .declared).2)
    (binds : ∀ id, Preserves P (bind owner name id))
    (exports : ∀ id, Preserves P (addExport owner name (.own id))) :
    Preserves P (declare owner mode name init exported) :=
  fun draft holds => after_declare (adds draft holds) binds fun _ => exports

/-- An import keeps what adding, binding and proposing a name keep. -/
theorem preserves_importFrom
    (adds : ∀ draft, P draft → P (draft.addDeclaring owner
      (.importFrom () source (draft.symbols.specifier source) imported binding) binding
      fun _ => .imported source imported none).2)
    (binds : ∀ id, Preserves P (bind owner binding id))
    (proposes : ∀ id, source = .external id → imported = wholeModule ∨ imported = defaultExport →
      ∀ draft, P draft → P { draft with symbols := draft.symbols.proposeName id binding }) :
    Preserves P (importFrom owner source imported binding) :=
  fun draft holds => after_importFrom (adds draft holds) binds proposes

end Preserves

/-! ## Statements that export -/

theorem sound_exportLocal (sound : draft.graph.Sound)
    (there : draft.graph.HasProvider (.internal owner)) (binding exported : String) :
    (draft.exportLocal owner binding exported).graph.Sound :=
  sound_addStatement sound there (Statement.exportList () binding exported)
    (by simp [Statement.source?])

theorem sound_addExportFrom (sound : draft.graph.Sound)
    (there : draft.graph.HasProvider (.internal owner)) {source : Provider}
    (known : draft.graph.HasProvider source) (clause : Clause) :
    (draft.addExportFrom owner source clause).graph.Sound ∧
      (draft.addExportFrom owner source clause).graph.Links owner source :=
  ⟨sound_addStatement sound there _ fun _ link => by cases link; exact known,
    links_addStatement there rfl⟩

theorem exportFrom_outcome (source : Provider) (imported exported : String) :
    (exportFrom owner source imported exported).outcome draft =
      (addExport owner exported (.again source imported)).outcome
        (draft.addExportFrom owner source (.single imported exported)) := by
  rw [exportFrom, Step.outcome_bind, Step.outcome_modify]

theorem exportWhole_outcome (source : Provider) (exported : String) :
    (exportWhole owner source exported).outcome draft =
      (addExport owner exported (.again source wholeModule)).outcome
        (draft.addExportFrom owner source (.whole exported)) := by
  rw [exportWhole, Step.outcome_bind, Step.outcome_modify]

/-- A statement that takes an export from another module, under whatever name. -/
theorem sound_exportAgain (sound : draft.graph.Sound)
    (there : draft.graph.HasProvider (.internal owner)) {source : Provider}
    (known : draft.graph.HasProvider source) (clause : Clause) (imported exported : String) :
    ((addExport owner exported (.again source imported)).outcome
      (draft.addExportFrom owner source clause)).2.graph.Sound := by
  obtain ⟨placed, links⟩ := sound_addExportFrom sound there known clause
  exact sound_addExport placed exported (.again source imported) links

theorem sound_exportAll (sound : draft.graph.Sound)
    (there : draft.graph.HasProvider (.internal owner)) {source : Provider}
    (known : draft.graph.HasProvider source) : (draft.exportAll owner source).graph.Sound := by
  obtain ⟨placed, links⟩ := sound_addExportFrom sound there known .all
  have extension : Graph.Extends _ ((draft.addExportFrom owner source .all).graph.modifyModule owner
      fun m => { m with starSources := m.starSources.push source }) :=
    Graph.extends_modifyModule fun _ => ⟨rfl, rfl⟩
  apply placed.modifyModule extension
  intro inside
  have old := extension.moduleSound (placed.modules inside)
  refine ⟨old.namespaceDecl, old.body, old.own, old.again, fun other member => ?_, old.resolved⟩
  rcases Array.mem_push.mp member with earlier | rfl
  · exact old.star other earlier
  · exact extension.links links

/-- Every draft that can be made is sound. -/
theorem Built.sound {draft : Draft} (built : Built draft) : draft.graph.Sound := by
  induction built with
  | empty => exact sound_empty
  | addModule _ id sound => exact sound_addModule sound id
  | addExternal _ id sound => exact sound_addExternal sound id
  | addExpression _ there body sound => exact sound_addStatement sound there _ (by simp [Statement.source?])
  | declare _ there mode name init exported sound =>
      exact sound_declare sound there mode name init exported
  | importFrom _ there known imported binding sound =>
      exact sound_importFrom sound there known imported binding
  | exportLocal _ there binding exported sound =>
      exact sound_exportLocal sound there binding exported
  | exportFrom _ there known imported exported sound =>
      rw [exportFrom_outcome]
      exact sound_exportAgain sound there known _ imported exported
  | exportWhole _ there known exported sound =>
      rw [exportWhole_outcome]
      exact sound_exportAgain sound there known _ wholeModule exported
  | exportAll _ there known sound => exact sound_exportAll sound there known

end Draft

end Bundler
