import Mathlib.Order.Basic
import Bundler.Proofs.Draft.Exporting

/-! # Continued drafts

A draft can be continued by modules of which those that are there know nothing.  Everything that was
there stays as it was, up to what is behind it: the arenas of the draft begin with those that it had.
Finishing keeps this, since the exports that are made in the end are made module by module.
-/

namespace Bundler

/-! ## Symbols -/

namespace Symbols

/-- The arenas begin with the earlier ones, and nothing else is global. -/
structure Begins (start symbols : Symbols) : Prop where
  modules : start.modules.size ≤ symbols.modules.size
  externals : start.externals.size ≤ symbols.externals.size
  declarations : start.declarations.size ≤ symbols.declarations.size
  globals : symbols.globals = start.globals
  moduleAt : ∀ {id}, id.index < start.modules.size → symbols.moduleAt id = start.moduleAt id
  externalAt : ∀ {id}, id.index < start.externals.size → symbols.externalAt id = start.externalAt id
  declarationAt : ∀ {id}, id.index < start.declarations.size →
    symbols.declarationAt id = start.declarationAt id

namespace Begins

variable {start symbols : Symbols}

theorem refl (symbols : Symbols) : Begins symbols symbols :=
  ⟨Nat.le_refl _, Nat.le_refl _, Nat.le_refl _, rfl, fun _ => rfl, fun _ => rfl, fun _ => rfl⟩

theorem addDeclaration (begins : start.Begins symbols) (name : String) (owner : Option Provider)
    (kind : DeclarationKind) : start.Begins (symbols.addDeclaration name owner kind).2 :=
  { begins with
    declarations := (Nat.le_succ_of_le begins.declarations).trans_eq (Array.size_push _).symm
    declarationAt := fun inside => by
      rw [declarationAt_addDeclaration, if_neg]
      · exact begins.declarationAt inside
      · rintro rfl
        exact Nat.lt_irrefl _ (Nat.lt_of_lt_of_le inside begins.declarations) }

theorem addModule (begins : start.Begins symbols) (id : String) :
    start.Begins (symbols.addModule id).2 :=
  { begins.addDeclaration (Identifier.ofModuleId id) (some (.internal ⟨symbols.modules.size⟩))
      (.namespaceOf ⟨symbols.modules.size⟩) with
    modules := (Nat.le_succ_of_le begins.modules).trans_eq (Array.size_push _).symm
    moduleAt := fun inside => by
      rw [moduleAt_addModule, if_neg]
      · exact begins.moduleAt inside
      · rintro rfl
        exact Nat.lt_irrefl _ (Nat.lt_of_lt_of_le inside begins.modules) }

theorem addExternal (begins : start.Begins symbols) (id : String) :
    start.Begins (symbols.addExternal id).2 :=
  { begins with
    externals := (Nat.le_succ_of_le begins.externals).trans_eq (Array.size_push _).symm
    externalAt := fun inside => by
      rw [externalAt_addExternal, if_neg]
      · exact begins.externalAt inside
      · rintro rfl
        exact Nat.lt_irrefl _ (Nat.lt_of_lt_of_le inside begins.externals) }

/-- What is done to an added module does not matter. -/
theorem modifyModule (begins : start.Begins symbols) {owner : ModuleId}
    (new : ¬ owner.index < start.modules.size) (change : Module → Module) :
    start.Begins (symbols.modifyModule owner change) :=
  { begins with
    modules := begins.modules.trans_eq Array.size_modify.symm
    moduleAt := fun inside => by
      rw [moduleAt_modifyModule, if_neg]
      · exact begins.moduleAt inside
      · rintro ⟨rfl, -⟩
        exact new inside }

/-- The same is done to a module in both. -/
theorem modifyBoth (begins : start.Begins symbols) {owner : ModuleId}
    (there : owner.index < start.modules.size) (change : Module → Module) :
    (start.modifyModule owner change).Begins (symbols.modifyModule owner change) :=
  { begins with
    modules := Array.size_modify.trans_le (begins.modules.trans_eq Array.size_modify.symm)
    moduleAt := fun {id} inside => by
      have inside : id.index < start.modules.size := inside.trans_eq Array.size_modify
      have there' := Nat.lt_of_lt_of_le there begins.modules
      rw [moduleAt_modifyModule, moduleAt_modifyModule, begins.moduleAt inside]
      simp only [there, there'] }

end Begins

end Symbols

namespace Draft

/-! ## Drafts -/

/-- The drafts that further steps make from one while they leave its modules alone: modules and external
    modules are added, and statements to added modules only.  No external module is imported as a whole,
    nor its default export, since such imports propose names for it. -/
inductive Continued (start : Draft) : Draft → Prop where
  | refl : Continued start start
  | addModule {draft} (continued : Continued start draft) (id : String) :
    Continued start (draft.addModule id).2
  | addExternal {draft} (continued : Continued start draft) (id : String) :
    Continued start (draft.addExternal id).2
  | addExpression {draft owner} (continued : Continued start draft)
    (new : ¬ start.graph.HasProvider (.internal owner))
    (there : draft.graph.HasProvider (.internal owner)) (body : Expr Unit) :
    Continued start (draft.addExpression owner body).2
  | declare {draft owner} (continued : Continued start draft)
    (new : ¬ start.graph.HasProvider (.internal owner))
    (there : draft.graph.HasProvider (.internal owner)) (mode : Mode) (name : String)
    (init : Option (Expr Unit)) (exported : Bool) :
    Continued start ((declare owner mode name init exported).outcome draft).2
  | importFrom {draft owner source} (continued : Continued start draft)
    (new : ¬ start.graph.HasProvider (.internal owner))
    (there : draft.graph.HasProvider (.internal owner)) (known : draft.graph.HasProvider source)
    (imported binding : String)
    (named : ∀ id, source = .external id → imported ≠ wholeModule ∧ imported ≠ defaultExport) :
    Continued start ((importFrom owner source imported binding).outcome draft).2
  | exportLocal {draft owner} (continued : Continued start draft)
    (new : ¬ start.graph.HasProvider (.internal owner))
    (there : draft.graph.HasProvider (.internal owner)) (binding exported : String) :
    Continued start (draft.exportLocal owner binding exported)
  | exportFrom {draft owner source} (continued : Continued start draft)
    (new : ¬ start.graph.HasProvider (.internal owner))
    (there : draft.graph.HasProvider (.internal owner)) (known : draft.graph.HasProvider source)
    (imported exported : String) :
    Continued start ((exportFrom owner source imported exported).outcome draft).2
  | exportWhole {draft owner source} (continued : Continued start draft)
    (new : ¬ start.graph.HasProvider (.internal owner))
    (there : draft.graph.HasProvider (.internal owner)) (known : draft.graph.HasProvider source)
    (exported : String) : Continued start ((exportWhole owner source exported).outcome draft).2
  | exportAll {draft owner source} (continued : Continued start draft)
    (new : ¬ start.graph.HasProvider (.internal owner))
    (there : draft.graph.HasProvider (.internal owner)) (known : draft.graph.HasProvider source) :
    Continued start (draft.exportAll owner source)

variable {start draft after : Draft} {owner : ModuleId}

/-- What continues a draft that can be made can be made. -/
theorem Continued.built (continued : Continued start after) (built : start.Built) : after.Built := by
  induction continued with
  | refl => exact built
  | addModule _ id before => exact before.addModule id
  | addExternal _ id before => exact before.addExternal id
  | addExpression _ _ there body before => exact before.addExpression there body
  | declare _ _ there mode name init exported before => exact before.declare there mode name init exported
  | importFrom _ _ there known imported binding _ before =>
      exact before.importFrom there known imported binding
  | exportLocal _ _ there binding exported before => exact before.exportLocal there binding exported
  | exportFrom _ _ there known imported exported before =>
      exact before.exportFrom there known imported exported
  | exportWhole _ _ there known exported before => exact before.exportWhole there known exported
  | exportAll _ _ there known before => exact before.exportAll there known

/-- The draft begins with the earlier one, and its further exports of local names are not for the modules
    that were there. -/
structure Begins (start draft : Draft) : Prop where
  symbols : start.symbols.Begins draft.symbols
  node : ∀ {id : NodeId} {node}, start.nodes[id.index]? = some node → draft.nodes[id.index]? = some node
  scopes : start.symbols.modules.size ≤ draft.scopes.all.size
  scopeAt : ∀ {id : ModuleId}, start.graph.HasProvider (.internal id) →
    draft.scopes.scopeAt id.scope = start.scopes.scopeAt id.scope
  localExports : ∃ further, draft.localExports.toList = start.localExports.toList ++ further ∧
    ∀ item ∈ further, ¬ start.graph.HasProvider (.internal item.1)

namespace Begins

open Step (Preserves)

theorem refl (sound : start.graph.Sound) : Begins start start :=
  ⟨.refl _, id, Nat.le_of_eq sound.scopeCount.symm, fun _ => rfl, [], (List.append_nil _).symm, nofun⟩

theorem addModule (begins : start.Begins draft) (id : String) : start.Begins (draft.addModule id).2 :=
  { begins with
    symbols := begins.symbols.addModule id
    scopes := (Nat.le_succ_of_le begins.scopes).trans_eq (Array.size_push _).symm
    scopeAt := fun {other} there => by
      have earlier : other.scope.index ≠ draft.scopes.all.size :=
        Nat.ne_of_lt (Nat.lt_of_lt_of_le there begins.scopes)
      exact (scopeAt_addModule id _).trans ((if_neg earlier).trans (begins.scopeAt there)) }

theorem addExternal (begins : start.Begins draft) (id : String) :
    start.Begins (draft.addExternal id).2 :=
  { begins with symbols := begins.symbols.addExternal id }

section New

variable (new : ¬ start.graph.HasProvider (.internal owner))

include new

theorem addStatement (begins : start.Begins draft) (statement : Statement Unit) :
    start.Begins (draft.addStatement owner statement).2 :=
  { begins with
    symbols := begins.symbols.modifyModule new _
    node := fun found => extends_addStatement.node (begins.node found) }

theorem addDeclaring (begins : start.Begins draft) (statement : Statement Unit) (name : String)
    (kind : NodeId → DeclarationKind) :
    start.Begins (draft.addDeclaring owner statement name kind).2 :=
  have stated := begins.addStatement new statement
  { stated with symbols := stated.symbols.addDeclaration name (some (.internal owner)) _ }

theorem bind (name : String) (id : DeclId) : Preserves (Begins start) (Draft.bind owner name id) := by
  intro draft begins
  rw [bind_outcome]
  split
  next scopes declared =>
      have changed := scopes_of_declare declared
      subst changed
      refine { begins with scopes := begins.scopes.trans_eq Array.size_modify.symm, scopeAt := ?_ }
      intro other there
      rw [scopeAt_modify, if_neg]
      · exact begins.scopeAt there
      · rintro ⟨same, -⟩
        have index : owner.index = other.index := (congrArg ScopeId.index same).symm
        exact new (index.trans_lt there)
  next => exact begins

theorem addExport (name : String) (entry : Export) :
    Preserves (Begins start) (Draft.addExport owner name entry) := by
  intro draft begins
  rw [addExport_outcome]
  split
  next symbols added =>
      rw [symbols_of_addExport added]
      exact { begins with symbols := begins.symbols.modifyModule new _ }
  next => exact begins

theorem declare (mode : Mode) (name : String) (init : Option (Expr Unit)) (exported : Bool) :
    Preserves (Begins start) (Draft.declare owner mode name init exported) :=
  preserves_declare (fun _ begins => begins.addDeclaring new _ name .declared) (bind new name)
    fun id => addExport new name (.own id)

theorem importFrom {source : Provider} {imported : String} (binding : String)
    (named : ∀ id, source = .external id → imported ≠ wholeModule ∧ imported ≠ defaultExport) :
    Preserves (Begins start) (Draft.importFrom owner source imported binding) := by
  refine preserves_importFrom (fun draft begins => ?_) (bind new binding) fun id external proposes => ?_
  · exact begins.addDeclaring new _ binding _
  · obtain ⟨notWhole, notDefault⟩ := named id external
    exact absurd proposes (by simp [notWhole, notDefault])

theorem addExportFrom (begins : start.Begins draft) (source : Provider) (clause : Clause) :
    start.Begins (draft.addExportFrom owner source clause) :=
  begins.addStatement new _

theorem exportLocal (begins : start.Begins draft) (binding exported : String) :
    start.Begins (draft.exportLocal owner binding exported) := by
  refine { begins.addStatement new (Statement.exportList () binding exported) with localExports := ?_ }
  obtain ⟨further, appended, unknown⟩ := begins.localExports
  refine ⟨further ++ [(owner, binding, exported)], ?_, fun item member => ?_⟩
  · rw [← List.append_assoc, ← appended]
    exact Array.toList_push
  · rcases List.mem_append.mp member with before | last
    · exact unknown item before
    · obtain rfl := List.mem_singleton.mp last
      exact new

theorem exportAll (begins : start.Begins draft) (source : Provider) :
    start.Begins (draft.exportAll owner source) :=
  have stated := begins.addExportFrom new source .all
  { stated with symbols := stated.symbols.modifyModule new _ }

end New

end Begins

/-- Continuing a draft leaves everything as it was. -/
theorem Continued.begins (continued : Continued start after) (sound : start.graph.Sound) :
    start.Begins after := by
  induction continued with
  | refl => exact .refl sound
  | addModule _ id begins => exact begins.addModule id
  | addExternal _ id begins => exact begins.addExternal id
  | addExpression _ new _ body begins => exact begins.addStatement new _
  | declare _ new _ mode name init exported begins =>
      exact Begins.declare new mode name init exported _ begins
  | importFrom _ new _ _ imported binding named begins =>
      exact Begins.importFrom new binding named _ begins
  | exportLocal _ new _ binding exported begins => exact begins.exportLocal new binding exported
  | exportFrom _ new _ _ imported exported begins =>
      rw [exportFrom_outcome]
      exact Begins.addExport new exported _ _ (begins.addExportFrom new _ _)
  | exportWhole _ new _ _ exported begins =>
      rw [exportWhole_outcome]
      exact Begins.addExport new exported _ _ (begins.addExportFrom new _ _)
  | exportAll _ new _ _ begins => exact begins.exportAll new _

/-! ## Finished drafts -/

section Finish

variable {scopes scopes' : Scopes} {symbols symbols' last last' : Symbols}
  {items : List (ModuleId × String × String)}

theorem lt_of_binding {id : ScopeId} {name : String} {declaration : DeclId}
    (bound : scopes.binding? id name = some declaration) : id.index < scopes.all.size := by
  by_contra outside
  have absent : scopes.scopeAt id = default := by simp [Scopes.scopeAt, Array.getD, outside]
  rw [Scopes.binding?, absent] at bound
  exact Symbols.getElem?_empty_ne bound

/-- Exports of modules that are there are made in both drafts alike. -/
theorem begins_finishExports (begins : symbols.Begins symbols')
    (count : scopes.all.size = symbols.modules.size)
    (same : ∀ {id : ModuleId}, id.index < scopes.all.size →
      scopes'.scopeAt id.scope = scopes.scopeAt id.scope)
    (finished : items.foldlM (finishExport scopes) symbols = .ok last)
    (finished' : items.foldlM (finishExport scopes') symbols' = .ok last') : last.Begins last' := by
  induction items generalizing symbols symbols' with
  | nil =>
      cases finished
      cases finished'
      exact begins
  | cons item rest ih =>
      rw [List.foldlM_cons] at finished finished'
      cases first : finishExport scopes symbols item with
      | error fault =>
          rw [first] at finished
          cases finished
      | ok middle =>
          cases first' : finishExport scopes' symbols' item with
          | error fault =>
              rw [first'] at finished'
              cases finished'
          | ok middle' =>
              rw [first] at finished
              rw [first'] at finished'
              obtain ⟨id, bound, added⟩ := finishExport_eq first
              obtain ⟨id', bound', added'⟩ := finishExport_eq first'
              have inside : item.1.index < scopes.all.size := lt_of_binding bound
              rw [Scopes.binding?, same inside] at bound'
              obtain rfl : id = id' := Option.some.inj (bound.symm.trans bound')
              refine ih ?_ ?_ finished finished'
              · rw [symbols_of_addExport added, symbols_of_addExport added']
                exact begins.modifyBoth (inside.trans_eq count) _
              · rw [symbols_of_addExport added]
                exact count.trans Array.size_modify.symm

/-- Exports of added modules do not matter. -/
theorem begins_finishExports_of_new (begins : symbols.Begins symbols')
    (new : ∀ item ∈ items, ¬ item.1.index < symbols.modules.size)
    (finished' : items.foldlM (finishExport scopes') symbols' = .ok last') : symbols.Begins last' := by
  refine finishExports_induction (fun item member before after finished begins => ?_) finished' begins
  obtain ⟨id, -, added⟩ := finishExport_eq finished
  rw [symbols_of_addExport added]
  exact begins.modifyModule (new item member) _

end Finish

end Draft

namespace Graph

/-- The program begins with the smaller one, and has the same entry. -/
structure Begins (start graph : Graph) : Prop where
  symbols : start.symbols.Begins graph.symbols
  node : ∀ {id : NodeId} {node}, start.nodes[id.index]? = some node → graph.nodes[id.index]? = some node
  scopeAt : ∀ {id : ModuleId}, start.HasProvider (.internal id) →
    graph.scopes.scopeAt id.scope = start.scopes.scopeAt id.scope
  entry : graph.entry = start.entry

/-- Finishing a draft and one that begins with it gives programs of which one begins with the other. -/
theorem begins_finish {start draft : Draft} {entry : ModuleId} {core whole : Graph}
    (begins : start.Begins draft) (sound : start.graph.Sound) (finished : start.finish entry = .ok core)
    (finished' : draft.finish entry = .ok whole) : core.Begins whole := by
  obtain ⟨symbols, exports, rfl⟩ := Draft.finish_eq finished
  obtain ⟨symbols', exports', rfl⟩ := Draft.finish_eq finished'
  have modules := (Draft.sound_finishExports sound exports).2.modules
  obtain ⟨further, appended, new⟩ := begins.localExports
  rw [appended, List.foldlM_append] at exports'
  cases earlier : start.localExports.toList.foldlM (Draft.finishExport draft.scopes) draft.symbols with
  | error fault =>
      rw [earlier] at exports'
      cases exports'
  | ok middle =>
      rw [earlier] at exports'
      have count : start.scopes.all.size = start.symbols.modules.size := sound.scopeCount
      have shared : symbols.Begins middle := Draft.begins_finishExports begins.symbols count
        (fun inside => begins.scopeAt (inside.trans_eq count)) exports earlier
      refine ⟨?_, begins.node, fun there => begins.scopeAt (Nat.lt_of_lt_of_eq there modules), rfl⟩
      exact Draft.begins_finishExports_of_new shared
        (fun item member inside => new item member (Nat.lt_of_lt_of_eq inside modules)) exports'

end Graph

end Bundler
