import Bundler.Proofs.Draft.Finish
import Bundler.Proofs.Respelling.Counterparts

/-! # Respelled drafts

Building a program in the same way, but with some of the properties in brackets, gives the same program:
every step has the same result, what is declared, imported and exported is the same, and the statements
respell each other.
-/

namespace Bundler

open Step (Lockstep)

/-- The second expression is the first one with some of its properties in brackets. -/
abbrev Expr.Bracketed : Expr Unit → Expr Unit → Prop := Expr.Respells (fun _ _ => True) fun _ => True

namespace Draft

/-- The second draft is built in the same way as the first one, with some of the properties in brackets. -/
inductive Respelled : Draft → Draft → Prop where
  | empty : Respelled {} {}
  | addModule {draft draft'} (before : Respelled draft draft') (id : String) :
    Respelled (draft.addModule id).2 (draft'.addModule id).2
  | addExternal {draft draft'} (before : Respelled draft draft') (id : String) :
    Respelled (draft.addExternal id).2 (draft'.addExternal id).2
  | addExpression {draft draft' owner body body'} (before : Respelled draft draft')
    (there : draft.graph.HasProvider (.internal owner)) (bracketed : Expr.Bracketed body body') :
    Respelled (draft.addExpression owner body).2 (draft'.addExpression owner body').2
  | declare {draft draft' owner init init'} (before : Respelled draft draft')
    (there : draft.graph.HasProvider (.internal owner)) (mode : Mode) (name : String) (exported : Bool)
    (bracketed : Option.Rel Expr.Bracketed init init') :
    Respelled ((declare owner mode name init exported).outcome draft).2
      ((declare owner mode name init' exported).outcome draft').2
  | importFrom {draft draft' owner source} (before : Respelled draft draft')
    (there : draft.graph.HasProvider (.internal owner)) (known : draft.graph.HasProvider source)
    (imported binding : String) :
    Respelled ((importFrom owner source imported binding).outcome draft).2
      ((importFrom owner source imported binding).outcome draft').2
  | exportLocal {draft draft' owner} (before : Respelled draft draft')
    (there : draft.graph.HasProvider (.internal owner)) (binding exported : String) :
    Respelled (draft.exportLocal owner binding exported) (draft'.exportLocal owner binding exported)
  | exportFrom {draft draft' owner source} (before : Respelled draft draft')
    (there : draft.graph.HasProvider (.internal owner)) (known : draft.graph.HasProvider source)
    (imported exported : String) :
    Respelled ((exportFrom owner source imported exported).outcome draft).2
      ((exportFrom owner source imported exported).outcome draft').2
  | exportWhole {draft draft' owner source} (before : Respelled draft draft')
    (there : draft.graph.HasProvider (.internal owner)) (known : draft.graph.HasProvider source)
    (exported : String) :
    Respelled ((exportWhole owner source exported).outcome draft).2
      ((exportWhole owner source exported).outcome draft').2
  | exportAll {draft draft' owner source} (before : Respelled draft draft')
    (there : draft.graph.HasProvider (.internal owner)) (known : draft.graph.HasProvider source) :
    Respelled (draft.exportAll owner source) (draft'.exportAll owner source)

variable {draft draft' : Draft} {owner : ModuleId} {source : Provider}

/-! ## Symbols with the same outline -/

theorem modules_of_outline {symbols other : Symbols} (same : other.outline = symbols.outline) :
    other.modules.size = symbols.modules.size := by
  have sizes := congrArg (·.modules.size) same
  simpa [Symbols.outline] using sizes

theorem declarations_of_outline {symbols other : Symbols} (same : other.outline = symbols.outline) :
    other.declarations.size = symbols.declarations.size := by
  have sizes := congrArg (·.declarations.size) same
  simpa [Symbols.outline] using sizes

namespace Alongside

variable (alongside : Alongside draft draft')

include alongside

theorem hasProvider : draft'.graph.HasProvider source ↔ draft.graph.HasProvider source := by
  cases source with
  | internal id =>
      exact Eq.to_iff (congrArg (id.index < ·) (modules_of_outline alongside.outline))
  | external id =>
      exact Eq.to_iff (congrArg (id.index < ·.externals.size) alongside.outline)

theorem specifier : draft'.symbols.specifier source = draft.symbols.specifier source := by
  rw [← Symbols.specifier_outline, alongside.outline, Symbols.specifier_outline]

/-- Changes of the symbols that leave statements and declarations alone. -/
theorem withSymbols {symbols symbols' : Symbols} (outline : symbols'.outline = symbols.outline)
    (body : ∀ id, (symbols.moduleAt id).body = (draft.symbols.moduleAt id).body)
    (body' : ∀ id, (symbols'.moduleAt id).body = (draft'.symbols.moduleAt id).body)
    (declarations : symbols.declarations = draft.symbols.declarations)
    (declarations' : symbols'.declarations = draft'.symbols.declarations) :
    Alongside { draft with symbols } { draft' with symbols := symbols' } := by
  obtain ⟨pairs, counterparts⟩ := alongside.counterparts
  exact ⟨outline, alongside.scopes, alongside.localExports, pairs,
    counterparts.frame rfl rfl body body' declarations declarations'⟩

theorem addModule (id : String) : Alongside (draft.addModule id).2 (draft'.addModule id).2 := by
  obtain ⟨pairs, counterparts⟩ := alongside.counterparts
  have modules := modules_of_outline alongside.outline
  have outline : ∀ draft : Draft, (draft.addModule id).2.symbols.outline =
      (draft.symbols.outline.addModule id).2 := fun draft =>
    (congrArg Prod.snd (draft.symbols.addModule_outline id)).symm
  -- A module has no statements when it is made.
  have body : ∀ (draft : Draft) (other : ModuleId), ((draft.addModule id).2.symbols.moduleAt other).body =
      (draft.symbols.moduleAt other).body := by
    intro draft other
    rw [Draft.addModule, Symbols.moduleAt_addModule]
    split
    next new => rw [Symbols.moduleAt_of_le (new ▸ Nat.le_refl _)]; rfl
    next => rfl
  refine ⟨?_, ?_, alongside.localExports, pairs, ?_⟩
  · rw [outline, outline, alongside.outline]
  · simp only [Draft.addModule, alongside.scopes, Symbols.addModule, modules]
  · have added : Graph.Counterparts pairs
        (draft.graph.addDeclaration (Identifier.ofModuleId id)
          (some (.internal ⟨draft.symbols.modules.size⟩)) (.namespaceOf ⟨draft.symbols.modules.size⟩))
        (draft'.graph.addDeclaration (Identifier.ofModuleId id)
          (some (.internal ⟨draft.symbols.modules.size⟩)) (.namespaceOf ⟨draft.symbols.modules.size⟩)) :=
      counterparts.addDeclaration (declarations_of_outline alongside.outline) (by simp)
    refine added.frame rfl rfl (body draft) (body draft') rfl ?_
    rw [← modules]
    rfl

theorem addExternal (id : String) : Alongside (draft.addExternal id).2 (draft'.addExternal id).2 := by
  have outline : ∀ draft : Draft, (draft.addExternal id).2.symbols.outline =
      (draft.symbols.outline.addExternal id).2 := fun _ => rfl
  refine alongside.withSymbols ?_ (fun _ => rfl) (fun _ => rfl) rfl rfl
  exact ((outline draft').trans (by rw [alongside.outline])).trans (outline draft).symm

/-- Statements that respell each other are added on both sides. -/
theorem addStatement {statement statement' : Statement Unit}
    (respells : statement.Respells (fun _ _ => True) (fun _ => True) statement') (owner : ModuleId) :
    Alongside (draft.addStatement owner statement).2 (draft'.addStatement owner statement').2 := by
  obtain ⟨pairs, counterparts⟩ := alongside.counterparts
  obtain ⟨more, counterparts, -⟩ := counterparts_addStatement counterparts
    (modules_of_outline alongside.outline) owner respells
  have outline : ∀ (draft : Draft) (statement : Statement Unit),
      (draft.addStatement owner statement).2.symbols.outline = draft.symbols.outline := by
    intro draft statement
    rw [addStatement_snd]
    refine Symbols.outline_modifyModule owner ?_
    exact fun _ => rfl
  refine ⟨?_, alongside.scopes, alongside.localExports, more, counterparts⟩
  rw [outline, outline, alongside.outline]

/-- Statements that respell each other are added on both sides, and a declaration that is made from them. -/
theorem addDeclaring (owner : ModuleId) {statement statement' : Statement Unit}
    (respells : statement.Respells (fun _ _ => True) (fun _ => True) statement') (name : String)
    {kind : NodeId → DeclarationKind} (kinds : ∀ i j, (kind i).outline = (kind j).outline)
    (declares : ∀ i j, kind i = .declared j → j = i) :
    (draft'.addDeclaring owner statement' name kind).1 = (draft.addDeclaring owner statement name kind).1 ∧
      Alongside (draft.addDeclaring owner statement name kind).2
        (draft'.addDeclaring owner statement' name kind).2 := by
  have stated := alongside.addStatement respells owner
  obtain ⟨pairs, counterparts⟩ := alongside.counterparts
  obtain ⟨more, counterparts, paired⟩ := counterparts_addStatement counterparts
    (modules_of_outline alongside.outline) owner respells
  have outline : ∀ (draft : Draft) (statement : Statement Unit),
      (draft.addDeclaring owner statement name kind).2.symbols.outline =
        ((draft.addStatement owner statement).2.symbols.outline.addDeclaration name (some (.internal owner))
          (kind default).outline).2 := by
    intro draft statement
    rw [kinds default (draft.addStatement owner statement).1.id]
    exact (congrArg Prod.snd (Symbols.addDeclaration_outline _ _ _)).symm
  have declarations := declarations_of_outline stated.outline
  refine ⟨?_, ?_, stated.scopes, stated.localExports, more, ?_⟩
  · exact congrArg DeclId.mk declarations
  · rw [outline, outline, stated.outline]
  · rw [graph_addDeclaring, graph_addDeclaring]
    refine counterparts.addDeclaration declarations fun here there => ?_
    rw [declares _ _ here, declares _ _ there]
    exact paired

theorem moduleId (id : ModuleId) : (draft'.symbols.moduleAt id).id = (draft.symbols.moduleAt id).id := by
  have names : ∀ symbols : Symbols, (symbols.moduleAt id).id = (symbols.outline.moduleAt id).id := by
    intro symbols
    rw [Symbols.moduleAt_outline]
    rfl
  rw [names draft'.symbols, alongside.outline, ← names]

/-- Adding an export is refused on both sides, or on none. -/
theorem resultsOfAddExport (owner : ModuleId) (name : String) (entry : Export) :
    Step.Results
      (fun symbols symbols' => Alongside { draft with symbols } { draft' with symbols := symbols' })
      (draft.symbols.addExport owner name entry) (draft'.symbols.addExport owner name entry) := by
  have outlines : (draft'.symbols.addExport owner name entry).map Symbols.outline =
      (draft.symbols.addExport owner name entry).map Symbols.outline := by
    rw [← Symbols.addExport_outline, ← Symbols.addExport_outline, alongside.outline]
  have body : ∀ {symbols after : Symbols} (id : ModuleId), symbols.addExport owner name entry = .ok after →
      (after.moduleAt id).body = (symbols.moduleAt id).body := by
    intro symbols after id added
    rw [symbols_of_addExport added, Symbols.moduleAt_modifyModule]
    split <;> rfl
  cases here : draft.symbols.addExport owner name entry with
  | error fault =>
      cases there : draft'.symbols.addExport owner name entry with
      | error fault' =>
          rw [here, there] at outlines
          cases outlines
          exact .error
      | ok symbols' =>
          rw [here, there] at outlines
          cases outlines
  | ok symbols =>
      cases there : draft'.symbols.addExport owner name entry with
      | error fault' =>
          rw [here, there] at outlines
          cases outlines
      | ok symbols' =>
          rw [here, there] at outlines
          refine .ok (alongside.withSymbols (Except.ok.inj outlines) (body · here) (body · there) ?_ ?_)
          · rw [symbols_of_addExport here]
            rfl
          · rw [symbols_of_addExport there]
            rfl

end Alongside

/-! ## The ways to build a draft -/

theorem lockstep_bind (owner : ModuleId) (name : String) (id : DeclId) :
    Lockstep Alongside Eq (bind owner name id) (bind owner name id) := by
  intro draft draft' alongside
  have same : draft'.scopes.declare draft'.symbols owner.scope name id =
      draft.scopes.declare draft.symbols owner.scope name id := by
    rw [Scopes.declare, Scopes.declare, alongside.scopes, alongside.moduleId]
  rw [bind_outcome, bind_outcome, same]
  obtain ⟨pairs, counterparts⟩ := alongside.counterparts
  cases draft.scopes.declare draft.symbols owner.scope name id with
  | error fault => exact ⟨.error, alongside⟩
  | ok scopes =>
      exact ⟨.ok rfl, alongside.outline, rfl, alongside.localExports, pairs,
        counterparts.frame rfl rfl (fun _ => rfl) (fun _ => rfl) rfl rfl⟩

theorem lockstep_addExport (owner : ModuleId) (name : String) (entry : Export) :
    Lockstep Alongside Eq (addExport owner name entry) (addExport owner name entry) := by
  intro draft draft' alongside
  have results := alongside.resultsOfAddExport owner name entry
  rw [addExport_outcome, addExport_outcome]
  generalize draft.symbols.addExport owner name entry = result,
    draft'.symbols.addExport owner name entry = result' at results
  cases results with
  | ok after => exact ⟨.ok rfl, after⟩
  | error => exact ⟨.error, alongside⟩

/-- What declares something declares the same on both sides, if the same is done with it afterwards. -/
theorem lockstep_addDeclaring (owner : ModuleId) {statement statement' : Draft → Statement Unit}
    (name : String) {kind : NodeId → DeclarationKind} {next : DeclId → Step Draft DeclId}
    (respells : ∀ draft draft', Alongside draft draft' →
      (statement draft).Respells (fun _ _ => True) (fun _ => True) (statement' draft'))
    (kinds : ∀ i j, (kind i).outline = (kind j).outline) (declares : ∀ i j, kind i = .declared j → j = i)
    (later : ∀ id, Lockstep Alongside Eq (next id) (next id)) :
    Lockstep Alongside Eq
      (modifyGet (fun draft => draft.addDeclaring owner (statement draft) name kind) >>= fun id =>
        bind owner name id >>= fun _ => next id)
      (modifyGet (fun draft => draft.addDeclaring owner (statement' draft) name kind) >>= fun id =>
        bind owner name id >>= fun _ => next id) := by
  have adds : Lockstep Alongside Eq
      (modifyGet fun draft : Draft => draft.addDeclaring owner (statement draft) name kind)
      (modifyGet fun draft : Draft => draft.addDeclaring owner (statement' draft) name kind) := by
    refine .changeGet fun draft draft' alongside => ?_
    have added := alongside.addDeclaring owner (respells draft draft' alongside) name kinds declares
    exact ⟨added.1.symm, added.2⟩
  refine adds.bind fun id _ same => ?_
  subst same
  exact (lockstep_bind owner name id).bind fun _ _ _ => later id

theorem lockstep_declare (owner : ModuleId) (mode : Mode) (name : String) (exported : Bool)
    {init init' : Option (Expr Unit)} (bracketed : Option.Rel Expr.Bracketed init init') :
    Lockstep Alongside Eq (declare owner mode name init exported)
      (declare owner mode name init' exported) := by
  refine lockstep_addDeclaring owner name ?_ (fun _ _ => rfl)
    (fun _ _ same => (DeclarationKind.declared.inj same).symm) fun id => ?_
  · exact fun _ _ _ => .declare trivial trivial bracketed
  · cases exported with
    | true => exact (lockstep_addExport owner name (.own id)).bind fun _ _ _ => .pure rfl
    | false => exact .pure rfl

theorem lockstep_importFrom (owner : ModuleId) (source : Provider) (imported binding : String) :
    Lockstep Alongside Eq (importFrom owner source imported binding)
      (importFrom owner source imported binding) := by
  refine lockstep_addDeclaring owner binding ?_ (fun _ _ => rfl) (fun _ _ same => nomatch same) fun id => ?_
  · intro draft draft' alongside
    rw [alongside.specifier]
    exact .importFrom trivial
  · cases source with
    | internal => exact .pure rfl
    | external externalId =>
        dsimp only
        split
        · refine Lockstep.bind (.change fun draft draft' alongside => ?_) fun _ _ _ => .pure rfl
          have outline : ∀ symbols : Symbols, (symbols.proposeName externalId binding).outline =
              symbols.outline.proposeName externalId binding := fun _ => rfl
          refine alongside.withSymbols ?_ (fun _ => rfl) (fun _ => rfl) rfl rfl
          rw [outline, outline, alongside.outline]
        · exact .pure rfl

namespace Alongside

variable (alongside : Alongside draft draft')

include alongside

theorem exportLocal (owner : ModuleId) (binding exported : String) :
    Alongside (draft.exportLocal owner binding exported) (draft'.exportLocal owner binding exported) := by
  have same : (Statement.exportList () binding exported).Respells (fun _ _ => True) (fun _ => True)
      (.exportList () binding exported) := .exportList trivial
  have stated := alongside.addStatement same owner
  obtain ⟨pairs, counterparts⟩ := stated.counterparts
  refine ⟨stated.outline, stated.scopes, ?_, pairs,
    counterparts.frame rfl rfl (fun _ => rfl) (fun _ => rfl) rfl rfl⟩
  exact congrArg (·.push (owner, binding, exported)) alongside.localExports

theorem addExportFrom (owner : ModuleId) (source : Provider) (clause : Clause) :
    Alongside (draft.addExportFrom owner source clause) (draft'.addExportFrom owner source clause) := by
  refine alongside.addStatement ?_ owner
  rw [alongside.specifier]
  exact .exportFrom trivial

theorem exportAll (owner : ModuleId) (source : Provider) :
    Alongside (draft.exportAll owner source) (draft'.exportAll owner source) := by
  have stated := alongside.addExportFrom owner source .all
  refine stated.withSymbols ?_ ?_ ?_ rfl rfl
  · rw [← Symbols.addStarExport_outline, ← Symbols.addStarExport_outline, stated.outline]
  · intro id
    rw [Symbols.addStarExport, Symbols.moduleAt_modifyModule]
    split <;> rfl
  · intro id
    rw [Symbols.addStarExport, Symbols.moduleAt_modifyModule]
    split <;> rfl

end Alongside

/-- Drafts that respell each other are the same, but for how properties are spelled. -/
theorem Respelled.alongside (respelled : Respelled draft draft') : Alongside draft draft' := by
  induction respelled with
  | empty =>
      refine ⟨rfl, rfl, rfl, _, .nothing 0 0, ?_, ?_, fun id => .nil, ?_⟩
      · exact fun node member => absurd member (Array.not_mem_empty node)
      · exact fun node member => absurd member (Array.not_mem_empty node)
      · exact fun inside => absurd inside (Nat.not_lt_zero _)
  | addModule _ id ih => exact ih.addModule id
  | addExternal _ id ih => exact ih.addExternal id
  | addExpression _ _ bracketed ih => exact ih.addStatement (.expression trivial bracketed) _
  | declare _ _ mode name exported bracketed ih =>
      exact (lockstep_declare _ mode name exported bracketed _ _ ih).2
  | importFrom _ _ _ imported binding ih => exact (lockstep_importFrom _ _ imported binding _ _ ih).2
  | exportLocal _ _ binding exported ih => exact ih.exportLocal _ binding exported
  | exportFrom _ _ _ imported exported ih =>
      rw [exportFrom_outcome, exportFrom_outcome]
      exact (lockstep_addExport _ exported _ _ _ (ih.addExportFrom _ _ _)).2
  | exportWhole _ _ _ exported ih =>
      rw [exportWhole_outcome, exportWhole_outcome]
      exact (lockstep_addExport _ exported _ _ _ (ih.addExportFrom _ _ _)).2
  | exportAll _ _ _ ih => exact ih.exportAll _ _

theorem Respelled.has (respelled : Respelled draft draft') (known : draft.graph.HasProvider source) :
    draft'.graph.HasProvider source :=
  respelled.alongside.hasProvider.mpr known

/-- Both drafts can be made. -/
theorem Respelled.built (respelled : Respelled draft draft') : draft.Built ∧ draft'.Built := by
  induction respelled with
  | empty => exact ⟨.empty, .empty⟩
  | addModule _ id ih => exact ⟨ih.1.addModule id, ih.2.addModule id⟩
  | addExternal _ id ih => exact ⟨ih.1.addExternal id, ih.2.addExternal id⟩
  | addExpression before there _ ih =>
      exact ⟨ih.1.addExpression there _, ih.2.addExpression (before.has there) _⟩
  | declare before there mode name exported _ ih =>
      exact ⟨ih.1.declare there mode name _ exported,
        ih.2.declare (before.has there) mode name _ exported⟩
  | importFrom before there known imported binding ih =>
      exact ⟨ih.1.importFrom there known imported binding,
        ih.2.importFrom (before.has there) (before.has known) imported binding⟩
  | exportLocal before there binding exported ih =>
      exact ⟨ih.1.exportLocal there binding exported,
        ih.2.exportLocal (before.has there) binding exported⟩
  | exportFrom before there known imported exported ih =>
      exact ⟨ih.1.exportFrom there known imported exported,
        ih.2.exportFrom (before.has there) (before.has known) imported exported⟩
  | exportWhole before there known exported ih =>
      exact ⟨ih.1.exportWhole there known exported,
        ih.2.exportWhole (before.has there) (before.has known) exported⟩
  | exportAll before there known ih =>
      exact ⟨ih.1.exportAll there known, ih.2.exportAll (before.has there) (before.has known)⟩

end Draft

end Bundler
