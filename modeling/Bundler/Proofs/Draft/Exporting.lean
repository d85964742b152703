import Bundler.Proofs.Draft.Layout
import Bundler.Proofs.Symbols.Tables

/-! # Exports as they are written

If no statement of a draft is refused, every statement that exports something under a name has its entry
in the export table of its module, which says what is exported: a declaration of the module, or what
another module exports.
-/

namespace Bundler

/-! ## What statements export -/

namespace Statement

variable {α : Type}

/-- The name under which the statement exports something, if it gives one. -/
def exportedName? : Statement α → Option String
  | .declare _ true _ _ name _ => some name
  | .exportList _ _ exported => some exported
  | .exportFrom _ _ _ (.single _ exported) | .exportFrom _ _ _ (.whole exported) => some exported
  | _ => none

/-- What the statement exports again, if it names it: the module that it comes from, and its name
    there. -/
def again? : Statement α → Option (Provider × String)
  | .exportFrom _ source _ (.single imported _) => some (source, imported)
  | .exportFrom _ source _ (.whole _) => some (source, wholeModule)
  | _ => none

theorem exportedName?_place (statement : Statement α) (start next : Nat) :
    (statement.place start next).exportedName? = statement.exportedName? := by
  cases statement with
  | expression | importFrom | exportList => rfl
  | declare tag exported => cases exported <;> rfl
  | exportFrom tag source specifier clause => cases clause <;> rfl

theorem again?_place (statement : Statement α) (start next : Nat) :
    (statement.place start next).again? = statement.again? := by
  cases statement with
  | expression | declare | importFrom | exportList => rfl
  | exportFrom tag source specifier clause => cases clause <;> rfl

end Statement

/-- What an export passes on, and from where. -/
def Export.again? : Export → Option (Provider × String)
  | .own _ => none
  | .again source imported => some (source, imported)

/-! ## Export tables -/

namespace Symbols

variable {symbols before middle after : Symbols} {owner : ModuleId}

/-- No export of a module is lost or changed. -/
def RetainsExports (before after : Symbols) : Prop :=
  ∀ (id : ModuleId) (name : String) (entry : Export),
    (before.moduleAt id).exports[name]? = some entry → (after.moduleAt id).exports[name]? = some entry

theorem RetainsExports.of_exports
    (same : ∀ id, (after.moduleAt id).exports = (before.moduleAt id).exports) :
    RetainsExports before after :=
  fun id _ _ found => by rwa [same]

theorem RetainsExports.trans (first : RetainsExports before middle)
    (second : RetainsExports middle after) : RetainsExports before after :=
  fun id name entry found => second id name entry (first id name entry found)

/-- Where an export is not refused, all that were listed before still are. -/
theorem retainsExports_addExport {name : String} {entry : Export}
    (added : symbols.addExport owner name entry = .ok after) : RetainsExports symbols after := by
  rw [addExport] at added
  split at added
  next => cases added
  next absent =>
      cases added
      intro id key other found
      rw [moduleAt_modifyModule]
      split
      next same =>
          obtain ⟨rfl, -⟩ := same
          exact getElem?_insert_of_absent (Std.TreeMap.getElem?_eq_none absent) found
      next => exact found

/-- An export that is not refused is listed. -/
theorem exports_addExport (there : owner.index < symbols.modules.size) {name : String} {entry : Export}
    (added : symbols.addExport owner name entry = .ok after) :
    (after.moduleAt owner).exports[name]? = some entry := by
  rw [Draft.symbols_of_addExport added, moduleAt_modifyModule, if_pos ⟨rfl, there⟩]
  exact Std.TreeMap.getElem?_insert_self

theorem exports_addStarExport {source : Provider} (id : ModuleId) :
    ((symbols.addStarExport owner source).moduleAt id).exports = (symbols.moduleAt id).exports := by
  rw [addStarExport, moduleAt_modifyModule]
  split <;> rfl

end Symbols

/-- Every statement that exports something under a name has its entry in the table of its module. -/
def Graph.Tabled (graph : Graph) : Prop :=
  ∀ id, ∀ statement ∈ graph.statements id, ∀ name, statement.exportedName? = some name →
    ∃ entry, (graph.symbols.moduleAt id).exports[name]? = some entry ∧ entry.again? = statement.again?

namespace Draft

/-! ## Accepted drafts -/

/-- The drafts that are built without a statement being refused. -/
inductive Accepted : Draft → Prop where
  | empty : Accepted {}
  | addModule {draft} (accepted : Accepted draft) (id : String) : Accepted (draft.addModule id).2
  | addExternal {draft} (accepted : Accepted draft) (id : String) : Accepted (draft.addExternal id).2
  | addExpression {draft owner} (accepted : Accepted draft)
    (there : draft.graph.HasProvider (.internal owner)) (body : Expr Unit) :
    Accepted (draft.addExpression owner body).2
  | declare {draft after owner id} (accepted : Accepted draft)
    (there : draft.graph.HasProvider (.internal owner)) (mode : Mode) (name : String)
    (init : Option (Expr Unit)) (exported : Bool)
    (succeeded : (declare owner mode name init exported).outcome draft = (.ok id, after)) :
    Accepted after
  | importFrom {draft after owner source id} (accepted : Accepted draft)
    (there : draft.graph.HasProvider (.internal owner)) (known : draft.graph.HasProvider source)
    (imported binding : String)
    (succeeded : (importFrom owner source imported binding).outcome draft = (.ok id, after)) :
    Accepted after
  | exportLocal {draft owner} (accepted : Accepted draft)
    (there : draft.graph.HasProvider (.internal owner)) (binding exported : String) :
    Accepted (draft.exportLocal owner binding exported)
  | exportFrom {draft after owner source} (accepted : Accepted draft)
    (there : draft.graph.HasProvider (.internal owner)) (known : draft.graph.HasProvider source)
    (imported exported : String)
    (succeeded : (exportFrom owner source imported exported).outcome draft = (.ok (), after)) :
    Accepted after
  | exportWhole {draft after owner source} (accepted : Accepted draft)
    (there : draft.graph.HasProvider (.internal owner)) (known : draft.graph.HasProvider source)
    (exported : String)
    (succeeded : (exportWhole owner source exported).outcome draft = (.ok (), after)) : Accepted after
  | exportAll {draft owner source} (accepted : Accepted draft)
    (there : draft.graph.HasProvider (.internal owner)) (known : draft.graph.HasProvider source) :
    Accepted (draft.exportAll owner source)

variable {draft after : Draft} {owner : ModuleId}

theorem Accepted.built (accepted : draft.Accepted) : draft.Built := by
  induction accepted with
  | empty => exact .empty
  | addModule _ id built => exact built.addModule id
  | addExternal _ id built => exact built.addExternal id
  | addExpression _ there body built => exact built.addExpression there body
  | declare _ there mode name init exported succeeded built =>
      have step := built.declare there mode name init exported
      rwa [succeeded] at step
  | importFrom _ there known imported binding succeeded built =>
      have step := built.importFrom there known imported binding
      rwa [succeeded] at step
  | exportLocal _ there binding exported built => exact built.exportLocal there binding exported
  | exportFrom _ there known imported exported succeeded built =>
      have step := built.exportFrom there known imported exported
      rwa [succeeded] at step
  | exportWhole _ there known exported succeeded built =>
      have step := built.exportWhole there known exported
      rwa [succeeded] at step
  | exportAll _ there known built => exact built.exportAll there known

/-! ## Records -/

/-- The export of the module is in its table, or one of a local name that is made in the end. -/
def Records (draft : Draft) (id : ModuleId) (name : String) (again : Option (Provider × String)) : Prop :=
  (∃ entry, (draft.symbols.moduleAt id).exports[name]? = some entry ∧ entry.again? = again) ∨
    again = none ∧ ∃ binding, (id, binding, name) ∈ draft.localExports

/-- Every statement that exports something under a name has been recorded. -/
def Recorded (draft : Draft) : Prop :=
  ∀ id, ∀ statement ∈ draft.graph.statements id, ∀ name, statement.exportedName? = some name →
    draft.Records id name statement.again?

/-- No export is forgotten. -/
structure RetainsRecords (before after : Draft) : Prop where
  exports : before.symbols.RetainsExports after.symbols
  locals : ∀ item ∈ before.localExports, item ∈ after.localExports

theorem RetainsRecords.trans {last : Draft} (first : RetainsRecords draft after)
    (second : RetainsRecords after last) : RetainsRecords draft last :=
  ⟨first.exports.trans second.exports, fun item member => second.locals item (first.locals item member)⟩

theorem Records.retain {id : ModuleId} {name : String} {again : Option (Provider × String)}
    (records : draft.Records id name again) (retains : RetainsRecords draft after) :
    after.Records id name again := by
  rcases records with ⟨entry, found, same⟩ | ⟨none, binding, member⟩
  · exact .inl ⟨entry, retains.exports _ _ _ found, same⟩
  · exact .inr ⟨none, binding, retains.locals _ member⟩

/-! ## Steps -/

theorem retainsRecords_addStatement (draft : Draft) (owner : ModuleId) (statement : Statement Unit) :
    RetainsRecords draft (draft.addStatement owner statement).2 where
  exports := .of_exports fun id => by
    rw [moduleAt_addStatement]
    split <;> rfl
  locals _ := id

/-- A step that adds a statement keeps everything recorded, if the new statement is. -/
theorem Recorded.addStatement (recorded : draft.Recorded) (built : draft.Built)
    (there : draft.graph.HasProvider (.internal owner)) {statement : Statement Unit}
    (same : SameText (draft.addStatement owner statement).2 after) (retains : RetainsRecords draft after)
    (new : ∀ name, statement.exportedName? = some name → after.Records owner name statement.again?) :
    after.Recorded := by
  intro id other member name named
  have statements : after.graph.statements id = (draft.addStatement owner statement).2.graph.statements id :=
    statements_congr same.nodes (same.body id)
  rw [statements, statements_addStatement there statement (built.laidOut id).1] at member
  have old : other ∈ draft.graph.statements id → after.Records id name other.again? := fun before =>
    (recorded id other before name named).retain retains
  split at member
  next here =>
      rcases List.mem_append.mp member with before | last
      · exact old before
      · obtain rfl := List.mem_singleton.mp last
        rw [addStatement_fst, Statement.exportedName?_place] at named
        rw [addStatement_fst, Statement.again?_place, here]
        exact new name named
  next => exact old member

/-- An export that is not refused is recorded. -/
theorem records_addExport (there : draft.graph.HasProvider (.internal owner)) {name : String}
    {entry : Export} (added : (addExport owner name entry).outcome draft = (.ok (), after)) :
    after.Records owner name entry.again? ∧ RetainsRecords draft after := by
  rw [addExport_outcome] at added
  split at added
  next symbols added' =>
      cases added
      exact ⟨.inl ⟨entry, Symbols.exports_addExport there added', rfl⟩,
        Symbols.retainsExports_addExport added', fun _ => id⟩
  next => cases added

theorem recorded_addModule (recorded : draft.Recorded) (name : String) :
    (draft.addModule name).2.Recorded := by
  intro id statement member exported named
  have entry : (draft.addModule name).2.symbols.moduleAt id = _ := Symbols.moduleAt_addModule name id
  by_cases new : id = ⟨draft.symbols.modules.size⟩
  · rw [if_pos new] at entry
    rw [Graph.statements, symbols_graph, entry] at member
    cases member
  · rw [if_neg new] at entry
    have statements : (draft.addModule name).2.graph.statements id = draft.graph.statements id :=
      statements_congr rfl (congrArg Module.body entry)
    rw [statements] at member
    rw [Records, entry]
    exact recorded id statement member exported named

theorem retainsRecords_bind {name : String} {id : DeclId}
    (bound : (bind owner name id).outcome draft = (.ok (), after)) :
    RetainsRecords draft after ∧ after.symbols.modules = draft.symbols.modules := by
  rw [bind_outcome] at bound
  split at bound
  next =>
      cases bound
      exact ⟨⟨fun _ _ _ found => found, fun _ member => member⟩, rfl⟩
  next => cases bound

theorem recorded_declare (recorded : draft.Recorded) (built : draft.Built)
    (there : draft.graph.HasProvider (.internal owner)) {mode : Mode} {name : String}
    {init : Option (Expr Unit)} {exported : Bool} {id : DeclId}
    (succeeded : (declare owner mode name init exported).outcome draft = (.ok id, after)) :
    after.Recorded := by
  have same := sameText_declare draft owner mode name init exported
  rw [succeeded] at same
  have stated := retainsRecords_addStatement draft owner
    (.declare () exported mode () name init)
  rw [declare] at succeeded
  obtain ⟨declared, first, adding, rest⟩ := Step.ok_of_bind succeeded
  rw [Step.outcome_modifyGet] at adding
  cases adding
  obtain ⟨_, second, binding, rest⟩ := Step.ok_of_bind rest
  obtain ⟨bound, modules⟩ := retainsRecords_bind binding
  have retains := stated.trans ⟨bound.exports, bound.locals⟩
  cases exported with
  | false =>
      cases rest
      exact recorded.addStatement built there same retains (by simp [Statement.exportedName?])
  | true =>
      obtain ⟨_, third, exporting, rest⟩ := Step.ok_of_bind rest
      cases rest
      have still : owner.index < second.symbols.modules.size := by
        rw [modules]
        exact extends_addStatement.hasProvider there
      obtain ⟨records, last⟩ := records_addExport still exporting
      refine recorded.addStatement built there same (retains.trans last) fun other named => ?_
      cases named
      exact records

theorem recorded_importFrom (recorded : draft.Recorded) (built : draft.Built)
    (there : draft.graph.HasProvider (.internal owner)) {source : Provider} {imported binding : String}
    {id : DeclId} (succeeded : (importFrom owner source imported binding).outcome draft = (.ok id, after)) :
    after.Recorded := by
  have same := sameText_importFrom draft owner source imported binding
  rw [succeeded] at same
  refine recorded.addStatement built there same ?_ (by simp [Statement.exportedName?])
  have stated := retainsRecords_addStatement draft owner
    (.importFrom () source (draft.symbols.specifier source) imported binding)
  rw [importFrom] at succeeded
  obtain ⟨declared, first, adding, rest⟩ := Step.ok_of_bind succeeded
  rw [Step.outcome_modifyGet] at adding
  cases adding
  obtain ⟨_, second, binding, rest⟩ := Step.ok_of_bind rest
  obtain ⟨bound, -⟩ := retainsRecords_bind binding
  have retains := stated.trans ⟨bound.exports, bound.locals⟩
  split at rest
  · split at rest
    · cases rest
      exact ⟨retains.exports, retains.locals⟩
    · cases rest
      exact retains
  · cases rest
    exact retains

/-- An export of what another module exports is recorded if it is not refused. -/
theorem recorded_exportAgain (recorded : draft.Recorded) (built : draft.Built)
    (there : draft.graph.HasProvider (.internal owner)) {source : Provider} {clause : Clause}
    {imported exported : String}
    (names : (Statement.exportFrom () source (draft.symbols.specifier source) clause).exportedName? =
      some exported)
    (again : (Statement.exportFrom () source (draft.symbols.specifier source) clause).again? =
      some (source, imported))
    (succeeded : (addExport owner exported (.again source imported)).outcome
      (draft.addExportFrom owner source clause) = (.ok (), after)) : after.Recorded := by
  have same := sameText_addExport (draft.addExportFrom owner source clause) owner exported
    (.again source imported)
  rw [succeeded] at same
  obtain ⟨records, last⟩ := records_addExport (extends_addStatement.hasProvider there) succeeded
  refine recorded.addStatement built there same ((retainsRecords_addStatement _ _ _).trans last)
    fun other named => ?_
  cases names.symm.trans named
  rw [again]
  exact records

/-- When no statement of a draft has been refused, every export is recorded. -/
theorem Accepted.recorded (accepted : draft.Accepted) : draft.Recorded := by
  induction accepted with
  | empty => exact fun _ _ member => nomatch member
  | addModule _ id recorded => exact recorded_addModule recorded id
  | addExternal _ id recorded => exact recorded
  | addExpression accepted there body recorded =>
      exact recorded.addStatement accepted.built there (SameText.refl _)
        (retainsRecords_addStatement _ _ _) (by simp [Statement.exportedName?])
  | declare accepted there mode name init exported succeeded recorded =>
      exact recorded_declare recorded accepted.built there succeeded
  | importFrom accepted there known imported binding succeeded recorded =>
      exact recorded_importFrom recorded accepted.built there succeeded
  | @exportLocal draft owner accepted there binding exported recorded =>
      have stated := retainsRecords_addStatement draft owner (.exportList () binding exported)
      have same : SameText (draft.addStatement owner (Statement.exportList () binding exported)).2
          (draft.exportLocal owner binding exported) :=
        ⟨rfl, rfl, fun _ => rfl, fun _ => rfl, fun _ => rfl, fun _ => rfl⟩
      refine recorded.addStatement accepted.built there same
        (stated.trans ⟨fun _ _ _ found => found, fun item member => ?_⟩) fun name named => ?_
      · exact Array.mem_push_of_mem _ member
      · cases named
        exact .inr ⟨rfl, binding, Array.mem_push_self⟩
  | exportFrom accepted there known imported exported succeeded recorded =>
      rw [exportFrom_outcome] at succeeded
      exact recorded_exportAgain recorded accepted.built there rfl rfl succeeded
  | exportWhole accepted there known exported succeeded recorded =>
      rw [exportWhole_outcome] at succeeded
      exact recorded_exportAgain recorded accepted.built there rfl rfl succeeded
  | @exportAll draft owner source accepted there known recorded =>
      have stated := retainsRecords_addStatement draft owner
        (.exportFrom () source (draft.symbols.specifier source) .all)
      refine recorded.addStatement accepted.built there (sameText_modifyModule _ _ fun _ => ⟨rfl, rfl⟩)
        (stated.trans ⟨.of_exports fun id => Symbols.exports_addStarExport id, fun _ member => member⟩)
        (by simp [Statement.exportedName?])

/-! ## Finished drafts -/

variable {scopes : Scopes} {symbols last : Symbols}

theorem exports_finishExports {items : List (ModuleId × String × String)}
    (finished : items.foldlM (finishExport scopes) symbols = .ok last) :
    symbols.RetainsExports last ∧
      ∀ item ∈ items, item.1.index < symbols.modules.size →
        ∃ id, (last.moduleAt item.1).exports[item.2.2]? = some (.own id) := by
  induction items generalizing symbols with
  | nil =>
      cases finished
      exact ⟨fun _ _ _ found => found, fun _ member => nomatch member⟩
  | cons item rest ih =>
      rw [List.foldlM_cons] at finished
      cases first : finishExport scopes symbols item with
      | error fault =>
          rw [first] at finished
          cases finished
      | ok middle =>
          rw [first] at finished
          obtain ⟨id, -, added⟩ := finishExport_eq first
          obtain ⟨retains, found⟩ := ih finished
          have modules : middle.modules.size = symbols.modules.size := by
            rw [symbols_of_addExport added]
            exact Array.size_modify
          refine ⟨(Symbols.retainsExports_addExport added).trans retains, fun other member there => ?_⟩
          rcases List.mem_cons.mp member with rfl | among
          · exact ⟨id, retains _ _ _ (Symbols.exports_addExport there added)⟩
          · exact found other among (modules.symm ▸ there)

end Draft

namespace Graph

/-- The graphs of finished drafts of which no statement has been refused. -/
inductive Accepted : Graph → Prop where
  | finish {draft : Draft} {entry : ModuleId} {graph : Graph} (accepted : draft.Accepted)
    (there : draft.graph.HasProvider (.internal entry)) (finished : draft.finish entry = .ok graph) :
    Accepted graph

variable {graph : Graph}

theorem lt_of_mem_statements {id : ModuleId} {statement : Statement Label}
    (member : statement ∈ graph.statements id) : id.index < graph.symbols.modules.size := by
  obtain ⟨node, among, -⟩ := mem_statements.mp member
  exact Symbols.lt_of_mem_body among

namespace Accepted

theorem made (accepted : graph.Accepted) : graph.Made := by
  obtain ⟨accepted, there, finished⟩ := accepted
  exact .finish accepted.built there finished

/-- Every statement that exports something under a name has its entry in the table of its module. -/
theorem tabled (accepted : graph.Accepted) : graph.Tabled := by
  obtain @⟨draft, entry, _, accepted, there, finished⟩ := accepted
  obtain ⟨symbols, exports, rfl⟩ := Draft.finish_eq finished
  have same := (Draft.sound_finishExports accepted.built.sound exports).2
  obtain ⟨retains, found⟩ := Draft.exports_finishExports exports
  intro id statement member name named
  have inside : id.index < draft.symbols.modules.size :=
    Nat.lt_of_lt_of_eq (lt_of_mem_statements member) same.modules
  have statements : Graph.statements { ({ draft with symbols } : Draft).graph with entry } id =
      draft.graph.statements id := Draft.statements_congr same.nodes (same.body id)
  rw [statements] at member
  rcases accepted.recorded id statement member name named with ⟨entry, listed, again⟩ | ⟨own, binding, item⟩
  · exact ⟨entry, retains _ _ _ listed, again⟩
  · obtain ⟨declaration, listed⟩ := found _ (Array.mem_toList_iff.mpr item) inside
    exact ⟨.own declaration, listed, own.symm⟩

end Accepted

end Graph

end Bundler
