import Bundler.Proofs.Draft.Exporting

/-! # Properties of growing programs

Building a program changes its symbols in a few ways only, and whatever a statement adds to them is named in
the statement.  A property that all these changes keep, given that the statement is of some kind, holds of
every program all statements of which are of that kind.  A statement that is refused still leaves its nodes,
so it has to be of that kind as well.
-/

namespace Bundler

namespace Draft

open Step (Preserves)

variable {fits : Statement Label → Prop} {P : Symbols → Prop} {draft : Draft} {owner : ModuleId}

/-- The property of symbols lasts while a program grows by statements of a kind. -/
structure Growing (fits : Statement Label → Prop) (P : Symbols → Prop) : Prop where
  empty : P {}
  addModule : ∀ {symbols : Symbols} id, P symbols → P (symbols.addModule id).2
  addExternal : ∀ {symbols : Symbols} id, P symbols → P (symbols.addExternal id).2
  lengthen : ∀ {symbols : Symbols} owner (statement : Statement Unit) id, P symbols →
    P (symbols.modifyModule owner (Draft.lengthen statement id))
  declare : ∀ {symbols : Symbols} {tag exported mode nameTag name init},
    fits (.declare tag exported mode nameTag name init) → ∀ owner node, P symbols →
    P (symbols.addDeclaration name owner (.declared node)).2
  importFrom : ∀ {symbols : Symbols} {tag source specifier imported binding},
    fits (.importFrom tag source specifier imported binding) → ∀ owner, P symbols →
    P (symbols.addDeclaration binding owner (.imported source imported none)).2
  propose : ∀ {symbols : Symbols} {tag id specifier imported binding},
    fits (.importFrom tag (.external id) specifier imported binding) → P symbols →
    P (symbols.proposeName id binding)
  exports : ∀ {symbols : Symbols} {statement : Statement Label} {name : String} {entry : Export},
    fits statement → statement.exportedName? = some name → entry.again? = statement.again? → ∀ owner,
    P symbols → P (symbols.modifyModule owner fun m => { m with exports := m.exports.insert name entry })
  star : ∀ {symbols : Symbols} owner source, P symbols → P (symbols.addStarExport owner source)

/-- All statements among the nodes are of the kind. -/
def Fit (fits : Statement Label → Prop) (nodes : Array Node) : Prop :=
  ∀ ⦃i : Nat⦄ ⦃owner : ModuleId⦄ ⦃statement : Statement Label⦄,
    nodes[i]? = some ⟨owner, .statement statement⟩ → fits statement

/-- What adds a statement and leaves the text alone otherwise takes over all statements, and has one more. -/
theorem Fit.stated {after : Draft} {statement : Statement Unit} (fit : Fit fits after.nodes)
    (same : SameText (draft.addStatement owner statement).2 after) :
    Fit fits draft.nodes ∧ fits (draft.addStatement owner statement).1 := by
  rw [same.nodes] at fit
  exact ⟨fun _ _ _ found => fit (getElem?_append_of_some found), fit node_addStatement⟩

/-- The property holds of the symbols, and exports that are still to be made come from statements of the
    kind. -/
structure Grown (fits : Statement Label → Prop) (P : Symbols → Prop) (draft : Draft) : Prop where
  symbols : P draft.symbols
  locals : ∀ item ∈ draft.localExports, ∃ statement, fits statement ∧
    statement.exportedName? = some item.2.2 ∧ statement.again? = none

theorem Grown.of_symbols {after : Draft} (grown : Grown fits P draft) (holds : P after.symbols)
    (locals : after.localExports = draft.localExports) : Grown fits P after :=
  ⟨holds, locals ▸ grown.locals⟩

namespace Growing

variable (growing : Growing fits P)

theorem preserves_bind (name : String) (id : DeclId) : Preserves (Grown fits P) (bind owner name id) := by
  intro draft grown
  rw [bind_outcome]
  split
  · exact grown.of_symbols grown.symbols rfl
  · exact grown

include growing

theorem preserves_addExport {statement : Statement Label} (fit : fits statement) {name : String}
    (named : statement.exportedName? = some name) {entry : Export}
    (again : entry.again? = statement.again?) :
    Preserves (Grown fits P) (addExport owner name entry) := by
  intro draft grown
  rw [addExport_outcome]
  split
  next symbols added =>
      rw [symbols_of_addExport added]
      exact grown.of_symbols (growing.exports fit named again owner grown.symbols) rfl
  next => exact grown

theorem addStatement (grown : Grown fits P draft) (owner : ModuleId) (statement : Statement Unit) :
    Grown fits P (draft.addStatement owner statement).2 :=
  grown.of_symbols (growing.lengthen owner statement _ grown.symbols) rfl

theorem exportAgain (ih : Fit fits draft.nodes → Grown fits P draft) {source : Provider} {clause : Clause}
    {imported exported : String}
    (fit : Fit fits ((addExport owner exported (.again source imported)).outcome
      (draft.addExportFrom owner source clause)).2.nodes)
    (named : (Statement.exportFrom () source (draft.symbols.specifier source) clause).exportedName? =
      some exported)
    (again : (Statement.exportFrom () source (draft.symbols.specifier source) clause).again? =
      some (source, imported)) :
    Grown fits P ((addExport owner exported (.again source imported)).outcome
      (draft.addExportFrom owner source clause)).2 := by
  obtain ⟨before, fits⟩ := fit.stated (sameText_addExport _ _ _ _)
  refine growing.preserves_addExport fits ?_ ?_ _ (growing.addStatement (ih before) owner _)
  · rwa [addStatement_fst, Statement.exportedName?_place]
  · rw [addStatement_fst, Statement.again?_place, again, Export.again?]

end Growing

/-- The property holds of every draft all statements of which are of the kind. -/
theorem Built.grown (growing : Growing fits P) (built : draft.Built) (fit : Fit fits draft.nodes) :
    Grown fits P draft := by
  induction built with
  | empty => exact ⟨growing.empty, fun item member => absurd member (Array.not_mem_empty item)⟩
  | addModule _ id ih =>
      have grown := ih fit
      exact ⟨growing.addModule id grown.symbols, grown.locals⟩
  | addExternal _ id ih =>
      have grown := ih fit
      exact ⟨growing.addExternal id grown.symbols, grown.locals⟩
  | addExpression _ there body ih =>
      exact growing.addStatement (ih (fit.stated (SameText.refl _)).1) _ _
  | @declare _ owner _ there mode name init exported ih =>
      obtain ⟨before, fits⟩ := fit.stated (sameText_declare _ _ mode name init exported)
      have stated := growing.addStatement (ih before) owner (.declare () exported mode () name init)
      refine after_declare ⟨growing.declare fits _ _ stated.symbols, stated.locals⟩
        (fun id => Growing.preserves_bind name id) fun here id => ?_
      subst here
      exact growing.preserves_addExport fits rfl rfl
  | @importFrom draft owner source _ there known imported binding ih =>
      obtain ⟨before, fits⟩ := fit.stated (sameText_importFrom _ _ _ imported binding)
      have stated := growing.addStatement (ih before) owner
        (.importFrom () source (draft.symbols.specifier source) imported binding)
      refine after_importFrom ⟨growing.importFrom fits _ stated.symbols, stated.locals⟩
        (fun id => Growing.preserves_bind binding id) fun id same _ draft grown => ?_
      subst same
      exact grown.of_symbols (growing.propose fits grown.symbols) rfl
  | @exportLocal draft owner _ there binding exported ih =>
      have same : SameText (draft.addStatement owner (.exportList () binding exported)).2
          (draft.exportLocal owner binding exported) :=
        ⟨rfl, rfl, fun _ => rfl, fun _ => rfl, fun _ => rfl, fun _ => rfl⟩
      obtain ⟨before, fits⟩ := fit.stated same
      have stated := growing.addStatement (ih before) owner (.exportList () binding exported)
      refine ⟨stated.symbols, fun item member => ?_⟩
      rcases Array.mem_push.mp member with earlier | rfl
      · exact stated.locals item earlier
      · exact ⟨_, fits, rfl, rfl⟩
  | exportFrom _ there known imported exported ih =>
      rw [exportFrom_outcome] at fit ⊢
      exact growing.exportAgain ih fit rfl rfl
  | exportWhole _ there known exported ih =>
      rw [exportWhole_outcome] at fit ⊢
      exact growing.exportAgain ih fit rfl rfl
  | @exportAll draft owner source _ there known ih =>
      have before := (fit.stated (sameText_modifyModule _ _ fun _ => ⟨rfl, rfl⟩)).1
      have stated := growing.addStatement (ih before) owner
        (.exportFrom () source (draft.symbols.specifier source) .all)
      exact stated.of_symbols (growing.star owner source stated.symbols) rfl

end Draft

/-- The property holds of every finished program all statements of which are of the kind. -/
theorem Graph.Made.grown {graph : Graph} {fits : Statement Label → Prop} {P : Symbols → Prop}
    (made : graph.Made) (growing : Draft.Growing fits P) (fit : Draft.Fit fits graph.nodes) :
    P graph.symbols := by
  obtain ⟨built, -, finished⟩ := made
  obtain ⟨symbols, exports, rfl⟩ := Draft.finish_eq finished
  have grown := built.grown growing fit
  refine Draft.finishExports_induction (P := P) (fun item member before after finished holds => ?_)
    exports grown.symbols
  obtain ⟨id, -, added⟩ := Draft.finishExport_eq finished
  obtain ⟨statement, fits, named, again⟩ := grown.locals item (Array.mem_toList_iff.mp member)
  have own : (Export.own id).again? = statement.again? := again.symm
  rw [Draft.symbols_of_addExport added]
  exact growing.exports fits named own item.1 holds

end Bundler
