import Bundler.Proofs.Inclusion.Least
import Bundler.Proofs.Respelling.Resolving

/-! # Shaking respelled programs

A selection for a program can be carried over to a respelled one, and back.  What is closed under the rules
for a bundle stays so, since a literal has no effects and takes nothing along.  So the least selections are
carried over to each other.
-/

namespace Bundler

/-! ## What statements declare -/

namespace Symbols

variable {count : Nat} {symbols : Symbols}

/-- All declarations that statements make are among the first ones. -/
def StatedWithin (count : Nat) (symbols : Symbols) : Prop :=
  ∀ ⦃id statement⦄, id.index < symbols.declarations.size →
    (symbols.declarationAt id).kind = .declared statement → id.index < count

theorem StatedWithin.addDeclaration (within : symbols.StatedWithin count) (name : String)
    (owner : Option Provider) {kind : DeclarationKind} (other : ∀ statement, kind ≠ .declared statement) :
    (symbols.addDeclaration name owner kind).2.StatedWithin count := by
  intro id statement inside here
  rw [declarationAt_addDeclaration] at here
  split at here
  · exact absurd here (other statement)
  next old =>
      refine within (Nat.lt_of_le_of_ne (Nat.le_of_lt_succ ?_) fun same => old ?_) here
      · exact Nat.lt_of_lt_of_eq inside (Array.size_push _)
      · exact congrArg DeclId.mk same

/-- Whatever is found out about a program, no more statements declare something. -/
theorem StatedWithin.lasting (count : Nat) :
    Lasting (fun _ => True) (fun _ => True) (StatedWithin count) where
  asks _ := asks_any _
  external source name _ within := by
    rw [externalDeclaration]
    split
    · exact within
    · exact within.addDeclaration _ _ (by simp)
  global _ within := by
    rw [globalDeclaration]
    split
    · exact within
    · exact within.addDeclaration _ _ (by simp)
  target {symbols} id target within := by
    intro other statement inside here
    rcases symbols.setTarget_cases id target other with same | ⟨_, _, _, -, same⟩
    · exact within (Nat.lt_of_lt_of_eq inside Array.size_modify) (same ▸ here)
    · rw [same] at here
      cases here
  exports _ _ within := within
  propose _ _ _ within := within

end Symbols

/-- The kinds are the same, except that declarations may be made by statements that stand for each other. -/
inductive DeclarationKind.Respells (pairs : NodeId → NodeId → Prop) :
    DeclarationKind → DeclarationKind → Prop where
  | declared {statement statement'} : pairs statement statement' →
    Respells pairs (.declared statement) (.declared statement')
  | other {kind : DeclarationKind} : (∀ statement, kind ≠ .declared statement) → Respells pairs kind kind

theorem DeclarationKind.Respells.flip {pairs : NodeId → NodeId → Prop} {kind other : DeclarationKind}
    (respells : kind.Respells pairs other) : other.Respells (flip pairs) kind := by
  cases respells with
  | declared paired => exact .declared paired
  | other different => exact .other different

namespace Graph

variable {graph other after after' : Graph} {n : Nat} {pairs : NodeId → NodeId → Prop}

/-- Programs stay counterparts, whatever is found out about them. -/
theorem Counterparts.develop (counterparts : Counterparts pairs graph other)
    (develops : Annotates graph after) (develops' : Annotates other after')
    (size : other.symbols.declarations.size = graph.symbols.declarations.size)
    (within : after.symbols.StatedWithin graph.symbols.declarations.size) :
    Counterparts pairs after after' where
  pairing := by rw [develops.nodes, develops'.nodes]; exact counterparts.pairing
  node := by rw [develops.nodes, develops'.nodes]; exact counterparts.node
  node' := by rw [develops.nodes, develops'.nodes]; exact counterparts.node'
  body id := by rw [develops.body, develops'.body]; exact counterparts.body id
  declared {id statement statement'} inside here there := by
    have inside : graph.HasDeclaration id := within inside here
    have inside' : other.HasDeclaration id := Nat.lt_of_lt_of_eq inside size.symm
    refine counterparts.declared inside ?_ ?_
    · exact ((develops.kind inside).eq (by simp [here])).trans here
    · exact ((develops'.kind inside').eq (by simp [there])).trans there

/-! ## Selections in step -/

open Classical in
/-- What is selected, taken over to the nodes that stand for it, and all nodes that stand for nothing. -/
noncomputable def acrossPairs (pairs : NodeId → NodeId → Prop) (s : Selection) : Selection :=
  { s with nodes := fun i' => decide (∀ i, pairs i i' → s.nodes i = true) }

theorem nodes_acrossPairs {s : Selection} {i' : NodeId} :
    (acrossPairs pairs s).nodes i' = true ↔ ∀ i, pairs i i' → s.nodes i = true := by
  simp [acrossPairs]

namespace InStep

variable (inStep : InStep pairs graph other)

include inStep

/-- Programs stay in step when the same is selected in both. -/
theorem select {s s' : Selection} (nodes : ∀ {i i'}, pairs i i' → s'.nodes i' = s.nodes i)
    (declarations : s'.declarations = s.declarations) (externals : s'.externals = s.externals) :
    InStep pairs (graph.select s) (other.select s') := by
  have outline : ∀ (graph : Graph) (s : Selection), (graph.select s).symbols.outline =
      { graph.symbols.outline with
        declarations := graph.symbols.outline.declarations.mapIdx fun i declaration =>
          { declaration with included := s.declarations ⟨i⟩ }
        externals := graph.symbols.outline.externals.mapIdx fun i external =>
          { external with used := s.externals ⟨i⟩ } } := by
    intro graph s
    have commute : (graph.select s).symbols.outline.declarations =
        graph.symbols.outline.declarations.mapIdx fun i declaration =>
          { declaration with included := s.declarations ⟨i⟩ } := by
      apply Array.ext_getElem?
      intro i
      simp [Graph.select, Symbols.outline, Function.comp_def, Declaration.outline]
    rw [← commute]
    rfl
  refine { inStep with outline := ?_, marked := ?_, markAt := ?_, alone := ?_ }
  · rw [outline, outline, inStep.outline, declarations, externals]
  · intro i i' paired
    simpa [Graph.select] using inStep.marked paired
  · intro i i' paired
    obtain ⟨inside, inside'⟩ := inStep.marked paired
    rw [markAt_select, markAt_select, inStep.markAt paired, nodes paired]
    simp [inside, inside']
  · intro i' alone
    rw [resolutionAt_select]
    exact inStep.alone alone

/-- Selections that are taken over to each other are the same for nodes that stand for each other. -/
theorem select_of_le {s s' : Selection} (there : s' ≤ acrossPairs pairs s)
    (back : s ≤ acrossPairs (flip pairs) s') : InStep pairs (graph.select s) (other.select s') := by
  refine inStep.select (fun {i i'} paired => ?_) ?_ ?_
  · exact Bool.eq_iff_iff.mpr ⟨fun selected => nodes_acrossPairs.mp (there.1 i' selected) i paired,
      fun selected => nodes_acrossPairs.mp (back.1 i selected) i' paired⟩
  · funext id
    exact Bool.eq_iff_iff.mpr ⟨there.2.1 id, back.2.1 id⟩
  · funext id
    exact Bool.eq_iff_iff.mpr ⟨there.2.2 id, back.2.2 id⟩

/-! ## Effects -/

theorem writeHasEffects (id : DeclId) : other.writeHasEffects id = graph.writeHasEffects id := by
  have included : (other.symbols.declarationAt id).included = (graph.symbols.declarationAt id).included :=
    (congrArg Declaration.included (inStep.declarationAt id) :)
  rw [Graph.writeHasEffects, Graph.writeHasEffects]
  rcases DeclarationKind.eq_of_outline (inStep.kind id) with same | ⟨_, _, here, there⟩
  · rw [same, included]
  · rw [here, there]
    exact included

theorem denotation? {i i' : NodeId} (paired : pairs i i') : other.denotation? i' = graph.denotation? i := by
  rw [Graph.denotation?, inStep.resolutionAt paired]
  rfl

theorem isSettled {i i' : NodeId} (paired : pairs i i') : other.isSettled i' = graph.isSettled i := by
  rw [Graph.isSettled, inStep.resolutionAt paired]
  rfl

theorem assignmentHasEffects {e e' : Expr Label}
    (respells : e.Respells (PairedLabels pairs) (Lone 0 n pairs) e') :
    other.assignmentHasEffects e' = graph.assignmentHasEffects e := by
  cases respells with
  | ident here =>
      rw [Graph.assignmentHasEffects, Graph.assignmentHasEffects, inStep.denotation? here]
      split
      · exact inStep.writeHasEffects _
      · rfl
  | literal | member | bracketed | index | call | assign => rfl

/-- However properties are spelled, evaluating an expression has the same effects. -/
theorem exprHasEffects : ∀ (e : Expr Label) {e' : Expr Label},
    e.Respells (PairedLabels pairs) (Lone 0 n pairs) e' → other.exprHasEffects e' = graph.exprHasEffects e
  | .ident _ _, _, respells | .literal _ _, _, respells | .call _ _ _, _, respells => by
    cases respells
    rfl
  | .member _ object _, _, respells => by
    cases respells with
    | member here below =>
        rw [Graph.exprHasEffects, Graph.exprHasEffects, inStep.isSettled here, exprHasEffects object below]
    | bracketed _ here _ below =>
        rw [Graph.exprHasEffects, Graph.exprHasEffects, inStep.isSettled here, exprHasEffects object below,
          Graph.exprHasEffects, Bool.or_false]
  | .index _ object key, _, respells => by
    cases respells with
    | index here first second =>
        rw [Graph.exprHasEffects, Graph.exprHasEffects, inStep.isSettled here, exprHasEffects object first,
          exprHasEffects key second]
  | .assign _ target value, _, respells => by
    cases respells with
    | assign _ first second =>
        rw [Graph.exprHasEffects, Graph.exprHasEffects, exprHasEffects value second,
          inStep.assignmentHasEffects first]

theorem hasEffects {i i' : NodeId}
    (stands : Counterpart n pairs (graph.nodeAt i) (other.nodeAt i')) :
    other.hasEffects i' = graph.hasEffects i := by
  have respells := stands.fragment
  rw [Graph.hasEffects, Graph.hasEffects]
  generalize (graph.nodeAt i).fragment = fragment, (other.nodeAt i').fragment = fragment' at respells
  cases respells with
  | expr body => exact inStep.exprHasEffects _ body
  | statement body =>
      have children := body.children
      dsimp only
      rw [statementHasEffects, statementHasEffects]
      generalize Statement.children _ = es at children ⊢
      generalize Statement.children _ = es' at children ⊢
      induction children with
      | nil => rfl
      | cons here _ ih => rw [List.any_cons, List.any_cons, inStep.exprHasEffects _ here, ih]

end InStep

/-! ## Closed selections -/

/-- The rules for a bundle demand no more of the second program than of the first one. -/
structure Carries (pairs : NodeId → NodeId → Prop) (graph other : Graph) : Prop where
  unique : Relator.LeftUnique pairs
  child : ∀ {i i' j}, pairs i i' → ∀ e' ∈ (other.nodeAt i').fragment.children, pairs j e'.id →
    ∃ e ∈ (graph.nodeAt i).fragment.children, e.id = j
  denotation? : ∀ {i i'}, pairs i i' → other.denotation? i' = graph.denotation? i
  alone : ∀ {i'}, (∀ i, ¬ pairs i i') →
    (other.nodeAt i').fragment.children = [] ∧ other.denotation? i' = none
  kind : ∀ {id}, graph.HasDeclaration id →
    (graph.symbols.declarationAt id).kind.Respells pairs (other.symbols.declarationAt id).kind
  exports : ∀ id, other.exportedDeclarations id = graph.exportedDeclarations id
  entry : other.entry = graph.entry
  order : other.order = graph.order
  body : ∀ {id i'}, i' ∈ (other.symbols.moduleAt id).body →
    ∃ i ∈ (graph.symbols.moduleAt id).body, pairs i i'
  effects : ∀ {s s' : Selection} {i i'}, pairs i i' →
    (∀ {j j'}, pairs j j' → s'.nodes j' = s.nodes j) → s'.declarations = s.declarations →
    s'.externals = s.externals → (other.select s').hasEffects i' = (graph.select s).hasEffects i

namespace Carries

variable (carries : Carries pairs graph other) {s : Selection}

include carries

theorem nodes_of_pair {i i' : NodeId} (paired : pairs i i') :
    (acrossPairs pairs s).nodes i' = s.nodes i := by
  refine Bool.eq_iff_iff.mpr (nodes_acrossPairs.trans ⟨fun all => all i paired, fun selected j also => ?_⟩)
  rwa [carries.unique also paired]

/-- A closed selection stays closed when it is taken over. -/
theorem closed (closed : s.Closed graph)
    (known : ∀ {id}, s.declarations id = true → graph.HasDeclaration id) :
    (acrossPairs pairs s).Closed other := by
  refine ⟨⟨fun {i'} selected => ?_, fun {id} selected => ?_⟩, ?_, fun owner member i' body effect => ?_⟩
  · by_cases alone : ∀ i, ¬ pairs i i'
    · obtain ⟨leaf, unknown⟩ := carries.alone alone
      refine ⟨fun e child => ?_, fun denoted => ?_⟩
      · rw [leaf] at child
        cases child
      · rw [unknown] at denoted
        cases denoted
    · obtain ⟨i, paired⟩ := not_forall_not.mp alone
      have parts := closed.parts (nodes_acrossPairs.mp selected i paired)
      refine ⟨fun e' child' => nodes_acrossPairs.mpr fun j below => ?_, fun denoted => ?_⟩
      · obtain ⟨e, child, rfl⟩ := carries.child paired e' child' below
        exact parts.child e child
      · rw [carries.denotation? paired] at denoted
        exact parts.denoted denoted
  · have needs : s.HasNeeds graph id := closed.needs selected
    have kinds := carries.kind (known selected)
    generalize here : (graph.symbols.declarationAt id).kind = kind,
      there : (other.symbols.declarationAt id).kind = kind' at kinds
    cases kinds with
    | declared paired =>
        refine ⟨fun declared => ?_, fun same => ?_, fun same => ?_, fun same => ?_⟩
        · cases there.symm.trans declared
          rw [carries.nodes_of_pair paired]
          exact needs.declared here
        all_goals cases there.symm.trans same
    | other different =>
        have same := here.trans there.symm
        refine ⟨fun declared => ?_, fun kind => ?_, fun kind => ?_, fun kind => ?_⟩
        · exact absurd (there.symm.trans declared) (different _)
        · exact needs.target (same.trans kind)
        · rw [carries.exports]
          exact needs.exported (same.trans kind)
        · exact needs.provided (same.trans kind)
  · rw [carries.entry, carries.exports]
    exact closed.entry
  · obtain ⟨i, body, paired⟩ := carries.body body
    rw [carries.nodes_of_pair paired]
    refine closed.effect owner (carries.order ▸ member) i body ?_
    rwa [← carries.effects (s := s) paired carries.nodes_of_pair rfl rfl]

/-- What is included in the second program stands for what is included in the first one. -/
theorem shake_le (grounded : graph.Grounded) (grounded' : other.Grounded)
    (unselected : graph.selection = ⊥) (unselected' : other.selection = ⊥) :
    other.retainEntryExports.shake.2.selection ≤
      acrossPairs pairs graph.retainEntryExports.shake.2.selection := by
  have known : ∀ {shaken : Graph}, Alike graph shaken →
      ∀ {id}, shaken.selection.declarations id = true → graph.HasDeclaration id :=
    fun alike _ included => Nat.lt_of_lt_of_eq (lt_of_includesDeclaration included) alike.sizes.2.1
  exact Graph.shake_le grounded' unselected'
    (carries.closed (closed_shake grounded unselected) (known (grows_retain_shake grounded).alike))

end Carries

namespace Respells

variable (respells : Respells n pairs graph other) (counterparts : Counterparts pairs graph other)

include respells counterparts

theorem kinds {id : DeclId} (inside : graph.HasDeclaration id) :
    (graph.symbols.declarationAt id).kind.Respells pairs (other.symbols.declarationAt id).kind := by
  have declared := @counterparts.declared id
  have kinds := DeclarationKind.eq_of_outline (respells.kind id)
  generalize (graph.symbols.declarationAt id).kind = kind,
    (other.symbols.declarationAt id).kind = kind' at declared kinds
  rcases kinds with rfl | ⟨statement, statement', rfl, rfl⟩
  · cases kind' with
    | declared => exact .declared (declared inside rfl rfl)
    | imported | namespaceOf | provided | free => exact .other (by simp)
  · exact .declared (declared inside rfl rfl)

omit counterparts in
theorem exports (id : ModuleId) : other.exportedDeclarations id = graph.exportedDeclarations id :=
  (congrArg (·.resolvedExports.map Prod.snd) (respells.moduleAt id) :)

theorem effects {s s' : Selection} {i i' : NodeId} (paired : pairs i i')
    (nodes : ∀ {j j'}, pairs j j' → s'.nodes j' = s.nodes j) (declarations : s'.declarations = s.declarations)
    (externals : s'.externals = s.externals) :
    (other.select s').hasEffects i' = (graph.select s).hasEffects i :=
  (respells.select nodes declarations externals).hasEffects
    (counterparts.nodeAt respells.sound.arena respells.sound'.arena paired)

theorem carries : Carries pairs graph other where
  unique := respells.unique.1
  child {i i' j} paired e' child' below := by
    have stands := counterparts.nodeAt respells.sound.arena respells.sound'.arena paired
    rcases stands.fragment.child' e' child' with ⟨e, child, same⟩ | ⟨_, _, rfl, lone⟩
    · exact ⟨e, child, respells.unique.1 same.tag below⟩
    · exact absurd below (lone.2.2 j)
  denotation? := respells.denotation?
  alone {i'} alone := by
    constructor
    · by_cases inside : i'.index < other.nodes.size
      · obtain ⟨_, ⟨_, _, rfl, -⟩, here⟩ := counterparts.extra respells.sound'.arena inside alone
        rw [here]
        rfl
      · rw [nodeAt, Array.getD_eq_getD_getElem?, Array.getElem?_eq_none (Nat.not_lt.mp inside)]
        rfl
    · rw [Graph.denotation?, respells.alone alone]
  kind := respells.kinds counterparts
  exports := respells.exports
  entry := respells.entry
  order := respells.order
  body {id i'} member' := by
    have body := exists_of_forall₂ (counterparts.body id)
    obtain ⟨i, member, paired⟩ := body.2 i' (Array.mem_toList_iff.mpr member')
    exact ⟨i, Array.mem_toList_iff.mp member, paired⟩
  effects := respells.effects counterparts

theorem carries_back : Carries (flip pairs) other graph where
  unique _ _ _ here there := respells.unique.2 here there
  child {i' i j'} paired e child below := by
    have stands := counterparts.nodeAt respells.sound.arena respells.sound'.arena paired
    obtain ⟨e', child', same⟩ := stands.fragment.child e child
    exact ⟨e', child', respells.unique.2 same.tag below⟩
  denotation? paired := (respells.denotation? paired).symm
  alone {i} alone := by
    have outside : graph.nodes.size ≤ i.index := by
      by_contra inside
      obtain ⟨i', paired⟩ := counterparts.exists_pair respells.sound.arena (Nat.not_le.mp inside)
      exact alone i' paired
    have unmarked : graph.marks.size ≤ i.index := respells.sound.marks ▸ outside
    constructor
    · rw [nodeAt, Array.getD_eq_getD_getElem?, Array.getElem?_eq_none outside]
      rfl
    · rw [Graph.denotation?, Graph.resolutionAt, Graph.markAt, Array.getD_eq_getD_getElem?,
        Array.getElem?_eq_none unmarked]
      rfl
  kind {id} inside := by
    have inside : graph.HasDeclaration id :=
      Nat.lt_of_lt_of_eq inside (Draft.declarations_of_outline respells.outline)
    exact (respells.kinds counterparts inside).flip
  exports id := (respells.exports id).symm
  entry := respells.entry.symm
  order := respells.order.symm
  body {id i} member := by
    have body := exists_of_forall₂ (counterparts.body id)
    obtain ⟨i', member', paired⟩ := body.1 i (Array.mem_toList_iff.mpr member)
    exact ⟨i', Array.mem_toList_iff.mp member', paired⟩
  effects paired nodes declarations externals :=
    (respells.effects counterparts paired (fun below => (nodes below).symm) declarations.symm
      externals.symm).symm

/-- Programs that respell each other still do when they are shaken. -/
theorem shake (unselected : graph.selection = ⊥) (unselected' : other.selection = ⊥) :
    Respells n pairs graph.retainEntryExports.shake.2 other.retainEntryExports.shake.2 := by
  have grounded := respells.sound.grounded
  have grounded' := respells.sound'.grounded
  have there := (respells.carries counterparts).shake_le grounded grounded' unselected unselected'
  have back := (respells.carries_back counterparts).shake_le grounded' grounded unselected' unselected
  have alike := (grows_retain_shake grounded).alike
  have alike' := (grows_retain_shake grounded').alike
  have inStep := respells.select_of_le there back
  rw [alike.select_eq, alike'.select_eq] at inStep
  exact { inStep with
    sound := alike.sameProgram.sound respells.sound
    sound' := alike'.sameProgram.sound respells.sound'
    statements := fun id => by
      rw [alike.statements, alike'.statements]
      exact respells.statements id }

end Respells

end Graph

end Bundler
