import Bundler.Proofs.Bundle.Closed
import Bundler.Proofs.Bundle.Lasting
import Bundler.Proofs.Draft.Growing

/-! # Where included declarations live

What a module of a bundle refers to is visible from it, and so are the namespace of a module and all that
it exports.  So what is visible from the modules that are executed is closed under the rules for a bundle,
and since shaking selects the least that is, nothing else is included.
-/

namespace Bundler

namespace Symbols

variable {symbols : Symbols}

/-- Namespaces belong to the modules that they are of. -/
def Housed (symbols : Symbols) : Prop :=
  ∀ {id home}, (symbols.declarationAt id).kind = .namespaceOf home →
    (symbols.declarationAt id).owner = some (.internal home)

namespace Housed

theorem addDeclaration (housed : symbols.Housed) (name : String) {owner : Option Provider}
    {kind : DeclarationKind} (own : ∀ home, kind = .namespaceOf home → owner = some (.internal home)) :
    (symbols.addDeclaration name owner kind).2.Housed := by
  intro id home is
  rw [declarationAt_addDeclaration] at is ⊢
  split at is
  next here =>
      rw [if_pos here]
      exact own home is
  next other =>
      rw [if_neg other]
      exact housed is

theorem lasting : Lasting (fun _ => True) (fun _ => True) Housed where
  asks _ := asks_any _
  external source name _ housed := by
    rw [externalDeclaration]
    split
    · exact housed
    · exact housed.addDeclaration _ fun _ same => by cases same
  global _ housed := by
    rw [globalDeclaration]
    split
    · exact housed
    · exact housed.addDeclaration _ fun _ same => by cases same
  target {symbols} id target housed := by
    intro other home is
    rcases symbols.setTarget_cases id target other with same | ⟨_, _, _, -, same⟩
    · rw [same] at is ⊢
      exact housed is
    · rw [same] at is
      cases is
  exports _ _ housed := housed
  propose _ _ _ housed := housed

theorem growing : Draft.Growing (fun _ => True) Housed where
  empty := fun is => by cases is
  addModule id housed := housed.addDeclaration _ fun _ same => by cases same; rfl
  addExternal _ housed := housed
  lengthen _ _ _ housed := housed
  declare _ _ _ housed := housed.addDeclaration _ fun _ same => by cases same
  importFrom _ _ housed := housed.addDeclaration _ fun _ same => by cases same
  propose _ housed := housed
  exports _ _ _ _ housed := housed
  star _ _ housed := housed

end Housed

end Symbols

namespace Graph

variable {graph other after made : Graph} {options : Options}

theorem endures_housed : Endures Symbols.Housed := by
  refine .of_sameProgram fun same housed id home is => ?_
  obtain ⟨_, _, entry⟩ := same.declarationAt id
  rw [entry] at is ⊢
  exact housed is

theorem Reachable.housed (reachable : graph.Reachable) : graph.symbols.Housed :=
  reachable.lasts Symbols.Housed.lasting endures_housed (mentions_any _) fun made _ =>
    made.grown Symbols.Housed.growing fun _ _ _ _ => trivial

/-! ## What executed modules can see -/

/-- The nodes of the modules that are executed, and the declarations that are visible from them. -/
noncomputable def withinReach (graph : Graph) : Selection :=
  open Classical in
  { nodes id := decide (∃ node, graph.nodes[id.index]? = some node ∧ node.owner ∈ graph.order)
    declarations id := decide (∃ owner ∈ graph.order, graph.Visible owner id)
    externals _ := true }

theorem nodes_withinReach {id : NodeId} : graph.withinReach.nodes id = true ↔
    ∃ node, graph.nodes[id.index]? = some node ∧ node.owner ∈ graph.order := by
  simp only [withinReach, decide_eq_true_eq]

theorem declarations_withinReach {id : DeclId} : graph.withinReach.declarations id = true ↔
    ∃ owner ∈ graph.order, graph.Visible owner id := by
  simp only [withinReach, decide_eq_true_eq]

namespace Prepared

variable (prepared : graph.Prepared)

include prepared

/-- The executed module that a visible declaration belongs to. -/
theorem home {owner : ModuleId} (executed : owner ∈ graph.order) {id : DeclId}
    (visible : graph.Visible owner id) {statement : NodeId}
    (kind : (graph.symbols.declarationAt id).kind = .declared statement) :
    ∃ home ∈ graph.order, (graph.symbols.declarationAt id).owner = some (.internal home) := by
  obtain ⟨home, owned, reaches⟩ := visible.declared kind
  exact ⟨home, prepared.executed executed reaches, owned⟩

theorem supported_withinReach : graph.withinReach.Supported graph where
  parts {id} within := by
    obtain ⟨node, found, executed⟩ := nodes_withinReach.mp within
    have at_id := nodeAt_of_getElem? found
    refine ⟨fun e child => ?_, fun {declaration} denoted => ?_⟩
    · rw [at_id] at child
      exact nodes_withinReach.mpr ⟨_, (prepared.sound.arena.child found e child).2, executed⟩
    · have visible := prepared.sound.denoted denoted
      rw [at_id] at visible
      exact declarations_withinReach.mpr ⟨_, executed, visible⟩
  needs {id} within := by
    obtain ⟨owner, executed, visible⟩ := declarations_withinReach.mp within
    have sound := prepared.sound.declarations visible.inside
    refine ⟨fun {statement} kind => ?_, fun {source name target} kind => ?_, fun {home} kind => ?_,
      fun _ => rfl⟩
    · obtain ⟨home, ordered, owned⟩ := prepared.home executed visible kind
      obtain ⟨_, same, -, _, _, _, _, _, found⟩ := sound.declared kind
      cases owned.symm.trans same
      exact nodes_withinReach.mpr ⟨_, found, ordered⟩
    · obtain ⟨home, owned, reaches⟩ := visible.imported kind
      obtain ⟨_, same, -, targets⟩ := sound.imported kind
      cases owned.symm.trans same
      exact declarations_withinReach.mpr
        ⟨home, prepared.executed executed reaches, (targets target rfl).1⟩
    · intro declaration exported
      have reaches := prepared.executed executed (visible.namespaceOf kind)
      exact declarations_withinReach.mpr ⟨home, reaches, (prepared.sound.exported exported).1⟩

/-- What the executed modules can see is all that they need. -/
theorem closed_withinReach : graph.withinReach.Closed graph where
  toSupported := prepared.supported_withinReach
  entry declaration exported := declarations_withinReach.mpr
    ⟨_, prepared.entry_executed, (prepared.sound.exported exported).1⟩
  effect owner executed id member _ := by
    obtain ⟨statement, found⟩ := prepared.sound.grounded.body member
    exact nodes_withinReach.mpr ⟨_, found, executed⟩

end Prepared

/-- Whatever a bundle of a finished program includes is visible from a module that is executed. -/
theorem Made.visible_of_included (program : made.Made) {bundle : Bundle}
    (succeeded : (Graph.bundle options).outcome made = (.ok bundle, after)) {id : DeclId}
    (included : after.includesDeclaration id = true) :
    ∃ owner ∈ after.order, after.Visible owner id := by
  obtain ⟨linked, resolved, linking, resolving, same, -⟩ := bundle_stages succeeded
  obtain ⟨prepared, unselected⟩ := program.prepared linking resolving
  have grounded := prepared.sound.grounded
  have shaken := (grows_retain_shake grounded).alike.sameProgram
  have named := sameProgram_assignNames options resolved.retainEntryExports.shake.2
  have least : after.selection ≤ resolved.withinReach := by
    rw [same, selection_assignNames]
    exact shake_le grounded unselected prepared.closed_withinReach
  rw [← same] at named
  obtain ⟨owner, executed, visible⟩ := declarations_withinReach.mp (least.2.1 id included)
  refine ⟨owner, ?_, ?_⟩
  · rwa [named.order, shaken.order]
  · exact named.annotates.extension.visible (shaken.annotates.extension.visible visible)

/-- So what is declared, and the namespace of a module, belongs to one that is executed. -/
theorem Made.home_of_included (program : made.Made) {bundle : Bundle}
    (succeeded : (Graph.bundle options).outcome made = (.ok bundle, after)) {id : DeclId}
    (included : after.includesDeclaration id = true)
    (defined : Symbols.isDefined (after.symbols.declarationAt id) = true) :
    ∃ home ∈ after.order, (after.symbols.declarationAt id).owner = some (.internal home) := by
  obtain ⟨owner, executed, visible⟩ := program.visible_of_included succeeded included
  obtain ⟨prepared, -⟩ := program.bundled succeeded
  cases kind : (after.symbols.declarationAt id).kind with
  | declared statement => exact prepared.home executed visible kind
  | namespaceOf home =>
      obtain ⟨reached, -⟩ := (Reachable.made program).bundled succeeded
      exact ⟨home, prepared.executed executed (visible.namespaceOf kind), reached.housed kind⟩
  | imported | provided | free =>
      rw [Symbols.isDefined, kind] at defined
      cases defined

end Graph

end Bundler
