import Bundler.Proofs.Bundle.Closed
import Bundler.Proofs.Bundle.Understood
import Bundler.Proofs.Postorder

/-! # Definitions come first

The order of execution puts every module behind those that it depends on, unless these depend on it as
well.  Whatever a module refers to is its own or belongs to a module that it depends on, so as long as no
module that the entry needs depends on itself, what the output refers to has been defined before.
-/

namespace Bundler.Graph

variable {graph other made : Graph} {options : Options}

/-! ## The order of execution -/

/-- One module stands before the other in the order of execution. -/
def Precedes (graph : Graph) (first second : ModuleId) : Prop :=
  graph.order.idxOf first < graph.order.idxOf second

/-- No module that the entry needs depends on itself. -/
def Acyclic (graph : Graph) : Prop :=
  ∀ id, graph.Reaches graph.entry id → ¬ graph.Depends id id

/-- A program is acyclic if its modules can be numbered so that each links to smaller numbers only. -/
theorem acyclic_of_rank (rank : ModuleId → Nat)
    (links : ∀ {id source}, graph.Links id (.internal source) → rank source < rank id) :
    graph.Acyclic := by
  intro id _ depends
  have less : ∀ {home}, graph.Depends id home → rank home < rank id := by
    intro home depends
    induction depends with
    | single link => exact links link
    | tail _ link ih => exact Nat.lt_trans (links link) ih
  exact Nat.lt_irrefl _ (less depends)

theorem Annotates.links_iff (annotates : Annotates graph other) {id : ModuleId} {source : Provider} :
    other.Links id source ↔ graph.Links id source := by
  simp only [Links, annotates.body, annotates.nodes]

theorem Annotates.acyclic (annotates : Annotates graph other) (acyclic : graph.Acyclic) :
    other.Acyclic := by
  have links : (fun id source => other.Links id (.internal source)) =
      fun id source => graph.Links id (.internal source) := by
    funext id source
    exact propext annotates.links_iff
  intro id reaches depends
  rw [Reaches, links, annotates.entry] at reaches
  rw [Depends, links] at depends
  exact acyclic id reaches depends

theorem Sound.reaches_of_leads (sound : graph.Sound) {id home : ModuleId}
    (leads : DepthFirst.Leads graph.dependencies id home) : graph.Reaches id home :=
  Relation.ReflTransGen.mono (fun _ _ => sound.mem_dependencies.mp) _ _ leads

/-- A module that is executed is one that the entry needs. -/
theorem Sound.needed (sound : graph.Sound) {id : ModuleId} (executed : id ∈ graph.executionOrder) :
    graph.Reaches graph.entry id :=
  sound.reaches_of_leads (DepthFirst.leads_walk (List.mem_reverse.mp executed))

/-- Every module is executed once. -/
theorem nodup_executionOrder (graph : Graph) : graph.executionOrder.Nodup :=
  List.nodup_reverse.mpr (DepthFirst.nodup_walk _ _ _)

/-- What an executed module links to is executed before it, or leads back to it. -/
theorem Sound.links_precede (sound : graph.Sound) (entry : graph.HasProvider (.internal graph.entry))
    (order : graph.order = graph.executionOrder) {id source : ModuleId} (executed : id ∈ graph.order)
    (links : graph.Links id (.internal source)) : graph.Precedes source id ∨ graph.Reaches source id := by
  have ordered := DepthFirst.postordered_walk sound.dependencies_known graph.symbols.card_moduleIds
    (List.mem_toFinset.mpr (Symbols.mem_moduleIds.mpr entry))
  rw [order] at executed
  rw [Precedes, order]
  exact (ordered.idxOf (List.mem_reverse.mp executed) (sound.mem_dependencies.mpr links)).imp_right
    sound.reaches_of_leads

namespace Prepared

variable (prepared : graph.Prepared)

include prepared

/-- In an acyclic program, whatever an executed module depends on is executed before it. -/
theorem depends_precede (acyclic : graph.Acyclic) {id home : ModuleId} (executed : id ∈ graph.order)
    (depends : graph.Depends id home) : graph.Precedes home id := by
  have needed : ∀ {id}, id ∈ graph.order → graph.Reaches graph.entry id := fun executed =>
    prepared.sound.needed (prepared.order ▸ executed)
  have link : ∀ {id source}, id ∈ graph.order → graph.Links id (.internal source) →
      graph.Precedes source id := by
    intro id source executed links
    refine (prepared.sound.links_precede prepared.entry prepared.order executed links).resolve_right
      fun back => ?_
    exact acyclic id (needed executed) (Relation.TransGen.head' links back)
  induction depends with
  | single links => exact link executed links
  | tail path links ih =>
      have between := prepared.executed executed path.to_reflTransGen
      exact Nat.lt_trans (link between links) ih

end Prepared

/-! ## Definitions -/

/-- The module defines the declaration, by a statement or as its own namespace object. -/
def DefinedBy (graph : Graph) (id : DeclId) (home : ModuleId) : Prop :=
  Symbols.isDefined (graph.symbols.declarationAt id) = true ∧
    (graph.symbols.declarationAt id).home? = some (.internal home)

/-- What is visible from a module is defined by the module or by one that it depends on. -/
theorem Visible.defined {owner home : ModuleId} {id : DeclId} (visible : graph.Visible owner id)
    (defined : graph.DefinedBy id home) (different : home ≠ owner) : graph.Depends owner home := by
  have reaches : graph.Reaches owner home := by
    obtain ⟨here, at_home⟩ := defined
    rw [Declaration.home?] at at_home
    rw [Symbols.isDefined] at here
    cases kind : (graph.symbols.declarationAt id).kind with
    | declared statement =>
        obtain ⟨_, owned, reaches⟩ := visible.declared kind
        rw [kind, owned] at at_home
        cases at_home
        exact reaches
    | namespaceOf _ =>
        rw [kind] at at_home
        cases at_home
        exact visible.namespaceOf kind
    | imported | provided | free =>
        rw [kind] at here
        cases here
  rcases Relation.reflTransGen_iff_eq_or_transGen.mp reaches with same | depends
  · exact absurd same different
  · exact depends

/-- What namespace objects are referred to from where. -/
structure LooksAhead (graph : Graph) : Prop where
  nodes : graph.NodesAhead
  exports : ∀ id, ∀ declaration ∈ graph.exportedDeclarations id, graph.Ahead id declaration

theorem SameProgram.looksAhead (same : SameProgram graph other) (sound : graph.Sound)
    (ahead : graph.LooksAhead) : other.LooksAhead where
  nodes := ahead.nodes.step sound same.annotates fun found => .inl <| by
    rwa [denotation?, same.resolutionAt] at found
  exports id declaration member := by
    rw [exportedDeclarations, same.moduleAt] at member
    exact same.annotates.extension.ahead (sound.exported member).1.inside
      (ahead.exports id declaration member)

/-- In a bundled program, no module refers to the namespace object of a module that it does not depend
    on. -/
theorem Made.looksAhead (program : made.Made) {bundle : Bundle}
    (succeeded : (Graph.bundle options).outcome made = (.ok bundle, graph)) :
    Annotates made graph ∧ graph.LooksAhead := by
  have sound := program.sound
  have written := program.written
  obtain ⟨linked, resolved, linking, resolving, rfl, -⟩ := bundle_stages succeeded
  obtain ⟨start, linked'⟩ := program.understands_link linking
  have unknown : linked.NodesAhead := fun id declaration found => by
    rw [denotation?, resolutionAt, markAt_link linking, program.markAt] at found
    cases found
  obtain ⟨understands, nodes⟩ := guides_resolve sound written options linked start unknown
  obtain ⟨_, resolving', second, keeps, -⟩ := (start.sound.navigable linked').resolve options
  rw [resolving] at understands nodes resolving'
  cases resolving'
  have ahead : resolved.LooksAhead :=
    ⟨nodes, fun id declaration => understands.exported_ahead sound written
      (second.linked start.sound linked' keeps.modules)⟩
  have shaken := (grows_retain_shake understands.sound.grounded).alike.sameProgram
  have named := sameProgram_assignNames options resolved.retainEntryExports.shake.2
  exact ⟨(understands.annotates.trans shaken.annotates).trans named.annotates,
    named.looksAhead (shaken.sound understands.sound) (shaken.looksAhead understands.sound ahead)⟩

/-- In a bundle of an acyclic program definitions precede uses.  What an included statement refers to, and
    what is a member of a namespace object that is written, is defined by the same module or by one that is
    executed before; and no included statement refers to the namespace object of its own module. -/
theorem definitions_precede (program : made.Made) (acyclic : made.Acyclic) {bundle : Bundle}
    (succeeded : (Graph.bundle options).outcome made = (.ok bundle, graph)) :
    graph.order.Nodup ∧ ∀ owner ∈ graph.order,
      (∀ statement ∈ graph.statements owner, graph.includesNode statement.id = true →
        ∀ p ∈ Expr.partsAll statement.children, ∀ declaration,
          graph.denotation? p.id = some declaration →
            (∀ home, graph.DefinedBy declaration home → home ≠ owner → graph.Precedes home owner) ∧
              (graph.symbols.declarationAt declaration).kind ≠ .namespaceOf owner) ∧
      (graph.includesDeclaration (graph.symbols.moduleAt owner).namespaceDecl = true →
        ∀ declaration ∈ graph.exportedDeclarations owner, ∀ home,
          graph.DefinedBy declaration home → home ≠ owner → graph.Precedes home owner) := by
  obtain ⟨prepared, -⟩ := program.bundled succeeded
  obtain ⟨annotates, ahead⟩ := program.looksAhead succeeded
  have acyclic := annotates.acyclic acyclic
  have sound := prepared.sound
  refine ⟨prepared.order ▸ graph.nodup_executionOrder, fun owner executed =>
    ⟨fun statement member _ p part declaration denoted => ?_,
      fun _ declaration member home defined different => ?_⟩⟩
  · have found := sound.grounded.arena.part (sound.grounded.statement member).2 p part
    have owned : (graph.nodeAt p.id).owner = owner := owner_nodeAt rfl found
    refine ⟨fun home defined different => ?_, fun kind => ?_⟩
    · exact prepared.depends_precede acyclic executed
        ((owned ▸ sound.denoted denoted).defined defined different)
    · exact acyclic owner (sound.needed (prepared.order ▸ executed))
        (owned ▸ ahead.nodes p.id declaration denoted owner kind)
  · exact prepared.depends_precede acyclic executed
      ((sound.exported member).1.defined defined different)

/-- The name that the greeting uses is defined before. -/
theorem precedes_greeting : ∃ bundle graph, (Graph.bundle {}).outcome greeting = (.ok bundle, graph) ∧
    graph.order.Nodup ∧ graph.Precedes ⟨0⟩ ⟨1⟩ := by
  have acyclic : greeting.Acyclic := by
    refine acyclic_of_rank ModuleId.index fun {id source} links => ?_
    have inside : id ∈ greeting.symbols.moduleIds := by
      obtain ⟨_, member, -⟩ := links
      exact Symbols.mem_moduleIds.mpr (Symbols.lt_of_mem_body member)
    have ranked : ∀ id ∈ greeting.symbols.moduleIds, ∀ source ∈ greeting.dependencies id,
        source.index < id.index := by
      decide
    exact ranked id inside source (made_greeting.sound.mem_dependencies.mpr links)
  have succeeds : ((Graph.bundle {}).outcome greeting).1.isOk = true := by decide +kernel
  have refers : ⟨1⟩ ∈ ((Graph.bundle {}).outcome greeting).2.order ∧
      (∃ statement ∈ ((Graph.bundle {}).outcome greeting).2.statements ⟨1⟩,
        ((Graph.bundle {}).outcome greeting).2.includesNode statement.id = true ∧
          ∃ p ∈ Expr.partsAll statement.children,
            ((Graph.bundle {}).outcome greeting).2.denotation? p.id = some ⟨2⟩) ∧
      Symbols.isDefined (((Graph.bundle {}).outcome greeting).2.symbols.declarationAt ⟨2⟩) = true ∧
      (((Graph.bundle {}).outcome greeting).2.symbols.declarationAt ⟨2⟩).home? =
        some (.internal ⟨0⟩) := by
    decide +kernel
  cases result : (Graph.bundle {}).outcome greeting with
  | mk returned graph =>
      rw [result] at succeeds refers
      cases returned with
      | error fault => cases succeeds
      | ok bundle =>
          obtain ⟨executed, ⟨statement, member, included, p, part, denoted⟩, defined⟩ := refers
          obtain ⟨nodup, precede⟩ := definitions_precede made_greeting acyclic result
          obtain ⟨references, -⟩ := precede ⟨1⟩ executed
          obtain ⟨before, -⟩ := references statement member included p part ⟨2⟩ denoted
          exact ⟨bundle, graph, rfl, nodup, before ⟨0⟩ defined (by decide)⟩

end Bundler.Graph
