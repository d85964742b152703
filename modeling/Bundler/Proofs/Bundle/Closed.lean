import Bundler.Proofs.Bundle.Prepared
import Bundler.Proofs.Bundle.Reachable
import Bundler.Proofs.Inclusion.Least

/-! # The output is closed

Whatever the text of a bundle refers to is defined in it.  Closure under the rules gives that it is
included; that its module is written at all follows from visibility, since the order of execution has
every module that a written one reaches.
-/

namespace Bundler.Graph

variable {graph made : Graph} {options : Options}

/-- The output defines what the declaration stands for: by a statement of a module that is written, as a
    namespace object with all its members, by an import of an external module, or not at all if it is
    a global. -/
structure Emitted (graph : Graph) (id : DeclId) : Prop where
  included : graph.includesDeclaration id = true
  final : graph.Final id
  declared : ∀ {statement}, (graph.symbols.declarationAt id).kind = .declared statement →
    graph.includesNode statement = true ∧ ∃ home ∈ graph.order,
      statement ∈ (graph.symbols.moduleAt home).body ∧
        (graph.nodeAt statement).fragment.isLinkage = false
  namespaceOf : ∀ {home}, (graph.symbols.declarationAt id).kind = .namespaceOf home →
    home ∈ graph.order ∧ (graph.symbols.moduleAt home).namespaceDecl = id ∧
      ∀ member ∈ graph.exportedDeclarations home, graph.includesDeclaration member = true
  provided : ∀ {source name}, (graph.symbols.declarationAt id).kind = .provided source name →
    (graph.symbols.externalAt source).used = true

/-- Whatever is included, visible from an executed module and no import is defined in the output. -/
theorem Prepared.emitted (prepared : graph.Prepared) (supported : graph.selection.Supported graph)
    {owner : ModuleId} (executed : owner ∈ graph.order) {id : DeclId} (visible : graph.Visible owner id)
    (final : graph.Final id) (included : graph.includesDeclaration id = true) : graph.Emitted id where
  included := included
  final := final
  declared {statement} kind := by
    obtain ⟨home, owned, reaches⟩ := visible.declared kind
    obtain ⟨other, same, declared⟩ :=
      (prepared.sound.declarations visible.inside).declared kind
    rw [owned] at same
    cases same
    obtain ⟨body, label, exported, mode, nameLabel, init, found⟩ := declared
    refine ⟨(supported.needs included).declared kind, home, prepared.executed executed reaches, body, ?_⟩
    rw [nodeAt_of_getElem? found]
    rfl
  namespaceOf {home} kind :=
    ⟨prepared.executed executed (visible.namespaceOf kind),
      ((prepared.sound.declarations visible.inside).namespaceOf kind).2,
      (supported.needs included).exported kind⟩
  provided kind := (supported.needs included).provided kind

theorem Grounded.includes_denoted (grounded : graph.Grounded)
    (supported : graph.selection.Supported graph) {id : NodeId} {node : Node}
    (found : graph.nodes[id.index]? = some node) (included : graph.includesNode id = true) :
    ∀ p ∈ Expr.partsAll node.fragment.children, ∀ declaration,
      graph.denotation? p.id = some declaration → graph.includesDeclaration declaration = true := by
  intro p part declaration denoted
  have down : ∀ {id : NodeId} {below : Node}, graph.nodes[id.index]? = some below →
      graph.includesNode id = true → ∀ e ∈ below.fragment.children, graph.includesNode e.id = true := by
    intro id below at_id included e child
    rw [← nodeAt_of_getElem? at_id] at child
    exact (supported.parts included).child e child
  have here := grounded.arena.forall_ids (P := fun id => graph.includesNode id = true) down found included
    p.id ((grounded.arena.mem_ids found).mpr (.inr ⟨p, part, rfl⟩))
  exact (supported.parts here).denoted denoted

theorem Sound.exported (sound : graph.Sound) {id : ModuleId} {declaration : DeclId}
    (member : declaration ∈ graph.exportedDeclarations id) :
    graph.Visible id declaration ∧ graph.Final declaration := by
  obtain ⟨entry, listed, rfl⟩ := List.mem_map.mp member
  exact (sound.modules (Symbols.lt_of_mem_resolvedExports listed)).resolved entry listed

section Closed

variable (prepared : graph.Prepared) (closed : graph.selection.Closed graph)

include prepared closed

theorem emitted_of_part {owner : ModuleId} (executed : owner ∈ graph.order)
    {statement : Statement Label} (member : statement ∈ graph.statements owner)
    (included : graph.includesNode statement.id = true) {p : Expr Label}
    (part : p ∈ Expr.partsAll statement.children) {declaration : DeclId}
    (denoted : graph.denotation? p.id = some declaration) : graph.Emitted declaration := by
  have grounded := prepared.sound.grounded
  obtain ⟨-, found⟩ := grounded.statement member
  have visible := prepared.sound.denoted denoted
  rw [nodeAt_of_getElem? (grounded.arena.part found p part)] at visible
  exact prepared.emitted closed.toSupported executed visible (prepared.bound.final denoted)
    (grounded.includes_denoted closed.toSupported found included p part declaration denoted)

theorem emitted_of_exported {owner : ModuleId} (executed : owner ∈ graph.order) {declaration : DeclId}
    (member : declaration ∈ graph.exportedDeclarations owner)
    (included : graph.includesDeclaration declaration = true) : graph.Emitted declaration := by
  obtain ⟨visible, final⟩ := prepared.sound.exported member
  exact prepared.emitted closed.toSupported executed visible final included

theorem emitted_of_namespace {owner : ModuleId} (executed : owner ∈ graph.order)
    (included : graph.includesDeclaration (graph.symbols.moduleAt owner).namespaceDecl = true)
    {declaration : DeclId} (member : declaration ∈ graph.exportedDeclarations owner) :
    graph.Emitted declaration := by
  obtain ⟨entry, listed, same⟩ := List.mem_map.mp member
  have kind := (prepared.sound.modules (Symbols.lt_of_mem_resolvedExports listed)).namespaceDecl.2
  exact emitted_of_exported prepared closed executed member
    ((closed.needs included).exported kind declaration member)

end Closed

/-- A program that has been linked and resolved is shaken, named and written. -/
theorem bundle_outcome_of_resolve {linked resolved : Graph} (linking : link.outcome made = (.ok (), linked))
    (resolving : (resolve options).outcome linked = (.ok (), resolved)) :
    (Graph.bundle options).outcome made =
      ((assignNames options resolved.retainEntryExports.shake.2).emit options,
        assignNames options resolved.retainEntryExports.shake.2) := by
  rw [Graph.bundle, Step.outcome_bind, linking]
  dsimp only
  rw [Step.outcome_bind, resolving]
  simp only [Step.outcome_bind, Step.outcome_modify, Step.outcome_get, Step.outcome_ofExcept]

/-- When a program has been bundled, what is included in it is closed under the rules. -/
theorem Made.bundled (program : made.Made) {bundle : Bundle}
    (succeeded : (Graph.bundle options).outcome made = (.ok bundle, graph)) :
    graph.Prepared ∧ graph.selection.Closed graph := by
  obtain ⟨linked, resolved, linking, resolving, rfl, -⟩ := bundle_stages succeeded
  obtain ⟨prepared, unselected⟩ := program.prepared linking resolving
  have grounded := prepared.sound.grounded
  have shaken := (grows_retain_shake grounded).alike.sameProgram
  have named := sameProgram_assignNames options resolved.retainEntryExports.shake.2
  refine ⟨named.prepared (shaken.prepared prepared), ?_⟩
  rw [selection_assignNames]
  exact named.agrees.closed (shaken.agrees.closed (closed_shake grounded unselected))

/-- No reference in a bundle is left without a definition: all that the parts of included statements
    denote, all that the entry exports, and all members of namespace objects that are written. -/
theorem bundle_closed (program : made.Made) {bundle : Bundle}
    (succeeded : (Graph.bundle options).outcome made = (.ok bundle, graph)) :
    (∀ owner ∈ graph.order, ∀ statement ∈ graph.statements owner,
      graph.includesNode statement.id = true → ∀ p ∈ Expr.partsAll statement.children,
        ∀ declaration, graph.denotation? p.id = some declaration → graph.Emitted declaration) ∧
    (∀ declaration ∈ graph.exportedDeclarations graph.entry, graph.Emitted declaration) ∧
    ∀ owner ∈ graph.order,
      graph.includesDeclaration (graph.symbols.moduleAt owner).namespaceDecl = true →
        ∀ declaration ∈ graph.exportedDeclarations owner, graph.Emitted declaration := by
  obtain ⟨prepared, closed⟩ := program.bundled succeeded
  refine ⟨fun owner executed statement member included p part declaration denoted => ?_,
    fun declaration member => ?_, fun owner executed included declaration member => ?_⟩
  · exact emitted_of_part prepared closed executed member included part denoted
  · exact emitted_of_exported prepared closed prepared.entry_executed member
      (closed.entry declaration member)
  · exact emitted_of_namespace prepared closed executed included member

/-- The name that is imported for the greeting is defined in the output. -/
theorem bundle_greeting : ∃ bundle graph,
    (Graph.bundle {}).outcome greeting = (.ok bundle, graph) ∧ graph.Emitted ⟨2⟩ := by
  have succeeds : ((Graph.bundle {}).outcome greeting).1.isOk = true := by decide +kernel
  have refers : ∃ owner ∈ ((Graph.bundle {}).outcome greeting).2.order,
      ∃ statement ∈ ((Graph.bundle {}).outcome greeting).2.statements owner,
        ((Graph.bundle {}).outcome greeting).2.includesNode statement.id = true ∧
          ∃ p ∈ Expr.partsAll statement.children,
            ((Graph.bundle {}).outcome greeting).2.denotation? p.id = some ⟨2⟩ := by
    decide +kernel
  cases result : (Graph.bundle {}).outcome greeting with
  | mk returned graph =>
      rw [result] at succeeds refers
      cases returned with
      | error fault => cases succeeds
      | ok bundle =>
          obtain ⟨owner, executed, statement, member, included, p, part, denoted⟩ := refers
          obtain ⟨references, -, -⟩ := bundle_closed made_greeting result
          exact ⟨bundle, graph, rfl,
            references owner executed statement member included p part ⟨2⟩ denoted⟩

end Bundler.Graph
