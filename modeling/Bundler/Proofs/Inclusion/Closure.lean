import Bundler.Proofs.Graph.Grounded
import Bundler.Proofs.Inclusion.Selection

/-! # Closed selections

The rules for what belongs to a bundle, as closure conditions on a selection.  The rule for effects
judges a statement in the graph with that very selection, which is sound because selecting more can
only make more effects noticeable.
-/

namespace Bundler

/-- What a node takes along is selected. -/
structure Selection.HasParts (s : Selection) (graph : Graph) (id : NodeId) : Prop where
  child : ∀ e ∈ (graph.nodeAt id).fragment.children, s.nodes e.id = true
  denoted : ∀ {declaration}, graph.denotation? id = some declaration →
    s.declarations declaration = true

/-- What a declaration takes along is selected. -/
structure Selection.HasNeeds (s : Selection) (graph : Graph) (id : DeclId) : Prop where
  declared : ∀ {statement}, (graph.symbols.declarationAt id).kind = .declared statement →
    s.nodes statement = true
  target : ∀ {source name target},
    (graph.symbols.declarationAt id).kind = .imported source name (some target) →
    s.declarations target = true
  exported : ∀ {owner}, (graph.symbols.declarationAt id).kind = .namespaceOf owner →
    ∀ declaration ∈ graph.exportedDeclarations owner, s.declarations declaration = true
  provided : ∀ {source name}, (graph.symbols.declarationAt id).kind = .provided source name →
    s.externals source = true

/-- Whatever is selected has all that it takes along selected. -/
structure Selection.Supported (s : Selection) (graph : Graph) : Prop where
  parts : ∀ {id}, s.nodes id = true → s.HasParts graph id
  needs : ∀ {id}, s.declarations id = true → s.HasNeeds graph id

/-- A selection that the rules for a bundle add nothing to. -/
structure Selection.Closed (s : Selection) (graph : Graph) : Prop extends s.Supported graph where
  entry : ∀ declaration ∈ graph.exportedDeclarations graph.entry, s.declarations declaration = true
  /-- A statement whose effects may be noticed in a bundle of just this selection is selected. -/
  effect : ∀ owner ∈ graph.order, ∀ id ∈ (graph.symbols.moduleAt owner).body,
    (graph.select s).hasEffects id = true → s.nodes id = true

namespace Graph

variable {graph other : Graph}

/-- The graphs agree in all that the rules depend on, other than what is included. -/
structure Agrees (graph other : Graph) : Prop where
  nodes : other.nodes = graph.nodes
  marks : other.marks.size = graph.marks.size
  resolutionAt : ∀ id, other.resolutionAt id = graph.resolutionAt id
  declarations : other.symbols.declarations.size = graph.symbols.declarations.size
  externals : other.symbols.externals.size = graph.symbols.externals.size
  kind : ∀ id, (other.symbols.declarationAt id).kind = (graph.symbols.declarationAt id).kind
  exports : ∀ id,
    (other.symbols.moduleAt id).resolvedExports = (graph.symbols.moduleAt id).resolvedExports
  body : ∀ {id : ModuleId} {node : NodeId},
    node ∈ (other.symbols.moduleAt id).body ↔ node ∈ (graph.symbols.moduleAt id).body
  order : ∀ {id}, id ∈ other.order ↔ id ∈ graph.order
  entry : other.entry = graph.entry

namespace Agrees

theorem symm (agrees : Agrees graph other) : Agrees other graph where
  nodes := agrees.nodes.symm
  marks := agrees.marks.symm
  resolutionAt id := (agrees.resolutionAt id).symm
  declarations := agrees.declarations.symm
  externals := agrees.externals.symm
  kind id := (agrees.kind id).symm
  exports id := (agrees.exports id).symm
  body := agrees.body.symm
  order := agrees.order.symm
  entry := agrees.entry.symm

theorem nodeAt (agrees : Agrees graph other) (id : NodeId) : other.nodeAt id = graph.nodeAt id := by
  rw [Graph.nodeAt, agrees.nodes]
  rfl

theorem denotation? (agrees : Agrees graph other) (id : NodeId) :
    other.denotation? id = graph.denotation? id := by
  rw [Graph.denotation?, agrees.resolutionAt]
  rfl

theorem exportedDeclarations (agrees : Agrees graph other) (id : ModuleId) :
    other.exportedDeclarations id = graph.exportedDeclarations id := by
  rw [Graph.exportedDeclarations, agrees.exports]
  rfl

theorem grounded (agrees : Agrees graph other) (grounded : graph.Grounded) : other.Grounded := by
  refine ⟨agrees.nodes ▸ grounded.arena, ?_, fun member => ?_, ?_, ?_, ?_, ?_, ?_⟩
  · rw [agrees.marks, agrees.nodes, grounded.marks]
  · exact agrees.nodes ▸ grounded.body (agrees.body.mp member)
  · intro id declaration denoted
    rw [agrees.denotation?] at denoted
    exact agrees.declarations ▸ grounded.denoted denoted
  · intro id statement inside kind
    rw [agrees.kind] at kind
    exact agrees.nodes ▸ grounded.declared (agrees.declarations ▸ inside) kind
  · intro id source name target kind
    rw [agrees.kind] at kind
    exact agrees.declarations ▸ grounded.target kind
  · intro id declaration member
    rw [agrees.exportedDeclarations] at member
    exact agrees.declarations ▸ grounded.exported member
  · intro id source name kind
    rw [agrees.kind] at kind
    exact agrees.externals ▸ grounded.provided kind

theorem hasParts (agrees : Agrees graph other) {s : Selection} {id : NodeId}
    (parts : s.HasParts graph id) : s.HasParts other id where
  child := agrees.nodeAt id ▸ parts.child
  denoted := agrees.denotation? id ▸ parts.denoted

theorem hasNeeds (agrees : Agrees graph other) {s : Selection} {id : DeclId}
    (needs : s.HasNeeds graph id) : s.HasNeeds other id where
  declared := agrees.kind id ▸ needs.declared
  target := agrees.kind id ▸ needs.target
  exported {owner} := agrees.kind id ▸ agrees.exportedDeclarations owner ▸ needs.exported
  provided := agrees.kind id ▸ needs.provided

theorem supported (agrees : Agrees graph other) {s : Selection} (supported : s.Supported graph) :
    s.Supported other where
  parts selected := agrees.hasParts (supported.parts selected)
  needs selected := agrees.hasNeeds (supported.needs selected)

theorem select (agrees : Agrees graph other) (s : Selection) :
    Agrees (graph.select s) (other.select s) where
  nodes := agrees.nodes
  marks := by simpa [Graph.select] using agrees.marks
  resolutionAt id := by simpa using agrees.resolutionAt id
  declarations := by simpa [Graph.select] using agrees.declarations
  externals := by simpa [Graph.select] using agrees.externals
  kind id := by simpa using agrees.kind id
  exports := agrees.exports
  body := agrees.body
  order := agrees.order
  entry := agrees.entry

end Agrees

/-! ## Effects -/

theorem writeHasEffects_mono (agrees : Agrees graph other)
    (more : ∀ id, graph.includesDeclaration id = true → other.includesDeclaration id = true)
    {id : DeclId} (effect : graph.writeHasEffects id = true) : other.writeHasEffects id = true := by
  unfold writeHasEffects at *
  dsimp only at *
  rw [agrees.kind]
  split at effect
  · exact more id effect
  · rfl

theorem assignmentHasEffects_mono (agrees : Agrees graph other)
    (more : ∀ id, graph.includesDeclaration id = true → other.includesDeclaration id = true)
    {e : Expr Label} (effect : graph.assignmentHasEffects e = true) :
    other.assignmentHasEffects e = true := by
  cases e with
  | ident label name =>
      simp only [assignmentHasEffects, Graph.denotation?, agrees.resolutionAt] at effect ⊢
      split at effect
      next id denoted => exact writeHasEffects_mono agrees more effect
      next => rfl
  | literal | member | index | call | assign => rfl

theorem exprHasEffects_mono (agrees : Agrees graph other)
    (more : ∀ id, graph.includesDeclaration id = true → other.includesDeclaration id = true) :
    ∀ e : Expr Label, graph.exprHasEffects e = true → other.exprHasEffects e = true
  | .ident _ _, effect | .literal _ _, effect => effect
  | .member label object key, effect => by
      simp only [exprHasEffects, Bool.and_eq_true, Graph.isSettled, agrees.resolutionAt] at effect ⊢
      exact ⟨effect.1, exprHasEffects_mono agrees more object effect.2⟩
  | .index label object key, effect => by
      simp only [exprHasEffects, Bool.and_eq_true, Bool.or_eq_true, Graph.isSettled,
        agrees.resolutionAt] at effect ⊢
      exact ⟨effect.1, effect.2.imp (exprHasEffects_mono agrees more object)
        (exprHasEffects_mono agrees more key)⟩
  | .call _ _ _, _ => rfl
  | .assign _ target value, effect => by
      simp only [exprHasEffects, Bool.or_eq_true] at effect ⊢
      exact effect.imp (exprHasEffects_mono agrees more value)
        (assignmentHasEffects_mono agrees more)

theorem statementHasEffects_mono (agrees : Agrees graph other)
    (more : ∀ id, graph.includesDeclaration id = true → other.includesDeclaration id = true)
    {statement : Statement Label} (effect : graph.statementHasEffects statement = true) :
    other.statementHasEffects statement = true := by
  simp only [statementHasEffects, List.any_eq_true] at effect ⊢
  obtain ⟨e, child, effect⟩ := effect
  exact ⟨e, child, exprHasEffects_mono agrees more e effect⟩

/-- Including more declarations makes no node's effects less noticeable. -/
theorem hasEffects_mono (agrees : Agrees graph other)
    (more : ∀ id, graph.includesDeclaration id = true → other.includesDeclaration id = true)
    {id : NodeId} (effect : graph.hasEffects id = true) : other.hasEffects id = true := by
  unfold hasEffects at *
  rw [agrees.nodeAt]
  split at effect
  · exact statementHasEffects_mono agrees more effect
  · exact exprHasEffects_mono agrees more _ effect

/-- The rules are the same in both graphs. -/
theorem Agrees.closed (agrees : Agrees graph other) {s : Selection} (closed : s.Closed graph) :
    s.Closed other := by
  refine ⟨agrees.supported closed.toSupported, ?_, fun owner member id body effect => ?_⟩
  · rw [agrees.entry, agrees.exportedDeclarations]
    exact closed.entry
  · refine closed.effect owner (agrees.order.mp member) id (agrees.body.mp body)
      (hasEffects_mono (agrees.select s).symm (fun declaration included => ?_) effect)
    rwa [includesDeclaration_select, agrees.declarations, ← includesDeclaration_select] at included

/-! ## Alike graphs -/

namespace Alike

theorem agrees (alike : Alike graph other) : Agrees graph other := by
  obtain ⟨s, rfl⟩ := alike
  exact ⟨rfl, by simp [select], resolutionAt_select s, by simp [select], by simp [select],
    kind_select s, fun _ => rfl, .rfl, .rfl, rfl⟩

theorem statements (alike : Alike graph other) (id : ModuleId) :
    other.statements id = graph.statements id := by
  obtain ⟨s, rfl⟩ := alike
  rfl

theorem grounded (alike : Alike graph other) : graph.Grounded → other.Grounded :=
  alike.agrees.grounded

theorem hasParts (alike : Alike graph other) {s : Selection} {id : NodeId} :
    s.HasParts graph id → s.HasParts other id := alike.agrees.hasParts

theorem hasNeeds (alike : Alike graph other) {s : Selection} {id : DeclId} :
    s.HasNeeds graph id → s.HasNeeds other id := alike.agrees.hasNeeds

theorem supported (alike : Alike graph other) {s : Selection} :
    s.Supported graph → s.Supported other := alike.agrees.supported

theorem sizes (alike : Alike graph other) :
    other.marks.size = graph.marks.size ∧
      other.symbols.declarations.size = graph.symbols.declarations.size ∧
      other.symbols.externals.size = graph.symbols.externals.size :=
  ⟨alike.agrees.marks, alike.agrees.declarations, alike.agrees.externals⟩

end Alike

end Graph

end Bundler
