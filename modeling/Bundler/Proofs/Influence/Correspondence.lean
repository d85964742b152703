import Bundler.Proofs.Graph.SameProgram
import Bundler.Proofs.Inclusion.Least
import Bundler.Proofs.Influence.Twins

/-! # Corresponding programs

Two programs correspond within a third one if they have its modules and nodes, and know the same of these
up to twins.  The rules for what belongs to a bundle cannot tell corresponding programs apart: a selection
that is closed in one of them is closed in the other when it is taken over to the twins, so shaking
selects twins.
-/

namespace Bundler

/-! ## Twins the other way round -/

section Flip

variable {twin : DeclId → DeclId → Prop}

theorem DeclarationKind.Twins.symm {kind other : DeclarationKind} (twins : kind.Twins twin other) :
    other.Twins (flip twin) kind := by
  cases twins with
  | declared => exact .declared
  | unlinked => exact .unlinked
  | linked target => exact .linked target
  | namespaceOf => exact .namespaceOf
  | provided => exact .provided
  | free => exact .free

theorem Resolution.Twins.symm {resolution other : Option Resolution}
    (twins : Resolution.Twins twin resolution other) : Resolution.Twins (flip twin) other resolution := by
  cases twins with
  | unknown => exact .unknown
  | declaration found => exact .declaration found
  | undefined => exact .undefined
  | fallback => exact .fallback

theorem ExportTwins.symm {exports others : List (String × DeclId)}
    (twins : ExportTwins twin exports others) :
    ExportTwins (flip twin) others exports := by
  induction twins with
  | nil => exact .nil
  | cons here _ ih => exact .cons ⟨here.1.symm, here.2⟩ ih

theorem ExportTwins.exists_twin {exports others : List (String × DeclId)}
    (twins : ExportTwins twin exports others) {other : DeclId} (member : other ∈ others.map (·.2)) :
    ∃ id ∈ exports.map (·.2), twin id other := by
  induction twins with
  | nil => cases member
  | cons here _ ih =>
      rcases List.mem_cons.mp member with rfl | among
      · exact ⟨_, List.mem_cons_self, here.2⟩
      · obtain ⟨id, listed, twins⟩ := ih among
        exact ⟨id, List.mem_cons_of_mem _ listed, twins⟩

end Flip

namespace Graph

variable {base graph other : Graph} {twin : DeclId → DeclId → Prop}

/-- What a kind of declaration refers to is part of the program. -/
def HasKind (base : Graph) : DeclarationKind → Prop
  | .declared statement => statement.index < base.nodes.size
  | .namespaceOf owner => base.HasProvider (.internal owner)
  | .provided source _ => base.HasProvider (.external source)
  | .imported _ _ _ | .free => True

/-- Both programs have the modules and nodes of the base, and know the same about them, up to twins. -/
structure Corresponds (base : Graph) (twin : DeclId → DeclId → Prop) (graph other : Graph) : Prop where
  node : ∀ {id : NodeId} {node}, base.nodes[id.index]? = some node →
    graph.nodes[id.index]? = some node ∧ other.nodes[id.index]? = some node
  resolution : ∀ {id : NodeId}, id.index < base.nodes.size →
    Resolution.Twins twin (graph.resolutionAt id) (other.resolutionAt id)
  inside : ∀ {a b}, twin a b → graph.HasDeclaration a ∧ other.HasDeclaration b
  kind : ∀ {a b}, twin a b →
    (graph.symbols.declarationAt a).kind.Twins twin (other.symbols.declarationAt b).kind
  known : ∀ {a b}, twin a b → base.HasKind (graph.symbols.declarationAt a).kind
  left : ∀ {a b c}, twin a b → twin a c → b = c
  right : ∀ {a b c}, twin a c → twin b c → a = b
  exports : ∀ {owner : ModuleId}, base.HasProvider (.internal owner) →
    ExportTwins twin (graph.symbols.moduleAt owner).resolvedExports
      (other.symbols.moduleAt owner).resolvedExports
  body : ∀ {owner : ModuleId}, base.HasProvider (.internal owner) →
    (graph.symbols.moduleAt owner).body = (base.symbols.moduleAt owner).body ∧
      (other.symbols.moduleAt owner).body = (base.symbols.moduleAt owner).body
  order : other.order = graph.order
  ordered : ∀ owner ∈ graph.order, base.HasProvider (.internal owner)
  entry : other.entry = graph.entry
  start : base.HasProvider (.internal graph.entry)

namespace Corresponds

theorem symm (corresponds : Corresponds base twin graph other) :
    Corresponds base (flip twin) other graph where
  node found := (corresponds.node found).symm
  resolution inside := (corresponds.resolution inside).symm
  inside twins := (corresponds.inside twins).symm
  kind twins := (corresponds.kind twins).symm
  known {a b} twins := by
    have known := corresponds.known twins
    have kinds := corresponds.kind twins
    generalize (graph.symbols.declarationAt b).kind = kind, (other.symbols.declarationAt a).kind = kind'
      at kinds known ⊢
    cases kinds <;> exact known
  left first second := corresponds.right first second
  right first second := corresponds.left first second
  exports there := (corresponds.exports there).symm
  body there := (corresponds.body there).symm
  order := corresponds.order.symm
  ordered owner member := corresponds.ordered owner (corresponds.order ▸ member)
  entry := corresponds.entry.symm
  start := corresponds.entry ▸ corresponds.start

variable (corresponds : Corresponds base twin graph other)

include corresponds

theorem nodeAt {id : NodeId} (inside : id.index < base.nodes.size) :
    graph.nodeAt id = base.nodeAt id ∧ other.nodeAt id = base.nodeAt id := by
  have found : base.nodes[id.index]? = some base.nodes[id.index] := Array.getElem?_eq_getElem inside
  obtain ⟨here, there⟩ := corresponds.node found
  rw [nodeAt_of_getElem? found, nodeAt_of_getElem? here, nodeAt_of_getElem? there]
  exact ⟨rfl, rfl⟩

theorem denotation? {id : NodeId} (inside : id.index < base.nodes.size) :
    Option.Rel twin (graph.denotation? id) (other.denotation? id) := by
  have twins := corresponds.resolution inside
  rw [Graph.denotation?, Graph.denotation?]
  generalize graph.resolutionAt id = resolution, other.resolutionAt id = resolution' at twins
  cases twins with
  | declaration same => exact .some same
  | unknown | undefined | fallback => exact .none

theorem isSettled {id : NodeId} (inside : id.index < base.nodes.size) :
    other.isSettled id = graph.isSettled id := by
  have twins := corresponds.resolution inside
  rw [Graph.isSettled, Graph.isSettled]
  generalize graph.resolutionAt id = resolution, other.resolutionAt id = resolution' at twins
  cases twins <;> rfl

end Corresponds

/-! ## Effects -/

section Effects

variable (corresponds : Corresponds base twin graph other)
  (more : ∀ {a b}, twin a b → other.includesDeclaration b = true → graph.includesDeclaration a = true)

include corresponds more

theorem Corresponds.writeHasEffects {a b : DeclId} (twins : twin a b)
    (effect : other.writeHasEffects b = true) : graph.writeHasEffects a = true := by
  have kinds := corresponds.kind twins
  unfold Graph.writeHasEffects at *
  dsimp only at *
  generalize (graph.symbols.declarationAt a).kind = kind at kinds ⊢
  generalize (other.symbols.declarationAt b).kind = kind' at kinds effect
  cases kinds with
  | declared => exact more twins effect
  | unlinked | linked | namespaceOf | provided | free => rfl

theorem Corresponds.assignmentHasEffects {e : Expr Label} (inside : e.id.index < base.nodes.size)
    (effect : other.assignmentHasEffects e = true) : graph.assignmentHasEffects e = true := by
  cases e with
  | ident label name =>
      have denoted := corresponds.denotation? inside
      change Option.Rel twin (graph.denotation? label.id) (other.denotation? label.id) at denoted
      rw [Graph.assignmentHasEffects] at effect ⊢
      generalize graph.denotation? label.id = found, other.denotation? label.id = found' at denoted effect
      cases denoted with
      | some twins => exact corresponds.writeHasEffects more twins effect
      | none => rfl
  | literal | member | index | call | assign => rfl

variable {owner : ModuleId} (arena : Arena base.nodes)

include arena

theorem Corresponds.exprHasEffects : ∀ e : Expr Label, base.nodes[e.id.index]? = some ⟨owner, .expr e⟩ →
    other.exprHasEffects e = true → graph.exprHasEffects e = true
  | .ident _ _, _, effect | .literal _ _, _, effect => effect
  | .member label object key, placed, effect => by
      have settled := corresponds.isSettled (Array.getElem?_eq_some_iff.mp placed).1
      change other.isSettled label.id = graph.isSettled label.id at settled
      have below := (arena.child placed object List.mem_cons_self).2
      simp only [Graph.exprHasEffects, Bool.and_eq_true, settled] at effect ⊢
      exact ⟨effect.1, exprHasEffects object below effect.2⟩
  | .index label object key, placed, effect => by
      have settled := corresponds.isSettled (Array.getElem?_eq_some_iff.mp placed).1
      change other.isSettled label.id = graph.isSettled label.id at settled
      have first := (arena.child placed object List.mem_cons_self).2
      have second := (arena.child placed key (List.mem_cons_of_mem _ List.mem_cons_self)).2
      simp only [Graph.exprHasEffects, Bool.and_eq_true, Bool.or_eq_true, settled] at effect ⊢
      exact ⟨effect.1, effect.2.imp (exprHasEffects object first) (exprHasEffects key second)⟩
  | .call _ _ _, _, _ => rfl
  | .assign label target value, placed, effect => by
      have first := (arena.child placed target List.mem_cons_self).2
      have second := (arena.child placed value (List.mem_cons_of_mem _ List.mem_cons_self)).2
      simp only [Graph.exprHasEffects, Bool.or_eq_true] at effect ⊢
      exact effect.imp (exprHasEffects value second)
        (corresponds.assignmentHasEffects more (Array.getElem?_eq_some_iff.mp first).1)

/-- What has effects in the other program has effects in this one, which includes no less. -/
theorem Corresponds.hasEffects {id : NodeId} {node : Node} (found : base.nodes[id.index]? = some node)
    (effect : other.hasEffects id = true) : graph.hasEffects id = true := by
  obtain ⟨here, there⟩ := corresponds.node found
  unfold Graph.hasEffects at *
  rw [nodeAt_of_getElem? here]
  rw [nodeAt_of_getElem? there] at effect
  obtain ⟨owner, statement | e⟩ := node
  · obtain ⟨e, child, effect⟩ := List.any_eq_true.mp effect
    exact List.any_eq_true.mpr
      ⟨e, child, corresponds.exprHasEffects more arena e (arena.child found e child).2 effect⟩
  · have label : e.id = id := arena.label found
    exact corresponds.exprHasEffects more arena e (label.symm ▸ found) effect

end Effects

/-! ## Selections -/

open Classical in
/-- What is selected, taken over to the twins. -/
noncomputable def acrossTwins (base : Graph) (twin : DeclId → DeclId → Prop) (s : Selection) :
    Selection where
  nodes id := decide (id.index < base.nodes.size) && s.nodes id
  declarations b := decide (∃ a, twin a b ∧ s.declarations a = true)
  externals id := decide (id.index < base.symbols.externals.size) && s.externals id

theorem nodes_acrossTwins {s : Selection} {id : NodeId} :
    (acrossTwins base twin s).nodes id = true ↔ id.index < base.nodes.size ∧ s.nodes id = true := by
  simp [acrossTwins]

theorem declarations_acrossTwins {s : Selection} {b : DeclId} :
    (acrossTwins base twin s).declarations b = true ↔ ∃ a, twin a b ∧ s.declarations a = true := by
  simp [acrossTwins]

theorem externals_acrossTwins {s : Selection} {id : ExternalId} :
    (acrossTwins base twin s).externals id = true ↔
      id.index < base.symbols.externals.size ∧ s.externals id = true := by
  simp [acrossTwins]

namespace Corresponds

variable (corresponds : Corresponds base twin graph other)

include corresponds

/-- What is included and how it is named does not matter. -/
theorem sameProgram {graph' other' : Graph} (same : SameProgram graph graph')
    (same' : SameProgram other other') : Corresponds base twin graph' other' where
  node found := by
    rw [same.nodes, same'.nodes]
    exact corresponds.node found
  resolution inside := by
    rw [same.resolutionAt, same'.resolutionAt]
    exact corresponds.resolution inside
  inside twins := by
    rw [HasDeclaration, HasDeclaration, same.declarations, same'.declarations]
    exact corresponds.inside twins
  kind twins := by
    rw [same.kind, same'.kind]
    exact corresponds.kind twins
  known twins := by
    rw [same.kind]
    exact corresponds.known twins
  left := corresponds.left
  right := corresponds.right
  exports there := by
    rw [same.moduleAt, same'.moduleAt]
    exact corresponds.exports there
  body there := by
    rw [same.moduleAt, same'.moduleAt]
    exact corresponds.body there
  order := by rw [same.order, same'.order, corresponds.order]
  ordered := same.order ▸ corresponds.ordered
  entry := by rw [same.entry, same'.entry, corresponds.entry]
  start := same.entry ▸ corresponds.start

theorem select (s t : Selection) : Corresponds base twin (graph.select s) (other.select t) :=
  corresponds.sameProgram (Alike.sameProgram ⟨s, rfl⟩) (Alike.sameProgram ⟨t, rfl⟩)

/-- A closed selection stays closed when it is taken over to the twins. -/
theorem closed (sound : base.Sound) {s : Selection} (closed : s.Closed graph) :
    (acrossTwins base twin s).Closed other := by
  have exported : ∀ {owner : ModuleId}, base.HasProvider (.internal owner) →
      (∀ a ∈ graph.exportedDeclarations owner, s.declarations a = true) →
      ∀ b ∈ other.exportedDeclarations owner, (acrossTwins base twin s).declarations b = true := by
    intro owner there all b member
    obtain ⟨a, listed, twins⟩ := (corresponds.exports there).exists_twin member
    exact declarations_acrossTwins.mpr ⟨a, twins, all a listed⟩
  refine ⟨⟨fun {id} selected => ?_, fun {b} selected => ?_⟩, ?_, fun owner member id body effect => ?_⟩
  · obtain ⟨inside, selected⟩ := nodes_acrossTwins.mp selected
    obtain ⟨here, there⟩ := corresponds.nodeAt inside
    have parts := closed.parts selected
    refine ⟨fun e child => ?_, fun {b} denoted => ?_⟩
    · rw [there] at child
      have found : base.nodes[id.index]? = some base.nodes[id.index] := Array.getElem?_eq_getElem inside
      rw [nodeAt_of_getElem? found] at child
      have below := (Array.getElem?_eq_some_iff.mp (sound.arena.child found e child).2).1
      refine nodes_acrossTwins.mpr ⟨below, parts.child e ?_⟩
      rwa [here, nodeAt_of_getElem? found]
    · have twins := corresponds.denotation? inside
      rw [denoted] at twins
      generalize found : graph.denotation? id = answer at twins
      cases twins with
      | some twins => exact declarations_acrossTwins.mpr ⟨_, twins, parts.denoted found⟩
  · obtain ⟨a, twins, selected⟩ := declarations_acrossTwins.mp selected
    have needs := closed.needs selected
    have kinds := corresponds.kind twins
    have known := corresponds.known twins
    generalize kind : (graph.symbols.declarationAt a).kind = here at kinds known
    generalize kind' : (other.symbols.declarationAt b).kind = there at kinds
    constructor
    · intro statement same
      cases kind'.symm.trans same
      cases kinds
      exact nodes_acrossTwins.mpr ⟨known, needs.declared kind⟩
    · intro source name target same
      cases kind'.symm.trans same
      cases kinds with
      | linked twins => exact declarations_acrossTwins.mpr ⟨_, twins, needs.target kind⟩
    · intro owner same
      cases kind'.symm.trans same
      cases kinds
      exact exported known (needs.exported kind)
    · intro source name same
      cases kind'.symm.trans same
      cases kinds
      exact externals_acrossTwins.mpr ⟨known, needs.provided kind⟩
  · rw [corresponds.entry]
    exact exported corresponds.start closed.entry
  · rw [corresponds.order] at member
    have there := corresponds.ordered owner member
    obtain ⟨here, also⟩ := corresponds.body there
    rw [also] at body
    obtain ⟨statement, found⟩ := sound.grounded.body body
    refine nodes_acrossTwins.mpr ⟨(Array.getElem?_eq_some_iff.mp found).1, ?_⟩
    refine closed.effect owner member id (here ▸ body) ?_
    -- Effects depend on what is included, so they are compared with the selections put in.
    refine (corresponds.select s (acrossTwins base twin s)).hasEffects (fun {a b} twins included => ?_)
      sound.arena found effect
    rw [includesDeclaration_select, Bool.and_eq_true, decide_eq_true_eq] at included ⊢
    obtain ⟨c, twins', selected⟩ := declarations_acrossTwins.mp included.2
    exact ⟨(corresponds.inside twins).1, corresponds.right twins twins' ▸ selected⟩

/-- What is included in the other program is the twin of what is included in this one. -/
theorem shake_le (sound : base.Sound) (grounded : graph.Grounded) (grounded' : other.Grounded)
    (unselected : graph.selection = ⊥) (unselected' : other.selection = ⊥) :
    other.retainEntryExports.shake.2.selection ≤
      acrossTwins base twin graph.retainEntryExports.shake.2.selection :=
  Graph.shake_le grounded' unselected' (corresponds.closed sound (closed_shake grounded unselected))

end Corresponds

/-- The same is selected in both programs. -/
structure Balanced (base : Graph) (twin : DeclId → DeclId → Prop) (s t : Selection) : Prop where
  node : ∀ {id : NodeId}, id.index < base.nodes.size → t.nodes id = s.nodes id
  declaration : ∀ {a b}, twin a b → t.declarations b = s.declarations a
  left : ∀ {a}, s.declarations a = true → ∃ b, twin a b
  right : ∀ {b}, t.declarations b = true → ∃ a, twin a b
  external : ∀ {id : ExternalId}, id.index < base.symbols.externals.size → t.externals id = s.externals id
  used : ∀ {id : ExternalId}, t.externals id = true → id.index < base.symbols.externals.size

theorem Corresponds.balanced_of_le (corresponds : Corresponds base twin graph other) {s t : Selection}
    (there : t ≤ acrossTwins base twin s) (back : s ≤ acrossTwins base (flip twin) t) :
    Balanced base twin s t where
  node _ := Bool.eq_iff_iff.mpr
    ⟨fun selected => (nodes_acrossTwins.mp (there.1 _ selected)).2,
      fun selected => (nodes_acrossTwins.mp (back.1 _ selected)).2⟩
  declaration {a b} twins := by
    refine Bool.eq_iff_iff.mpr ⟨fun selected => ?_, fun selected => ?_⟩
    · obtain ⟨c, twins', selected⟩ := declarations_acrossTwins.mp (there.2.1 _ selected)
      exact corresponds.right twins' twins ▸ selected
    · obtain ⟨c, twins', selected⟩ := declarations_acrossTwins.mp (back.2.1 _ selected)
      exact corresponds.left twins' twins ▸ selected
  left selected := by
    obtain ⟨b, twins, -⟩ := declarations_acrossTwins.mp (back.2.1 _ selected)
    exact ⟨b, twins⟩
  right selected := by
    obtain ⟨a, twins, -⟩ := declarations_acrossTwins.mp (there.2.1 _ selected)
    exact ⟨a, twins⟩
  external _ := Bool.eq_iff_iff.mpr
    ⟨fun used => (externals_acrossTwins.mp (there.2.2 _ used)).2,
      fun used => (externals_acrossTwins.mp (back.2.2 _ used)).2⟩
  used used := (externals_acrossTwins.mp (there.2.2 _ used)).1

/-- Shaking corresponding programs includes the same in both. -/
theorem Corresponds.balanced (corresponds : Corresponds base twin graph other) (sound : base.Sound)
    (grounded : graph.Grounded) (grounded' : other.Grounded) (unselected : graph.selection = ⊥)
    (unselected' : other.selection = ⊥) :
    Balanced base twin graph.retainEntryExports.shake.2.selection
      other.retainEntryExports.shake.2.selection :=
  corresponds.balanced_of_le (corresponds.shake_le sound grounded grounded' unselected unselected')
    (corresponds.symm.shake_le sound grounded' grounded unselected' unselected)

end Graph

end Bundler
