import Bundler.Proofs.Bundle.Prepared
import Bundler.Proofs.Inclusion.Shaking

/-! # The least selection

Retaining what the entry exports and then shaking selects exactly what the rules for a bundle demand.
Since the least closed selection is unique, the order of the visits cannot matter.
-/

namespace Bundler.Graph

variable {graph other : Graph}

/-! ## Closed selections, statement by statement -/

theorem hasEffects_of_fragment {id : NodeId} {statement : Statement Label}
    (fragment : (graph.nodeAt id).fragment = .statement statement) :
    graph.hasEffects id = graph.statementHasEffects statement := by
  rw [hasEffects, fragment]

/-- The rule for effects is about the statements that a pass visits. -/
theorem Grounded.judges_iff (grounded : graph.Grounded) {s : Selection} :
    (∀ statement ∈ graph.visited, Judges s graph statement) ↔
      ∀ owner ∈ graph.order, ∀ id ∈ (graph.symbols.moduleAt owner).body,
        (graph.select s).hasEffects id = true → s.nodes id = true := by
  constructor
  · intro judges owner ordered id member effect
    obtain ⟨statement, among, rfl, found⟩ := grounded.mem_statements_of_body member
    apply judges statement (mem_visited.mpr ⟨owner, ordered, among⟩)
    have fragment : ((graph.select s).nodeAt statement.id).fragment = .statement statement := by
      rw [nodeAt_select, nodeAt_of_getElem? found]
    rwa [hasEffects_of_fragment fragment] at effect
  · intro effects statement visited effect
    obtain ⟨owner, ordered, among⟩ := mem_visited.mp visited
    obtain ⟨member, found⟩ := grounded.statement among
    apply effects owner ordered statement.id member
    have fragment : ((graph.select s).nodeAt statement.id).fragment = .statement statement := by
      rw [nodeAt_select, nodeAt_of_getElem? found]
    rwa [hasEffects_of_fragment fragment]

theorem supported_bot : (⊥ : Selection).Supported graph := ⟨by simp, by simp⟩

/-! ## Existence and minimality -/

section Least

variable (grounded : graph.Grounded) (unselected : graph.selection = ⊥)

include grounded

theorem grows_retainEntryExports : Grows graph graph.retainEntryExports ∧
    ∀ id ∈ graph.exportedDeclarations graph.entry, graph.retainEntryExports.includesDeclaration id = true :=
  grows_retainAll grounded fun _ member => grounded.exported member

theorem grows_shake : Grows graph graph.shake.2 := grows_shakeWithin _ grounded

theorem grows_retain_shake : Grows graph graph.retainEntryExports.shake.2 := by
  have first := (grows_retainEntryExports grounded).1
  exact first.trans (grows_shake (first.alike.grounded grounded))

include unselected

theorem closed_shake : graph.retainEntryExports.shake.2.selection.Closed graph := by
  obtain ⟨first, entry⟩ := grows_retainEntryExports grounded
  have between := first.alike.grounded grounded
  have second := grows_shake between
  refine ⟨(first.trans second).supported (unselected ▸ supported_bot), fun id member => ?_, ?_⟩
  · exact second.le.2.1 id (entry id member)
  · rw [← grounded.judges_iff]
    intro statement visited effect
    refine judges_shakeWithin _ between (Nat.lt_succ_self _) statement
      (first.alike.visited ▸ visited) ?_
    obtain ⟨t, same⟩ := first.alike
    rwa [same, select_select, ← same]

theorem shake_le {s : Selection} (closed : s.Closed graph) :
    graph.retainEntryExports.shake.2.selection ≤ s := by
  have first : graph.retainEntryExports.selection ≤ s :=
    retainAll_le grounded closed.toSupported (unselected ▸ Selection.bot_le s)
      (fun _ member => grounded.exported member) closed.entry
  exact shakeWithin_le _ grounded closed.toSupported (grounded.judges_iff.mpr closed.effect)
    (grows_retainEntryExports grounded).1.alike first

theorem shake_shake : graph.retainEntryExports.shake.2.shake = (1, graph.retainEntryExports.shake.2) := by
  have closed := closed_shake grounded unselected
  have alike := (grows_retain_shake grounded).alike
  have grounded' := alike.grounded grounded
  have closed' := alike.agrees.closed closed
  exact shake_eq_self grounded' closed'.toSupported (grounded'.judges_iff.mpr closed'.effect)

end Least

/-! ## Other orders -/

/-- The other graph is the same program with its modules and their statements listed in other
    orders. -/
structure Rearranged (graph other : Graph) : Prop where
  order : other.order.Perm graph.order
  body : ∀ id, (other.symbols.moduleAt id).body.Perm (graph.symbols.moduleAt id).body
  nodes : other.nodes = graph.nodes
  marks : other.marks = graph.marks
  entry : other.entry = graph.entry
  declarations : other.symbols.declarations = graph.symbols.declarations
  externals : other.symbols.externals = graph.symbols.externals
  exports : ∀ id,
    (other.symbols.moduleAt id).resolvedExports = (graph.symbols.moduleAt id).resolvedExports

namespace Rearranged

variable (rearranged : Rearranged graph other)

include rearranged

theorem agrees : Agrees graph other where
  nodes := rearranged.nodes
  marks := congrArg Array.size rearranged.marks
  resolutionAt id := by rw [resolutionAt, markAt, rearranged.marks]; rfl
  declarations := congrArg Array.size rearranged.declarations
  externals := congrArg Array.size rearranged.externals
  kind id := by rw [Symbols.declarationAt, rearranged.declarations]; rfl
  exports := rearranged.exports
  body := (rearranged.body _).mem_iff
  order := rearranged.order.mem_iff
  entry := rearranged.entry

theorem selection : other.selection = graph.selection := by
  ext id
  · simp only [Graph.selection, includesNode, markAt, rearranged.marks]
  · simp only [Graph.selection, includesDeclaration, Symbols.declarationAt, rearranged.declarations]
  · simp only [Graph.selection, Symbols.externalAt, rearranged.externals]

end Rearranged

/-- The least selection is the same whatever the order. -/
theorem Rearranged.selection_shake (rearranged : Rearranged graph other) (grounded : graph.Grounded)
    (unselected : graph.selection = ⊥) :
    other.retainEntryExports.shake.2.selection = graph.retainEntryExports.shake.2.selection := by
  have grounded' := rearranged.agrees.grounded grounded
  have unselected' := rearranged.selection.trans unselected
  apply Selection.le_antisymm
  · exact shake_le grounded' unselected' (rearranged.agrees.closed (closed_shake grounded unselected))
  · exact shake_le grounded unselected (rearranged.agrees.symm.closed (closed_shake grounded' unselected'))

/-! ## Finished programs -/

/-- Tree-shaking a program that is linked and resolved selects the least set of nodes, declarations and
    external modules that is closed under the rules for a bundle.  Nothing but flags changes, shaking
    again adds nothing, and the result is the same whatever the order in which modules and statements
    are listed. -/
theorem shake_least {made : Graph} (program : made.Made) (options : Options)
    (bound : (do link; resolve options : Step Graph Unit).outcome made = (.ok (), graph)) :
    graph.retainEntryExports.shake.2.selection.Closed graph ∧
      (∀ s : Selection, s.Closed graph → graph.retainEntryExports.shake.2.selection ≤ s) ∧
      graph.retainEntryExports.shake.2 =
        graph.select graph.retainEntryExports.shake.2.selection ∧
      graph.retainEntryExports.shake.2.shake = (1, graph.retainEntryExports.shake.2) ∧
      ∀ other, Rearranged graph other →
        other.retainEntryExports.shake.2.selection =
          graph.retainEntryExports.shake.2.selection := by
  obtain ⟨_, linked, linking, resolving⟩ := Step.ok_of_bind bound
  obtain ⟨prepared, unselected⟩ := program.prepared linking resolving
  have grounded := prepared.sound.grounded
  exact ⟨closed_shake grounded unselected, fun s => shake_le grounded unselected,
    (grows_retain_shake grounded).alike.select_eq.symm, shake_shake grounded unselected,
    fun other rearranged => rearranged.selection_shake grounded unselected⟩

/-- Shaking the greeting keeps the name and drops the spare declaration. -/
theorem shake_greeting : ∃ graph,
    (do link; resolve {} : Step Graph Unit).outcome greeting = (.ok (), graph) ∧
      graph.retainEntryExports.shake.2.selection.Closed graph ∧
      graph.retainEntryExports.shake.2.shake = (1, graph.retainEntryExports.shake.2) ∧
      graph.retainEntryExports.shake.2.includesDeclaration ⟨2⟩ = true ∧
      graph.retainEntryExports.shake.2.includesDeclaration ⟨3⟩ = false := by
  have bound : (do link; resolve {} : Step Graph Unit).outcome greeting = (.ok (), _) :=
    Step.outcome_eq (by decide +kernel)
  obtain ⟨closed, -, -, again, -⟩ := shake_least made_greeting {} bound
  exact ⟨_, bound, closed, again, by decide +kernel, by decide +kernel⟩

end Bundler.Graph
