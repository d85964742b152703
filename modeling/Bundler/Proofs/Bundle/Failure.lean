import Bundler.Proofs.Bundle.OnceLinked
import Bundler.Proofs.Output.Modules

/-! # Only linking can fail

Linking looks at the names that modules export by themselves and at what is imported; resolving asks for
whatever names the program reads.  A name that no module lists can only meet stars and external modules
on its way, so no circle comes to light late.  Nodes that are resolved one by one, in any order, do not
fail either, and no edit is refused.
-/

namespace Bundler.Graph

variable {graph other made : Graph} {options : Options}

theorem Navigable.resolveNode (navigable : graph.Navigable) (options : Options) {id : NodeId}
    (inside : id.index < graph.nodes.size) :
    ∃ after, (resolveNode options id).outcome graph = (.ok (), after) := by
  have arena := navigable.sound.arena
  have succeeds : ∀ {step : Step Graph Unit}, Explores graph step →
      ∃ after, step.outcome graph = (.ok (), after) := fun explores => by
    obtain ⟨_, after, outcome, -, -⟩ := explores graph (Develops.refl graph)
    exact ⟨after, outcome⟩
  have found : graph.nodes[id.index]? = some graph.nodes[id.index] := Array.getElem?_eq_getElem inside
  have label := arena.label found
  rw [Graph.resolveNode, Step.outcome_bind, Step.outcome_get]
  dsimp only
  rw [nodeAt_of_getElem? found]
  generalize graph.nodes[id.index] = node at found label ⊢
  obtain ⟨owner, fragment⟩ := node
  have composes := navigable.composes_explores options owner
  cases fragment with
  | statement body =>
      exact succeeds (.once (composes.resolveExprs _ fun e child => (arena.child found e child).2))
  | expr body =>
      have placed : Placed graph.nodes owner body := by rwa [Placed, show body.id = id from label]
      exact succeeds (composes.resolveExpr body placed)

theorem Intact.emitModule (intact : graph.Intact) (named : graph.Named) (options : Options)
    (id : ModuleId) : ∃ emitted, graph.emitModule options id = .ok emitted := by
  obtain ⟨edits, -, patched⟩ := outcome_patchModule intact named options id
  rw [Graph.emitModule, patched]
  exact ⟨_, rfl⟩

/-- A graph can be written if each of its modules can. -/
theorem emit_succeeds (emits : ∀ id, ∃ emitted, graph.emitModule options id = .ok emitted) :
    ∃ bundle, graph.emit options = .ok bundle := by
  have all : ∀ ids : List ModuleId, ∃ modules, ids.mapM (graph.emitModule options) = .ok modules := by
    intro ids
    induction ids with
    | nil => exact ⟨[], rfl⟩
    | cons id rest ih =>
        obtain ⟨emitted, first⟩ := emits id
        obtain ⟨modules, later⟩ := ih
        rw [List.mapM_cons, first, later]
        exact ⟨emitted :: modules, rfl⟩
  obtain ⟨modules, written⟩ := all graph.order
  rw [emit, written]
  exact ⟨_, rfl⟩

/-! ## From a successful link on -/

/-- What a program can become by finding out more, by including and by naming. -/
def Becomes : Graph → Graph → Prop :=
  Relation.ReflTransGen fun graph other => Develops graph other ∨ SameProgram graph other

/-- Nothing that is asked of the program fails: no name of any module, no node that is resolved, and no
    module that is written, whether the entry needs it or not. -/
structure Unfailing (graph : Graph) : Prop where
  resolveExport? : ∀ {source}, graph.HasProvider source → ∀ name, ∃ found,
    ((Symbols.resolveExport? source name).outcome graph.symbols).1 = .ok found
  resolveNode : ∀ options {id : NodeId}, id.index < graph.nodes.size →
    ((resolveNode options id).outcome graph).1 = .ok ()
  resolve : ∀ options, ((resolve options).outcome graph).1 = .ok ()
  emitModule : ∀ options id, ∃ emitted, graph.emitModule options id = .ok emitted

theorem Becomes.nodes (becomes : Becomes graph other) : other.nodes = graph.nodes := by
  induction becomes with
  | refl => rfl
  | tail _ last ih =>
      cases last with
      | inl develops => exact develops.nodes.trans ih
      | inr same => exact same.nodes.trans ih

namespace OnceLinked

theorem becomes (linked : graph.OnceLinked) (becomes : Becomes graph other) : other.OnceLinked := by
  induction becomes with
  | refl => exact linked
  | tail _ last ih =>
      cases last with
      | inl develops => exact ih.develops develops
      | inr same => exact ih.sameProgram same

theorem intact (linked : graph.OnceLinked) : graph.Intact := by
  induction linked with
  | link reachable linking =>
      have intact := reachable.intact.link
      rwa [linking] at intact
  | develops _ develops ih => exact ih.develops develops
  | sameProgram _ same ih => exact ih.sameProgram same

theorem unfailing (linked : graph.OnceLinked) (named : graph.Named) : graph.Unfailing where
  resolveExport? known name := by
    obtain ⟨found, _, outcome⟩ := linked.navigable.resolveExport? known name
    exact ⟨found, congrArg Prod.fst outcome⟩
  resolveNode options _ inside := by
    obtain ⟨_, outcome⟩ := linked.navigable.resolveNode options inside
    exact congrArg Prod.fst outcome
  resolve options := by
    obtain ⟨_, outcome, -⟩ := linked.navigable.resolve options
    exact congrArg Prod.fst outcome
  emitModule := linked.intact.emitModule named

end OnceLinked

/-! ## Bundles -/

theorem Intact.becomes_bundle (intact : graph.Intact) (options : Options) :
    ((bundle options).outcome graph).2.Intact ∧ Becomes graph ((bundle options).outcome graph).2 := by
  refine after_bundle (P := fun other => other.Intact ∧ Becomes graph other) ?_ ?_ ?_ ?_ ?_
    ⟨intact, .refl⟩
  · exact fun ⟨intact, becomes⟩ => ⟨intact.link, becomes.tail (.inl (develops_link intact.sound))⟩
  · exact fun ⟨intact, becomes⟩ =>
      ⟨intact.resolve options, becomes.tail (.inl (develops_resolve intact.sound options))⟩
  · exact fun ⟨intact, becomes⟩ =>
      have alike := alike_retainAll _ _
      ⟨intact.alike alike, becomes.tail (.inr alike.sameProgram)⟩
  · exact fun ⟨intact, becomes⟩ =>
      have alike := alike_shakeWithin _ _
      ⟨intact.alike alike, becomes.tail (.inr alike.sameProgram)⟩
  · exact fun ⟨intact, becomes⟩ =>
      ⟨intact.assignNames options, becomes.tail (.inr (sameProgram_assignNames options _))⟩

/-- A finished program that can be linked can be bundled. -/
theorem Made.bundle_succeeds (program : made.Made) (named : made.Named) (options : Options)
    (linking : link.outcome made = (.ok (), other)) :
    ∃ bundled, ((bundle options).outcome made).1 = .ok bundled := by
  obtain ⟨intact, becomes⟩ := Intact.becomes_bundle ⟨program.sound, program.laid⟩ options
  obtain ⟨graph, -, -, outcome⟩ := program.bundle_outcome options linking
  rw [outcome] at intact becomes ⊢
  exact emit_succeeds (intact.emitModule (by rwa [Named, becomes.nodes]) options)

/-- A bundle fails exactly if linking fails, and in the same way.  From a successful link on nothing
    fails any more, whatever else is done with the program. -/
theorem bundle_error_iff (program : made.Made) (named : made.Named) (options : Options) :
    (∀ fault, ((bundle options).outcome made).1 = .error fault ↔
      (link.outcome made).1 = .error fault) ∧
    ∀ linked, link.outcome made = (.ok (), linked) → ∀ graph, Becomes linked graph →
      graph.Unfailing := by
  refine ⟨fun fault => ?_, fun linked linking graph becomes => ?_⟩
  · cases linking : link.outcome made with
    | mk result linked =>
        cases result with
        | error other =>
            rw [bundle, Step.outcome_bind, linking]
            dsimp only
            rw [Except.error.injEq, Except.error.injEq]
        | ok _ =>
            obtain ⟨bundled, succeeds⟩ := program.bundle_succeeds named options linking
            rw [succeeds]
            simp only [reduceCtorEq]
  · have develops := develops_link program.sound
    rw [linking] at develops
    refine (OnceLinked.becomes (.link (.made program) linking) becomes).unfailing ?_
    rw [Named, becomes.nodes, develops.nodes]
    exact named

/-- The greeting can be linked, so it can be bundled, and nothing that is asked of it from then on
    fails. -/
theorem unfailing_greeting : (∀ fault, ((bundle {}).outcome greeting).1 ≠ .error fault) ∧
    ∃ linked, link.outcome greeting = (.ok (), linked) ∧ linked.Unfailing := by
  have named : greeting.Named := by
    unfold Named
    decide
  have succeeds : (link.outcome greeting).1.isOk = true := by decide
  obtain ⟨fails_iff, unfailing⟩ := bundle_error_iff made_greeting named {}
  cases linking : link.outcome greeting with
  | mk result linked =>
      rw [linking] at succeeds fails_iff
      cases result with
      | error fault => cases succeeds
      | ok _ =>
          refine ⟨fun fault failed => ?_, linked, rfl, unfailing linked linking linked .refl⟩
          cases (fails_iff fault).mp failed

end Bundler.Graph
