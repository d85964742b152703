import Bundler.Proofs.Bundle.Naming
import Bundler.Proofs.Draft.Layout
import Bundler.Proofs.Graph.Denotation
import Bundler.Proofs.Inclusion.Shaking
import Bundler.Bundle

/-! # Reachable states

The steps of bundling may be done in any order, more than once, and go on after one has failed.  None of
them touches the program: the statements of every module stay as they were laid out.
-/

namespace Bundler.Graph

/-- What steps on a finished program can lead to, whether they fail or not. -/
inductive Reachable : Graph → Prop where
  | made {graph} : graph.Made → Reachable graph
  | link {graph} : Reachable graph → Reachable (link.outcome graph).2
  | resolve {graph} (options : Options) :
    Reachable graph → Reachable ((resolve options).outcome graph).2
  | resolveNode {graph} (options : Options) (id : NodeId) :
    Reachable graph → id.index < graph.nodes.size → Reachable ((resolveNode options id).outcome graph).2
  | retainEntryExports {graph} : Reachable graph → Reachable graph.retainEntryExports
  | retainNode {graph} (id : NodeId) : Reachable graph → Reachable (graph.retainNode id).2
  | retainDeclaration {graph} (id : DeclId) : Reachable graph → Reachable (graph.retainDeclaration id).2
  | shake {graph} : Reachable graph → Reachable graph.shake.2
  | assignNames {graph} (options : Options) : Reachable graph → Reachable (assignNames options graph)
  | bundle {graph} (options : Options) :
    Reachable graph → Reachable ((bundle options).outcome graph).2

variable {graph other : Graph}

/-- What every step of a bundle keeps is kept by the bundle, whether it fails or not. -/
theorem after_bundle {P : Graph → Prop} {options : Options}
    (linked : ∀ {graph}, P graph → P (link.outcome graph).2)
    (resolved : ∀ {graph}, P graph → P ((resolve options).outcome graph).2)
    (retained : ∀ {graph}, P graph → P graph.retainEntryExports)
    (shaken : ∀ {graph}, P graph → P graph.shake.2)
    (named : ∀ {graph}, P graph → P (assignNames options graph)) (holds : P graph) :
    P ((bundle options).outcome graph).2 := by
  apply Step.after_bind P (fun _ _ => linked holds)
  intro _ _
  apply Step.after_bind P (fun _ _ => resolved (linked holds))
  intro _ _
  have final := named (shaken (retained (resolved (linked holds))))
  simp only [Step.outcome_bind, Step.outcome_modify, Step.outcome_get, Step.outcome_ofExcept]
  exact final

/-- What every step keeps. -/
structure Intact (graph : Graph) : Prop where
  sound : graph.Sound
  laid : ∀ id, Laid 0 (graph.statements id) (graph.symbols.moduleAt id).source

namespace Intact

theorem annotates (intact : graph.Intact) (annotates : Annotates graph other) (sound : other.Sound) :
    other.Intact where
  sound := sound
  laid id := by
    obtain ⟨_, entry⟩ := annotates.moduleAt id
    rw [annotates.statements, entry]
    exact intact.laid id

theorem develops (intact : graph.Intact) (develops : Develops graph other) : other.Intact :=
  intact.annotates develops.toAnnotates (develops.sound intact.sound)

theorem sameProgram (intact : graph.Intact) (same : SameProgram graph other) : other.Intact :=
  intact.annotates same.annotates (same.sound intact.sound)

theorem alike (intact : graph.Intact) (alike : Alike graph other) : other.Intact :=
  intact.sameProgram alike.sameProgram

theorem link (intact : graph.Intact) : (link.outcome graph).2.Intact :=
  intact.develops (develops_link intact.sound)

theorem resolve (intact : graph.Intact) (options : Options) :
    ((resolve options).outcome graph).2.Intact :=
  intact.develops (develops_resolve intact.sound options)

theorem resolveNode (intact : graph.Intact) (options : Options) {id : NodeId}
    (inside : id.index < graph.nodes.size) : ((resolveNode options id).outcome graph).2.Intact :=
  intact.develops (develops_resolveNode intact.sound inside options)

theorem assignNames (intact : graph.Intact) (options : Options) :
    (assignNames options graph).Intact :=
  intact.sameProgram (sameProgram_assignNames options graph)

/-- A bundle leaves the nodes as they are, whether it fails or not. -/
theorem nodes_bundle (intact : graph.Intact) (options : Options) :
    ((bundle options).outcome graph).2.nodes = graph.nodes := by
  refine (after_bundle (P := fun after => after.Intact ∧ after.nodes = graph.nodes) (fun both => ?_)
    (fun both => ?_) (fun both => ?_) (fun both => ?_) (fun both => ?_) ⟨intact, rfl⟩).2
  · exact ⟨both.1.link, (develops_link both.1.sound).nodes.trans both.2⟩
  · exact ⟨both.1.resolve options, (develops_resolve both.1.sound options).nodes.trans both.2⟩
  · exact ⟨both.1.alike (alike_retainAll _ _), (alike_retainAll _ _).sameProgram.nodes.trans both.2⟩
  · exact ⟨both.1.alike (alike_shakeWithin _ _), (alike_shakeWithin _ _).sameProgram.nodes.trans both.2⟩
  · exact ⟨both.1.assignNames options, (sameProgram_assignNames options _).nodes.trans both.2⟩

end Intact

/-- An invariant of intact states holds of every reachable one if the finished program has it and every
    step keeps it. -/
theorem Reachable.steps {P : Graph → Prop} (made : ∀ {graph}, graph.Made → P graph)
    (link : ∀ {graph}, graph.Intact → P graph → P (Graph.link.outcome graph).2)
    (resolve : ∀ {graph} options, graph.Intact → P graph → P ((Graph.resolve options).outcome graph).2)
    (resolveNode : ∀ {graph} options id, graph.Intact → id.index < graph.nodes.size → P graph →
      P ((Graph.resolveNode options id).outcome graph).2)
    (retainEntryExports : ∀ {graph}, graph.Intact → P graph → P graph.retainEntryExports)
    (retainNode : ∀ {graph} id, graph.Intact → P graph → P (graph.retainNode id).2)
    (retainDeclaration : ∀ {graph} id, graph.Intact → P graph → P (graph.retainDeclaration id).2)
    (shake : ∀ {graph}, graph.Intact → P graph → P graph.shake.2)
    (assignNames : ∀ {graph} options, graph.Intact → P graph → P (Graph.assignNames options graph))
    (reachable : graph.Reachable) : graph.Intact ∧ P graph := by
  induction reachable with
  | made made' => exact ⟨⟨made'.sound, made'.laid⟩, made made'⟩
  | link _ ih => exact ⟨ih.1.link, link ih.1 ih.2⟩
  | resolve options _ ih => exact ⟨ih.1.resolve options, resolve options ih.1 ih.2⟩
  | resolveNode options id _ inside ih =>
      exact ⟨ih.1.resolveNode options inside, resolveNode options id ih.1 inside ih.2⟩
  | retainEntryExports _ ih =>
      exact ⟨ih.1.alike (alike_retainAll _ _), retainEntryExports ih.1 ih.2⟩
  | retainNode id _ ih => exact ⟨ih.1.alike (alike_retainFragment _ _), retainNode id ih.1 ih.2⟩
  | retainDeclaration id _ ih =>
      exact ⟨ih.1.alike (alike_retainWithin _ _ _), retainDeclaration id ih.1 ih.2⟩
  | shake _ ih => exact ⟨ih.1.alike (alike_shakeWithin _ _), shake ih.1 ih.2⟩
  | assignNames options _ ih => exact ⟨ih.1.assignNames options, assignNames options ih.1 ih.2⟩
  | bundle options _ ih =>
      refine after_bundle (P := fun graph => graph.Intact ∧ P graph) (fun ih => ?_) (fun ih => ?_)
        (fun ih => ?_) (fun ih => ?_) (fun ih => ?_) ih
      · exact ⟨ih.1.link, link ih.1 ih.2⟩
      · exact ⟨ih.1.resolve options, resolve options ih.1 ih.2⟩
      · exact ⟨ih.1.alike (alike_retainAll _ _), retainEntryExports ih.1 ih.2⟩
      · exact ⟨ih.1.alike (alike_shakeWithin _ _), shake ih.1 ih.2⟩
      · exact ⟨ih.1.assignNames options, assignNames options ih.1 ih.2⟩

/-- The same, if the invariant is kept however the program develops. -/
theorem Reachable.induct {P : Graph → Prop} (made : ∀ {graph}, graph.Made → P graph)
    (develops : ∀ {graph other}, graph.Intact → Develops graph other → P graph → P other)
    (retainEntryExports : ∀ {graph}, graph.Intact → P graph → P graph.retainEntryExports)
    (retainNode : ∀ {graph} id, graph.Intact → P graph → P (graph.retainNode id).2)
    (retainDeclaration : ∀ {graph} id, graph.Intact → P graph → P (graph.retainDeclaration id).2)
    (shake : ∀ {graph}, graph.Intact → P graph → P graph.shake.2)
    (assignNames : ∀ {graph} options, graph.Intact → P graph → P (Graph.assignNames options graph))
    (reachable : graph.Reachable) : graph.Intact ∧ P graph :=
  reachable.steps made (fun intact => develops intact (develops_link intact.sound))
    (fun options intact => develops intact (develops_resolve intact.sound options))
    (fun options _ intact inside => develops intact (develops_resolveNode intact.sound inside options))
    retainEntryExports retainNode retainDeclaration shake assignNames

/-- Every reachable state has the program as it was made. -/
theorem Reachable.intact (reachable : graph.Reachable) : graph.Intact :=
  (reachable.induct (P := fun _ => True) (fun _ => trivial) (fun _ _ _ => trivial)
    (fun _ _ => trivial) (fun _ _ _ => trivial) (fun _ _ _ => trivial) (fun _ _ => trivial)
    fun _ _ _ => trivial).1

/-! ## Bundles -/

variable {after : Graph} {options : Options} {bundle : Bundle}

/-- A bundle that succeeds is the program linked, resolved, shaken and named. -/
theorem bundle_stages (succeeded : (Graph.bundle options).outcome graph = (.ok bundle, after)) :
    ∃ linked resolved, link.outcome graph = (.ok (), linked) ∧
      (resolve options).outcome linked = (.ok (), resolved) ∧
      after = assignNames options resolved.retainEntryExports.shake.2 ∧
      after.emit options = .ok bundle := by
  obtain ⟨_, linked, linking, rest⟩ := Step.ok_of_bind succeeded
  obtain ⟨_, resolved, resolving, rest⟩ := Step.ok_of_bind rest
  refine ⟨linked, resolved, linking, resolving, ?_⟩
  simp only [Step.outcome_bind, Step.outcome_modify, Step.outcome_get, Step.outcome_ofExcept,
    Prod.mk.injEq] at rest
  obtain ⟨emitted, rfl⟩ := rest
  exact ⟨rfl, emitted⟩

theorem emit_code (emitted : graph.emit options = .ok bundle) :
    ∃ modules, bundle.code = graph.bundleText options.format modules := by
  rw [emit] at emitted
  cases written : graph.order.mapM (graph.emitModule options) with
  | error fault =>
      rw [written] at emitted
      cases emitted
  | ok modules =>
      rw [written] at emitted
      cases emitted
      exact ⟨modules, rfl⟩

/-- A bundle that has a code has succeeded. -/
theorem bundle_of_code {code : String}
    (written : ((Graph.bundle options).outcome graph).1.toOption.map (·.code) = some code) :
    ∃ bundle, (Graph.bundle options).outcome graph = (.ok bundle, ((Graph.bundle options).outcome graph).2) ∧
      bundle.code = code := by
  cases result : (Graph.bundle options).outcome graph with
  | mk returned after =>
      rw [result] at written
      cases returned with
      | error fault => cases written
      | ok bundle => exact ⟨bundle, rfl, Option.some.inj written⟩

/-- After a bundle that succeeds, the state is a reachable one that has just been named, and the bundle is
    written from it. -/
theorem Reachable.bundled (reachable : graph.Reachable)
    (succeeded : (Graph.bundle options).outcome graph = (.ok bundle, after)) :
    after.Reachable ∧ (∃ shaken, shaken.Reachable ∧ after = Graph.assignNames options shaken) ∧
      after.emit options = .ok bundle := by
  obtain ⟨linked, resolved, linking, resolving, same, emitted⟩ := bundle_stages succeeded
  have first := reachable.link
  rw [linking] at first
  have second := first.resolve options
  rw [resolving] at second
  have shaken := second.retainEntryExports.shake
  exact ⟨same ▸ shaken.assignNames options, ⟨_, shaken, same⟩, emitted⟩

end Bundler.Graph
