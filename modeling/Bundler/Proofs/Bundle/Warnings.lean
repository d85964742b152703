import Bundler.Proofs.Bundle.OnceLinked
import Bundler.Proofs.Bundle.Reachable
import Bundler.Proofs.Graph.Warnings

/-! # Warnings of reachable states

Whatever is done to a finished program, in whatever order and however often, there is one warning for each
access that has been found to be `undefined`, and there are no others.
-/

namespace Bundler.Graph

variable {graph after : Graph}

/-! ## Phases -/

/-- What can be done to a finished program. -/
inductive Phase where
  | link
  | resolve (options : Options)
  | resolveNode (options : Options) (id : NodeId)
  | retainEntryExports
  | retainNode (id : NodeId)
  | retainDeclaration (id : DeclId)
  | shake
  | assignNames (options : Options)
  | bundle (options : Options)

namespace Phase

/-- The node that is asked for is there. -/
def Applies (graph : Graph) : Phase → Prop
  | resolveNode _ id => id.index < graph.nodes.size
  | _ => True

/-- The program after it has been done, successfully or not. -/
def run (graph : Graph) : Phase → Graph
  | link => (Graph.link.outcome graph).2
  | resolve options => ((Graph.resolve options).outcome graph).2
  | resolveNode options id => ((Graph.resolveNode options id).outcome graph).2
  | retainEntryExports => graph.retainEntryExports
  | retainNode id => (graph.retainNode id).2
  | retainDeclaration id => (graph.retainDeclaration id).2
  | shake => graph.shake.2
  | assignNames options => graph.assignNames options
  | bundle options => ((Graph.bundle options).outcome graph).2

end Phase

theorem Reachable.run (reachable : graph.Reachable) {phase : Phase} (applies : phase.Applies graph) :
    (phase.run graph).Reachable := by
  cases phase with
  | link => exact reachable.link
  | resolve options => exact reachable.resolve options
  | resolveNode options id => exact reachable.resolveNode options id applies
  | retainEntryExports => exact reachable.retainEntryExports
  | retainNode id => exact reachable.retainNode id
  | retainDeclaration id => exact reachable.retainDeclaration id
  | shake => exact reachable.shake
  | assignNames options => exact reachable.assignNames options
  | bundle options => exact reachable.bundle options

/-! ## What each of them warns about -/

theorem Alike.warned (alike : Alike graph after) : Warned graph after := by
  have same := alike.sameProgram
  obtain ⟨s, rfl⟩ := alike
  refine .of_same rfl same.marks (fun id => ?_) same.resolutionAt rfl
  rw [markAt_select]

theorem warned_assignNames (options : Options) (graph : Graph) :
    Warned graph (assignNames options graph) := by
  obtain ⟨symbols, -, same⟩ := assignNames_eq options graph
  rw [same]
  exact .of_same rfl rfl (fun _ => rfl) (fun _ => rfl) rfl

/-- There is one warning for each node that has been found to be `undefined`. -/
structure Reported (graph : Graph) : Prop where
  unseen : Unseen graph.nodes graph
  warnings : ∃ ids : List NodeId, ids.Nodup ∧ (∀ id, id ∈ ids ↔ graph.resolutionAt id = some .undefined) ∧
    List.Forall₂ (Concerns graph.nodes) ids graph.warnings.toList

namespace Reported

theorem made (made : graph.Made) : graph.Reported where
  unseen := ⟨made.sound.marks, rfl, fun id _ => by rw [resolutionAt, made.markAt]⟩
  warnings := by
    refine ⟨[], .nil, fun id => ?_, ?_⟩
    · simp [resolutionAt, made.markAt]
    · rw [made.warnings]
      exact .nil

theorem bound (reported : graph.Reported) {id : NodeId}
    (undefined : graph.resolutionAt id = some .undefined) : (graph.markAt id).bound = true := by
  by_contra unbound
  rw [reported.unseen.unsettled id (by simpa using unbound)] at undefined
  cases undefined

/-- The warnings that are added are about the nodes that are found to be `undefined` now. -/
theorem warned (reported : graph.Reported) (warned : Warned graph after) : after.Reported where
  unseen := warned.nodes ▸ warned.unseen reported.unseen
  warnings := by
    obtain ⟨ids, nodup, undefined, concern⟩ := reported.warnings
    obtain ⟨more, given, nodup', new, log, concern'⟩ := warned.warnings
    refine ⟨ids ++ more, ?_, fun id => ?_, ?_⟩
    · refine List.nodup_append.mpr ⟨nodup, nodup', fun id member other member' same => ?_⟩
      subst same
      have before := reported.bound ((undefined id).mp member)
      exact absurd before (by simp [((new id).mp member').unbound])
    · rw [List.mem_append, undefined, new]
      constructor
      · rintro (early | late)
        · exact (warned.kept id (reported.bound early)).trans early
        · exact late.undefined
      · intro found
        cases before : (graph.markAt id).bound with
        | true => exact .inl ((warned.kept id before).symm.trans found)
        | false =>
            refine .inr ⟨before, ?_, found⟩
            by_contra unbound
            rw [warned.still id (by simpa using unbound), reported.unseen.unsettled id before] at found
            cases found
    · rw [log, warned.nodes]
      exact List.rel_append concern concern'

end Reported

theorem Reachable.reported (reachable : graph.Reachable) : graph.Reported := by
  refine (reachable.steps ?_ ?_ ?_ ?_ ?_ ?_ ?_ ?_ ?_).2
  · exact fun made => .made made
  · exact fun _ reported => reported.warned (warned_link _)
  · exact fun _ intact reported => reported.warned (warned_resolve intact.sound reported.unseen)
  · exact fun _ _ intact inside reported =>
      reported.warned (warned_resolveNode intact.sound reported.unseen inside)
  · exact fun _ reported => reported.warned (alike_retainAll _ _).warned
  · exact fun _ _ reported => reported.warned (alike_retainFragment _ _).warned
  · exact fun _ _ reported => reported.warned (alike_retainWithin _ _ _).warned
  · exact fun _ reported => reported.warned (alike_shakeWithin _ _).warned
  · exact fun options _ reported => reported.warned (warned_assignNames options _)

theorem warned_bundle (intact : graph.Intact) (reported : graph.Reported) (options : Options) :
    Warned graph ((bundle options).outcome graph).2 := by
  refine (after_bundle (P := fun after => after.Intact ∧ after.Reported ∧ Warned graph after)
    ?_ ?_ ?_ ?_ ?_ ⟨intact, reported, .refl graph⟩).2.2
  · rintro before ⟨intact, reported, earlier⟩
    have here := warned_link before
    exact ⟨intact.link, reported.warned here, earlier.trans here⟩
  · rintro before ⟨intact, reported, earlier⟩
    have here : Warned before ((resolve options).outcome before).2 :=
      warned_resolve intact.sound reported.unseen
    exact ⟨intact.resolve options, reported.warned here, earlier.trans here⟩
  · rintro before ⟨intact, reported, earlier⟩
    have alike : Alike before before.retainEntryExports := alike_retainAll _ _
    exact ⟨intact.alike alike, reported.warned alike.warned, earlier.trans alike.warned⟩
  · rintro before ⟨intact, reported, earlier⟩
    have alike : Alike before before.shake.2 := alike_shakeWithin _ _
    exact ⟨intact.alike alike, reported.warned alike.warned, earlier.trans alike.warned⟩
  · rintro before ⟨intact, reported, earlier⟩
    have here := warned_assignNames options before
    exact ⟨intact.assignNames options, reported.warned here, earlier.trans here⟩

theorem Reachable.warned (reachable : graph.Reachable) {phase : Phase} (applies : phase.Applies graph) :
    Warned graph (phase.run graph) := by
  have intact := reachable.intact
  have reported := reachable.reported
  cases phase with
  | link => exact warned_link graph
  | resolve options => exact warned_resolve intact.sound reported.unseen
  | resolveNode options id => exact warned_resolveNode intact.sound reported.unseen applies
  | retainEntryExports => exact Alike.warned (alike_retainAll _ _)
  | retainNode id => exact Alike.warned (alike_retainFragment _ _)
  | retainDeclaration id => exact Alike.warned (alike_retainWithin _ _ _)
  | shake => exact Alike.warned (alike_shakeWithin _ _)
  | assignNames options => exact warned_assignNames options graph
  | bundle options => exact warned_bundle intact reported options

/-! ## All warnings -/

/-- A program reads a key that a module does not export.  It is resolved from the inside out, with the
    statement included in between, and then bundled. -/
def overlooked : Graph :=
  [.link, .resolveNode {} ⟨5⟩, .retainNode ⟨7⟩, .resolveNode {} ⟨6⟩, .bundle {}].foldl Phase.run absent

theorem reachable_overlooked : overlooked.Reachable := by
  refine .bundle _ (.resolveNode _ _ (.retainNode _ (.resolveNode _ _ (.link (.made made_absent)) ?_)) ?_)
  all_goals decide +kernel

end Bundler.Graph
