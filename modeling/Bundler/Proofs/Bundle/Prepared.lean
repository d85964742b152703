import Bundler.Proofs.Draft.Finish
import Bundler.Proofs.Graph.Denotation
import Bundler.Proofs.Graph.Order
import Bundler.Proofs.Graph.SameProgram

/-! # Programs that are ready to be shaken

Linking and resolving a finished program, if they succeed, leave everything known that a bundle depends
on, and nothing included.
-/

namespace Bundler.Graph

variable {graph other made : Graph} {options : Options}

/-- All that linking and resolving find out is there, the order of the modules included. -/
structure Prepared (graph : Graph) : Prop where
  sound : graph.Sound
  bound : graph.Bound
  order : graph.order = graph.executionOrder
  entry : graph.HasProvider (.internal graph.entry)

theorem SameProgram.prepared (same : SameProgram graph other) (prepared : graph.Prepared) :
    other.Prepared where
  sound := same.sound prepared.sound
  bound := same.bound prepared.bound
  order := by rw [same.order, prepared.order, same.annotates.executionOrder]
  entry := same.entry ▸ same.annotates.extension.hasProvider prepared.entry

theorem Prepared.executed (prepared : graph.Prepared) {id home : ModuleId} (executed : id ∈ graph.order)
    (reaches : graph.Reaches id home) : home ∈ graph.order := by
  rw [prepared.order] at executed ⊢
  exact prepared.sound.executed prepared.entry executed reaches

theorem Prepared.entry_executed (prepared : graph.Prepared) : graph.entry ∈ graph.order := by
  rw [prepared.order]
  exact (prepared.sound.executionOrder prepared.entry).1

/-- A finished program is prepared by linking and resolving it, which include nothing. -/
theorem Made.prepared (program : made.Made) (linking : link.outcome made = (.ok (), other))
    (resolving : (resolve options).outcome other = (.ok (), graph)) :
    graph.Prepared ∧ graph.selection = ⊥ := by
  obtain ⟨bound, order⟩ := bound_link program.sound program.unresolved linking
  have first := develops_of_link program.sound linking
  have sound := first.sound program.sound
  have second := develops_of_resolve sound resolving
  have both := first.trans second
  refine ⟨⟨second.sound sound, second.bound sound bound, ?_, ?_⟩, ?_⟩
  · rw [second.executionOrder]
    exact second.order.elim (·.trans order) id
  · exact both.entry ▸ both.extension.hasProvider program.entry
  · exact both.selection.trans program.selection

end Bundler.Graph
