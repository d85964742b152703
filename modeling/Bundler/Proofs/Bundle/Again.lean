import Bundler.Proofs.Bundle.Closed
import Bundler.Proofs.Graph.Exploration
import Bundler.Proofs.Naming.Again

/-! # Bundling again

A program that has been bundled can be bundled again, with the same outcome: all that a bundle finds out
is known by then, all that it includes is included, and names are given as before.  If the bundle has
failed, it fails again in the same way.
-/

namespace Bundler.Graph

variable {graph other made : Graph} {options : Options}

/-! ## Linking a graph again -/

theorem idle_link (linked : graph.symbols.Linked) (ordered : graph.order = graph.executionOrder) :
    link.Idle graph := by
  rw [Step.Idle, link_outcome, linked.idle]
  exact congrArg _ (congrArg (fun order => { graph with order }) ordered.symm)

theorem relink (sound : graph.Sound) {fault : Fault}
    (failed : link.outcome graph = (.error fault, other)) :
    link.outcome other = (.error fault, other) := by
  rw [link_outcome] at failed
  cases outcome : Symbols.link.outcome graph.symbols with
  | mk result symbols =>
      rw [outcome] at failed
      cases result with
      | ok _ => cases failed
      | error _ =>
          cases failed
          have again : Symbols.link.outcome (graph.withSymbols symbols).symbols = (.error fault, symbols) :=
            relink_failed sound outcome
          rw [link_outcome, again]
          rfl

/-- After linking with success, everything is linked. -/
theorem linked_of_link (sound : graph.Sound) (succeeded : link.outcome graph = (.ok (), other)) :
    other.symbols.Linked :=
  linked_link sound (link_symbols succeeded)

theorem Develops.linked (develops : Develops graph other) (sound : graph.Sound)
    (linked : graph.symbols.Linked) (modules : other.symbols.modules = graph.symbols.modules) :
    other.symbols.Linked := by
  have connected : graph.Connected := fun id _ => linked.targeted id
  refine linked.mono (develops.sameExports sound connected) develops.remembers
    (fun id source name kind => ?_) fun id => ?_
  · exact develops.connected connected id (Symbols.lt_of_imported kind) source name kind
  · rw [Symbols.moduleAt, modules]
    rfl

theorem SameProgram.linked (same : SameProgram graph other) (sound : graph.Sound)
    (linked : graph.symbols.Linked) : other.symbols.Linked := by
  have connected : graph.Connected := fun id _ => linked.targeted id
  refine linked.mono (same.annotates.sameExports sound connected) same.remembers
    (fun id source name kind => ?_) fun id => ?_
  · exact linked.targeted id source name ((same.kind id).symm.trans kind)
  · rw [same.moduleAt]

/-! ## Complete programs -/

/-- All that bundling finds out is known, and all that it includes is included. -/
structure Complete (graph : Graph) : Prop where
  sound : graph.Sound
  linked : graph.symbols.Linked
  ordered : graph.order = graph.executionOrder
  resolved : graph.Resolved
  closed : graph.selection.Closed graph

/-- Bundling a complete program that has its names already only writes it. -/
theorem Complete.bundle_outcome (complete : graph.Complete)
    (named : assignNames options graph = graph) :
    (bundle options).outcome graph = (graph.emit options, graph) := by
  have kept : graph.retainEntryExports = graph := retainAll_eq_self complete.closed.entry
  have grounded := complete.sound.grounded
  have shaken : graph.shake = (1, graph) :=
    shake_eq_self grounded complete.closed.toSupported (grounded.judges_iff.mpr complete.closed.effect)
  rw [bundle, (idle_link complete.linked complete.ordered).bind, (complete.resolved.idle options).bind]
  simp only [Step.outcome_bind, Step.outcome_modify, Step.outcome_get, Step.outcome_ofExcept, kept,
    shaken, named]

theorem Resolved.alike (resolved : graph.Resolved) (alike : Alike graph other) : other.Resolved := by
  obtain ⟨selection, rfl⟩ := alike
  intro owner member statement among
  rw [markAt_select]
  exact resolved owner member statement among

theorem Resolved.assignNames (resolved : graph.Resolved) (options : Options) :
    (assignNames options graph).Resolved := by
  obtain ⟨symbols, renames, same⟩ := assignNames_eq options graph
  have statements := (sameProgram_assignNames options graph).annotates.statements
  intro owner member statement among
  rw [statements] at among
  rw [same] at member ⊢
  exact resolved owner member statement among

/-- A finished program that can be linked is complete when it has been named, and then it is written. -/
theorem Made.bundle_outcome (program : made.Made) (options : Options)
    (linking : link.outcome made = (.ok (), other)) :
    ∃ graph, graph.Complete ∧ assignNames options graph = graph ∧
      (bundle options).outcome made = (graph.emit options, graph) := by
  have linked := linked_of_link program.sound linking
  have sound := (develops_of_link program.sound linking).sound program.sound
  obtain ⟨resolved, resolving, develops, keeps, looked⟩ := (sound.navigable linked).resolve options
  obtain ⟨prepared, unselected⟩ := program.prepared linking resolving
  have alike := (grows_retain_shake prepared.sound.grounded).alike
  have shaken := alike.sameProgram
  let kept := resolved.retainEntryExports.shake.2
  have named := sameProgram_assignNames options kept
  have linked' := shaken.linked prepared.sound (develops.linked sound linked keeps.modules)
  refine ⟨assignNames options kept, ?_, assignNames_assignNames options kept, ?_⟩
  · constructor
    · exact named.sound (shaken.sound prepared.sound)
    · exact named.linked (shaken.sound prepared.sound) linked'
    · exact (named.prepared (shaken.prepared prepared)).order
    · exact (looked.alike alike).assignNames options
    · rw [selection_assignNames]
      exact named.agrees.closed
        (shaken.agrees.closed (closed_shake prepared.sound.grounded unselected))
  · exact bundle_outcome_of_resolve linking resolving

/-- Bundling a finished program a second time has the same outcome: the same bundle, with the code, the
    modules and the warnings that it had, or the same fault; and the program is left as it is. -/
theorem bundle_bundle (program : made.Made) (options : Options) :
    (bundle options).outcome ((bundle options).outcome made).2 = (bundle options).outcome made := by
  cases linking : link.outcome made with
  | mk result linked =>
      cases result with
      | error fault =>
          have fails : ∀ {graph}, link.outcome graph = (.error fault, linked) →
              (bundle options).outcome graph = (.error fault, linked) := fun failed => by
            rw [bundle, Step.outcome_bind, failed]
          rw [fails linking, fails (relink program.sound linking)]
      | ok _ =>
          obtain ⟨graph, complete, named, outcome⟩ := program.bundle_outcome options linking
          rw [outcome, complete.bundle_outcome named]

/-- The greeting can be bundled, and then it is bundled again to the same text. -/
theorem bundle_greeting_again : ∃ bundled graph,
    (bundle {}).outcome greeting = (.ok bundled, graph) ∧
      (bundle {}).outcome graph = (.ok bundled, graph) := by
  have succeeds : ((bundle {}).outcome greeting).1.isOk = true := by decide +kernel
  have again := bundle_bundle made_greeting {}
  cases outcome : (bundle {}).outcome greeting with
  | mk result graph =>
      rw [outcome] at succeeds again
      cases result with
      | error fault => cases succeeds
      | ok bundled => exact ⟨bundled, graph, rfl, again⟩

end Bundler.Graph
