import Bundler.Proofs.Bundle.Warnings
import Bundler.Proofs.Graph.Interrupted

/-! # Interrupted binding in reachable states

Whatever is done to a finished program, a phase that succeeds leaves no further node half bound, and one
that fails at most one: the access at which it stopped.  So the nodes that are half bound correspond to
phases that have failed, and there are none as long as nothing has failed.
-/

namespace Bundler

/-- The fault that a step fails with, if it does. -/
def Step.fault? {σ α : Type} (step : Step σ α) (s : σ) : Option Fault :=
  match (step.outcome s).1 with
  | .ok _ => none
  | .error fault => some fault

namespace Graph

/-- The fault that a phase ends with, if it fails. -/
def Phase.fault? (graph : Graph) : Phase → Option Fault
  | .link => Graph.link.fault? graph
  | .resolve options => (Graph.resolve options).fault? graph
  | .resolveNode options id => (Graph.resolveNode options id).fault? graph
  | .bundle options => (Graph.bundle options).fault? graph
  | .retainEntryExports | .retainNode _ | .retainDeclaration _ | .shake | .assignNames _ => none

/-- A state that phases have led to, with the faults of those that failed, in the order of the phases. -/
inductive History : Graph → List Fault → Prop where
  | made {graph} : graph.Made → History graph []
  | run {graph faults} (phase : Phase) : History graph faults → phase.Applies graph →
    History (phase.run graph) (faults ++ (phase.fault? graph).toList)

variable {graph middle after : Graph} {faults : List Fault}

theorem History.reachable (history : History graph faults) : graph.Reachable := by
  induction history with
  | made program => exact .made program
  | run phase _ applies ih => exact ih.run applies

/-! ## What a phase leaves half bound -/

/-- What a phase comes to: it leaves no further node half bound, or it fails and leaves exactly the access
    half bound at which it stopped. -/
inductive Passed (graph after : Graph) (fault? : Option Fault) : Prop where
  | through : Binds graph after none → Passed graph after fault?
  | stopped {id fault} : fault? = some fault → Binds graph after (some id) → after.Blocked id fault →
    Passed graph after fault?

theorem Passed.onward {fault? : Option Fault} (binds : Binds graph middle none)
    (passed : Passed middle after fault?) : Passed graph after fault? := by
  cases passed with
  | through binds' => exact .through (binds.trans binds')
  | stopped failed binds' blocked => exact .stopped failed (binds.trans binds') blocked

theorem Comes.passed {step : Step Graph Unit} (comes : Comes graph (step.outcome graph)) :
    Passed graph (step.outcome graph).2 (step.fault? graph) := by
  rw [Step.fault?]
  generalize step.outcome graph = outcome at comes
  cases comes with
  | done binds => exact .through binds
  | stopped binds blocked => exact .stopped rfl binds blocked

theorem Alike.binds (alike : Alike graph after) : Binds graph after none := by
  have same := alike.sameProgram
  refine .of_same same.nodes same.marks (fun id => ?_) same.resolutionAt
  obtain ⟨s, rfl⟩ := alike
  rw [markAt_select]

theorem binds_assignNames (options : Options) (graph : Graph) :
    Binds graph (assignNames options graph) none := by
  obtain ⟨symbols, -, same⟩ := assignNames_eq options graph
  rw [same]
  exact .of_same rfl rfl (fun _ => rfl) fun _ => rfl

theorem binds_link (graph : Graph) : Binds graph (link.outcome graph).2 none := by
  rw [link_outcome]
  split <;> exact .of_same rfl rfl (fun _ => rfl) fun _ => rfl

/-- Of the phases of a bundle only the one that binds leaves a node half bound, and only if it fails. -/
theorem passed_bundle (intact : graph.Intact) (unseen : Unseen graph.nodes graph) (options : Options) :
    Passed graph ((bundle options).outcome graph).2 ((bundle options).fault? graph) := by
  have linked := binds_link graph
  have intact' := intact.link
  rw [Step.fault?, bundle, Step.outcome_bind]
  generalize link.outcome graph = outcome at linked intact'
  obtain ⟨fault | _, middle⟩ := outcome
  · exact .through linked
  · have resolved : Comes middle ((resolve options).outcome middle) :=
      comes_resolve intact'.sound (linked.nodes ▸ linked.unseen unseen)
    refine .onward linked ?_
    dsimp only
    rw [Step.outcome_bind]
    generalize (resolve options).outcome middle = outcome at resolved
    cases resolved with
    | stopped binds blocked => exact .stopped rfl binds blocked
    | @done _ last binds =>
        refine .through ?_
        simp only [Step.outcome_bind, Step.outcome_modify, Step.outcome_get, Step.outcome_ofExcept]
        have retained : Binds last last.retainEntryExports none := Alike.binds (alike_retainAll _ _)
        have shaken : Binds last.retainEntryExports last.retainEntryExports.shake.2 none :=
          Alike.binds (alike_shakeWithin _ _)
        exact ((binds.trans retained).trans shaken).trans (binds_assignNames options _)

/-- What any phase comes to. -/
theorem Reachable.passed (reachable : graph.Reachable) {phase : Phase} (applies : phase.Applies graph) :
    Passed graph (phase.run graph) (phase.fault? graph) := by
  have intact := reachable.intact
  have unseen := reachable.reported.unseen
  cases phase with
  | link => exact .through (binds_link graph)
  | resolve options => exact (comes_resolve intact.sound unseen).passed
  | resolveNode options id => exact (comes_resolveNode intact.sound unseen applies).passed
  | retainEntryExports => exact .through (Alike.binds (alike_retainAll _ _))
  | retainNode id => exact .through (Alike.binds (alike_retainFragment _ _))
  | retainDeclaration id => exact .through (Alike.binds (alike_retainWithin _ _ _))
  | shake => exact .through (Alike.binds (alike_shakeWithin _ _))
  | assignNames options => exact .through (binds_assignNames options graph)
  | bundle options => exact passed_bundle intact unseen options

/-! ## Whole histories -/

/-- The node is an access that reads known keys from a name, and the fault is that a re-exported name leads
    back to itself. -/
def Circles (nodes : Array Node) (id : NodeId) (fault : Fault) : Prop :=
  (∃ owner access label root keys, nodes[id.index]? = some ⟨owner, .expr access⟩ ∧
    access.chain? = some (.ident label root, keys) ∧ keys ≠ []) ∧
  ∃ home name, fault = .circularReexport home name

theorem Blocked.circles {id : NodeId} {fault : Fault} (blocked : graph.Blocked id fault) :
    Circles graph.nodes id fault := by
  obtain ⟨owner, access, label, root, keys, found, chain, key, member, source, failed⟩ := blocked
  refine ⟨⟨owner, access, label, root, keys, found, chain, List.ne_nil_of_mem member⟩, ?_⟩
  have spec := graph.symbols.exportOrigin?_spec source key.name
  rw [failed] at spec
  obtain ⟨_, _, _, _, named, _⟩ := spec
  exact ⟨_, _, named⟩

/-- The nodes that are half bound, each with the fault of the phase that it stopped. -/
theorem History.halfBound (history : History graph faults) : ∃ ids met, ids.Nodup ∧
    (∀ id, id ∈ ids ↔ graph.HalfBound id) ∧ met.Sublist faults ∧
    List.Forall₂ (Circles graph.nodes) ids met := by
  induction history with
  | made program =>
      refine ⟨[], [], .nil, fun id => ⟨fun none => absurd none List.not_mem_nil, fun half => ?_⟩,
        .slnil, .nil⟩
      exact absurd half.bound (by simp [program.markAt])
  | @run graph faults phase before applies ih =>
      obtain ⟨ids, met, nodup, half, among, circles⟩ := ih
      rcases before.reachable.passed applies with binds | ⟨failed, binds, blocked⟩
      · refine ⟨ids, met, nodup, fun id => ?_, among.trans (List.sublist_append_left _ _),
          binds.nodes.symm ▸ circles⟩
        rw [half, binds.halfBound]
        simp
      · rename_i id fault
        have new : id ∉ ids := fun member =>
          absurd ((half id).mp member).bound (by simp [binds.fresh id rfl])
        refine ⟨ids ++ [id], met ++ [fault], ?_, fun other => ?_, ?_, ?_⟩
        · exact nodup.append (List.nodup_singleton id) (List.disjoint_singleton.mpr new)
        · rw [binds.halfBound, List.mem_append, half, List.mem_singleton, Option.some_inj, eq_comm]
        · rw [failed]
          exact among.append (List.Sublist.refl _)
        · exact List.rel_append (binds.nodes.symm ▸ circles) (.cons blocked.circles .nil)

/-- Whatever has been done to a finished program, the names and accesses that have been looked at without
    anything being found out about them correspond, one to one, to phases that have failed; each is an
    access with known keys, and its fault is that a re-exported name leads back to itself.  In particular
    there is none if nothing has failed.

    One more phase adds none of them if it succeeds, and at most one if it fails: an access that nobody had
    looked at, and of which a key is asked of a module that has the fault as its answer.

    A node that has been resolved is not resolved again: a second time nothing fails and nothing changes,
    whatever the first time has come to. -/
theorem History.stopped_accesses (history : History graph faults) :
    (∃ ids met, ids.Nodup ∧ (∀ id, id ∈ ids ↔ graph.HalfBound id) ∧ met.Sublist faults ∧
      List.Forall₂ (Circles graph.nodes) ids met) ∧
    (∀ phase : Phase, phase.Applies graph →
      (∀ id, (phase.run graph).HalfBound id ↔ graph.HalfBound id) ∨
      ∃ id fault, phase.fault? graph = some fault ∧ (graph.markAt id).bound = false ∧
        (phase.run graph).Blocked id fault ∧
        ∀ other, (phase.run graph).HalfBound other ↔ graph.HalfBound other ∨ other = id) ∧
    ∀ options again id, id.index < graph.nodes.size →
      (resolveNode again id).outcome ((resolveNode options id).outcome graph).2 =
        (.ok (), ((resolveNode options id).outcome graph).2) := by
  refine ⟨history.halfBound, fun phase applies => ?_, fun options again id inside => ?_⟩
  · rcases history.reachable.passed applies with binds | ⟨failed, binds, blocked⟩
    · exact .inl fun id => by rw [binds.halfBound]; simp
    · refine .inr ⟨_, _, failed, binds.fresh _ rfl, blocked, fun other => ?_⟩
      rw [binds.halfBound, Option.some_inj, eq_comm]
  · exact resolveNode_again history.reachable.intact.sound options again inside

end Graph

/-! ## A chain that meets a circle -/

/-- Two modules export a name from each other, and a third one reads it as a property of the first. -/
def Draft.circling : Draft :=
  let draft := (((Draft.addModule {} "a").2.addModule "b").2.addModule "main").2
  let draft := ((exportFrom ⟨0⟩ (.internal ⟨1⟩) "x" "x").outcome draft).2
  let draft := ((exportFrom ⟨1⟩ (.internal ⟨0⟩) "x" "x").outcome draft).2
  let draft := ((importFrom ⟨2⟩ (.internal ⟨0⟩) wholeModule "ns").outcome draft).2
  (draft.addExpression ⟨2⟩ (.member () (.ident () "ns") "x")).2

/-- The program with the module that reads the property as its entry. -/
def Graph.circling : Graph := { Draft.circling.graph with entry := ⟨2⟩ }

theorem Draft.built_circling : Draft.circling.Built := by
  refine .addExpression (.importFrom (.exportFrom (.exportFrom (.addModule (.addModule
    (.addModule .empty "a") "b") "main") ?_ ?_ _ _) ?_ ?_ _ _) ?_ ?_ _ _) ?_ _
  all_goals decide

theorem Graph.made_circling : Graph.circling.Made :=
  .finish Draft.built_circling (by decide) rfl

namespace Graph

/-- The program after a link, which fails, and after the access has been resolved, which fails as well. -/
def interrupted : Graph := ((resolveNode {} ⟨4⟩).outcome (link.outcome circling).2).2

theorem history_interrupted :
    History interrupted [.circularReexport "a" "x", .circularReexport "a" "x"] := by
  have linked : Phase.link.fault? circling = some (.circularReexport "a" "x") := by decide +kernel
  have resolved : (Phase.resolveNode {} ⟨4⟩).fault? (link.outcome circling).2 =
      some (.circularReexport "a" "x") := by decide +kernel
  have inside : (Phase.resolveNode {} ⟨4⟩).Applies (link.outcome circling).2 := by
    change 4 < (link.outcome circling).2.nodes.size
    decide +kernel
  have history := History.run (.resolveNode {} ⟨4⟩) (.run .link (.made made_circling) trivial) inside
  rwa [Phase.run, resolved, linked] at history

theorem halfBound_access : interrupted.HalfBound ⟨4⟩ := by
  have linked := develops_link made_circling.sound
  have inside : 4 < (link.outcome circling).2.nodes.size := by decide +kernel
  have nodes : interrupted.nodes = circling.nodes :=
    (develops_resolveNode (linked.sound made_circling.sound) inside {}).nodes.trans linked.nodes
  refine ⟨nodes ▸ ⟨_, _, rfl, rfl⟩, ?_, ?_⟩
  all_goals decide +kernel

/-- The access is half bound, and the fault that it stopped at is one of the two. -/
theorem stopped_interrupted : ∃ (ids : List NodeId) (met : List Fault), ⟨4⟩ ∈ ids ∧
    (∀ id, id ∈ ids ↔ interrupted.HalfBound id) ∧ met.length = ids.length ∧
    met.Sublist [.circularReexport "a" "x", .circularReexport "a" "x"] := by
  obtain ⟨⟨ids, met, -, half, among, circles⟩, -, -⟩ := history_interrupted.stopped_accesses
  exact ⟨ids, met, (half _).mpr halfBound_access, half, circles.length_eq.symm, among⟩

/-- A step that fails leaves the access at which it stops half bound, and done again it does not fail. -/
theorem halfBound_interrupted : (link.outcome circling).2.Reachable ∧
    (resolveNode {} ⟨4⟩).outcome (link.outcome circling).2 =
      (.error (.circularReexport "a" "x"), interrupted) ∧
    interrupted.HalfBound ⟨4⟩ ∧ ((resolveNode {} ⟨4⟩).outcome interrupted).1 = .ok () := by
  refine ⟨.link (.made made_circling), Step.outcome_eq ?_, halfBound_access, ?_⟩
  all_goals decide +kernel

end Graph

end Bundler
