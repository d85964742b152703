import Bundler.Proofs.Bundle.Reachable
import Bundler.Proofs.Graph.Accesses
import Bundler.Proofs.Graph.Lasting
import Bundler.Proofs.Inclusion.Effects

/-! # Effects in a program

A node is settled as a whole only while names and chains of known keys are resolved, so the analysis of
effects is exact in every state that a program can come to, and whatever is part of the bundle.
-/

namespace Bundler.Graph

open Step (Preserves)

variable {graph other state more : Graph} {owner : ModuleId} {options : Options} {nodes : Array Node}

/-! ## Settled nodes -/

/-- The graph has the given nodes, and what is settled as a whole among them is read from names. -/
def Charts (nodes : Array Node) (graph : Graph) : Prop := graph.nodes = nodes ∧ graph.Charted

namespace Charts

/-- A node that is known to be an access read from a name may be noted to be anything. -/
theorem settle {id : NodeId} {resolution : Resolution}
    (rooted : ∀ {owner e}, Placed nodes owner e → e.id = id → resolution ≠ .fallback → e.Rooted) :
    Preserves (Charts nodes) (settle id resolution) := by
  rintro graph ⟨same, charted⟩
  refine ⟨same, fun owner e placed settled => ?_⟩
  rw [Graph.settle, Step.outcome_modify] at placed settled
  have placed : Placed graph.nodes owner e := placed
  by_cases here : e.id = id ∧ id.index < graph.marks.size
  · refine rooted (same ▸ placed) here.1 ?_
    rintro rfl
    rw [isSettled, resolutionAt, markAt_modifyMark, if_pos here] at settled
    cases settled
  · rw [isSettled, resolutionAt, markAt_modifyMark, if_neg here] at settled
    exact charted owner e placed settled

theorem settle_rooted {e : Expr Label} (placed : Placed nodes owner e) (rooted : e.Rooted)
    (resolution : Resolution) : Preserves (Charts nodes) (Graph.settle e.id resolution) :=
  settle fun {_ other} placed' same _ => by
    have found : Placed nodes owner e := placed
    rw [Placed, ← same, placed'] at found
    cases found
    exact rooted

theorem onSymbols {α : Type} (step : Step Symbols α) : Preserves (Charts nodes) (onSymbols step) := by
  intro graph holds
  rw [onSymbols_outcome]
  exact holds

theorem once {id : NodeId} {step : Step Graph Unit} (preserves : Preserves (Charts nodes) step) :
    Preserves (Charts nodes) (once id step) := by
  refine Preserves.bind (fun _ holds => holds) fun _ => ?_
  split
  · exact Preserves.pure _
  · refine Preserves.bind (fun graph holds => ⟨holds.1, ?_⟩) fun _ => preserves
    refine holds.2.of_resolutions rfl fun other => ?_
    rw [resolutionAt, Step.outcome_modify, markAt_modifyMark]
    split <;> rfl

theorem follow (declaration : DeclId) (keys : List ChainKey) :
    Preserves (Charts nodes) (follow declaration keys) := by
  induction keys generalizing declaration with
  | nil => exact Preserves.pure _
  | cons key rest ih =>
      rw [Graph.follow]
      refine Preserves.bind (fun _ holds => holds) fun graph => ?_
      split
      · exact Preserves.pure _
      · refine (onSymbols _).bind fun found => ?_
        split
        · exact ih _
        · exact Preserves.pure _

theorem conclude {home : ModuleId} {e : Expr Label} (placed : Placed nodes home e) (rooted : e.Rooted)
    (root : String)
    (destination : Destination) :
    Preserves (Charts nodes) (conclude options owner e.id root destination) := by
  cases destination with
  | declaration last =>
      refine (settle_rooted placed rooted _).bind fun _ => Preserves.bind (fun graph holds => ?_) fun _ =>
        Preserves.pure _
      rw [proposeFor, Step.outcome_modify]
      dsimp only
      split <;> exact holds
  | missing exporter key =>
      exact Preserves.bind (fun _ holds => holds) fun _ =>
        (settle_rooted placed rooted _).bind fun _ => Preserves.pure _
  | beyond => exact (settle_rooted placed rooted _).bind fun _ => Preserves.pure _

/-- Only chains that are read from names are settled as a whole. -/
theorem composes (arena : Arena nodes) (options : Options) (owner : ModuleId) :
    Composes options owner (fun e => ∃ home, Placed nodes home e) (Preserves (Charts nodes)) where
  child {e} placed c child := placed.imp fun _ placed => placed.child arena c child
  pure := Preserves.pure
  bind := Preserves.bind
  once _ := once
  name {label name} placed := by
    obtain ⟨home, placed⟩ := placed
    exact Preserves.bind (fun _ holds => holds) fun _ => settle_rooted placed ⟨label, name, [], rfl⟩ _
  access {access} placed := by
    obtain ⟨home, placed⟩ := placed
    by_cases named : access.Rooted
    · obtain ⟨label, root, keys, chain⟩ := id named
      rw [resolveAccess_eq chain]
      exact Preserves.bind (fun _ holds => holds) fun _ =>
        (follow _ _).bind fun _ => conclude placed named _ _
    · rw [resolveAccess]
      split
      next chain => exact absurd ⟨_, _, _, chain⟩ named
      next => exact (settle fun _ _ other => absurd rfl other).bind fun _ => Preserves.pure _

end Charts

/-- A program that has not been looked at has nothing settled. -/
theorem Made.charted (made : graph.Made) : graph.Charted := by
  intro owner e _ settled
  rw [isSettled, resolutionAt, made.markAt] at settled
  cases settled

theorem charted_link (charted : graph.Charted) : (link.outcome graph).2.Charted := by
  rw [link_outcome]
  generalize Symbols.link.outcome graph.symbols = result
  obtain ⟨fault | _, after⟩ := result <;> exact charted

theorem charted_resolve (sound : graph.Sound) (charted : graph.Charted) (options : Options) :
    ((resolve options).outcome graph).2.Charted :=
  (preserves_resolve And.left sound.arena Charts.once (Charts.composes sound.arena options) graph
    ⟨rfl, charted⟩).2

theorem charted_resolveNode (sound : graph.Sound) (charted : graph.Charted) (options : Options)
    {id : NodeId} (inside : id.index < graph.nodes.size) : ((resolveNode options id).outcome graph).2.Charted :=
  (preserves_resolveNode And.left sound.arena Charts.once (Charts.composes sound.arena options) inside graph
    ⟨rfl, charted⟩).2

theorem SameProgram.charted (same : SameProgram graph other) (charted : graph.Charted) : other.Charted :=
  charted.of_resolutions same.nodes same.resolutionAt

/-- In every state of a program, what is settled as a whole is read from names. -/
theorem Reachable.charted (reachable : graph.Reachable) : graph.Charted :=
  (reachable.steps (P := fun graph => graph.Charted) (fun made => made.charted)
    (fun _ charted => charted_link charted)
    (fun options intact charted => charted_resolve intact.sound charted options)
    (fun options _ intact inside charted => charted_resolveNode intact.sound charted options inside)
    (fun _ charted => (alike_retainAll _ _).sameProgram.charted charted)
    (fun _ _ charted => (alike_retainFragment _ _).sameProgram.charted charted)
    (fun _ _ charted => (alike_retainWithin _ _ _).sameProgram.charted charted)
    (fun _ charted => (alike_shakeWithin _ _).sameProgram.charted charted)
    fun options _ charted => (sameProgram_assignNames options _).charted charted).2

/-! ## Effects -/

/-- Whatever is part of the bundle, evaluating a node may be noticed exactly if there is a call anywhere in
    it, or an assignment to anything but a name for something that a statement declares and that is not part
    of the bundle.  So no effect goes away when more becomes part of the bundle, and after shaking every
    statement of a module that is executed is part of the bundle if any such call or assignment is in it. -/
theorem effects_exact (reachable : graph.Reachable) (alike : Alike graph state) :
    (∀ id, state.hasEffects id = true ↔ ∃ e ∈ (state.nodeAt id).fragment.exprs, state.Acts e) ∧
      (∀ more, Alike graph more →
        (∀ id, state.includesDeclaration id = true → more.includesDeclaration id = true) →
        ∀ id, state.hasEffects id = true → more.hasEffects id = true) ∧
      ∀ owner ∈ state.order, ∀ statement ∈ state.statements owner,
        ∀ e ∈ Expr.partsAll statement.children, state.shake.2.Acts e →
          state.shake.2.includesNode statement.id = true := by
  have grounded : state.Grounded := alike.grounded reachable.intact.sound.grounded
  have charted : state.Charted := alike.sameProgram.charted reachable.charted
  refine ⟨fun id => hasEffects_iff grounded.arena charted id, fun more alike' enlarged id effect => ?_,
    fun owner member statement among e part acts => ?_⟩
  · exact hasEffects_mono (alike.symm.trans alike').agrees enlarged effect
  · exact grounded.includesNode_shake charted member among part acts

end Bundler.Graph

namespace Bundler

/-- A variable is set, and only then read by something that has an effect. -/
def Draft.counting : Draft :=
  let draft := (Draft.addModule {} "main").2
  let draft := ((declare ⟨0⟩ .block "counter" none false).outcome draft).2
  let draft := (draft.addExpression ⟨0⟩ (.assign () (.ident () "counter") (.literal () .null))).2
  (draft.addExpression ⟨0⟩ (.call () (.ident () "log") [.ident () "counter"])).2

/-- The program with this one module. -/
def Graph.counting : Graph := Draft.counting.graph

theorem Draft.built_counting : Draft.counting.Built := by
  refine .addExpression (.addExpression (.declare (.addModule .empty "main") ?_ _ _ _ _) ?_ _) ?_ _
  all_goals decide

theorem Graph.made_counting : Graph.counting.Made :=
  .finish Draft.built_counting (by decide) rfl

namespace Graph

/-- As long as nothing is part of the bundle, setting the variable has no effect.  Shaking includes the
    call, the call the variable, and so the assignment comes to have one. -/
theorem effects_counting : ∃ linked bound, link.outcome counting = (.ok (), linked) ∧
    (resolve {}).outcome linked = (.ok (), bound) ∧ bound.hasEffects ⟨5⟩ = false ∧
      bound.shake.2.hasEffects ⟨5⟩ = true ∧ bound.shake.2.includesNode ⟨5⟩ = true := by
  let bind : Step Graph Unit := do link; resolve {}
  have succeeds : (bind.outcome counting).1 = .ok () := by decide +kernel
  have before : (bind.outcome counting).2.hasEffects ⟨5⟩ = false := by decide +kernel
  have after : (bind.outcome counting).2.shake.2.hasEffects ⟨5⟩ = true := by decide +kernel
  have executed : ⟨0⟩ ∈ (bind.outcome counting).2.order := by decide +kernel
  have member : ⟨5⟩ ∈ ((bind.outcome counting).2.symbols.moduleAt ⟨0⟩).body := by decide +kernel
  obtain ⟨_, linked, linking, resolving⟩ := Step.ok_of_bind (Step.outcome_eq succeeds)
  generalize (bind.outcome counting).2 = bound at before after executed member resolving
  have reachable : bound.Reachable := by
    have first := (Reachable.made made_counting).link
    rw [linking] at first
    have second := first.resolve {}
    rwa [resolving] at second
  have shaken : Alike bound bound.shake.2 := alike_shakeWithin _ _
  obtain ⟨law, -, -⟩ := effects_exact reachable shaken
  obtain ⟨-, -, included⟩ := effects_exact reachable (.refl bound)
  obtain ⟨statement, among, same, found⟩ :=
    reachable.intact.sound.grounded.mem_statements_of_body member
  obtain ⟨e, part, acts⟩ := (law ⟨5⟩).mp after
  rw [nodeAt_of_getElem? (shaken.agrees.nodes ▸ found)] at part
  exact ⟨linked, bound, linking, resolving, before, after,
    same ▸ included _ executed statement among e part acts⟩

end Graph

end Bundler
