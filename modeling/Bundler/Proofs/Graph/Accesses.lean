import Bundler.Proofs.Graph.Members

/-! # Accesses

What resolving an access does to the program as a whole.  The access itself is noted and nothing else,
unless it leads beyond all namespaces; then its parts are resolved after it, which neither touches the
access again nor gives rise to a warning.
-/

namespace Bundler.Graph

variable {graph other : Graph} {owner : ModuleId} {options : Options}

/-! ## Marks of other nodes -/

/-- The step leaves the marks of all nodes from a certain one on as they are. -/
def Spares (first : Nat) {α : Type} (step : Step Graph α) : Prop :=
  ∀ (graph : Graph) (id : NodeId), first ≤ id.index →
    (step.outcome graph).2.markAt id = graph.markAt id

namespace Spares

variable {first : Nat} {α β : Type}

theorem of_marks {step : Step Graph α} (marks : ∀ graph, (step.outcome graph).2.marks = graph.marks) :
    Spares first step := fun graph id _ => by
  rw [markAt, marks]
  rfl

theorem pure (a : α) : Spares first (pure a : Step Graph α) := of_marks fun _ => rfl

theorem bind {step : Step Graph α} {next : α → Step Graph β} (here : Spares first step)
    (later : ∀ a, Spares first (next a)) : Spares first (step >>= next) := by
  intro graph id after
  apply Step.after_bind fun other : Graph => other.markAt id = graph.markAt id
  · exact fun _ _ => here graph id after
  · exact fun a _ => (later a _ id after).trans (here graph id after)

theorem modifyMark {id : NodeId} (before : id.index < first) (change : Mark → Mark) :
    Spares first (modify fun graph => graph.modifyMark id change : Step Graph PUnit) := by
  intro graph other after
  refine markAt_modifyMark_of_ne ?_ change
  rintro rfl
  exact Nat.lt_irrefl _ (Nat.lt_of_lt_of_le before after)

theorem once {id : NodeId} {step : Step Graph Unit} (before : id.index < first)
    (spares : Spares first step) : Spares first (once id step) := by
  refine bind (of_marks fun _ => rfl) fun graph => ?_
  split
  · exact pure _
  · exact bind (modifyMark before _) fun _ => spares

theorem follow (declaration : DeclId) (keys : List ChainKey) :
    Spares first (Graph.follow declaration keys) := by
  induction keys generalizing declaration with
  | nil => exact pure _
  | cons key rest ih =>
      refine bind (of_marks fun _ => rfl) fun graph => ?_
      split
      · exact pure _
      · refine bind (of_marks fun graph => ?_) fun found => ?_
        · rw [onSymbols_outcome]
          rfl
        · split
          · exact ih _
          · exact pure _

theorem conclude {id : NodeId} (before : id.index < first) (root : String) (destination : Destination) :
    Spares first (conclude options owner id root destination) := by
  intro graph other after
  obtain ⟨symbols, -, -, outcome⟩ := conclude_outcome graph options owner id root destination
  rw [outcome]
  exact modifyMark before (fun mark => { mark with resolution := some (resolutionOf destination) })
    graph other after

end Spares

/-- Resolving an expression changes no marks of nodes behind it. -/
theorem composes_spares {nodes : Array Node} (arena : Arena nodes) (options : Options) (first : Nat) :
    Composes options owner (fun e => Placed nodes owner e ∧ e.id.index < first) (Spares first) where
  child here c child :=
    have below := arena.child here.1 c child
    ⟨below.2, Nat.lt_trans below.1 here.2⟩
  pure := Spares.pure
  bind := Spares.bind
  once here := Spares.once here.2
  name here := Spares.bind (Spares.of_marks fun _ => rfl) fun _ => Spares.modifyMark here.2 _
  access {access} here := by
    by_cases named : ∃ label root keys, access.chain? = some (.ident label root, keys)
    · obtain ⟨label, root, keys, chain⟩ := named
      rw [resolveAccess_eq chain]
      exact Spares.bind (Spares.of_marks fun _ => rfl) fun _ =>
        Spares.bind (Spares.follow _ _) fun _ => Spares.conclude here.2 _ _
    · rw [resolveAccess]
      split
      next chain => exact absurd ⟨_, _, _, chain⟩ named
      next => exact Spares.bind (Spares.modifyMark here.2 _) fun _ => Spares.pure _

/-! ## The access itself -/

/-- Of all nodes only the one has been noted to be something, with some warnings. -/
structure Notes (graph settled : Graph) (id : NodeId) (resolution : Resolution)
    (warnings : Array Diagnostic) : Prop where
  develops : Develops graph settled
  resolution : settled.resolutionAt id = some resolution
  others : ∀ other, other ≠ id → settled.markAt other = graph.markAt other
  warnings : settled.warnings = graph.warnings ++ warnings

section Chain

variable {access : Expr Label} {label : Label} {root : String} {keys : List ChainKey}

theorem Leads.of_modifyMark {id : NodeId} {change : Mark → Mark} {after : Symbols}
    {destination : Destination}
    (leads : (graph.modifyMark id change).Leads owner root keys after destination) :
    graph.Leads owner root keys after destination := by
  obtain ⟨looked, split, traced, stops⟩ := leads
  refine .follow ?_ split traced stops
  rw [lookup, Step.outcome_modifyGet, Prod.mk.injEq] at looked ⊢
  exact ⟨looked.1, congrArg graph.withSymbols (congrArg Graph.symbols looked.2)⟩

/-- An access that has not been looked at is noted to be what its keys lead to. -/
theorem Navigable.resolveExpr_chain (navigable : graph.Navigable) (options : Options)
    (placed : Placed graph.nodes owner access)
    (chain : access.chain? = some (.ident label root, keys)) (nonempty : keys ≠ [])
    (unbound : (graph.markAt access.id).bound = false) :
    ∃ after destination settled, graph.Leads owner root keys after destination ∧
      Notes graph settled access.id (resolutionOf destination)
        (complaints after options owner destination) ∧
      (destination = .beyond → settled.symbols = after) ∧
      (resolveExpr options owner access).outcome graph =
        if settles destination then (.ok (), settled)
        else (resolveExprs options owner access.children).outcome settled := by
  let marked := graph.modifyMark access.id fun mark => { mark with bound := true }
  have looked : Develops graph marked := develops_look access.id
  have navigable' := navigable.develops looked
  obtain ⟨after, destination, leads, followed, denotable, outcome⟩ :=
    navigable'.resolveAccess options owner chain
  obtain ⟨symbols, -, same, concluded⟩ := conclude_outcome (marked.withSymbols after) options owner
    access.id root destination
  have noted : Develops (marked.withSymbols after)
      ((conclude options owner access.id root destination).outcome (marked.withSymbols after)).2 :=
    develops_conclude (followed.sound navigable'.sound) placed root denotable
  rw [concluded] at outcome noted
  have inside : access.id.index < graph.marks.size :=
    navigable.sound.marks ▸ (Array.getElem?_eq_some_iff.mp placed).1
  refine ⟨after, destination, _, leads.of_modifyMark, ⟨looked.trans (followed.trans noted), ?_, ?_, rfl⟩,
    same, ?_⟩
  · exact congrArg Mark.resolution
      (markAt_modifyMark_self (Nat.lt_of_lt_of_eq inside looked.marks.symm) _)
  · exact fun other different =>
      (markAt_modifyMark_of_ne different _).trans (markAt_modifyMark_of_ne different _)
  · rw [resolveExpr_access (Expr.chain?_access chain nonempty).1, once, Step.outcome_bind,
      Step.outcome_get]
    dsimp only
    rw [if_neg (by simp [unbound]), Step.outcome_bind, Step.outcome_modify]
    dsimp only
    rw [Step.outcome_bind, outcome]
    cases settles destination <;> rfl

/-- What leads beyond all namespaces is a way without a missing key. -/
theorem Navigable.passable_of_leads (navigable : graph.Navigable) {after : Symbols}
    (leads : graph.Leads owner root keys after .beyond) : ∃ start middle,
      (lookup owner root).outcome graph = (.ok start, middle) ∧
      Develops middle (graph.withSymbols after) ∧ Passable after start keys := by
  obtain ⟨looked, rfl, traced, stops⟩ := leads
  obtain ⟨_, _, again, develops, denotable⟩ := develops_lookup navigable.sound owner root
  rw [looked] at again
  cases again
  obtain ⟨later, arrived, onward⟩ :=
    Navigable.passable_of_traced traced (navigable.develops develops) denotable
  cases stops with
  | beyond none => exact ⟨_, _, looked, later, onward _ (.beyond arrived.1.inside none)⟩

/-! ## Its parts -/

theorem warnings_literals {parts : List (Expr Label)}
    (literals : ∀ part ∈ parts, ∃ label value, part = .literal label value) :
    ((resolveExprs options owner parts).outcome graph).2.warnings = graph.warnings := by
  induction parts generalizing graph with
  | nil =>
      rw [resolveExprs]
      rfl
  | cons part rest ih =>
      obtain ⟨label, value, rfl⟩ := literals part List.mem_cons_self
      have here : ((resolveExpr options owner (.literal label value)).outcome graph).2.warnings =
          graph.warnings := by
        rw [resolveExpr, once, Step.outcome_bind, Step.outcome_get]
        dsimp only
        split <;> rfl
      rw [resolveExprs]
      apply Step.after_bind fun other : Graph => other.warnings = graph.warnings
      · exact fun _ _ => here
      · intro _ _
        exact (ih fun other member => literals other (List.mem_cons_of_mem _ member)).trans here

theorem warnings_resolveExprs {object : Expr Label} {rest : List (Expr Label)}
    (literals : ∀ part ∈ rest, ∃ label value, part = .literal label value)
    (quiet : ((resolveExpr options owner object).outcome graph).2.warnings = graph.warnings) :
    ((resolveExprs options owner (object :: rest)).outcome graph).2.warnings = graph.warnings := by
  rw [resolveExprs]
  apply Step.after_bind fun other : Graph => other.warnings = graph.warnings
  · exact fun _ _ => quiet
  · exact fun _ _ => (warnings_literals literals).trans quiet

/-- Where no key is missing, an access does not lead to a missing key. -/
theorem Leads.not_missing {start : DeclId}
    (looked : (lookup owner root).outcome graph = (.ok start, graph))
    (passable : Passable graph.symbols start keys) {after : Symbols} {destination : Destination}
    (leads : graph.Leads owner root keys after destination) (exporter : Provider) (key : ChainKey) :
    destination ≠ .missing exporter key := by
  obtain @⟨_, symbols, _, _, _, _, _, again, rfl, traced, stops⟩ := leads
  rw [looked, Prod.mk.injEq] at again
  obtain ⟨same, unchanged⟩ := again
  cases same
  have same : graph.symbols = symbols := congrArg Graph.symbols unchanged
  exact (same ▸ passable).stops traced stops exporter key

/-- Resolving a chain again, along which no key is missing, gives rise to no warning. -/
theorem Navigable.quiet (navigable : graph.Navigable) (placed : Placed graph.nodes owner access)
    (chain : access.chain? = some (.ident label root, keys)) {start : DeclId}
    (looked : (lookup owner root).outcome graph = (.ok start, graph))
    (passable : Passable graph.symbols start keys) :
    ((resolveExpr options owner access).outcome graph).2.warnings = graph.warnings := by
  -- The object is a chain with one key less, so the way that it goes is the start of the same way.
  induction access using Expr.children_induction generalizing graph keys with
  | step access ih =>
  by_cases nonempty : keys = []
  · subst nonempty
    obtain rfl := Expr.chain?_name chain
    rw [resolveExpr, once, Step.outcome_bind, Step.outcome_get]
    dsimp only
    split <;> rfl
  · obtain ⟨accesses, object, rest, shorter, key, children, objectChain, rfl, literals⟩ :=
      Expr.chain?_access chain nonempty
    cases bound : (graph.markAt access.id).bound with
    | true =>
        rw [resolveExpr_access accesses, idle_once bound]
    | false =>
        obtain ⟨after, destination, settled, leads, notes, -, outcome⟩ :=
          navigable.resolveExpr_chain options placed chain nonempty bound
        have silent : complaints after options owner destination = #[] :=
          complaints_eq_empty (leads.not_missing looked passable)
        have settledWarnings : settled.warnings = graph.warnings := by
          rw [notes.warnings, silent, Array.append_empty]
        rw [outcome]
        split
        · exact settledWarnings
        · have child : object ∈ access.children := children ▸ List.mem_cons_self
          have placed' : Placed settled.nodes owner object :=
            notes.develops.nodes ▸ placed.child navigable.sound.arena object child
          rw [children]
          refine (warnings_resolveExprs literals ?_).trans settledWarnings
          exact ih object child (navigable.develops notes.develops) placed' objectChain
            (navigable.lookup_again looked notes.develops)
            (navigable.passable notes.develops passable).take

/-- Where an access leads beyond all namespaces, its parts can be resolved.  This does not touch the
    access again and gives rise to no warning. -/
theorem Navigable.resolveExprs_children (navigable : graph.Navigable) (options : Options)
    (placed : Placed graph.nodes owner access)
    (chain : access.chain? = some (.ident label root, keys)) (nonempty : keys ≠ []) {settled : Graph}
    (develops : Develops graph settled) (leads : graph.Leads owner root keys settled.symbols .beyond) :
    ∃ after, (resolveExprs options owner access.children).outcome settled = (.ok (), after) ∧
      after.markAt access.id = settled.markAt access.id ∧ after.warnings = settled.warnings := by
  have arena := navigable.sound.arena
  have navigable' := navigable.develops develops
  have parts : ∀ part ∈ access.children, Placed settled.nodes owner part := fun part member =>
    develops.nodes ▸ placed.child arena part member
  obtain ⟨_, after, outcome, -, -⟩ := (navigable'.composes_explores options owner).resolveExprs
    access.children parts settled (Develops.refl settled)
  refine ⟨after, outcome, ?_, ?_⟩
  · have spared := (composes_spares arena options access.id.index).resolveExprs access.children
      (fun part member => ⟨placed.child arena part member, (arena.child placed part member).1⟩)
      settled access.id (Nat.le_refl _)
    rwa [outcome] at spared
  · obtain ⟨-, object, rest, shorter, key, children, objectChain, rfl, literals⟩ :=
      Expr.chain?_access chain nonempty
    obtain ⟨start, middle, looked, onward, passable⟩ := navigable.passable_of_leads leads
    have again : (lookup owner root).outcome settled = (.ok start, settled) :=
      lookup_of_symbols_eq (navigable.lookup_again looked onward) develops.scopes rfl
    have child : object ∈ access.children := children ▸ List.mem_cons_self
    have silent : ((resolveExprs options owner (object :: rest)).outcome settled).2.warnings =
        settled.warnings :=
      warnings_resolveExprs literals
        (navigable'.quiet (parts object child) objectChain again passable.take)
    rwa [← children, outcome] at silent

end Chain

end Bundler.Graph
