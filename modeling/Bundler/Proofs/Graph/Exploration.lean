import Bundler.Proofs.Graph.Chains

/-! # Resolving a linked program

Once a program is linked, resolving it cannot fail.  It looks at every statement of the modules in order
and leaves what modules export alone.  Nothing is looked at twice, so resolving again does nothing.
-/

namespace Bundler

/-- On the way of a chain no module changes. -/
theorem Symbols.Traced.modules {symbols after : Symbols} {id last : DeclId} {keys : List ChainKey}
    (traced : symbols.Traced id keys after last) : after.modules = symbols.modules := by
  induction traced with
  | here => rfl
  | @hop symbols middle _ _ _ _ exporter key _ _ outcome _ ih =>
      have same := symbols.modules_resolveExport? exporter key.name
      rw [outcome] at same
      exact ih.trans same

namespace Graph

variable {graph other start : Graph} {owner : ModuleId} {options : Options}

/-! ## What resolving keeps -/

/-- The modules and their order are the same, and all nodes that have been looked at still have. -/
structure Keeps (graph other : Graph) : Prop where
  modules : other.symbols.modules = graph.symbols.modules
  order : other.order = graph.order
  bound : ∀ {id}, (graph.markAt id).bound = true → (other.markAt id).bound = true

namespace Keeps

theorem refl (graph : Graph) : Keeps graph graph := ⟨rfl, rfl, id⟩

theorem trans {last : Graph} (first : Keeps graph other) (second : Keeps other last) :
    Keeps graph last :=
  ⟨second.modules.trans first.modules, second.order.trans first.order,
    fun bound => second.bound (first.bound bound)⟩

theorem ofSymbols {symbols : Symbols} (modules : symbols.modules = graph.symbols.modules) :
    Keeps graph (graph.withSymbols symbols) :=
  ⟨modules, rfl, id⟩

end Keeps

theorem keeps_modifyMark {id : NodeId} {change : Mark → Mark}
    (bound : ∀ mark : Mark, mark.bound = true → (change mark).bound = true) :
    Keeps graph (graph.modifyMark id change) := by
  refine ⟨rfl, rfl, fun {other} before => ?_⟩
  rw [markAt_modifyMark]
  split
  · exact bound _ before
  · exact before

theorem keeps_lookup (graph : Graph) (owner : ModuleId) (name : String) :
    Keeps graph ((lookup owner name).outcome graph).2 := by
  rw [lookup, Step.outcome_modifyGet]
  dsimp only
  refine Keeps.ofSymbols ?_
  rw [Scopes.find]
  split
  · rfl
  · rw [Symbols.globalDeclaration]
    split <;> rfl

theorem Leads.modules {root : String} {keys : List ChainKey} {after : Symbols} {destination : Destination}
    (leads : graph.Leads owner root keys after destination) : after.modules = graph.symbols.modules := by
  obtain ⟨looked, -, traced, -⟩ := leads
  have keeps := keeps_lookup graph owner root
  rw [looked] at keeps
  exact traced.modules.trans keeps.modules

/-! ## Steps that cannot fail -/

/-- In whatever the program has developed into, the step succeeds, finds out more, and keeps what
    resolving keeps. -/
def Explores (start : Graph) {α : Type} (step : Step Graph α) : Prop :=
  ∀ graph, Develops start graph → ∃ a after, step.outcome graph = (.ok a, after) ∧
    Develops graph after ∧ Keeps graph after

namespace Explores

variable {α β : Type}

theorem pure (a : α) : Explores start (pure a : Step Graph α) := fun graph _ =>
  ⟨a, graph, rfl, Develops.refl graph, Keeps.refl graph⟩

theorem bind {step : Step Graph α} {next : α → Step Graph β} (first : Explores start step)
    (later : ∀ a, Explores start (next a)) : Explores start (step >>= next) := by
  intro graph before
  obtain ⟨a, middle, outcome, develops, keeps⟩ := first graph before
  obtain ⟨b, after, outcome', develops', keeps'⟩ := later a middle (before.trans develops)
  refine ⟨b, after, ?_, develops.trans develops', keeps.trans keeps'⟩
  rw [Step.outcome_bind, outcome]
  exact outcome'

theorem once {id : NodeId} {step : Step Graph Unit} (explores : Explores start step) :
    Explores start (once id step) := by
  intro graph before
  rw [Graph.once, Step.outcome_bind, Step.outcome_get]
  dsimp only
  split
  · exact pure () graph before
  · rw [Step.outcome_bind, Step.outcome_modify]
    have looked : Develops graph (graph.modifyMark id fun mark => { mark with bound := true }) :=
      develops_look id
    obtain ⟨done, after, outcome, develops, keeps⟩ := explores _ (before.trans looked)
    exact ⟨done, after, outcome, looked.trans develops,
      (keeps_modifyMark fun _ _ => rfl).trans keeps⟩

theorem forM {step : α → Step Graph Unit} {items : List α}
    (each : ∀ item ∈ items, Explores start (step item)) : Explores start (items.forM step) := by
  induction items with
  | nil => exact pure ()
  | cons item rest ih =>
      rw [List.forM_eq_forM, List.forM_cons]
      exact bind (each item List.mem_cons_self) fun _ =>
        ih fun item member => each item (List.mem_cons_of_mem _ member)

end Explores

theorem Navigable.composes_explores (navigable : start.Navigable) (options : Options)
    (owner : ModuleId) :
    Composes options owner (Placed start.nodes owner) (Explores start) where
  child := Placed.child navigable.sound.arena
  pure := Explores.pure
  bind := Explores.bind
  once _ := Explores.once
  name {label name} found graph before := by
    have develops := improves_settleName found name graph (before.sound navigable.sound) before.nodes
    obtain ⟨declaration, looked, outcome⟩ := lookup_outcome graph owner name
    have keeps := keeps_lookup graph owner name
    rw [Step.outcome_bind, outcome] at develops ⊢
    rw [outcome] at keeps
    exact ⟨_, _, rfl, develops, keeps.trans (keeps_modifyMark fun _ => id)⟩
  access {access} found graph before := by
    have develops : Develops graph ((Graph.resolveAccess options owner access).outcome graph).2 :=
      improves_resolveAccess found graph (before.sound navigable.sound) before.nodes
    by_cases named : ∃ label root keys, access.chain? = some (.ident label root, keys)
    · obtain ⟨label, root, keys, chain⟩ := named
      obtain ⟨after, destination, leads, -, -, outcome⟩ :=
        (navigable.develops before).resolveAccess options owner chain
      obtain ⟨symbols, modules, -, concluded⟩ := conclude_outcome
        (graph.withSymbols after) options owner access.id root destination
      rw [outcome, concluded] at develops ⊢
      have noted : Keeps graph (graph.modifyMark access.id fun mark =>
          { mark with resolution := some (resolutionOf destination) }) := keeps_modifyMark fun _ => id
      exact ⟨_, _, rfl, develops, modules.trans leads.modules, rfl, noted.bound⟩
    · rw [Graph.resolveAccess] at develops ⊢
      split at develops
      next chain => exact absurd ⟨_, _, _, chain⟩ named
      next => exact ⟨_, _, rfl, develops, keeps_modifyMark fun _ => id⟩

/-! ## Coverage -/

/-- The step cannot fail, and looks at the given nodes if they have not been looked at before. -/
structure Covers (start : Graph) (step : Step Graph Unit) (ids : Set NodeId) : Prop where
  explores : Explores start step
  bound : ∀ graph, Develops start graph → ∀ id ∈ ids,
    ((step.outcome graph).2.markAt id).bound = true

theorem Explores.covers_once {id : NodeId} {step : Step Graph Unit} (explores : Explores start step)
    (inside : id.index < start.marks.size) : Covers start (Graph.once id step) {id} where
  explores := explores.once
  bound graph before other member := by
    obtain rfl := Set.mem_singleton_iff.mp member
    rw [Graph.once, Step.outcome_bind, Step.outcome_get]
    dsimp only
    split
    next bound => exact bound
    next =>
        have looked : (graph.modifyMark other fun mark => { mark with bound := true }).markAt other =
            { graph.markAt other with bound := true } := by
          rw [markAt_modifyMark_self (Nat.lt_of_lt_of_eq inside before.marks.symm)]
        obtain ⟨done, after, outcome, -, keeps⟩ := explores _ (before.trans (develops_look other))
        rw [Step.outcome_bind, Step.outcome_modify]
        dsimp only
        rw [outcome]
        exact keeps.bound (congrArg Mark.bound looked)

theorem Covers.forM {α : Type} {step : α → Step Graph Unit} {items : List α} {ids : α → Set NodeId}
    (each : ∀ item ∈ items, Covers start (step item) (ids item)) :
    Covers start (items.forM step) {id | ∃ item ∈ items, id ∈ ids item} where
  explores := Explores.forM fun item member => (each item member).explores
  bound := by
    induction items with
    | nil => exact fun _ _ _ none => absurd none (by simp)
    | cons item rest ih =>
        intro graph before id member
        have first := each item List.mem_cons_self
        have later := fun item member => each item (List.mem_cons_of_mem _ member)
        obtain ⟨done, middle, outcome, develops, keeps⟩ := first.explores graph before
        have here := first.bound graph before
        rw [outcome] at here
        rw [List.forM_eq_forM, List.forM_cons, Step.outcome_bind, outcome]
        dsimp only
        obtain ⟨done', after, outcome', develops', keeps'⟩ :=
          Explores.forM (fun item member => (later item member).explores) middle (before.trans develops)
        obtain ⟨other, among, covered⟩ := member
        rcases List.mem_cons.mp among with rfl | among
        · rw [← List.forM_eq_forM, outcome']
          exact keeps'.bound (here id covered)
        · exact ih later middle (before.trans develops) id ⟨other, among, covered⟩

theorem Navigable.covers_resolveModule (navigable : start.Navigable) (options : Options)
    (owner : ModuleId) : Covers start (resolveModule options owner)
      {id | ∃ statement ∈ start.statements owner, id ∈ ({statement.id} : Set NodeId)} := by
  have sound := navigable.sound
  have covers : Covers start ((start.statements owner).forM (resolveStatement options owner))
      {id | ∃ statement ∈ start.statements owner, id ∈ ({statement.id} : Set NodeId)} := by
    refine Covers.forM fun statement member => ?_
    have found := (sound.grounded.statement member).2
    refine Explores.covers_once ?_ ?_
    · exact (navigable.composes_explores options owner).resolveExprs _ fun e child =>
        (sound.arena.child found e child).2
    · exact sound.marks ▸ (Array.getElem?_eq_some_iff.mp found).1
  have same : ∀ graph, Develops start graph → (resolveModule options owner).outcome graph =
      ((start.statements owner).forM (resolveStatement options owner)).outcome graph := by
    intro graph before
    rw [resolveModule, Step.outcome_bind, Step.outcome_get, ← before.statements owner]
  constructor
  · intro graph before
    rw [same graph before]
    exact covers.explores graph before
  · intro graph before
    rw [same graph before]
    exact covers.bound graph before

/-! ## All modules -/

/-- Every statement of the modules in order has been looked at. -/
def Resolved (graph : Graph) : Prop :=
  ∀ owner ∈ graph.order, ∀ statement ∈ graph.statements owner,
    (graph.markAt statement.id).bound = true

/-- A linked program can be resolved, which looks at every statement. -/
theorem Navigable.resolve (navigable : graph.Navigable) (options : Options) :
    ∃ after, (resolve options).outcome graph = (.ok (), after) ∧ Develops graph after ∧
      Keeps graph after ∧ after.Resolved := by
  have covers : Covers graph (graph.order.forM (resolveModule options)) _ :=
    Covers.forM fun owner _ => navigable.covers_resolveModule options owner
  obtain ⟨_, after, outcome, develops, keeps⟩ := covers.explores graph (Develops.refl graph)
  have bound := covers.bound graph (Develops.refl graph)
  rw [outcome] at bound
  refine ⟨after, ?_, develops, keeps, fun owner member statement among => ?_⟩
  · rw [Graph.resolve, Step.outcome_bind, Step.outcome_get]
    exact outcome
  · rw [keeps.order] at member
    rw [develops.statements] at among
    exact bound statement.id ⟨owner, member, statement, among, rfl⟩

theorem idle_once {id : NodeId} {step : Step Graph Unit} (bound : (graph.markAt id).bound = true) :
    (once id step).Idle graph := by
  rw [Step.Idle, once, Step.outcome_bind, Step.outcome_get]
  dsimp only
  rw [if_pos bound]
  rfl

/-- Resolving what is resolved does nothing. -/
theorem Resolved.idle (resolved : graph.Resolved) (options : Options) :
    (Graph.resolve options).Idle graph := by
  rw [Step.Idle, Graph.resolve, Step.outcome_bind, Step.outcome_get]
  refine Step.idle_forM fun owner member => ?_
  rw [Step.Idle, resolveModule, Step.outcome_bind, Step.outcome_get]
  exact Step.idle_forM fun statement among => idle_once (resolved owner member statement among)

end Graph

end Bundler
