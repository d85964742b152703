import Mathlib.Data.List.Forall2
import Bundler.Proofs.Graph.Members

/-! # Warnings

The only thing that is warned about is an access that turns out to be `undefined`.  What a node turns out
to be is settled right after it is noted that somebody has looked at it, and nobody looks at it again, so
every such access is warned about once.
-/

namespace Bundler.Graph

/-- The warning says that a key of the access is missing, and shows it in the module of the access. -/
def Concerns (nodes : Array Node) (id : NodeId) (warning : Diagnostic) : Prop :=
  ∃ owner access root keys key,
    nodes[id.index]? = some ⟨owner, .expr access⟩ ∧ access.chain? = some (root, keys) ∧ key ∈ keys ∧
      warning.severity = .warning ∧ warning.code = missingExport ∧
      warning.primary = ⟨owner.file, key.range.saturated⟩ ∧
      warning.field? "missing" = some key.name

/-- A node that nobody had looked at has been found to be `undefined`. -/
structure NewlyUndefined (graph after : Graph) (id : NodeId) : Prop where
  unbound : (graph.markAt id).bound = false
  bound : (after.markAt id).bound = true
  undefined : after.resolutionAt id = some .undefined

/-- Nodes that have been looked at are as they were, and there is one more warning for each other node that
    has been found to be `undefined`. -/
structure Warned (graph after : Graph) : Prop where
  nodes : after.nodes = graph.nodes
  marks : after.marks.size = graph.marks.size
  bound : ∀ id, (graph.markAt id).bound = true → (after.markAt id).bound = true
  kept : ∀ id, (graph.markAt id).bound = true → after.resolutionAt id = graph.resolutionAt id
  still : ∀ id, (after.markAt id).bound = false → after.resolutionAt id = graph.resolutionAt id
  warnings : ∃ ids given, ids.Nodup ∧ (∀ id, id ∈ ids ↔ NewlyUndefined graph after id) ∧
    after.warnings.toList = graph.warnings.toList ++ given ∧ List.Forall₂ (Concerns graph.nodes) ids given

/-- Nothing is known about nodes that nobody has looked at. -/
structure Unseen (nodes : Array Node) (graph : Graph) : Prop where
  marks : graph.marks.size = nodes.size
  nodes : graph.nodes = nodes
  unsettled : ∀ id, (graph.markAt id).bound = false → graph.resolutionAt id = none

variable {graph middle after : Graph} {nodes : Array Node} {owner : ModuleId} {options : Options}

namespace Warned

/-- Nothing has been looked at. -/
theorem of_same (nodes : after.nodes = graph.nodes) (marks : after.marks.size = graph.marks.size)
    (bound : ∀ id, (after.markAt id).bound = (graph.markAt id).bound)
    (resolutionAt : ∀ id, after.resolutionAt id = graph.resolutionAt id)
    (warnings : after.warnings = graph.warnings) : Warned graph after where
  nodes := nodes
  marks := marks
  bound id before := (bound id).trans before
  kept id _ := resolutionAt id
  still id _ := resolutionAt id
  warnings := by
    refine ⟨[], [], .nil, fun id => ⟨fun none => absurd none List.not_mem_nil, fun new => ?_⟩,
      by rw [warnings, List.append_nil], .nil⟩
    exact absurd ((bound id).symm.trans new.bound) (by simp [new.unbound])

theorem refl (graph : Graph) : Warned graph graph :=
  of_same rfl rfl (fun _ => rfl) (fun _ => rfl) rfl

theorem trans (first : Warned graph middle) (second : Warned middle after) : Warned graph after where
  nodes := second.nodes.trans first.nodes
  marks := second.marks.trans first.marks
  bound id before := second.bound id (first.bound id before)
  kept id before := (second.kept id (first.bound id before)).trans (first.kept id before)
  still id unbound := by
    have between : (middle.markAt id).bound = false := by
      by_contra seen
      exact absurd (second.bound id (by simpa using seen)) (by simp [unbound])
    exact (second.still id unbound).trans (first.still id between)
  warnings := by
    obtain ⟨ids, given, nodup, new, log, concern⟩ := first.warnings
    obtain ⟨ids', given', nodup', new', log', concern'⟩ := second.warnings
    refine ⟨ids ++ ids', given ++ given', ?_, fun id => ?_, ?_, ?_⟩
    · refine List.nodup_append.mpr ⟨nodup, nodup', fun id member other member' same => ?_⟩
      subst same
      exact absurd ((new id).mp member).bound (by simp [((new' id).mp member').unbound])
    · rw [List.mem_append, new, new']
      constructor
      · rintro (early | late)
        · exact ⟨early.unbound, second.bound id early.bound,
            (second.kept id early.bound).trans early.undefined⟩
        · refine ⟨?_, late.bound, late.undefined⟩
          by_contra seen
          exact absurd (first.bound id (by simpa using seen)) (by simp [late.unbound])
      · intro found
        cases between : (middle.markAt id).bound with
        | true => exact .inl ⟨found.unbound, between, (second.kept id between).symm.trans found.undefined⟩
        | false => exact .inr ⟨between, found.bound, found.undefined⟩
    · rw [log', log, List.append_assoc]
    · exact List.rel_append concern (first.nodes ▸ concern')

/-- One node has been looked at. -/
theorem of_look {id : NodeId} {given : List Diagnostic} (nodes : after.nodes = graph.nodes)
    (marks : after.marks.size = graph.marks.size) (unbound : (graph.markAt id).bound = false)
    (bound : (after.markAt id).bound = true)
    (others : ∀ other, other ≠ id → after.markAt other = graph.markAt other)
    (warnings : after.warnings.toList = graph.warnings.toList ++ given)
    (concern : List.Forall₂ (Concerns graph.nodes)
      (if after.resolutionAt id = some .undefined then [id] else []) given) : Warned graph after where
  nodes := nodes
  marks := marks
  bound other before := by
    by_cases same : other = id
    · rw [same, bound]
    · rw [others other same, before]
  kept other before := by
    by_cases same : other = id
    · rw [same, unbound] at before
      cases before
    · rw [resolutionAt, others other same, resolutionAt]
  still other unseen := by
    by_cases same : other = id
    · rw [same, bound] at unseen
      cases unseen
    · rw [resolutionAt, others other same, resolutionAt]
  warnings := by
    refine ⟨_, given, ?_, fun other => ?_, warnings, concern⟩
    · split <;> simp
    · by_cases same : other = id
      · subst same
        constructor
        · intro member
          split at member
          next undefined => exact ⟨unbound, bound, undefined⟩
          next => cases member
        · intro new
          rw [if_pos new.undefined]
          exact List.mem_singleton_self _
      · constructor
        · intro member
          split at member
          next => exact absurd (List.mem_singleton.mp member) same
          next => cases member
        · intro new
          have again := new.bound
          rw [others other same, new.unbound] at again
          cases again

theorem unseen (warned : Warned graph after) (unseen : Unseen nodes graph) : Unseen nodes after where
  nodes := warned.nodes.trans unseen.nodes
  marks := warned.marks.trans unseen.marks
  unsettled id unbound := by
    rw [warned.still id unbound]
    apply unseen.unsettled id
    by_contra seen
    exact absurd (warned.bound id (by simpa using seen)) (by simp [unbound])

end Warned

/-! ## Looking at a node -/

/-- Notes that somebody has looked at the node. -/
def look (id : NodeId) (graph : Graph) : Graph :=
  graph.modifyMark id fun mark => { mark with bound := true }

theorem bound_look {id : NodeId} (inside : id.index < graph.marks.size) :
    ((graph.look id).markAt id).bound = true := by
  rw [look, markAt_modifyMark_self inside]

theorem resolutionAt_look (id other : NodeId) :
    (graph.look id).resolutionAt other = graph.resolutionAt other := by
  rw [resolutionAt, look, markAt_modifyMark]
  split <;> rfl

/-- The step gives its warnings, in a program with the given nodes. -/
def Accounts (nodes : Array Node) {α : Type} (step : Step Graph α) : Prop :=
  ∀ graph : Graph, Unseen nodes graph → Warned graph (step.outcome graph).2

namespace Accounts

variable {α β : Type} {id : NodeId}

theorem pure (a : α) : Accounts nodes (pure a : Step Graph α) := fun graph _ => .refl graph

theorem bind {step : Step Graph α} {next : α → Step Graph β} (first : Accounts nodes step)
    (later : ∀ a, Accounts nodes (next a)) : Accounts nodes (step >>= next) := by
  intro graph unseen
  have here := first graph unseen
  apply Step.after_bind (Warned graph) (fun _ _ => here)
  exact fun a _ => here.trans (later a _ (here.unseen unseen))

theorem forM {step : α → Step Graph Unit} {items : List α}
    (each : ∀ item ∈ items, Accounts nodes (step item)) : Accounts nodes (items.forM step) := by
  induction items with
  | nil => exact pure ()
  | cons item rest ih =>
      rw [List.forM_eq_forM, List.forM_cons]
      exact bind (each item List.mem_cons_self) fun _ =>
        ih fun item member => each item (List.mem_cons_of_mem _ member)

/-- What is done at a node when it is looked at. -/
theorem once {step : Step Graph Unit}
    (looked : ∀ graph, Unseen nodes graph → (graph.markAt id).bound = false →
      Warned graph (step.outcome (graph.look id)).2) : Accounts nodes (once id step) := by
  intro graph unseen
  rw [Graph.once, Step.outcome_bind, Step.outcome_get]
  dsimp only
  split
  next => exact .refl graph
  next unbound =>
      rw [Step.outcome_bind, Step.outcome_modify]
      exact looked graph unseen (by simpa using unbound)

theorem look (unseen : Unseen nodes graph) (inside : id.index < nodes.size)
    (unbound : (graph.markAt id).bound = false) : Warned graph (graph.look id) := by
  have inside' : id.index < graph.marks.size := by rwa [unseen.marks]
  refine .of_look rfl (by simp [Graph.look, modifyMark]) unbound (bound_look inside')
    (fun other different => markAt_modifyMark_of_ne different _) (List.append_nil _).symm ?_
  rw [resolutionAt_look, unseen.unsettled id unbound]
  exact .nil

/-- Something is done about the parts of a node. -/
theorem once_parts {step : Step Graph Unit} (inside : id.index < nodes.size)
    (accounts : Accounts nodes step) : Accounts nodes (Graph.once id step) :=
  once fun _ unseen unbound =>
    have seen := look unseen inside unbound
    seen.trans (accounts _ (seen.unseen unseen))

end Accounts

/-! ## Names and accesses -/

theorem follow_symbols (declaration : DeclId) (keys : List ChainKey) (graph : Graph) :
    ∃ symbols, ((follow declaration keys).outcome graph).2 = graph.withSymbols symbols := by
  induction keys generalizing graph declaration with
  | nil => exact ⟨graph.symbols, rfl⟩
  | cons key rest ih =>
      rw [follow]
      refine Step.after_bind (fun after => ∃ symbols, after = graph.withSymbols symbols)
        (fun _ _ => ⟨graph.symbols, rfl⟩) fun _ _ => ?_
      split
      · exact ⟨graph.symbols, rfl⟩
      · rw [Step.outcome_get]
        refine Step.after_bind (fun after => ∃ symbols, after = graph.withSymbols symbols)
          (fun _ _ => ⟨_, by rw [onSymbols_outcome]⟩) fun found _ => ?_
        rw [onSymbols_outcome]
        dsimp only
        split
        · obtain ⟨symbols, same⟩ := ih _ (graph.withSymbols _)
          exact ⟨symbols, same⟩
        · exact ⟨_, rfl⟩

/-- A key that is missing is one of those that are followed. -/
theorem follow_missing {declaration : DeclId} {keys : List ChainKey} {exporter : Provider} {key : ChainKey}
    (missing : ((follow declaration keys).outcome graph).1 = .ok (.missing exporter key)) : key ∈ keys := by
  induction keys generalizing graph declaration with
  | nil => cases missing
  | cons first rest ih =>
      rw [follow, Step.outcome_bind, Step.outcome_get] at missing
      dsimp only at missing
      split at missing
      next => cases missing
      next source _ =>
          obtain ⟨found, middle, -, later⟩ := Step.ok_of_bind (Step.outcome_eq missing)
          have later := congrArg Prod.fst later
          split at later
          next => exact List.mem_cons_of_mem _ (ih later)
          next =>
              cases later
              exact List.mem_cons_self

/-- What is warned about is a key of the access. -/
theorem concerns_complaint {access root : Expr Label} {keys : List ChainKey} {exporter : Provider}
    {key : ChainKey} (placed : Placed nodes owner access) (chain : access.chain? = some (root, keys))
    (among : key ∈ keys) (symbols : Symbols) :
    Concerns nodes access.id (missingExportWarning symbols options owner exporter key) := by
  refine ⟨owner, access, root, keys, key, placed, chain, among, rfl, rfl, rfl, ?_⟩
  simp [missingExportWarning]

/-- What a node turns out to be is noted with the warnings that there are about it. -/
theorem warned_settle {id : NodeId} {resolution : Resolution} {given : Array Diagnostic}
    (unseen : Unseen nodes graph) (inside : id.index < nodes.size)
    (unbound : (graph.markAt id).bound = false) (same : after.nodes = graph.nodes)
    (marks : after.marks =
      ((graph.look id).modifyMark id fun mark => { mark with resolution := some resolution }).marks)
    (warnings : after.warnings = graph.warnings ++ given)
    (concern : List.Forall₂ (Concerns nodes) (if resolution = .undefined then [id] else []) given.toList) :
    Warned graph after := by
  have inside' : id.index < (graph.look id).marks.size := by simpa [look, modifyMark, unseen.marks]
  have marked : ∀ other, after.markAt other = ((graph.look id).modifyMark id fun mark =>
      { mark with resolution := some resolution }).markAt other := fun other => by
    rw [markAt, marks]
    rfl
  have settled : after.markAt id = { (graph.look id).markAt id with resolution := some resolution } :=
    (marked id).trans (markAt_modifyMark_self inside' _)
  refine .of_look same (by simp [marks, look, modifyMark]) unbound ?_ ?_
    ((congrArg Array.toList warnings).trans Array.toList_append) ?_
  · refine (congrArg Mark.bound settled).trans (bound_look ?_)
    rwa [unseen.marks]
  · exact fun other different => (marked other).trans
      ((markAt_modifyMark_of_ne different _).trans (markAt_modifyMark_of_ne different _))
  · have resolved : after.resolutionAt id = some resolution := congrArg Mark.resolution settled
    rw [resolved, unseen.nodes]
    simpa only [Option.some_inj] using concern

theorem accounts_name {label : Label} {name : String} (placed : Placed nodes owner (.ident label name)) :
    Accounts nodes (once label.id do settle label.id (.declaration (← lookup owner name))) := by
  refine .once fun graph unseen unbound => ?_
  obtain ⟨start, looked, outcome⟩ := lookup_outcome (graph.look label.id) owner name
  rw [Step.outcome_bind, outcome]
  have inside : label.id.index < nodes.size := (Array.getElem?_eq_some_iff.mp placed).1
  exact warned_settle unseen inside unbound rfl rfl Array.append_empty.symm .nil

/-- Looking at an access as a whole. -/
theorem warned_resolveAccess {access : Expr Label} (placed : Placed nodes owner access)
    (unseen : Unseen nodes graph) (unbound : (graph.markAt access.id).bound = false) :
    Warned graph ((resolveAccess options owner access).outcome (graph.look access.id)).2 := by
  have inside : access.id.index < nodes.size := (Array.getElem?_eq_some_iff.mp placed).1
  by_cases named : ∃ label root keys, access.chain? = some (.ident label root, keys)
  · obtain ⟨label, root, keys, chain⟩ := named
    obtain ⟨start, looked, outcome⟩ := lookup_outcome (graph.look access.id) owner root
    obtain ⟨symbols, followed⟩ := follow_symbols start keys ((graph.look access.id).withSymbols looked)
    rw [resolveAccess_eq chain, Step.outcome_bind, outcome]
    dsimp only
    apply Step.after_bind (Warned graph)
    · intro fault failed
      -- Nothing but the symbols has changed since the access has been looked at.
      rw [followed]
      exact (Accounts.look unseen inside unbound).trans
        (.of_same rfl rfl (fun _ => rfl) (fun _ => rfl) rfl)
    · intro destination arrived
      obtain ⟨after, -, -, concluded⟩ := conclude_outcome
        (((graph.look access.id).withSymbols looked).withSymbols symbols) options owner access.id root
        destination
      rw [followed, concluded]
      refine warned_settle unseen inside unbound rfl rfl rfl ?_
      cases destination with
      | declaration last => exact .nil
      | beyond => exact .nil
      | missing exporter key =>
          exact .cons (concerns_complaint placed chain (follow_missing arrived) symbols) .nil
  · rw [resolveAccess]
    split
    next chain => exact absurd ⟨_, _, _, chain⟩ named
    next => exact warned_settle unseen inside unbound rfl rfl Array.append_empty.symm .nil

/-! ## Expressions and statements -/

theorem accounts_resolveExprs {es : List (Expr Label)}
    (each : ∀ e ∈ es, Accounts nodes (resolveExpr options owner e)) :
    Accounts nodes (resolveExprs options owner es) := by
  induction es with
  | nil =>
      rw [resolveExprs]
      exact .pure ()
  | cons e rest ih =>
      rw [resolveExprs]
      exact (each e List.mem_cons_self).bind fun _ =>
        ih fun other member => each other (List.mem_cons_of_mem _ member)

theorem accounts_access {access : Expr Label} (accesses : access.isAccess = true)
    (placed : Placed nodes owner access)
    (parts : Accounts nodes (resolveExprs options owner access.children)) :
    Accounts nodes (resolveExpr options owner access) := by
  rw [resolveExpr_access accesses]
  refine .once fun graph unseen unbound => ?_
  have here : Warned graph ((resolveAccess options owner access).outcome (graph.look access.id)).2 :=
    warned_resolveAccess placed unseen unbound
  apply Step.after_bind (Warned graph) (fun _ _ => here)
  intro settled _
  cases settled with
  | true => exact here
  | false => exact here.trans (parts _ (here.unseen unseen))

/-- Every expression is warned about as it should be, and so are its parts. -/
theorem accounts_resolveExpr (arena : Arena nodes) {e : Expr Label} (placed : Placed nodes owner e) :
    Accounts nodes (resolveExpr options owner e) := by
  induction e using Expr.children_induction with
  | step e ih =>
  have parts : ∀ c ∈ e.children, Accounts nodes (resolveExpr options owner c) := fun c child =>
    ih c child (placed.child arena c child)
  have inside : e.id.index < nodes.size := (Array.getElem?_eq_some_iff.mp placed).1
  cases e with
  | ident label name =>
      rw [resolveExpr]
      exact accounts_name placed
  | literal label value =>
      rw [resolveExpr]
      exact .once_parts inside (.pure ())
  | member | index => exact accounts_access rfl placed (accounts_resolveExprs parts)
  | call label callee arguments =>
      rw [resolveExpr]
      exact .once_parts inside ((parts callee List.mem_cons_self).bind fun _ =>
        accounts_resolveExprs fun c member => parts c (List.mem_cons_of_mem _ member))
  | assign label target value =>
      rw [resolveExpr]
      exact .once_parts inside ((parts target List.mem_cons_self).bind fun _ =>
        parts value (List.mem_cons_of_mem _ List.mem_cons_self))

theorem accounts_resolveStatement (arena : Arena nodes) {statement : Statement Label}
    (found : nodes[statement.id.index]? = some ⟨owner, .statement statement⟩) :
    Accounts nodes (resolveStatement options owner statement) :=
  .once_parts (Array.getElem?_eq_some_iff.mp found).1
    (accounts_resolveExprs fun _ child => accounts_resolveExpr arena (arena.child found _ child).2)

/-! ## Whole programs -/

theorem warned_resolveNode (sound : graph.Sound) (unseen : Unseen graph.nodes graph) {id : NodeId}
    (inside : id.index < graph.nodes.size) : Warned graph ((resolveNode options id).outcome graph).2 := by
  have found : graph.nodes[id.index]? = some graph.nodes[id.index] := Array.getElem?_eq_getElem inside
  have label := sound.arena.label found
  rw [resolveNode, Step.outcome_bind, Step.outcome_get]
  dsimp only
  rw [nodeAt_of_getElem? found]
  generalize graph.nodes[id.index] = node at found label ⊢
  obtain ⟨owner, fragment⟩ := node
  cases fragment with
  | statement body =>
      exact accounts_resolveStatement sound.arena (by rwa [show body.id = id from label]) graph unseen
  | expr body =>
      have placed : Placed graph.nodes owner body := by rwa [Placed, show body.id = id from label]
      exact accounts_resolveExpr sound.arena placed graph unseen

theorem warned_resolveModule (sound : graph.Sound) (unseen : Unseen graph.nodes graph) (id : ModuleId) :
    Warned graph ((resolveModule options id).outcome graph).2 := by
  rw [resolveModule, Step.outcome_bind, Step.outcome_get]
  refine Accounts.forM (fun statement member => ?_) graph unseen
  exact accounts_resolveStatement sound.arena (sound.grounded.statement member).2

theorem warned_resolve (sound : graph.Sound) (unseen : Unseen graph.nodes graph) :
    Warned graph ((resolve options).outcome graph).2 := by
  rw [resolve, Step.outcome_bind, Step.outcome_get]
  dsimp only
  generalize graph.order = ids
  induction ids generalizing graph with
  | nil => exact .refl graph
  | cons id rest ih =>
      have here : Warned graph ((resolveModule options id).outcome graph).2 :=
        warned_resolveModule sound unseen id
      have sound' := (develops_resolveModule sound options id).sound sound
      rw [List.forM_eq_forM, List.forM_cons]
      apply Step.after_bind (Warned graph) (fun _ _ => here)
      exact fun _ _ => here.trans (ih sound' (here.nodes ▸ here.unseen unseen))

theorem warned_link (graph : Graph) : Warned graph (link.outcome graph).2 := by
  apply Step.after_bind (Warned graph)
  · intro _ _
    rw [onSymbols_outcome]
    exact .of_same rfl rfl (fun _ => rfl) (fun _ => rfl) rfl
  · intro _ _
    rw [onSymbols_outcome]
    exact .of_same rfl rfl (fun _ => rfl) (fun _ => rfl) rfl

end Bundler.Graph
