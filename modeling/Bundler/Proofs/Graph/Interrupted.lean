import Bundler.Proofs.Bundle.OnceLinked
import Bundler.Proofs.Graph.Warnings

/-! # Interrupted binding

It is noted that somebody has looked at a node before it is found out what the node is, and the note stays
when finding out fails.  The one thing that can fail is to follow the keys of an access through the exports
of modules, so the access at which a step stops is left half bound, and no other node.
-/

namespace Bundler

/-- Whether the expression is a name or reads a property, so that there is something to find out about
    it. -/
def Expr.isReference {α : Type} : Expr α → Bool
  | .ident _ _ | .member _ _ _ | .index _ _ _ => true
  | .literal _ _ | .call _ _ _ | .assign _ _ _ => false

namespace Graph

open Step (Preserves)

/-- The node is a name or an access. -/
def IsReference (nodes : Array Node) (id : NodeId) : Prop :=
  ∃ owner e, nodes[id.index]? = some ⟨owner, .expr e⟩ ∧ e.isReference = true

/-- A name or an access that somebody has looked at, while nothing has been found out about it. -/
structure HalfBound (graph : Graph) (id : NodeId) : Prop where
  reference : IsReference graph.nodes id
  bound : (graph.markAt id).bound = true
  unsettled : graph.resolutionAt id = none

/-- The node is an access with known keys, and one of them is asked of a module that has the fault as its
    answer. -/
def Blocked (graph : Graph) (id : NodeId) (fault : Fault) : Prop :=
  ∃ owner access label root keys, graph.nodes[id.index]? = some ⟨owner, .expr access⟩ ∧
    access.chain? = some (.ident label root, keys) ∧
    ∃ key ∈ keys, ∃ source, graph.symbols.exportOrigin? source key.name = .error fault

/-- More nodes have been looked at, of which at most the one that is given is half bound. -/
structure Binds (graph after : Graph) (stopped : Option NodeId) : Prop where
  nodes : after.nodes = graph.nodes
  marks : after.marks.size = graph.marks.size
  bound : ∀ id, (graph.markAt id).bound = true → (after.markAt id).bound = true
  still : ∀ id, (after.markAt id).bound = false → after.resolutionAt id = graph.resolutionAt id
  halfBound : ∀ id, after.HalfBound id ↔ graph.HalfBound id ∨ stopped = some id
  fresh : ∀ id, stopped = some id → (graph.markAt id).bound = false

variable {graph middle after : Graph} {nodes : Array Node} {owner : ModuleId} {options : Options}
  {stopped : Option NodeId}

namespace Binds

/-- Nothing has been looked at. -/
theorem of_same (nodes : after.nodes = graph.nodes) (marks : after.marks.size = graph.marks.size)
    (bound : ∀ id, (after.markAt id).bound = (graph.markAt id).bound)
    (resolutionAt : ∀ id, after.resolutionAt id = graph.resolutionAt id) : Binds graph after none where
  nodes := nodes
  marks := marks
  bound id before := (bound id).trans before
  still id _ := resolutionAt id
  halfBound id := by
    simp only [reduceCtorEq, or_false]
    constructor
    · exact fun half =>
        ⟨nodes ▸ half.reference, bound id ▸ half.bound, resolutionAt id ▸ half.unsettled⟩
    · exact fun half => ⟨nodes.symm ▸ half.reference, (bound id).trans half.bound,
        (resolutionAt id).trans half.unsettled⟩
  fresh _ none := by cases none

theorem refl (graph : Graph) : Binds graph graph none :=
  of_same rfl rfl (fun _ => rfl) fun _ => rfl

theorem unbound (binds : Binds graph after stopped) {id : NodeId}
    (unbound : (after.markAt id).bound = false) : (graph.markAt id).bound = false := by
  by_contra seen
  exact absurd (binds.bound id (by simpa using seen)) (by simp [unbound])

theorem trans (first : Binds graph middle none) (second : Binds middle after stopped) :
    Binds graph after stopped where
  nodes := second.nodes.trans first.nodes
  marks := second.marks.trans first.marks
  bound id before := second.bound id (first.bound id before)
  still id unbound := (second.still id unbound).trans (first.still id (second.unbound unbound))
  halfBound id := by
    rw [second.halfBound, first.halfBound]
    simp
  fresh id same := first.unbound (second.fresh id same)

theorem unseen (binds : Binds graph after stopped) (unseen : Unseen nodes graph) :
    Unseen nodes after where
  nodes := binds.nodes.trans unseen.nodes
  marks := binds.marks.trans unseen.marks
  unsettled id unbound := (binds.still id unbound).trans (unseen.unsettled id (binds.unbound unbound))

/-- One node has been looked at.  It is half bound if it is a reference about which nothing is known. -/
theorem of_look {id : NodeId} (nodes : after.nodes = graph.nodes)
    (marks : after.marks.size = graph.marks.size) (unbound : (graph.markAt id).bound = false)
    (bound : (after.markAt id).bound = true)
    (others : ∀ other, other ≠ id → after.markAt other = graph.markAt other)
    (half : stopped = some id ↔ IsReference graph.nodes id ∧ after.resolutionAt id = none)
    (only : ∀ other, stopped = some other → other = id) : Binds graph after stopped where
  nodes := nodes
  marks := marks
  bound other before := by
    by_cases same : other = id
    · rw [same, bound]
    · rw [others other same, before]
  still other unseen := by
    by_cases same : other = id
    · rw [same, bound] at unseen
      cases unseen
    · rw [resolutionAt, others other same, resolutionAt]
  halfBound other := by
    by_cases same : other = id
    · subst same
      rw [half]
      constructor
      · exact fun half => .inr ⟨nodes ▸ half.reference, half.unsettled⟩
      · rintro (before | ⟨reference, unsettled⟩)
        · exact absurd before.bound (by simp [unbound])
        · exact ⟨nodes.symm ▸ reference, bound, unsettled⟩
    · have resolutionAt : after.resolutionAt other = graph.resolutionAt other :=
        congrArg Mark.resolution (others other same)
      constructor
      · exact fun half => .inl ⟨nodes ▸ half.reference, others other same ▸ half.bound,
          resolutionAt ▸ half.unsettled⟩
      · rintro (before | stops)
        · exact ⟨nodes.symm ▸ before.reference, (others other same).symm ▸ before.bound,
            resolutionAt.trans before.unsettled⟩
        · exact absurd (only other stops) same
  fresh other stops := by rwa [only other stops]

end Binds

/-! ## Steps -/

/-- What a step comes to: it succeeds and leaves no further node half bound, or it fails and leaves exactly
    the access half bound at which it stopped. -/
inductive Comes (graph : Graph) {α : Type} : Except Fault α × Graph → Prop where
  | done {a after} : Binds graph after none → Comes graph (.ok a, after)
  | stopped {id fault after} :
    Binds graph after (some id) → after.Blocked id fault → Comes graph (.error fault, after)

/-- The step comes to its end or stops at an access, in a program with the given nodes. -/
def Advances (nodes : Array Node) {α : Type} (step : Step Graph α) : Prop :=
  ∀ graph : Graph, Unseen nodes graph → Comes graph (step.outcome graph)

namespace Comes

variable {α β : Type}

theorem onward {outcome : Except Fault α × Graph} (binds : Binds graph middle none)
    (comes : Comes middle outcome) : Comes graph outcome := by
  cases comes with
  | done binds' => exact .done (binds.trans binds')
  | stopped binds' blocked => exact .stopped (binds.trans binds') blocked

theorem bind {step : Step Graph α} {next : α → Step Graph β} (first : Comes graph (step.outcome graph))
    (later : ∀ a middle, step.outcome graph = (.ok a, middle) → Binds graph middle none →
      Comes middle ((next a).outcome middle)) : Comes graph ((step >>= next).outcome graph) := by
  rw [Step.outcome_bind]
  generalize step.outcome graph = outcome at first later
  cases first with
  | stopped binds blocked => exact .stopped binds blocked
  | done binds => exact .onward binds (later _ _ rfl binds)

end Comes

namespace Advances

variable {α β : Type} {id : NodeId}

theorem pure (a : α) : Advances nodes (pure a : Step Graph α) := fun graph _ => .done (.refl graph)

theorem bind {step : Step Graph α} {next : α → Step Graph β} (first : Advances nodes step)
    (later : ∀ a, Advances nodes (next a)) : Advances nodes (step >>= next) := fun graph unseen =>
  (first graph unseen).bind fun a _ _ binds => later a _ (binds.unseen unseen)

theorem forM {step : α → Step Graph Unit} {items : List α}
    (each : ∀ item ∈ items, Advances nodes (step item)) : Advances nodes (items.forM step) := by
  induction items with
  | nil => exact pure ()
  | cons item rest ih =>
      rw [List.forM_eq_forM, List.forM_cons]
      exact bind (each item List.mem_cons_self) fun _ =>
        ih fun item member => each item (List.mem_cons_of_mem _ member)

/-- What is done at a node when it is looked at. -/
theorem once {step : Step Graph Unit}
    (looked : ∀ graph, Unseen nodes graph → (graph.markAt id).bound = false →
      Comes graph (step.outcome (graph.look id))) : Advances nodes (once id step) := by
  intro graph unseen
  rw [Graph.once, Step.outcome_bind, Step.outcome_get]
  dsimp only
  split
  next => exact .done (.refl graph)
  next unbound =>
      rw [Step.outcome_bind, Step.outcome_modify]
      exact looked graph unseen (by simpa using unbound)

/-- Something is done about the parts of a node that is no reference. -/
theorem once_parts {step : Step Graph Unit} (inside : id.index < nodes.size)
    (other : ¬ IsReference nodes id) (advances : Advances nodes step) :
    Advances nodes (Graph.once id step) := by
  refine once fun graph unseen unbound => ?_
  have inside' : id.index < graph.marks.size := by rwa [unseen.marks]
  have binds : Binds graph (graph.look id) none := by
    refine .of_look rfl (by simp [Graph.look, modifyMark]) unbound (bound_look inside')
      (fun other different => markAt_modifyMark_of_ne different _) ?_ (by simp)
    simp [unseen.nodes, other]
  exact .onward binds (advances _ (binds.unseen unseen))

end Advances

/-! ## Names and accesses -/

/-- A key at which following fails is asked of a module that has no answer. -/
theorem follow_error {declaration : DeclId} {keys : List ChainKey} {fault : Fault}
    (failed : (follow declaration keys).outcome graph = (.error fault, after)) :
    ∃ key ∈ keys, ∃ source, after.symbols.exportOrigin? source key.name = .error fault := by
  induction keys generalizing graph declaration with
  | nil => cases failed
  | cons key rest ih =>
      rw [follow, Step.outcome_bind, Step.outcome_get] at failed
      dsimp only at failed
      split at failed
      next => cases failed
      next source _ =>
          rw [Step.outcome_bind, onSymbols_outcome, Symbols.resolveExport?_outcome] at failed
          cases search : graph.symbols.exportOrigin? source key.name with
          | error other =>
              rw [search] at failed
              cases failed
              exact ⟨key, List.mem_cons_self, source, search⟩
          | ok origin =>
              rw [search] at failed
              cases origin with
              | none => cases failed
              | some origin =>
                  obtain ⟨later, member, found⟩ := ih failed
                  exact ⟨later, List.mem_cons_of_mem _ member, found⟩

/-- What a node turns out to be is noted right after the node has been looked at. -/
theorem binds_settle {id : NodeId} {resolution : Resolution} (unseen : Unseen nodes graph)
    (inside : id.index < nodes.size) (unbound : (graph.markAt id).bound = false)
    (same : after.nodes = graph.nodes)
    (marks : after.marks =
      ((graph.look id).modifyMark id fun mark => { mark with resolution := some resolution }).marks) :
    Binds graph after none := by
  have inside' : id.index < graph.marks.size := by rwa [unseen.marks]
  have inside'' : id.index < (graph.look id).marks.size := by simpa [look, modifyMark] using inside'
  have marked : ∀ other, after.markAt other = ((graph.look id).modifyMark id fun mark =>
      { mark with resolution := some resolution }).markAt other := fun other => by
    rw [markAt, marks]
    rfl
  have settled : after.markAt id = { (graph.look id).markAt id with resolution := some resolution } :=
    (marked id).trans (markAt_modifyMark_self inside'' _)
  have resolved : after.resolutionAt id = some resolution := congrArg Mark.resolution settled
  refine .of_look same (by simp [marks, look, modifyMark]) unbound
    ((congrArg Mark.bound settled).trans (bound_look inside')) ?_ (by simp [resolved]) (by simp)
  exact fun other different => (marked other).trans
    ((markAt_modifyMark_of_ne different _).trans (markAt_modifyMark_of_ne different _))

theorem advances_name {label : Label} {name : String} (placed : Placed nodes owner (.ident label name)) :
    Advances nodes (once label.id do settle label.id (.declaration (← lookup owner name))) := by
  refine .once fun graph unseen unbound => ?_
  obtain ⟨start, looked, outcome⟩ := lookup_outcome (graph.look label.id) owner name
  rw [Step.outcome_bind, outcome]
  have inside : label.id.index < nodes.size := (Array.getElem?_eq_some_iff.mp placed).1
  exact .done (binds_settle unseen inside unbound rfl rfl)

/-- Looking at an access as a whole.  If its keys cannot be followed, it is left half bound. -/
theorem comes_resolveAccess {access : Expr Label} (accesses : access.isAccess = true)
    (placed : Placed nodes owner access) (unseen : Unseen nodes graph)
    (unbound : (graph.markAt access.id).bound = false) :
    Comes graph ((resolveAccess options owner access).outcome (graph.look access.id)) := by
  have inside : access.id.index < nodes.size := (Array.getElem?_eq_some_iff.mp placed).1
  by_cases named : ∃ label root keys, access.chain? = some (.ident label root, keys)
  · obtain ⟨label, root, keys, chain⟩ := named
    obtain ⟨start, looked, outcome⟩ := lookup_outcome (graph.look access.id) owner root
    obtain ⟨symbols, same⟩ := follow_symbols start keys ((graph.look access.id).withSymbols looked)
    rw [resolveAccess_eq chain, Step.outcome_bind, outcome]
    dsimp only
    rw [Step.outcome_bind]
    cases followed : (follow start keys).outcome ((graph.look access.id).withSymbols looked) with
    | mk result reached =>
        rw [followed] at same
        obtain rfl : reached = ((graph.look access.id).withSymbols looked).withSymbols symbols := same
        cases result with
        | ok destination =>
            obtain ⟨after, -, -, concluded⟩ := conclude_outcome
              (((graph.look access.id).withSymbols looked).withSymbols symbols) options owner access.id root
              destination
            dsimp only
            rw [concluded]
            exact .done (binds_settle unseen inside unbound rfl rfl)
        | error fault =>
            have inside' : access.id.index < graph.marks.size := by rwa [unseen.marks]
            refine .stopped (.of_look rfl Array.size_modify unbound (bound_look inside')
              (fun other different => markAt_modifyMark_of_ne different _) ?_ (by simp [eq_comm]))
              ⟨owner, access, label, root, keys, unseen.nodes.symm ▸ placed, chain, follow_error followed⟩
            have unsettled : (graph.look access.id).resolutionAt access.id = none :=
              (resolutionAt_look _ _).trans (unseen.unsettled _ unbound)
            have reference : IsReference graph.nodes access.id := by
              refine ⟨owner, access, unseen.nodes.symm ▸ placed, ?_⟩
              cases access <;> first | rfl | cases accesses
            exact iff_of_true rfl ⟨reference, unsettled⟩
  · rw [resolveAccess]
    split
    next chain => exact absurd ⟨_, _, _, chain⟩ named
    next => exact .done (binds_settle unseen inside unbound rfl rfl)

/-! ## Expressions and statements -/

theorem advances_resolveExprs {es : List (Expr Label)}
    (each : ∀ e ∈ es, Advances nodes (resolveExpr options owner e)) :
    Advances nodes (resolveExprs options owner es) := by
  induction es with
  | nil =>
      rw [resolveExprs]
      exact .pure ()
  | cons e rest ih =>
      rw [resolveExprs]
      exact (each e List.mem_cons_self).bind fun _ =>
        ih fun other member => each other (List.mem_cons_of_mem _ member)

theorem advances_access {access : Expr Label} (accesses : access.isAccess = true)
    (placed : Placed nodes owner access)
    (parts : Advances nodes (resolveExprs options owner access.children)) :
    Advances nodes (resolveExpr options owner access) := by
  rw [resolveExpr_access accesses]
  refine .once fun graph unseen unbound => ?_
  have first : Comes graph ((resolveAccess options owner access).outcome (graph.look access.id)) :=
    comes_resolveAccess accesses placed unseen unbound
  rw [Step.outcome_bind]
  generalize (resolveAccess options owner access).outcome (graph.look access.id) = outcome at first
  cases first with
  | stopped binds blocked => exact .stopped binds blocked
  | @done settled middle binds =>
      cases settled with
      | true => exact .done binds
      | false => exact .onward binds (parts _ (binds.unseen unseen))

/-- A node that is no reference is known by its expression. -/
theorem Placed.not_reference {e : Expr Label} (placed : Placed nodes owner e)
    (other : e.isReference = false) : ¬ IsReference nodes e.id := by
  rintro ⟨_, _, found, reference⟩
  rw [placed] at found
  cases found
  exact absurd reference (by simp [other])

theorem advances_resolveExpr (arena : Arena nodes) {e : Expr Label} (placed : Placed nodes owner e) :
    Advances nodes (resolveExpr options owner e) := by
  induction e using Expr.children_induction with
  | step e ih =>
  have parts : ∀ c ∈ e.children, Advances nodes (resolveExpr options owner c) := fun c child =>
    ih c child (placed.child arena c child)
  have inside : e.id.index < nodes.size := (Array.getElem?_eq_some_iff.mp placed).1
  cases e with
  | ident label name =>
      rw [resolveExpr]
      exact advances_name placed
  | literal label value =>
      rw [resolveExpr]
      exact .once_parts inside (placed.not_reference rfl) (.pure ())
  | member | index => exact advances_access rfl placed (advances_resolveExprs parts)
  | call label callee arguments =>
      rw [resolveExpr]
      exact .once_parts inside (placed.not_reference rfl)
        ((parts callee List.mem_cons_self).bind fun _ =>
          advances_resolveExprs fun c member => parts c (List.mem_cons_of_mem _ member))
  | assign label target value =>
      rw [resolveExpr]
      exact .once_parts inside (placed.not_reference rfl) ((parts target List.mem_cons_self).bind fun _ =>
        parts value (List.mem_cons_of_mem _ List.mem_cons_self))

theorem advances_resolveStatement (arena : Arena nodes) {statement : Statement Label}
    (found : nodes[statement.id.index]? = some ⟨owner, .statement statement⟩) :
    Advances nodes (resolveStatement options owner statement) := by
  refine .once_parts (Array.getElem?_eq_some_iff.mp found).1 ?_
    (advances_resolveExprs fun _ child => advances_resolveExpr arena (arena.child found _ child).2)
  rintro ⟨_, _, other, -⟩
  rw [found] at other
  cases other

/-! ## Whole programs -/

theorem comes_resolveNode (sound : graph.Sound) (unseen : Unseen graph.nodes graph) {id : NodeId}
    (inside : id.index < graph.nodes.size) : Comes graph ((resolveNode options id).outcome graph) := by
  have found : graph.nodes[id.index]? = some graph.nodes[id.index] := Array.getElem?_eq_getElem inside
  have label := sound.arena.label found
  rw [resolveNode, Step.outcome_bind, Step.outcome_get]
  dsimp only
  rw [nodeAt_of_getElem? found]
  generalize graph.nodes[id.index] = node at found label ⊢
  obtain ⟨owner, fragment⟩ := node
  cases fragment with
  | statement body =>
      exact advances_resolveStatement sound.arena (by rwa [show body.id = id from label]) graph unseen
  | expr body =>
      have placed : Placed graph.nodes owner body := by rwa [Placed, show body.id = id from label]
      exact advances_resolveExpr sound.arena placed graph unseen

theorem comes_resolveModule (sound : graph.Sound) (unseen : Unseen graph.nodes graph) (id : ModuleId) :
    Comes graph ((resolveModule options id).outcome graph) := by
  rw [resolveModule, Step.outcome_bind, Step.outcome_get]
  refine Advances.forM (fun statement member => ?_) graph unseen
  exact advances_resolveStatement sound.arena (sound.grounded.statement member).2

theorem comes_resolve (sound : graph.Sound) (unseen : Unseen graph.nodes graph) :
    Comes graph ((resolve options).outcome graph) := by
  rw [resolve, Step.outcome_bind, Step.outcome_get]
  dsimp only
  generalize graph.order = ids
  induction ids generalizing graph with
  | nil => exact .done (.refl graph)
  | cons id rest ih =>
      rw [List.forM_eq_forM, List.forM_cons]
      refine (comes_resolveModule sound unseen id).bind fun _ middle outcome binds => ?_
      have develops := develops_resolveModule sound options id
      rw [outcome] at develops
      exact ih (develops.sound sound) (binds.nodes ▸ binds.unseen unseen)

/-! ## Looking at a node again -/

/-- The node has been looked at. -/
def Seen (id : NodeId) (graph : Graph) : Prop := (graph.markAt id).bound = true

theorem seen_modifyMark {id : NodeId} (other : NodeId) {change : Mark → Mark}
    (keeps : ∀ mark : Mark, mark.bound = true → (change mark).bound = true) :
    Preserves (Seen id) (modify fun graph => graph.modifyMark other change : Step Graph PUnit) := by
  intro graph seen
  exact (keeps_modifyMark keeps).bound seen

/-- Whatever is resolved, nodes that have been looked at still have. -/
theorem composes_seen (id : NodeId) :
    Composes options owner (fun _ => True) (Preserves (Seen id)) where
  child _ _ _ := trivial
  pure := Preserves.pure
  bind := Preserves.bind
  once _ spares := Preserves.bind (fun _ seen => seen) fun _ => by
    split
    · exact Preserves.pure _
    · exact Preserves.bind (seen_modifyMark _ fun _ _ => rfl) fun _ => spares
  name _ := Preserves.bind (fun _ seen => seen) fun _ => seen_modifyMark _ fun _ seen => seen
  access {access} _ := by
    by_cases named : ∃ label root keys, access.chain? = some (.ident label root, keys)
    · obtain ⟨label, root, keys, chain⟩ := named
      rw [resolveAccess_eq chain]
      refine Preserves.bind (fun _ seen => seen) fun start =>
        Preserves.bind (fun graph seen => ?_) fun destination graph seen => ?_
      · obtain ⟨symbols, same⟩ := follow_symbols start keys graph
        rw [same]
        exact seen
      · obtain ⟨symbols, -, -, concluded⟩ :=
          conclude_outcome graph options owner access.id root destination
        rw [concluded]
        have kept : Keeps graph (graph.modifyMark access.id fun mark =>
            { mark with resolution := some (resolutionOf destination) }) :=
          keeps_modifyMark fun _ seen => seen
        exact kept.bound seen
    · rw [resolveAccess]
      split
      next chain => exact absurd ⟨_, _, _, chain⟩ named
      next => exact Preserves.bind (seen_modifyMark _ fun _ seen => seen) fun _ => Preserves.pure _

theorem seen_once {id : NodeId} {step : Step Graph Unit} (spares : Preserves (Seen id) step)
    (inside : id.index < graph.marks.size) : Seen id ((once id step).outcome graph).2 := by
  rw [once, Step.outcome_bind, Step.outcome_get]
  dsimp only
  split
  next seen => exact seen
  next =>
      rw [Step.outcome_bind, Step.outcome_modify]
      exact spares _ (bound_look inside)

/-- To resolve an expression is to do something at its node, once. -/
theorem resolveExpr_once (e : Expr Label) :
    ∃ step, resolveExpr options owner e = once e.id step ∧ Preserves (Seen e.id) step := by
  have composes : Composes options owner (fun _ => True) (Preserves (Seen e.id)) := composes_seen e.id
  have parts : ∀ es, Preserves (Seen e.id) (resolveExprs options owner es) := fun es =>
    composes.resolveExprs es fun _ _ => trivial
  have access : e.isAccess = true → ∃ step, resolveExpr options owner e = once e.id step ∧
      Preserves (Seen e.id) step := fun accesses => by
    refine ⟨_, resolveExpr_access accesses, Preserves.bind (composes.access trivial) fun settled => ?_⟩
    cases settled with
    | true => exact Preserves.pure _
    | false => exact parts _
  cases e with
  | ident label name => exact ⟨_, by rw [resolveExpr]; rfl, composes.name trivial⟩
  | literal label value => exact ⟨_, by rw [resolveExpr]; rfl, Preserves.pure ()⟩
  | member | index => exact access rfl
  | call label callee arguments =>
      exact ⟨_, by rw [resolveExpr]; rfl,
        Preserves.bind (composes.resolveExpr callee trivial) fun _ => parts _⟩
  | assign label target value =>
      exact ⟨_, by rw [resolveExpr]; rfl,
        Preserves.bind (composes.resolveExpr target trivial) fun _ => composes.resolveExpr value trivial⟩

theorem resolveNode_once (arena : Arena nodes) (options : Options) {id : NodeId}
    (inside : id.index < nodes.size) : ∃ step, Preserves (Seen id) step ∧ ∀ graph : Graph,
      graph.nodes = nodes → (resolveNode options id).outcome graph = (once id step).outcome graph := by
  have found : nodes[id.index]? = some nodes[id.index] := Array.getElem?_eq_getElem inside
  have label := arena.label found
  have opens : ∀ {graph : Graph}, graph.nodes = nodes → graph.nodeAt id = nodes[id.index] :=
    fun same => nodeAt_of_getElem? (same ▸ found)
  generalize nodes[id.index] = node at found label opens
  obtain ⟨owner, fragment⟩ := node
  cases fragment with
  | statement body =>
      obtain rfl : body.id = id := label
      have composes : Composes options owner (fun _ => True) (Preserves (Seen body.id)) :=
        composes_seen body.id
      refine ⟨_, composes.resolveExprs body.children fun _ _ => trivial, fun graph same => ?_⟩
      rw [resolveNode, Step.outcome_bind, Step.outcome_get]
      dsimp only
      rw [opens same]
      rfl
  | expr body =>
      obtain rfl : body.id = id := label
      obtain ⟨step, same, seen⟩ : ∃ step, resolveExpr options owner body = once body.id step ∧
        Preserves (Seen body.id) step := resolveExpr_once body
      refine ⟨step, seen, fun graph there => ?_⟩
      rw [resolveNode, Step.outcome_bind, Step.outcome_get]
      dsimp only
      rw [opens there]
      exact congrArg (Step.outcome · graph) same

/-- A node that has been resolved is not resolved again, whether that has succeeded or not. -/
theorem resolveNode_again (sound : graph.Sound) (options again : Options) {id : NodeId}
    (inside : id.index < graph.nodes.size) :
    (resolveNode again id).Idle ((resolveNode options id).outcome graph).2 := by
  obtain ⟨step, spares, first⟩ := resolveNode_once sound.arena options inside
  obtain ⟨later, -, second⟩ := resolveNode_once sound.arena again inside
  have nodes := (develops_resolveNode sound inside options).nodes
  have seen : Seen id ((once id step).outcome graph).2 :=
    seen_once spares (sound.marks.symm ▸ inside)
  rw [Step.Idle, second _ nodes, first _ rfl]
  exact idle_once seen

end Graph

end Bundler
