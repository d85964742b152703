import Bundler.Proofs.Graph.Members
import Bundler.Proofs.Inclusion.Shaking

/-! # What has effects

Whether evaluating something may be noticed is found out by a recursion that leaves parts out: it does not
look below an access that is settled as a whole, nor at the target of an assignment.  Nothing that could be
noticed hides there.  An access is settled as a whole only if it is a chain of known keys that is read from
a name, and an assignment whose target is not a name can always be noticed itself.
-/

namespace Bundler

variable {graph other : Graph} {owner : ModuleId}

/-! ## Chains that are read from names -/

/-- The expression is a name, or known keys are read from one. -/
def Expr.Rooted (e : Expr Label) : Prop :=
  ∃ label root keys, e.chain? = some (.ident label root, keys)

/-- All expressions at any depth of the fragment. -/
def Fragment.exprs : Fragment → List (Expr Label)
  | .statement body => Expr.partsAll body.children
  | .expr body => body.parts

namespace Expr

variable {e p : Expr Label}

theorem Rooted.child (rooted : e.Rooted) {c : Expr Label} (child : c ∈ e.children) :
    c.Rooted ∨ ∃ label value, c = .literal label value := by
  obtain ⟨label, root, keys, chain⟩ := rooted
  by_cases nonempty : keys = []
  · subst nonempty
    obtain rfl := chain?_name chain
    cases child
  · obtain ⟨-, object, rest, shorter, -, children, below, -, literals⟩ := chain?_access chain nonempty
    rw [children] at child
    rcases List.mem_cons.mp child with rfl | among
    · exact .inl ⟨label, root, shorter, below⟩
    · exact .inr (literals c among)

theorem exists_part_iff {P : Expr Label → Prop} :
    (∃ p ∈ e.parts, P p) ↔ P e ∨ ∃ c ∈ e.children, ∃ p ∈ c.parts, P p := by
  constructor
  · rintro ⟨p, part, holds⟩
    rcases mem_parts.mp part with rfl | ⟨c, child, below⟩
    · exact .inl holds
    · exact .inr ⟨c, child, p, below, holds⟩
  · rintro (holds | ⟨c, child, p, below, holds⟩)
    · exact ⟨e, mem_parts_self e, holds⟩
    · exact ⟨p, mem_parts.mpr (.inr ⟨c, child, below⟩), holds⟩

/-- A chain consists of shorter chains with the same root, and of literals in brackets. -/
theorem Rooted.part (rooted : e.Rooted) (part : p ∈ e.parts) :
    p.Rooted ∨ ∃ label value, p = .literal label value := by
  refine forall_parts (P := fun p => p.Rooted ∨ ∃ label value, p = .literal label value) ?_
    (.inl rooted) p part
  rintro p (rooted | ⟨label, value, rfl⟩) c child
  · exact rooted.child child
  · cases child

end Expr

namespace Graph

/-- Whatever is settled as a whole is a name, or known keys are read from one. -/
def Charted (graph : Graph) : Prop :=
  ∀ owner e, Placed graph.nodes owner e → graph.isSettled e.id = true → e.Rooted

theorem Charted.of_resolutions (charted : graph.Charted) (nodes : other.nodes = graph.nodes)
    (resolutions : ∀ id, other.resolutionAt id = graph.resolutionAt id) : other.Charted := by
  intro owner e placed settled
  rw [isSettled, resolutions] at settled
  exact charted owner e (nodes ▸ placed) settled

/-! ## Calls and assignments -/

/-- The target is a name for something that a statement declares and that is not part of the bundle. -/
def Drops (graph : Graph) (target : Expr Label) : Prop :=
  ∃ label name id statement, target = .ident label name ∧ graph.denotation? label.id = some id ∧
    (graph.symbols.declarationAt id).kind = .declared statement ∧ graph.includesDeclaration id = false

/-- The expression is a call, or an assignment to anything but what is dropped. -/
inductive Acts (graph : Graph) : Expr Label → Prop where
  | call {label callee arguments} : Acts graph (.call label callee arguments)
  | assign {label target value} : ¬ graph.Drops target → Acts graph (.assign label target value)

theorem not_acts_literal {label : Label} {value : Literal} : ¬ graph.Acts (.literal label value) :=
  nofun

theorem not_acts_member {label : Label} {object : Expr Label} {key : String} :
    ¬ graph.Acts (.member label object key) :=
  nofun

theorem not_acts_index {label : Label} {object key : Expr Label} :
    ¬ graph.Acts (.index label object key) :=
  nofun

theorem not_acts_of_rooted {e : Expr Label} (rooted : e.Rooted) : ¬ graph.Acts e := by
  obtain ⟨label, root, keys, chain⟩ := rooted
  intro acts
  cases acts <;> cases chain

/-- Nothing in a chain that is read from a name acts. -/
theorem not_acts_of_part {e p : Expr Label} (rooted : e.Rooted) (part : p ∈ e.parts) : ¬ graph.Acts p := by
  rcases rooted.part part with rooted | ⟨label, value, rfl⟩
  · exact not_acts_of_rooted rooted
  · exact not_acts_literal

theorem writeHasEffects_iff {id : DeclId} : graph.writeHasEffects id = true ↔
    ∀ statement, (graph.symbols.declarationAt id).kind = .declared statement →
      graph.includesDeclaration id = true := by
  rw [writeHasEffects]
  split
  next statement kind => exact ⟨fun included _ _ => included, fun needs => needs statement kind⟩
  next other => exact ⟨fun _ statement kind => absurd kind (other statement), fun _ => rfl⟩

/-- Only an assignment to something that is dropped goes unnoticed. -/
theorem assignmentHasEffects_iff {target : Expr Label} :
    graph.assignmentHasEffects target = true ↔ ¬ graph.Drops target := by
  cases target with
  | ident label name =>
      rw [assignmentHasEffects]
      split
      next id denoted =>
          rw [writeHasEffects_iff]
          constructor
          · rintro needs ⟨_, _, _, statement, same, denoted', kind, dropped⟩
            cases same
            cases denoted.symm.trans denoted'
            exact absurd (needs statement kind) (by simp [dropped])
          · intro keeps statement kind
            by_contra dropped
            exact keeps ⟨label, name, id, statement, rfl, denoted, kind, Bool.not_eq_true _ ▸ dropped⟩
      next nothing =>
          refine ⟨?_, fun _ => rfl⟩
          rintro - ⟨_, _, _, _, same, denoted, -⟩
          cases same
          cases nothing.symm.trans denoted
  | literal | member | index | call | assign =>
      refine ⟨?_, fun _ => rfl⟩
      rintro - ⟨_, _, _, _, same, -⟩
      cases same

/-! ## Expressions -/

/-- What is dropped has no parts that act. -/
theorem Drops.quiet {target p : Expr Label} (drops : graph.Drops target) (part : p ∈ target.parts) :
    ¬ graph.Acts p := by
  obtain ⟨label, name, -, -, rfl, -⟩ := drops
  exact not_acts_of_part ⟨label, name, [], rfl⟩ part

/-- An assignment acts, or only what is assigned may do so. -/
theorem exists_assign_iff {label : Label} {target value : Expr Label} :
    (∃ p ∈ (Expr.assign label target value).parts, graph.Acts p) ↔
      (∃ p ∈ value.parts, graph.Acts p) ∨ ¬ graph.Drops target := by
  rw [Expr.exists_part_iff]
  constructor
  · rintro (acts | ⟨c, child, p, part, acts⟩)
    · cases acts with
      | assign keeps => exact .inr keeps
    · rcases List.mem_cons.mp child with rfl | later
      · exact .inr fun drops => drops.quiet part acts
      · obtain rfl := List.mem_singleton.mp later
        exact .inl ⟨p, part, acts⟩
  · rintro (below | keeps)
    · exact .inr ⟨value, List.mem_cons_of_mem _ List.mem_cons_self, below⟩
    · exact .inl (.assign keeps)

/-- Evaluating an expression may be noticed exactly if something in it acts. -/
theorem exprHasEffects_iff (arena : Arena graph.nodes) (charted : graph.Charted) {e : Expr Label}
    (placed : Placed graph.nodes owner e) :
    graph.exprHasEffects e = true ↔ ∃ p ∈ e.parts, graph.Acts p := by
  induction e using Expr.children_induction with
  | step e ih =>
  have below : ∀ c ∈ e.children, graph.exprHasEffects c = true ↔ ∃ p ∈ c.parts, graph.Acts p :=
    fun c child => ih c child (placed.child arena c child)
  have settles : graph.isSettled e.id = true → ¬ ∃ p ∈ e.parts, graph.Acts p := by
    rintro settled ⟨p, part, acts⟩
    exact not_acts_of_part (charted _ _ placed settled) part acts
  cases e with
  | ident label name => simpa [exprHasEffects, Expr.parts] using not_acts_of_rooted ⟨label, name, [], rfl⟩
  | literal label value => simp [exprHasEffects, Expr.parts, not_acts_literal]
  | member label object key =>
      cases settled : graph.isSettled label.id with
      | true => simpa [exprHasEffects, settled] using settles settled
      | false =>
          rw [Expr.exists_part_iff]
          simp [exprHasEffects, settled, Expr.children, not_acts_member, below object List.mem_cons_self]
  | index label object key =>
      cases settled : graph.isSettled label.id with
      | true => simpa [exprHasEffects, settled] using settles settled
      | false =>
          rw [Expr.exists_part_iff]
          simp [exprHasEffects, settled, Expr.children, not_acts_index, below object List.mem_cons_self,
            below key (List.mem_cons_of_mem _ List.mem_cons_self)]
  | call label callee arguments =>
      rw [exprHasEffects]
      exact ⟨fun _ => ⟨_, Expr.mem_parts_self _, .call⟩, fun _ => rfl⟩
  | assign label target value =>
      rw [exists_assign_iff, exprHasEffects, Bool.or_eq_true, assignmentHasEffects_iff,
        below value (List.mem_cons_of_mem _ List.mem_cons_self)]

/-- Running a statement may be noticed exactly if something in it acts. -/
theorem statementHasEffects_iff (arena : Arena graph.nodes) (charted : graph.Charted)
    {statement : Statement Label} (placed : ∀ e ∈ statement.children, Placed graph.nodes owner e) :
    graph.statementHasEffects statement = true ↔
      ∃ e ∈ Expr.partsAll statement.children, graph.Acts e := by
  rw [statementHasEffects, List.any_eq_true]
  constructor
  · rintro ⟨e, child, effect⟩
    obtain ⟨p, part, acts⟩ := (exprHasEffects_iff arena charted (placed e child)).mp effect
    exact ⟨p, Expr.mem_partsAll.mpr ⟨e, child, part⟩, acts⟩
  · rintro ⟨p, among, acts⟩
    obtain ⟨e, child, part⟩ := Expr.mem_partsAll.mp among
    exact ⟨e, child, (exprHasEffects_iff arena charted (placed e child)).mpr ⟨p, part, acts⟩⟩

/-- Evaluating a node may be noticed exactly if something in it acts. -/
theorem hasEffects_iff (arena : Arena graph.nodes) (charted : graph.Charted) (id : NodeId) :
    graph.hasEffects id = true ↔ ∃ e ∈ (graph.nodeAt id).fragment.exprs, graph.Acts e := by
  cases found : graph.nodes[id.index]? with
  | none =>
      have absent : graph.nodeAt id = default := by
        rw [nodeAt, Array.getD_eq_getD_getElem?, found]
        rfl
      rw [hasEffects, absent]
      simp [exprHasEffects, Fragment.exprs, Expr.parts, default, not_acts_literal]
  | some node =>
      have label := arena.label found
      have child := arena.child found
      rw [hasEffects, nodeAt_of_getElem? found]
      obtain ⟨owner, fragment⟩ := node
      cases fragment with
      | statement body => exact statementHasEffects_iff arena charted fun e among => (child e among).2
      | expr body =>
          have placed : Placed graph.nodes owner body := by rwa [Placed, show body.id = id from label]
          exact exprHasEffects_iff arena charted placed

/-- After shaking, every statement in which something acts is part of the bundle. -/
theorem Grounded.includesNode_shake (grounded : graph.Grounded) (charted : graph.Charted)
    {statement : Statement Label} (member : owner ∈ graph.order) (among : statement ∈ graph.statements owner)
    {e : Expr Label} (part : e ∈ Expr.partsAll statement.children) (acts : graph.shake.2.Acts e) :
    graph.shake.2.includesNode statement.id = true := by
  have alike : Alike graph graph.shake.2 := alike_shakeWithin _ _
  have agrees := alike.agrees
  have placed : ∀ e ∈ statement.children, Placed graph.shake.2.nodes owner e := fun e child =>
    agrees.nodes ▸ (grounded.arena.child (grounded.statement among).2 e child).2
  have effect : graph.shake.2.statementHasEffects statement = true :=
    (statementHasEffects_iff (agrees.grounded grounded).arena
      (charted.of_resolutions agrees.nodes agrees.resolutionAt) placed).mpr ⟨e, part, acts⟩
  refine judges_shakeWithin _ grounded (Nat.lt_succ_self _) statement
    (mem_visited.mpr ⟨owner, member, among⟩) ?_
  rwa [← alike.select_eq] at effect

end Graph

end Bundler
