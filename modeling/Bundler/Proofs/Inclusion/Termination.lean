import Bundler.Proofs.Bundle.Reachable
import Bundler.Proofs.Inclusion.Completion
import Bundler.Proofs.Inclusion.Least

/-! # Inclusion comes to an end

The recursion and the repetition of inclusion, said without bounds.  A node is always gone through again,
whether it is included or not, so what keeps the recursion from running on is that it gets to a declaration
only once, and to smaller nodes in between.  A pass that says that it added something has left less to add.
-/

namespace Bundler

namespace Graph

/-! ## Runs -/

/-- Including one thing after the other comes to an end.  A declaration that is included is left alone; a
    node is gone through in any case.  It is said whether anything is included that was not before. -/
inductive Includes : Graph → List Includable → (added : Bool) → Graph → Prop where
  | done {graph} : Includes graph [] false graph
  | again {graph id rest added other} :
    graph.includesDeclaration id = true → Includes graph rest added other →
    Includes graph (.declaration id :: rest) added other
  | declaration {graph id below middle rest added other} :
    graph.includesDeclaration id = false →
    Includes (graph.includeDeclaration id) (graph.beyond (.declaration id)) below middle →
    Includes middle rest added other →
    Includes graph (.declaration id :: rest) true other
  | node {graph id below middle rest added other} :
    Includes (graph.includeNode id) (graph.beyond (.node id)) below middle →
    Includes middle rest added other →
    Includes graph (.node id :: rest) (!graph.includesNode id || below || added) other

/-- One pass over the given statements comes to an end.  Statements that are not included and whose effects
    cannot be noticed are left alone. -/
inductive Pass : Graph → List NodeId → (added : Bool) → Graph → Prop where
  | done {graph} : Pass graph [] false graph
  | idle {graph id rest added other} :
    (graph.includesNode id || graph.hasEffects id) = false → Pass graph rest added other →
    Pass graph (id :: rest) added other
  | busy {graph id rest here middle added other} :
    (graph.includesNode id || graph.hasEffects id) = true → Includes graph [.node id] here middle →
    Pass middle rest added other → Pass graph (id :: rest) (here || added) other

/-- The statements of the modules that the entry needs. -/
def topLevel (graph : Graph) : List NodeId :=
  graph.order.flatMap fun id => (graph.symbols.moduleAt id).body.toList

/-- Passes over all statements until one adds nothing come to an end, after so many. -/
inductive Repeats : Graph → (passes : Nat) → Graph → Prop where
  | last {graph other} : Pass graph graph.topLevel false other → Repeats graph 1 other
  | again {graph middle passes other} :
    Pass graph graph.topLevel true middle → Repeats middle passes other →
    Repeats graph (passes + 1) other

variable {graph other : Graph} {items : List Includable} {added : Bool}

/-! ## What a run says about itself -/

/-- The other graph includes more, and it is said whether that is really so. -/
structure Adds (graph : Graph) (added : Bool) (other : Graph) : Prop where
  alike : Alike graph other
  le : graph.selection ≤ other.selection
  same : added = false → other = graph
  fewer : added = true → other.excluded < graph.excluded

namespace Adds

theorem refl (graph : Graph) : Adds graph false graph :=
  ⟨Alike.refl graph, Selection.le_refl _, fun _ => rfl, by simp⟩

theorem trans {more : Bool} {last : Graph} (first : Adds graph added other) (second : Adds other more last) :
    Adds graph (added || more) last where
  alike := first.alike.trans second.alike
  le := Selection.le_trans first.le second.le
  same neither := by
    obtain ⟨before, after⟩ := Bool.or_eq_false_iff.mp neither
    exact (second.same after).trans (first.same before)
  fewer either := by
    have before := excluded_le first.alike first.le
    have after := excluded_le second.alike second.le
    rcases Bool.or_eq_true_iff.mp either with here | there
    · exact Nat.lt_of_le_of_lt after (first.fewer here)
    · exact Nat.lt_of_lt_of_le (second.fewer there) before

theorem includeNode (grounded : graph.Grounded) {id : NodeId} (inside : id.index < graph.nodes.size) :
    Adds graph (!graph.includesNode id) (graph.includeNode id) where
  alike := alike_includeNode id
  le := le_markNodes [id]
  same included := markNodes_eq_self fun other (member : other ∈ [id]) => by
    cases List.mem_singleton.mp member
    simpa using included
  fewer excluded := by
    have inside : id.index < graph.marks.size := grounded.marks ▸ inside
    refine excluded_lt_of_node (alike_includeNode id) (le_markNodes [id]) inside (by simpa using excluded) ?_
    exact (includesNode_includeNode id id).mpr (.inr ⟨rfl, inside⟩)

theorem includeDeclaration {id : DeclId} (inside : id.index < graph.symbols.declarations.size)
    (excluded : graph.includesDeclaration id = false) : Adds graph true (graph.includeDeclaration id) where
  alike := alike_includeDeclaration id
  le := le_includeDeclaration id
  same := by simp
  fewer _ := excluded_lt_of_declaration (alike_includeDeclaration id) (le_includeDeclaration id) inside
    excluded ((includesDeclaration_includeDeclaration id id).mpr (.inr ⟨rfl, inside⟩))

theorem eq_decide (adds : Adds graph added other) : added = decide (other.excluded < graph.excluded) := by
  cases added with
  | true => exact (decide_eq_true (adds.fewer rfl)).symm
  | false =>
      rw [adds.same rfl]
      simp

theorem eq_false_iff (adds : Adds graph added other) : added = false ↔ other = graph := by
  constructor
  · exact adds.same
  · rintro rfl
    rw [adds.eq_decide]
    simp

end Adds

namespace Includes

theorem cons {item : Includable} {here : Bool} {middle : Graph} {rest : List Includable}
    (first : Includes graph [item] here middle) (later : Includes middle rest added other) :
    Includes graph (item :: rest) (here || added) other := by
  cases first with
  | again included nothing =>
      cases nothing
      exact .again included later
  | declaration excluded below nothing =>
      cases nothing
      exact .declaration excluded below later
  | node below nothing =>
      cases nothing
      rw [Bool.or_false]
      exact .node below later

theorem adds (grounded : graph.Grounded) (holds : ∀ item ∈ items, graph.Holds item)
    (includes : Includes graph items added other) : Adds graph added other := by
  induction includes with
  | done => exact Adds.refl _
  | again _ _ ih => exact ih grounded fun item member => holds item (List.mem_cons_of_mem _ member)
  | @declaration graph id _ middle rest _ _ excluded _ _ below later =>
      have inside := holds _ List.mem_cons_self
      have first := Adds.includeDeclaration inside excluded
      have through := first.trans (below (first.alike.grounded grounded) fun next member =>
        first.alike.holds (grounded.holds_beyond inside next member))
      exact through.trans (later (through.alike.grounded grounded) fun item member =>
        through.alike.holds (holds item (List.mem_cons_of_mem _ member)))
  | @node graph id _ middle rest _ _ _ _ below later =>
      have inside := holds _ List.mem_cons_self
      have first := Adds.includeNode grounded inside
      have through := first.trans (below (first.alike.grounded grounded) fun next member =>
        first.alike.holds (grounded.holds_beyond inside next member))
      exact through.trans (later (through.alike.grounded grounded) fun item member =>
        through.alike.holds (holds item (List.mem_cons_of_mem _ member)))

/-- What a run leads to is the least completion. -/
theorem closes (grounded : graph.Grounded) (holds : ∀ item ∈ items, graph.Holds item)
    (includes : Includes graph items added other) : Closes graph items other := by
  -- Nothing but flags changes on the way, so all states are grounded if the first one is.
  induction includes with
  | done => exact Closes.nil _
  | @again graph id _ _ _ included _ ih =>
      have first : Closes graph [.declaration id] graph :=
        Closes.self (List.forall_mem_singleton.mpr included)
      exact first.cons (ih grounded fun item member => holds item (List.mem_cons_of_mem _ member))
  | @declaration graph id _ middle rest _ _ excluded _ _ below later =>
      have inside := holds _ List.mem_cons_self
      have alike : Alike graph (graph.includeDeclaration id) := alike_includeDeclaration id
      have first := Closes.declaration grounded inside excluded (below (alike.grounded grounded)
        fun next member => alike.holds (grounded.holds_beyond inside next member))
      exact first.cons (later (first.alike.grounded grounded) fun item member =>
        first.alike.holds (holds item (List.mem_cons_of_mem _ member)))
  | @node graph id _ middle rest _ _ _ _ below later =>
      have inside := holds _ List.mem_cons_self
      have alike : Alike graph (graph.includeNode id) := alike_includeNode id
      have first := closes_node grounded inside (below (alike.grounded grounded)
        fun next member => alike.holds (grounded.holds_beyond inside next member))
      exact first.cons (later (first.alike.grounded grounded) fun item member =>
        first.alike.holds (holds item (List.mem_cons_of_mem _ member)))

end Includes

/-! ## Every run ends -/

/-- Including comes to an end, whatever it says and leads to. -/
def Ends (graph : Graph) (items : List Includable) : Prop := ∃ added other, Includes graph items added other

theorem ends_of_forall (each : ∀ between, Alike graph between → graph.selection ≤ between.selection →
      ∀ item ∈ items, between.Ends [item])
    (grounded : graph.Grounded) (holds : ∀ item ∈ items, graph.Holds item) : graph.Ends items := by
  induction items generalizing graph with
  | nil => exact ⟨_, _, .done⟩
  | cons item rest ih =>
      obtain ⟨here, middle, first⟩ := each graph (Alike.refl graph) (Selection.le_refl _) item
        List.mem_cons_self
      have adds := first.adds grounded (List.forall_mem_singleton.mpr (holds item List.mem_cons_self))
      obtain ⟨added, other, later⟩ := ih
        (fun between alike le next member => each between (adds.alike.trans alike)
          (Selection.le_trans adds.le le) next (List.mem_cons_of_mem _ member))
        (adds.alike.grounded grounded)
        fun next member => adds.alike.holds (holds next (List.mem_cons_of_mem _ member))
      exact ⟨_, _, first.cons later⟩

/-- Going through a node comes to an end if including declarations does, since its children have smaller
    ids. -/
theorem ends_node {id : NodeId} (grounded : graph.Grounded) (inside : id.index < graph.nodes.size)
    (declarations : ∀ between, Alike graph between → graph.selection ≤ between.selection →
      ∀ declaration : DeclId, declaration.index < graph.symbols.declarations.size →
        between.Ends [.declaration declaration]) : graph.Ends [.node id] := by
  obtain ⟨index⟩ := id
  induction index using Nat.strongRecOn generalizing graph with
  | _ index ih =>
      have first := Adds.includeNode grounded inside
      have holds : ∀ next ∈ graph.beyond (.node ⟨index⟩), graph.Holds next :=
        grounded.holds_beyond inside
      have below : (graph.includeNode ⟨index⟩).Ends (graph.beyond (.node ⟨index⟩)) := by
        refine ends_of_forall (fun between alike le next member => ?_) (first.alike.grounded grounded)
          fun next member => first.alike.holds (holds next member)
        have reached := first.alike.trans alike
        have more := Selection.le_trans first.le le
        have there := holds next member
        rcases List.mem_append.mp member with denoted | child
        · obtain ⟨declaration, -, rfl⟩ := List.mem_map.mp denoted
          exact declarations between reached more declaration there
        · obtain ⟨e, among, rfl⟩ := List.mem_map.mp child
          refine ih e.id.index (grounded.child_lt inside among) (reached.grounded grounded)
            (fun further alike le declaration there => ?_) (reached.holds there)
          exact declarations further (reached.trans alike) (Selection.le_trans more le) declaration
            (reached.sizes.2.1 ▸ there)
      obtain ⟨_, _, below⟩ := below
      exact ⟨_, _, .node below .done⟩

/-- Including comes to an end, since it goes on from a declaration only when that leaves fewer declarations
    to include. -/
theorem ends (grounded : graph.Grounded) (holds : ∀ item ∈ items, graph.Holds item) : graph.Ends items := by
  induction count : graph.excludedDeclarations using Nat.strongRecOn generalizing graph items with
  | _ count ih =>
      subst count
      have declarations : ∀ between, Alike graph between → graph.selection ≤ between.selection →
          ∀ declaration : DeclId, declaration.index < graph.symbols.declarations.size →
            between.Ends [.declaration declaration] := by
        intro between alike le declaration inside
        have inside : declaration.index < between.symbols.declarations.size := alike.sizes.2.1 ▸ inside
        cases known : between.includesDeclaration declaration with
        | true => exact ⟨_, _, .again known .done⟩
        | false =>
            have grounded := alike.grounded grounded
            have first := Adds.includeDeclaration inside known
            have holds : ∀ next ∈ between.beyond (.declaration declaration), between.Holds next :=
              grounded.holds_beyond inside
            -- From here on one declaration less is excluded, so the induction covers what comes beyond.
            have fewer := excludedDeclarations_lt first.alike first.le inside known
              ((includesDeclaration_includeDeclaration declaration declaration).mpr (.inr ⟨rfl, inside⟩))
            obtain ⟨_, _, below⟩ := ih _
              (Nat.lt_of_lt_of_le fewer (excludedDeclarations_le alike le))
              (first.alike.grounded grounded) (fun next member => first.alike.holds (holds next member)) rfl
            exact ⟨_, _, .declaration known below .done⟩
      refine ends_of_forall (fun between alike le item member => ?_) grounded holds
      cases item with
      | declaration id => exact declarations between alike le id (holds _ member)
      | node id =>
          refine ends_node (alike.grounded grounded) (alike.holds (holds _ member))
            fun further reached more declaration inside => ?_
          exact declarations further (alike.trans reached) (Selection.le_trans le more) declaration
            (alike.sizes.2.1 ▸ inside)

/-! ## Runs and retention agree -/

/-- What computes a least completion, and says whether it adds anything, is what every run comes to. -/
theorem includes_iff {item : Includable} {answer : Bool × Graph} (grounded : graph.Grounded)
    (holds : graph.Holds item) (closed : Closes graph [item] answer.2)
    (new : answer.1 = false ↔ graph.selection.Takes graph item) :
    Includes graph [item] added other ↔ (added, other) = answer := by
  have holds : ∀ other ∈ [item], graph.Holds other := List.forall_mem_singleton.mpr holds
  have agrees : ∀ {added other}, Includes graph [item] added other → (added, other) = answer := by
    intro added other includes
    have closes := includes.closes grounded holds
    refine Prod.ext (Bool.eq_iff_iff.mpr ?_) (closed.unique closes)
    rw [← not_iff_not, Bool.not_eq_true, Bool.not_eq_true, (includes.adds grounded holds).eq_false_iff,
      closes.eq_self_iff, List.forall_mem_singleton, new]
  constructor
  · exact agrees
  · intro same
    obtain ⟨_, _, includes⟩ := ends grounded holds
    cases same.trans (agrees includes).symm
    exact includes

theorem lacks_eq_false_iff {id : NodeId} :
    graph.lacks (graph.nodeAt id).fragment = false ↔ graph.selection.Takes graph (.node id) := by
  simp only [lacks, denotations, Bool.or_eq_false_iff, List.any_eq_false, List.mem_filterMap,
    Bool.not_eq_true', Bool.not_eq_false]
  constructor
  · rintro ⟨nodes, denoted⟩ below member
    exact ⟨nodes below member, fun declaration denotes => denoted declaration ⟨below, member, denotes⟩⟩
  · intro takes
    constructor
    · exact fun below member => (takes below member).1
    · rintro declaration ⟨below, member, denotes⟩
      exact (takes below member).2 declaration denotes

theorem includes_iff_retainNode (grounded : graph.Grounded) {id : NodeId}
    (inside : id.index < graph.nodes.size) :
    Includes graph [.node id] added other ↔ (added, other) = graph.retainNode id :=
  includes_iff grounded inside (closes_retainFragment grounded inside) lacks_eq_false_iff

theorem includes_iff_retainDeclaration (grounded : graph.Grounded) {id : DeclId}
    (inside : id.index < graph.symbols.declarations.size) :
    Includes graph [.declaration id] added other ↔ (added, other) = graph.retainDeclaration id := by
  refine includes_iff grounded inside
    (closes_retainWithin grounded _ excludedDeclarations_le_size inside) ?_
  rw [retainDeclaration, Bool.not_eq_false']
  rfl

/-! ## Passes -/

theorem Grounded.topLevel_eq (grounded : graph.Grounded) :
    graph.topLevel = graph.visited.map (·.id) := by
  rw [topLevel, visited, List.map_flatMap]
  congr 1
  funext owner
  rw [statements, List.map_filterMap]
  refine ((List.filterMap_congr fun id member => ?_).trans List.filterMap_some).symm
  obtain ⟨statement, found⟩ := grounded.body (Array.mem_toList_iff.mp member)
  rw [nodeAt_of_getElem? found]
  exact congrArg some (grounded.arena.label found)

section Statements

variable {statement : Statement Label} {statements : List (Statement Label)}

theorem hasEffects_of_visited (grounded : graph.Grounded) (visited : statement ∈ graph.visited) :
    statement.id.index < graph.nodes.size ∧ (graph.nodeAt statement.id).fragment = .statement statement ∧
      graph.hasEffects statement.id = graph.statementHasEffects statement := by
  obtain ⟨owner, -, member⟩ := mem_visited.mp visited
  obtain ⟨inside, fragment⟩ := grounded.fragment_statement member
  exact ⟨inside, fragment.symm, hasEffects_of_fragment fragment.symm⟩

/-- What a pass leads to, and whether it says that it has added something. -/
theorem Pass.adds (grounded : graph.Grounded) (known : ∀ statement ∈ statements, statement ∈ graph.visited)
    (pass : Pass graph (statements.map (·.id)) added other) :
    Adds graph added other ∧ other = statements.foldl shakeStatement graph := by
  induction statements generalizing graph added with
  | nil =>
      cases pass
      exact ⟨Adds.refl _, rfl⟩
  | cons statement rest ih =>
      obtain ⟨inside, fragment, effects⟩ := hasEffects_of_visited grounded (known _ List.mem_cons_self)
      have others : ∀ statement ∈ rest, statement ∈ graph.visited := fun statement member =>
        known statement (List.mem_cons_of_mem _ member)
      rw [List.foldl_cons, shakeStatement, ← effects, ← fragment]
      cases pass with
      | idle idle later =>
          rw [idle, if_neg Bool.false_ne_true]
          exact ih grounded others later
      | busy busy includes later =>
          rw [busy, if_pos rfl]
          have holds : ∀ item ∈ [.node statement.id], graph.Holds item :=
            List.forall_mem_singleton.mpr inside
          have adds := includes.adds grounded holds
          cases (includes_iff_retainNode grounded inside).mp includes
          obtain ⟨more, same⟩ := ih (adds.alike.grounded grounded)
            (fun statement member => adds.alike.visited ▸ others statement member) later
          exact ⟨adds.trans more, same⟩

theorem exists_pass (grounded : graph.Grounded)
    (known : ∀ statement ∈ statements, statement ∈ graph.visited) :
    ∃ added other, Pass graph (statements.map (·.id)) added other := by
  induction statements generalizing graph with
  | nil => exact ⟨_, _, .done⟩
  | cons statement rest ih =>
      obtain ⟨inside, -, -⟩ := hasEffects_of_visited grounded (known _ List.mem_cons_self)
      have others : ∀ statement ∈ rest, statement ∈ graph.visited := fun statement member =>
        known statement (List.mem_cons_of_mem _ member)
      cases busy : graph.includesNode statement.id || graph.hasEffects statement.id with
      | false =>
          obtain ⟨_, _, later⟩ := ih grounded others
          exact ⟨_, _, .idle busy later⟩
      | true =>
          have includes := (includes_iff_retainNode grounded inside).mpr rfl
          have alike : Alike graph (graph.retainNode statement.id).2 := alike_retainFragment _ _
          obtain ⟨_, _, later⟩ := ih (alike.grounded grounded) fun statement member =>
            alike.visited ▸ others statement member
          exact ⟨_, _, .busy busy includes later⟩

end Statements

/-- One pass over all statements comes to an end, and says whether it left less to add. -/
theorem pass_iff_shakeOnce (grounded : graph.Grounded) :
    Pass graph graph.topLevel added other ↔
      other = graph.shakeOnce ∧ added = decide (graph.shakeOnce.excluded < graph.excluded) := by
  rw [grounded.topLevel_eq, shakeOnce_eq]
  have agrees : ∀ {added other}, Pass graph (graph.visited.map (·.id)) added other →
      other = graph.visited.foldl shakeStatement graph ∧
        added = decide ((graph.visited.foldl shakeStatement graph).excluded < graph.excluded) := by
    intro added other pass
    obtain ⟨adds, rfl⟩ := pass.adds grounded fun _ member => member
    exact ⟨rfl, adds.eq_decide⟩
  constructor
  · exact agrees
  · rintro ⟨rfl, rfl⟩
    obtain ⟨_, _, pass⟩ := exists_pass grounded fun _ (member : _ ∈ graph.visited) => member
    obtain ⟨rfl, rfl⟩ := agrees pass
    exact pass

/-! ## All passes -/

/-- A limit that is larger than what is left to add is never reached. -/
theorem Repeats.shakeWithin_eq {passes limit : Nat} (grounded : graph.Grounded)
    (repeats : Repeats graph passes other) (enough : graph.excluded < limit) :
    shakeWithin limit graph = (passes, other) := by
  induction repeats generalizing limit with
  | last pass =>
      obtain ⟨rfl, idle⟩ := (pass_iff_shakeOnce grounded).mp pass
      obtain ⟨limit, rfl⟩ := Nat.exists_eq_succ_of_ne_zero (Nat.ne_zero_of_lt enough)
      rw [shakeWithin]
      dsimp only
      rw [if_neg (of_decide_eq_false idle.symm)]
  | @again graph _ _ _ first _ ih =>
      obtain ⟨rfl, busy⟩ := (pass_iff_shakeOnce grounded).mp first
      have fewer : graph.shakeOnce.excluded < graph.excluded := of_decide_eq_true busy.symm
      obtain ⟨limit, rfl⟩ := Nat.exists_eq_succ_of_ne_zero (Nat.ne_zero_of_lt enough)
      rw [shakeWithin]
      dsimp only
      rw [if_pos fewer, ih ((alike_shakeOnce graph).grounded grounded)
        (Nat.lt_of_lt_of_le fewer (Nat.le_of_lt_succ enough))]

/-- Every pass but the last leaves less to add. -/
theorem repeats_shakeWithin {limit : Nat} (grounded : graph.Grounded) (enough : graph.excluded < limit) :
    Repeats graph (shakeWithin limit graph).1 (shakeWithin limit graph).2 := by
  induction limit generalizing graph with
  | zero => exact absurd enough (Nat.not_lt_zero _)
  | succ limit ih =>
      rw [shakeWithin]
      dsimp only
      split
      next fewer =>
          refine .again ((pass_iff_shakeOnce grounded).mpr ⟨rfl, (decide_eq_true fewer).symm⟩) ?_
          exact ih ((alike_shakeOnce graph).grounded grounded)
            (Nat.lt_of_lt_of_le fewer (Nat.le_of_lt_succ enough))
      next same => exact .last ((pass_iff_shakeOnce grounded).mpr ⟨rfl, (decide_eq_false same).symm⟩)

/-- Inclusion comes to an end in every reachable state, and in only one way: for every node, for every
    declaration and for all statements, whatever refers to what.  What the runs say and lead to is what
    `Graph.retainNode`, `Graph.retainDeclaration` and `Graph.shake` compute with bounds. -/
theorem inclusion_terminates (reachable : graph.Reachable) :
    (∀ id : NodeId, id.index < graph.nodes.size → ∀ added other,
      Includes graph [.node id] added other ↔ (added, other) = graph.retainNode id) ∧
    (∀ id : DeclId, id.index < graph.symbols.declarations.size → ∀ added other,
      Includes graph [.declaration id] added other ↔ (added, other) = graph.retainDeclaration id) ∧
    ∀ passes other, Repeats graph passes other ↔ (passes, other) = graph.shake := by
  have grounded := reachable.intact.sound.grounded
  refine ⟨?_, ?_, ?_⟩
  · intro id inside added other
    exact includes_iff_retainNode grounded inside
  · intro id inside added other
    exact includes_iff_retainDeclaration grounded inside
  · intro passes other
    constructor
    · intro repeats
      exact (repeats.shakeWithin_eq grounded (Nat.lt_succ_self _)).symm
    · intro same
      have repeats := repeats_shakeWithin grounded (Nat.lt_succ_self graph.excluded)
      rw [← shake, ← same] at repeats
      exact repeats

end Graph

/-! ## A circle of initial values -/

/-- Two modules import from each other what they declare, and either constant has the other one as its
    initial value. -/
def Draft.entwined : Draft :=
  let draft := ((Draft.addModule {} "a").2.addModule "b").2
  let draft := ((importFrom ⟨0⟩ (.internal ⟨1⟩) "y" "y").outcome draft).2
  let draft := ((declare ⟨0⟩ .constant "x" (some (.ident () "y")) true).outcome draft).2
  let draft := ((importFrom ⟨1⟩ (.internal ⟨0⟩) "x" "x").outcome draft).2
  ((declare ⟨1⟩ .constant "y" (some (.ident () "x")) true).outcome draft).2

/-- The program with the first of the modules as its entry. -/
def Graph.entwined : Graph := Draft.entwined.graph

theorem Draft.built_entwined : Draft.entwined.Built := by
  refine .declare (.importFrom (.declare (.importFrom (.addModule (.addModule .empty "a") "b")
    ?_ ?_ _ _) ?_ _ _ _ _) ?_ ?_ _ _) ?_ _ _ _ _
  all_goals decide

theorem Graph.made_entwined : Graph.entwined.Made :=
  .finish Draft.built_entwined (by decide) rfl

namespace Graph

/-- Including one of the constants comes to an end with both of them included, and so do the passes, at
    the first one. -/
theorem inclusion_entwined : ∃ graph, graph.Reachable ∧
    (∃ other, Includes graph [.declaration ⟨3⟩] true other ∧ other.includesDeclaration ⟨3⟩ = true ∧
      other.includesDeclaration ⟨5⟩ = true) ∧
    ∃ other, Repeats graph 1 other := by
  have reachable : Reachable ((resolve {}).outcome (link.outcome entwined).2).2 :=
    .resolve {} (.link (.made made_entwined))
  obtain ⟨-, declarations, passes⟩ := inclusion_terminates reachable
  have inside : 3 < ((resolve {}).outcome (link.outcome entwined).2).2.symbols.declarations.size := by
    decide +kernel
  have answer : (((resolve {}).outcome (link.outcome entwined).2).2.retainDeclaration ⟨3⟩).1 = true := by
    decide +kernel
  have once : ((resolve {}).outcome (link.outcome entwined).2).2.shake.1 = 1 := by decide +kernel
  refine ⟨_, reachable, ⟨_, (declarations ⟨3⟩ inside true _).mpr (Prod.ext answer.symm rfl), ?_, ?_⟩,
    _, (passes 1 _).mpr (Prod.ext once.symm rfl)⟩
  all_goals decide +kernel

end Graph

end Bundler
