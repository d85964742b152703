import Bundler.Proofs.Inclusion.Retention

/-! # Shaking

One pass retains every statement that has effects at the time of its visit.  Effects only become
noticeable as more declarations are included, so a pass that includes no further declaration has
judged every statement as the final state would, and its result is closed under the rule for effects.
-/

namespace Bundler.Graph

variable {graph other : Graph}

/-! ## One statement -/

theorem alike_shakeStatement (graph : Graph) (statement : Statement Label) :
    Alike graph (graph.shakeStatement statement) := by
  rw [shakeStatement]
  split
  · exact alike_retainFragment _ _
  · exact Alike.refl graph

theorem Grounded.fragment_statement (grounded : graph.Grounded) {owner : ModuleId}
    {statement : Statement Label} (member : statement ∈ graph.statements owner) :
    statement.id.index < graph.nodes.size ∧
      .statement statement = (graph.nodeAt statement.id).fragment := by
  obtain ⟨-, found⟩ := grounded.statement member
  exact ⟨(Array.getElem?_eq_some_iff.mp found).1, by rw [nodeAt_of_getElem? found]⟩

/-- A visit makes the graph grow, and a statement with effects is included by it. -/
theorem grows_shakeStatement (grounded : graph.Grounded) {owner : ModuleId}
    {statement : Statement Label} (member : statement ∈ graph.statements owner) :
    Grows graph (graph.shakeStatement statement) ∧
      (graph.statementHasEffects statement = true →
        (graph.shakeStatement statement).includesNode statement.id = true) := by
  obtain ⟨inside, fragment⟩ := grounded.fragment_statement member
  obtain ⟨grows, included⟩ := grows_retainFragment grounded inside
  rw [shakeStatement]
  split
  · rw [fragment]
    exact ⟨grows, fun _ => included _ (grounded.mem_ids_self inside)⟩
  next idle =>
      refine ⟨Grows.refl graph, fun effect => absurd ?_ idle⟩
      rw [effect, Bool.or_true]

/-- The statement is included in the selection if it has effects there. -/
def Judges (s : Selection) (graph : Graph) (statement : Statement Label) : Prop :=
  (graph.select s).statementHasEffects statement = true → s.nodes statement.id = true

theorem lt_of_includesDeclaration {id : DeclId} (included : graph.includesDeclaration id = true) :
    id.index < graph.symbols.declarations.size := by
  by_contra outside
  rw [includesDeclaration, Symbols.declarationAt_of_le (Nat.not_lt.mp outside)] at included
  cases included

/-- What has effects in a graph has effects in every selection that goes beyond it. -/
theorem statementHasEffects_select {s : Selection} (le : graph.selection ≤ s)
    {statement : Statement Label} (effect : graph.statementHasEffects statement = true) :
    (graph.select s).statementHasEffects statement = true := by
  refine statementHasEffects_mono (Alike.agrees ⟨s, rfl⟩) (fun id included => ?_) effect
  rw [includesDeclaration_select, le.2.1 id included, Bool.and_true, decide_eq_true_eq]
  exact lt_of_includesDeclaration included

theorem shakeStatement_le {s : Selection} (grounded : graph.Grounded)
    (supported : s.Supported graph) (le : graph.selection ≤ s) {owner : ModuleId}
    {statement : Statement Label} (member : statement ∈ graph.statements owner)
    (judges : Judges s graph statement) : (graph.shakeStatement statement).selection ≤ s := by
  obtain ⟨inside, fragment⟩ := grounded.fragment_statement member
  rw [shakeStatement]
  split
  next busy =>
      rw [fragment]
      apply retainFragment_le grounded supported le inside
      rcases Bool.or_eq_true _ _ ▸ busy with included | effect
      · exact le.1 _ included
      · exact judges (statementHasEffects_select le effect)
  next => exact le

theorem shakeStatement_eq_self (grounded : graph.Grounded)
    (supported : graph.selection.Supported graph) {owner : ModuleId}
    {statement : Statement Label} (member : statement ∈ graph.statements owner)
    (judges : Judges graph.selection graph statement) : graph.shakeStatement statement = graph := by
  obtain ⟨inside, fragment⟩ := grounded.fragment_statement member
  rw [shakeStatement]
  split
  next busy =>
      rw [fragment]
      apply retainFragment_eq_self grounded supported inside
      rcases Bool.or_eq_true _ _ ▸ busy with included | effect
      · exact included
      · exact judges (by rwa [select_selection])
  next => rfl

/-! ## One pass -/

/-- The statements that a pass visits, in order. -/
def visited (graph : Graph) : List (Statement Label) := graph.order.flatMap graph.statements

theorem mem_visited {statement : Statement Label} :
    statement ∈ graph.visited ↔ ∃ owner ∈ graph.order, statement ∈ graph.statements owner :=
  List.mem_flatMap

theorem Alike.visited (alike : Alike graph other) : other.visited = graph.visited := by
  obtain ⟨s, rfl⟩ := alike
  rfl

theorem alike_foldl_shakeStatement (statements : List (Statement Label)) (graph : Graph) :
    Alike graph (statements.foldl shakeStatement graph) := by
  induction statements generalizing graph with
  | nil => exact Alike.refl graph
  | cons statement rest ih => exact (alike_shakeStatement graph statement).trans (ih _)

theorem shakeOnce_eq : graph.shakeOnce = graph.visited.foldl shakeStatement graph := by
  have walk : ∀ (order : List ModuleId) (other : Graph), Alike graph other →
      order.foldl (fun graph id => (graph.statements id).foldl shakeStatement graph) other =
        (order.flatMap graph.statements).foldl shakeStatement other := by
    intro order
    induction order with
    | nil => exact fun _ _ => rfl
    | cons id rest ih =>
        intro other alike
        rw [List.foldl_cons, List.flatMap_cons, List.foldl_append, alike.statements]
        exact ih _ (alike.trans (alike_foldl_shakeStatement _ other))
  exact walk graph.order graph (Alike.refl graph)

/-- Each statement of a walk is visited in a state between the start and the end, and what has
    effects there is included. -/
theorem grows_foldl_shakeStatement (grounded : graph.Grounded) {statements : List (Statement Label)}
    (known : ∀ statement ∈ statements, statement ∈ graph.visited) :
    Grows graph (statements.foldl shakeStatement graph) ∧
      ∀ statement ∈ statements, ∃ between, Grows graph between ∧
        (between.statementHasEffects statement = true →
          (statements.foldl shakeStatement graph).includesNode statement.id = true) := by
  induction statements generalizing graph with
  | nil => exact ⟨Grows.refl graph, by simp⟩
  | cons statement rest ih =>
      obtain ⟨owner, -, member⟩ := mem_visited.mp (known statement List.mem_cons_self)
      obtain ⟨first, here⟩ := grows_shakeStatement grounded member
      obtain ⟨later, judged⟩ := ih (first.alike.grounded grounded) fun statement member =>
        first.alike.visited ▸ known statement (List.mem_cons_of_mem _ member)
      constructor
      · exact first.trans later
      · intro other among
        rcases List.mem_cons.mp among with rfl | among
        · exact ⟨graph, Grows.refl graph, fun effect => later.le.1 _ (here effect)⟩
        · obtain ⟨between, reached, included⟩ := judged other among
          exact ⟨between, first.trans reached, included⟩

theorem alike_shakeOnce (graph : Graph) : Alike graph graph.shakeOnce := by
  rw [shakeOnce_eq]
  exact alike_foldl_shakeStatement _ graph

theorem grows_shakeOnce (grounded : graph.Grounded) : Grows graph graph.shakeOnce := by
  rw [shakeOnce_eq]
  exact (grows_foldl_shakeStatement grounded fun _ member => member).1

/-- A pass that adds nothing has judged every statement as its result does. -/
theorem judges_shakeOnce (grounded : graph.Grounded)
    (same : graph.excluded ≤ graph.shakeOnce.excluded) :
    ∀ statement ∈ graph.visited, Judges graph.shakeOnce.selection graph statement := by
  intro statement member effect
  obtain ⟨grows, judged⟩ := grows_foldl_shakeStatement grounded fun _ member => member
  rw [← shakeOnce_eq] at grows judged
  obtain ⟨between, reached, included⟩ := judged statement member
  rw [grows.alike.select_eq] at effect
  -- Nothing has been added since the visit, so what has effects in the end had them then.
  refine included (statementHasEffects_mono (grows.alike.symm.trans reached.alike).agrees ?_ effect)
  intro id final
  exact reached.le.2.1 id (includesDeclaration_of_excluded_le grows.alike grows.le same final)

theorem foldl_shakeStatement_le {s : Selection} (grounded : graph.Grounded)
    (supported : s.Supported graph) (judges : ∀ statement ∈ graph.visited, Judges s graph statement)
    {statements : List (Statement Label)} (known : ∀ statement ∈ statements, statement ∈ graph.visited)
    (reached : Alike graph other) (le : other.selection ≤ s) :
    (statements.foldl shakeStatement other).selection ≤ s := by
  induction statements generalizing other with
  | nil => exact le
  | cons statement rest ih =>
      refine ih (fun statement member => known statement (List.mem_cons_of_mem _ member))
        (reached.trans (alike_shakeStatement other statement)) ?_
      have visited := known statement List.mem_cons_self
      obtain ⟨owner, -, member⟩ := mem_visited.mp visited
      refine shakeStatement_le (reached.grounded grounded) (reached.supported supported) le
        (reached.statements owner ▸ member) fun effect => judges statement visited ?_
      obtain ⟨t, rfl⟩ := reached
      rwa [select_select] at effect

/-! ## All passes -/

theorem alike_shakeWithin (limit : Nat) (graph : Graph) : Alike graph (shakeWithin limit graph).2 := by
  induction limit generalizing graph with
  | zero => exact Alike.refl graph
  | succ limit ih =>
      rw [shakeWithin]
      dsimp only
      split
      · exact (alike_shakeOnce graph).trans (ih _)
      · exact alike_shakeOnce graph

theorem grows_shakeWithin (limit : Nat) (grounded : graph.Grounded) :
    Grows graph (shakeWithin limit graph).2 := by
  induction limit generalizing graph with
  | zero => exact Grows.refl graph
  | succ limit ih =>
      have first := grows_shakeOnce grounded
      rw [shakeWithin]
      dsimp only
      split
      · exact first.trans (ih (first.alike.grounded grounded))
      · exact first

/-- The last pass adds nothing. -/
theorem judges_shakeWithin (limit : Nat) (grounded : graph.Grounded) (enough : graph.excluded < limit) :
    ∀ statement ∈ graph.visited, Judges (shakeWithin limit graph).2.selection graph statement := by
  induction limit generalizing graph with
  | zero => exact absurd enough (Nat.not_lt_zero _)
  | succ limit ih =>
      have first := grows_shakeOnce grounded
      rw [shakeWithin]
      dsimp only
      split
      next fewer =>
          intro statement member effect
          refine ih (first.alike.grounded grounded) (by omega) statement
            (first.alike.visited ▸ member) ?_
          obtain ⟨t, same⟩ := first.alike
          rwa [same, select_select, ← same]
      next same => exact judges_shakeOnce grounded (Nat.not_lt.mp same)

theorem shakeWithin_le {s : Selection} (limit : Nat) (grounded : graph.Grounded)
    (supported : s.Supported graph) (judges : ∀ statement ∈ graph.visited, Judges s graph statement)
    (reached : Alike graph other) (le : other.selection ≤ s) :
    (shakeWithin limit other).2.selection ≤ s := by
  induction limit generalizing other with
  | zero => exact le
  | succ limit ih =>
      have pass : other.shakeOnce.selection ≤ s := by
        rw [shakeOnce_eq, reached.visited]
        exact foldl_shakeStatement_le grounded supported judges (fun _ member => member) reached le
      rw [shakeWithin]
      dsimp only
      split
      · exact ih (reached.trans (alike_shakeOnce other)) pass
      · exact pass

/-- A graph whose selection is closed under all rules is left as it is by one pass. -/
theorem shake_eq_self (grounded : graph.Grounded) (supported : graph.selection.Supported graph)
    (judges : ∀ statement ∈ graph.visited, Judges graph.selection graph statement) :
    graph.shake = (1, graph) := by
  have walk : ∀ statements : List (Statement Label), (∀ statement ∈ statements,
      statement ∈ graph.visited) → statements.foldl shakeStatement graph = graph := by
    intro statements known
    induction statements with
    | nil => rfl
    | cons statement rest ih =>
        have visited := known statement List.mem_cons_self
        obtain ⟨owner, -, member⟩ := mem_visited.mp visited
        rw [List.foldl_cons,
          shakeStatement_eq_self grounded supported member (judges statement visited)]
        exact ih fun statement member => known statement (List.mem_cons_of_mem _ member)
  have once : graph.shakeOnce = graph := by
    rw [shakeOnce_eq]
    exact walk graph.visited fun _ member => member
  rw [shake, shakeWithin]
  simp only [once, Nat.lt_irrefl, if_false]

end Bundler.Graph
