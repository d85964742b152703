import Mathlib.Data.List.Basic
import Bundler.Proofs.Draft.Finish

/-! # The layout of modules

A module's text is made of its statements, each on a line of its own, and each statement is placed where
its text stands.
-/

namespace Bundler

/-- Placed statements, with the text that starts at the offset and has each of them on a line. -/
inductive Laid : (start : Nat) → List (Statement Label) → (source : String) → Prop where
  | nil {start} : Laid start [] ""
  | cons {start rest source} (statement : Statement Unit) (next : Nat) :
    Laid (start + (statement.print ++ "\n").utf8ByteSize) rest source →
    Laid start (statement.place start next :: rest) (statement.print ++ "\n" ++ source)

theorem Laid.concat {start : Nat} {statements : List (Statement Label)} {source : String}
    (laid : Laid start statements source) (statement : Statement Unit) (next : Nat) :
    Laid start (statements ++ [statement.place (start + source.utf8ByteSize) next])
      (source ++ statement.print ++ "\n") := by
  induction laid with
  | @nil start =>
      have single : Laid start [statement.place start next] (statement.print ++ "\n" ++ "") :=
        .cons statement next .nil
      simpa using single
  | @cons start rest source first id _ ih =>
      have more := Laid.cons first id ih
      simp only [String.utf8ByteSize_append, Nat.add_assoc, String.append_assoc] at more ⊢
      exact more

/-- The statement, if the fragment is one. -/
def Fragment.statement? : Fragment → Option (Statement Label)
  | .statement body => some body
  | .expr _ => none

theorem Graph.statements_eq (graph : Graph) (id : ModuleId) :
    graph.statements id = (graph.symbols.moduleAt id).body.toList.filterMap fun node =>
      (graph.nodeAt node).fragment.statement? := rfl

namespace Draft

variable {draft : Draft}

theorem statements_congr {before after : Graph} {id : ModuleId} (nodes : after.nodes = before.nodes)
    (body : (after.symbols.moduleAt id).body = (before.symbols.moduleAt id).body) :
    after.statements id = before.statements id := by
  simp only [Graph.statements, Graph.nodeAt, nodes, body]

/-- All statements of the draft are there, and laid out as the texts of their modules are. -/
def LaidOut (draft : Draft) : Prop :=
  ∀ id, (∀ node ∈ (draft.symbols.moduleAt id).body, node.index < draft.nodes.size) ∧
    Laid 0 (draft.graph.statements id) (draft.symbols.moduleAt id).source

theorem LaidOut.sameText {after : Draft} (same : SameText draft after) (laid : draft.LaidOut) :
    after.LaidOut := by
  intro id
  have statements : after.graph.statements id = draft.graph.statements id :=
    statements_congr same.nodes (same.body id)
  rw [same.body, same.nodes, same.source, statements]
  exact laid id

theorem LaidOut.addModule (laid : draft.LaidOut) (name : String) : (draft.addModule name).2.LaidOut := by
  intro id
  have entry : (draft.addModule name).2.symbols.moduleAt id = _ := Symbols.moduleAt_addModule name id
  by_cases new : id = ⟨draft.symbols.modules.size⟩
  · rw [if_pos new] at entry
    have statements : (draft.addModule name).2.graph.statements id = [] := by
      rw [Graph.statements, symbols_graph, entry]
      rfl
    rw [statements, entry]
    exact ⟨fun node member => absurd member (Array.not_mem_empty node), .nil⟩
  · rw [if_neg new] at entry
    have statements : (draft.addModule name).2.graph.statements id = draft.graph.statements id :=
      statements_congr rfl (congrArg Module.body entry)
    rw [statements, entry]
    exact laid id

theorem nodeAt_addStatement {owner : ModuleId} (statement : Statement Unit) {id : NodeId}
    (inside : id.index < draft.nodes.size) :
    (draft.addStatement owner statement).2.graph.nodeAt id = draft.graph.nodeAt id := by
  have found : draft.graph.nodes[id.index]? = some draft.nodes[id.index] :=
    Array.getElem?_eq_getElem inside
  rw [Graph.nodeAt_of_getElem? found, Graph.nodeAt_of_getElem? (extends_addStatement.node found)]

/-- A statement that is added stands behind those that its module has. -/
theorem statements_addStatement {owner : ModuleId}
    (there : draft.graph.HasProvider (.internal owner)) (statement : Statement Unit) {id : ModuleId}
    (inside : ∀ node ∈ (draft.symbols.moduleAt id).body, node.index < draft.nodes.size) :
    (draft.addStatement owner statement).2.graph.statements id =
      if id = owner then draft.graph.statements id ++ [(draft.addStatement owner statement).1]
      else draft.graph.statements id := by
  have kept : (draft.symbols.moduleAt id).body.toList.filterMap (fun node =>
      ((draft.addStatement owner statement).2.graph.nodeAt node).fragment.statement?) =
        draft.graph.statements id := by
    rw [Graph.statements_eq draft.graph]
    apply List.filterMap_congr
    intro node member
    rw [nodeAt_addStatement statement (inside node (Array.mem_toList_iff.mp member))]
  have entry : (draft.addStatement owner statement).2.symbols.moduleAt id = _ :=
    moduleAt_addStatement id
  rw [Graph.statements_eq, symbols_graph, entry]
  by_cases same : id = owner
  · have new : (draft.addStatement owner statement).2.graph.nodes[_]? = some _ := node_addStatement
    rw [if_pos ⟨same, there⟩, if_pos same, lengthen, Array.toList_push, List.filterMap_append, kept,
      List.filterMap_cons, Graph.nodeAt_of_getElem? new]
    rfl
  · rw [if_neg fun both => same both.1, if_neg same, kept]

theorem LaidOut.addStatement (laid : draft.LaidOut) {owner : ModuleId}
    (there : draft.graph.HasProvider (.internal owner)) (statement : Statement Unit) :
    (draft.addStatement owner statement).2.LaidOut := by
  intro id
  obtain ⟨inside, laid⟩ := laid id
  have still : ∀ node ∈ (draft.symbols.moduleAt id).body,
      node.index < (draft.addStatement owner statement).2.nodes.size := by
    intro node member
    have found : draft.graph.nodes[node.index]? = some _ :=
      Array.getElem?_eq_getElem (inside node member)
    exact (Array.getElem?_eq_some_iff.mp (extends_addStatement.node found)).1
  have entry : (draft.addStatement owner statement).2.symbols.moduleAt id = _ :=
    moduleAt_addStatement id
  rw [statements_addStatement there statement inside, entry]
  by_cases same : id = owner
  · have new : (draft.addStatement owner statement).2.graph.nodes[_]? = some _ := node_addStatement
    rw [if_pos same, if_pos ⟨same, there⟩, lengthen]
    constructor
    · intro node member
      rcases Array.mem_push.mp member with earlier | rfl
      · exact still node earlier
      · exact (Array.getElem?_eq_some_iff.mp new).1
    · have more := laid.concat statement draft.nodes.size
      subst same
      rwa [Nat.zero_add] at more
  · rw [if_neg same, if_neg fun both => same both.1]
    exact ⟨still, laid⟩

theorem Built.laidOut (built : draft.Built) : draft.LaidOut := by
  refine built.text_induction (P := LaidOut) ?_ ?_ ?_ ?_ ?_
  · intro id
    exact ⟨fun node member => absurd member (Array.not_mem_empty node), .nil⟩
  · exact fun name laid => laid.addModule name
  · exact fun _ laid => laid
  · exact fun statement there laid => laid.addStatement there statement
  · exact fun same laid => laid.sameText same

end Draft

/-- The modules of a finished program are laid out as their texts are. -/
theorem Graph.Made.laid {graph : Graph} (made : graph.Made) (id : ModuleId) :
    Laid 0 (graph.statements id) (graph.symbols.moduleAt id).source := by
  obtain ⟨built, -, finished⟩ := made
  obtain ⟨symbols, exports, rfl⟩ := Draft.finish_eq finished
  have same := (Draft.sound_finishExports built.sound exports).2
  exact (built.laidOut.sameText same id).2

end Bundler
