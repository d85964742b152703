import Mathlib.Data.List.Basic
import Bundler.Proofs.Expr.Parts
import Bundler.Proofs.Symbols.Access

/-! # Grounded graphs

In an arena every node knows its own id, and the nodes below it are there, belong to the same module
and have smaller ids.  In a grounded graph moreover every id that is kept anywhere leads to an entry
of its arena.
-/

namespace Bundler

/-- Every node of the arena stands where its id says, behind its children. -/
structure Arena (nodes : Array Node) : Prop where
  label : ∀ {i : Nat} {node : Node}, nodes[i]? = some node → node.fragment.label.id = ⟨i⟩
  child : ∀ {i : Nat} {node : Node}, nodes[i]? = some node → ∀ e ∈ node.fragment.children,
    e.id.index < i ∧ nodes[e.id.index]? = some ⟨node.owner, .expr e⟩

namespace Arena

variable {nodes : Array Node}

theorem part (arena : Arena nodes) {i : Nat} {node : Node} (found : nodes[i]? = some node) :
    ∀ p ∈ Expr.partsAll node.fragment.children,
      nodes[p.id.index]? = some ⟨node.owner, .expr p⟩ := by
  intro p part
  obtain ⟨e, child, below⟩ := Expr.mem_partsAll.mp part
  refine Expr.forall_parts (P := fun p => nodes[p.id.index]? = some ⟨node.owner, .expr p⟩)
    (fun p holds c child => ?_) (arena.child found e child).2 p below
  exact (arena.child holds c child).2

theorem mem_ids (arena : Arena nodes) {i : Nat} {node : Node} (found : nodes[i]? = some node)
    {id : NodeId} : id ∈ node.fragment.ids ↔
      id = ⟨i⟩ ∨ ∃ p ∈ Expr.partsAll node.fragment.children, p.id = id := by
  rw [Fragment.ids_eq, List.mem_append, List.mem_map, List.mem_singleton, arena.label found,
    or_comm]

/-- The ids of a fragment are those of nodes, whose children have ids of the fragment too. -/
theorem mem_ids_of_child (arena : Arena nodes) {i : Nat} {node : Node}
    (found : nodes[i]? = some node) {id : NodeId} (member : id ∈ node.fragment.ids) :
    ∃ below, nodes[id.index]? = some below ∧
      ∀ e ∈ below.fragment.children, e.id ∈ node.fragment.ids := by
  rcases (arena.mem_ids found).mp member with rfl | ⟨p, part, rfl⟩
  · refine ⟨node, found, fun e child => (arena.mem_ids found).mpr (.inr ⟨e, ?_, rfl⟩)⟩
    exact Expr.mem_partsAll.mpr ⟨e, child, Expr.mem_parts_self e⟩
  · refine ⟨_, arena.part found p part, fun e child => (arena.mem_ids found).mpr (.inr ⟨e, ?_, rfl⟩)⟩
    obtain ⟨top, among, below⟩ := Expr.mem_partsAll.mp part
    exact Expr.mem_partsAll.mpr ⟨top, among, Expr.mem_parts_of_child below child⟩

/-- What passes from a node to its children holds of all ids of its fragment. -/
theorem forall_ids (arena : Arena nodes) {P : NodeId → Prop}
    (down : ∀ {id below}, nodes[id.index]? = some below → P id →
      ∀ e ∈ below.fragment.children, P e.id)
    {i : Nat} {node : Node} (found : nodes[i]? = some node) (holds : P ⟨i⟩) :
    ∀ id ∈ node.fragment.ids, P id := by
  intro id member
  rcases (arena.mem_ids found).mp member with rfl | ⟨p, part, rfl⟩
  · exact holds
  · obtain ⟨e, child, below⟩ := Expr.mem_partsAll.mp part
    have top : nodes[e.id.index]? = some ⟨node.owner, .expr e⟩ ∧ P e.id :=
      ⟨(arena.child found e child).2, down found holds e child⟩
    refine (Expr.forall_parts (P := fun p => nodes[p.id.index]? = some ⟨node.owner, .expr p⟩ ∧
      P p.id) (fun p both c child => ?_) top p below).2
    exact ⟨(arena.child both.1 c child).2, down both.1 both.2 c child⟩

end Arena

namespace Graph

/-- Every id that the graph holds leads to an entry. -/
structure Grounded (graph : Graph) : Prop where
  arena : Arena graph.nodes
  marks : graph.marks.size = graph.nodes.size
  body : ∀ {owner : ModuleId} {id : NodeId}, id ∈ (graph.symbols.moduleAt owner).body →
    ∃ statement, graph.nodes[id.index]? = some ⟨owner, .statement statement⟩
  denoted : ∀ {id : NodeId} {declaration : DeclId}, graph.denotation? id = some declaration →
    declaration.index < graph.symbols.declarations.size
  declared : ∀ {id : DeclId} {statement : NodeId}, id.index < graph.symbols.declarations.size →
    (graph.symbols.declarationAt id).kind = .declared statement →
    statement.index < graph.nodes.size
  target : ∀ {id : DeclId} {source name} {target : DeclId},
    (graph.symbols.declarationAt id).kind = .imported source name (some target) →
    target.index < graph.symbols.declarations.size
  exported : ∀ {id : ModuleId} {declaration : DeclId}, declaration ∈ graph.exportedDeclarations id →
    declaration.index < graph.symbols.declarations.size
  provided : ∀ {id : DeclId} {source : ExternalId} {name},
    (graph.symbols.declarationAt id).kind = .provided source name →
    source.index < graph.symbols.externals.size

variable {graph : Graph}

theorem nodeAt_of_getElem? {id : NodeId} {node : Node} (found : graph.nodes[id.index]? = some node) :
    graph.nodeAt id = node := by
  rw [nodeAt, Array.getD_eq_getD_getElem?, found]
  rfl

theorem mem_statements {owner : ModuleId} {statement : Statement Label} :
    statement ∈ graph.statements owner ↔
      ∃ id ∈ (graph.symbols.moduleAt owner).body,
        (graph.nodeAt id).fragment = .statement statement := by
  simp only [statements, List.mem_filterMap, Array.mem_toList_iff]
  refine exists_congr fun id => and_congr_right fun _ => ?_
  split
  next body found => simp [found]
  next found => simp [found]

theorem statements_congr {other : Graph} {owner : ModuleId}
    (body : (other.symbols.moduleAt owner).body = (graph.symbols.moduleAt owner).body)
    (nodes : ∀ id ∈ (graph.symbols.moduleAt owner).body, other.nodeAt id = graph.nodeAt id) :
    other.statements owner = graph.statements owner := by
  rw [statements, statements, body]
  exact List.filterMap_congr fun id member => by rw [nodes id (Array.mem_toList_iff.mp member)]

theorem Grounded.statement (grounded : graph.Grounded) {owner : ModuleId}
    {statement : Statement Label} (member : statement ∈ graph.statements owner) :
    statement.id ∈ (graph.symbols.moduleAt owner).body ∧
      graph.nodes[statement.id.index]? = some ⟨owner, .statement statement⟩ := by
  obtain ⟨id, body, fragment⟩ := mem_statements.mp member
  obtain ⟨other, found⟩ := grounded.body body
  rw [nodeAt_of_getElem? found] at fragment
  cases fragment
  have label : statement.id = id := grounded.arena.label found
  rw [label]
  exact ⟨body, found⟩

theorem Grounded.mem_statements_of_body (grounded : graph.Grounded) {owner : ModuleId} {id : NodeId}
    (body : id ∈ (graph.symbols.moduleAt owner).body) :
    ∃ statement ∈ graph.statements owner, statement.id = id ∧
      graph.nodes[id.index]? = some ⟨owner, .statement statement⟩ := by
  obtain ⟨statement, found⟩ := grounded.body body
  refine ⟨statement, mem_statements.mpr ⟨id, body, ?_⟩, grounded.arena.label found, found⟩
  rw [nodeAt_of_getElem? found]

end Graph

end Bundler
