import Bundler.Proofs.Draft.Layout
import Bundler.Proofs.Lockstep
import Bundler.Proofs.Respelling.Pairing
import Bundler.Proofs.Symbols.Outline

/-! # Counterparts

Two programs are counterparts if their statements respell each other, one by one.  Then the nodes of one
stand for those of the other, except that the second one has literals which stand for nothing.
-/

namespace Bundler

namespace Graph

variable {graph other after after' : Graph} {pairs : NodeId → NodeId → Prop}

/-- The nodes stand for each other, and belong to the same module. -/
structure Counterpart (hi : Nat) (pairs : NodeId → NodeId → Prop) (node node' : Node) : Prop where
  owner : node'.owner = node.owner
  fragment : node.fragment.Respells (PairedLabels pairs) (Lone 0 hi pairs) node'.fragment

/-- The node is a literal that stands for nothing. -/
def Extra (hi : Nat) (pairs : NodeId → NodeId → Prop) (node : Node) : Prop :=
  ∃ e : Expr Label, e.Added (Lone 0 hi pairs) ∧ node.fragment = .expr e

/-- The nodes of the two programs stand for each other, as the pairing says, and so do their statements. -/
structure Counterparts (pairs : NodeId → NodeId → Prop) (graph other : Graph) : Prop where
  pairing : Pairing 0 graph.nodes.size 0 other.nodes.size pairs
  node : ∀ node ∈ graph.nodes, ∃ node' ∈ other.nodes, Counterpart other.nodes.size pairs node node'
  node' : ∀ node' ∈ other.nodes, (∃ node ∈ graph.nodes, Counterpart other.nodes.size pairs node node') ∨
    Extra other.nodes.size pairs node'
  body : ∀ id, List.Forall₂ pairs (graph.symbols.moduleAt id).body.toList
    (other.symbols.moduleAt id).body.toList
  declared : ∀ {id statement statement'}, graph.HasDeclaration id →
    (graph.symbols.declarationAt id).kind = .declared statement →
    (other.symbols.declarationAt id).kind = .declared statement' → pairs statement statement'

namespace Counterparts

variable (counterparts : Counterparts pairs graph other)

include counterparts

/-- What changes no node, no statement and no declaration changes nothing about it. -/
theorem frame (nodes : after.nodes = graph.nodes) (nodes' : after'.nodes = other.nodes)
    (body : ∀ id, (after.symbols.moduleAt id).body = (graph.symbols.moduleAt id).body)
    (body' : ∀ id, (after'.symbols.moduleAt id).body = (other.symbols.moduleAt id).body)
    (declarations : after.symbols.declarations = graph.symbols.declarations)
    (declarations' : after'.symbols.declarations = other.symbols.declarations) :
    Counterparts pairs after after' where
  pairing := by rw [nodes, nodes']; exact counterparts.pairing
  node := by rw [nodes, nodes']; exact counterparts.node
  node' := by rw [nodes, nodes']; exact counterparts.node'
  body id := by rw [body, body']; exact counterparts.body id
  declared inside here there := by
    rw [HasDeclaration, declarations] at inside
    rw [Symbols.declarationAt, declarations] at here
    rw [Symbols.declarationAt, declarations'] at there
    exact counterparts.declared inside here there

theorem addDeclaration (size : other.symbols.declarations.size = graph.symbols.declarations.size)
    {name : String} {owner : Option Provider} {kind kind' : DeclarationKind}
    (declared : ∀ {statement statement'}, kind = .declared statement → kind' = .declared statement' →
      pairs statement statement') :
    Counterparts pairs (graph.addDeclaration name owner kind) (other.addDeclaration name owner kind') where
  pairing := counterparts.pairing
  node := counterparts.node
  node' := counterparts.node'
  body := counterparts.body
  declared {id _ _} inside here there := by
    rw [Graph.addDeclaration, withSymbols, Symbols.declarationAt_addDeclaration] at here there
    rw [size] at there
    split at here
    next new =>
        rw [if_pos new] at there
        exact declared here there
    next old =>
        rw [if_neg old] at there
        refine counterparts.declared ?_ here there
        exact (hasDeclaration_addDeclaration.mp inside).resolve_right old

/-! ## Nodes by their ids -/

theorem nodeAt (arena : Arena graph.nodes) (arena' : Arena other.nodes) {i i' : NodeId}
    (paired : pairs i i') : Counterpart other.nodes.size pairs (graph.nodeAt i) (other.nodeAt i') := by
  obtain ⟨-, inside⟩ := counterparts.pairing.inside paired
  have found : graph.nodes[i.index]? = some graph.nodes[i.index] := Array.getElem?_eq_getElem inside
  obtain ⟨node', member', stands⟩ := counterparts.node _ (Array.getElem_mem inside)
  obtain ⟨j, found'⟩ := Array.mem_iff_getElem?.mp member'
  have labels : pairs _ _ := stands.fragment.label
  rw [arena.label found, arena'.label found'] at labels
  obtain rfl : i' = ⟨j⟩ := counterparts.pairing.unique.2 paired labels
  rwa [nodeAt_of_getElem? found, nodeAt_of_getElem? found']

theorem exists_pair (arena : Arena graph.nodes) {i : NodeId} (inside : i.index < graph.nodes.size) :
    ∃ i', pairs i i' := by
  obtain ⟨node', -, stands⟩ := counterparts.node _ (Array.getElem_mem inside)
  have labels : pairs _ _ := stands.fragment.label
  rw [arena.label (Array.getElem?_eq_getElem inside)] at labels
  exact ⟨_, labels⟩

theorem extra (arena' : Arena other.nodes) {i' : NodeId}
    (inside : i'.index < other.nodes.size) (alone : ∀ i, ¬ pairs i i') :
    Extra other.nodes.size pairs (other.nodeAt i') := by
  have found : other.nodes[i'.index]? = some other.nodes[i'.index] := Array.getElem?_eq_getElem inside
  rw [nodeAt_of_getElem? found]
  refine (counterparts.node' _ (Array.getElem_mem inside)).resolve_left ?_
  rintro ⟨node, member, stands⟩
  have labels : pairs _ _ := stands.fragment.label
  rw [arena'.label found] at labels
  exact alone _ labels

theorem statements (sound : graph.Sound) (sound' : other.Sound) (id : ModuleId) :
    List.Forall₂ (Statement.Respells (PairedLabels pairs) (Lone 0 other.nodes.size pairs))
      (graph.statements id) (other.statements id) := by
  rw [statements_eq, statements_eq]
  have known : ∀ node ∈ (graph.symbols.moduleAt id).body.toList, ∃ statement,
      (graph.nodeAt node).fragment = .statement statement := by
    intro node member
    obtain ⟨statement, found⟩ := sound.grounded.body (Array.mem_toList_iff.mp member)
    exact ⟨statement, by rw [nodeAt_of_getElem? found]⟩
  have body := counterparts.body id
  generalize (graph.symbols.moduleAt id).body.toList = nodes,
    (other.symbols.moduleAt id).body.toList = nodes' at body known
  induction body with
  | nil => exact .nil
  | @cons node node' rest rest' paired _ ih =>
      obtain ⟨statement, here⟩ := known node List.mem_cons_self
      have stands := (counterparts.nodeAt sound.arena sound'.arena paired).fragment
      rw [here] at stands
      rw [List.filterMap_cons, List.filterMap_cons, here]
      generalize (other.nodeAt node').fragment = fragment' at stands
      cases stands with
      | statement respells =>
          exact .cons respells (ih fun node member => known node (List.mem_cons_of_mem _ member))

end Counterparts

end Graph

namespace Draft

variable {draft draft' : Draft} {owner : ModuleId} {pairs : NodeId → NodeId → Prop}

theorem size_addStatement {α : Type} (owner : ModuleId) (statement : Statement α) :
    (draft.addStatement owner statement).2.nodes.size = draft.nodes.size + statement.size := by
  have count : (statement.nodes owner (draft.symbols.moduleAt owner).source.utf8ByteSize
      draft.nodes.size).length = statement.size := by
    simp [Statement.nodes, Fragment.ofStatement, Statement.length_parts_place, Statement.size]
  rw [addStatement_snd, ← count, ← Array.length_toList, Array.toList_appendList, List.length_append,
    Array.length_toList]

theorem mem_addStatement {α : Type} {statement : Statement α} {node : Node} :
    node ∈ (draft.addStatement owner statement).2.nodes ↔ node ∈ draft.nodes ∨
      ∃ f ∈ Fragment.ofStatement (draft.addStatement owner statement).1, node = ⟨owner, f⟩ := by
  rw [addStatement_snd, ← Array.mem_toList_iff, Array.toList_appendList, List.mem_append,
    Array.mem_toList_iff, Statement.nodes, List.mem_map]
  simp only [addStatement_fst, eq_comm]

/-- When statements that respell each other are added on both sides, their nodes stand for each other. -/
theorem counterparts_addStatement (counterparts : Graph.Counterparts pairs draft.graph draft'.graph)
    (modules : draft'.symbols.modules.size = draft.symbols.modules.size) (owner : ModuleId)
    {statement statement' : Statement Unit} {same : Unit → Unit → Prop} {added : Unit → Prop}
    (respells : statement.Respells same added statement') :
    ∃ more, Graph.Counterparts more (draft.addStatement owner statement).2.graph
        (draft'.addStatement owner statement').2.graph ∧
      more (draft.addStatement owner statement).1.id (draft'.addStatement owner statement').1.id := by
  obtain ⟨q, pairing, placed⟩ := respells.paired (draft.symbols.moduleAt owner).source.utf8ByteSize
    draft.nodes.size (draft'.symbols.moduleAt owner).source.utf8ByteSize draft'.nodes.size
  have size := draft.size_addStatement owner statement
  have size' := draft'.size_addStatement owner statement'
  have nodes' : (draft'.addStatement owner statement').2.graph.nodes.size = _ := size'
  -- What stood for each other still does, and so do the new nodes.
  have keep : ∀ {f f' : Fragment}, f.Respells (PairedLabels pairs) (Lone 0 draft'.nodes.size pairs) f' →
      f.Respells (PairedLabels fun i i' => pairs i i' ∨ q i i')
        (Lone 0 (draft'.nodes.size + statement'.size) fun i i' => pairs i i' ∨ q i i') f' :=
    Fragment.Respells.mono .inl (·.append_left pairing)
  have new : ∀ {f f' : Fragment}, f.Respells (PairedLabels q)
      (Lone draft'.nodes.size (draft'.nodes.size + statement'.size) q) f' →
      f.Respells (PairedLabels fun i i' => pairs i i' ∨ q i i')
        (Lone 0 (draft'.nodes.size + statement'.size) fun i i' => pairs i i' ∨ q i i') f' :=
    Fragment.Respells.mono .inr (·.append_right counterparts.pairing)
  refine ⟨fun i i' => pairs i i' ∨ q i i', ⟨?_, fun node member => ?_, fun node' member => ?_,
    fun id => ?_, fun inside here there => .inl (counterparts.declared inside here there)⟩, .inr placed.tag⟩
  · have both := counterparts.pairing.append pairing
    rwa [← size, ← size'] at both
  · rw [nodes']
    rcases mem_addStatement.mp member with earlier | ⟨f, among, rfl⟩
    · obtain ⟨node', member', stands⟩ := counterparts.node node earlier
      exact ⟨node', mem_addStatement.mpr (.inl member'), stands.owner, keep stands.fragment⟩
    · obtain ⟨f', among', stands⟩ := placed.fragment f among
      exact ⟨_, mem_addStatement.mpr (.inr ⟨f', among', rfl⟩), rfl, new stands⟩
  · rw [nodes']
    rcases mem_addStatement.mp member with earlier | ⟨f', among', rfl⟩
    · rcases counterparts.node' node' earlier with ⟨node, member, stands⟩ | ⟨e, ⟨tag, value, rfl, lone⟩, here⟩
      · exact .inl ⟨node, mem_addStatement.mpr (.inl member), stands.owner, keep stands.fragment⟩
      · exact .inr ⟨_, ⟨tag, value, rfl, lone.append_left pairing⟩, here⟩
    · rcases placed.fragment' f' among' with ⟨f, among, stands⟩ | ⟨_, ⟨tag, value, rfl, lone⟩, here⟩
      · exact .inl ⟨_, mem_addStatement.mpr (.inr ⟨f, among, rfl⟩), rfl, new stands⟩
      · exact .inr ⟨_, ⟨tag, value, rfl, lone.append_right counterparts.pairing⟩, here⟩
  · have before : List.Forall₂ (fun i i' => pairs i i' ∨ q i i') _ _ :=
      (counterparts.body id).imp fun _ _ => .inl
    rw [symbols_graph, symbols_graph, moduleAt_addStatement, moduleAt_addStatement, modules]
    split
    · rw [lengthen, lengthen, Array.toList_push, Array.toList_push]
      exact List.rel_append before (.cons (.inr placed.tag) .nil)
    · exact before

/-! ## Drafts that respell each other -/

/-- The drafts are the same, but that the second one is written with some of the properties in brackets. -/
structure Alongside (draft draft' : Draft) : Prop where
  outline : draft'.symbols.outline = draft.symbols.outline
  scopes : draft'.scopes = draft.scopes
  localExports : draft'.localExports = draft.localExports
  counterparts : ∃ pairs, Graph.Counterparts pairs draft.graph draft'.graph

end Draft

end Bundler
