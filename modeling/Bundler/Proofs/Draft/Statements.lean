import Bundler.Proofs.Expr.Placement
import Bundler.Proofs.Graph.Entries
import Bundler.Draft

/-! # Statements of a draft

A draft is sound as a graph about which nothing is known yet.  Adding a statement appends its nodes to
the arena, where they are numbered on from those that are there.
-/

namespace Bundler

variable {α : Type}

/-! ## Nodes of a statement -/

namespace Statement

/-- The nodes of a statement, placed so that they can be appended to `next` others. -/
def nodes (statement : Statement α) (owner : ModuleId) (start next : Nat) : List Node :=
  (Fragment.ofStatement (statement.place start next)).map (Node.mk owner)

variable {statement : Statement α} {owner : ModuleId} {start next : Nat}

theorem length_parts_place :
    (Expr.partsAll (statement.place start next).children).length =
      Expr.sizeAll statement.children := by
  rw [Expr.length_partsAll, sizeAll_children_place]

theorem getElem?_nodes_of_part {i : Nat} {p : Expr Label}
    (found : (Expr.partsAll (statement.place start next).children)[i]? = some p) :
    (statement.nodes owner start next)[i]? = some ⟨owner, .expr p⟩ := by
  have inside := (List.getElem?_eq_some_iff.mp found).1
  rw [nodes, Fragment.ofStatement, List.getElem?_map, List.getElem?_append_left (by simpa),
    List.getElem?_map, found]
  rfl

theorem getElem?_nodes_self :
    (statement.nodes owner start next)[Expr.sizeAll statement.children]? =
      some ⟨owner, .statement (statement.place start next)⟩ := by
  rw [nodes, Fragment.ofStatement, List.getElem?_map, List.getElem?_append_right (by
    simp [length_parts_place])]
  simp [length_parts_place]

theorem getElem?_nodes {i : Nat} {node : Node}
    (found : (statement.nodes owner start next)[i]? = some node) :
    (∃ p, (Expr.partsAll (statement.place start next).children)[i]? = some p ∧
        node = ⟨owner, .expr p⟩) ∨
      i = Expr.sizeAll statement.children ∧
        node = ⟨owner, .statement (statement.place start next)⟩ := by
  rw [nodes, Fragment.ofStatement, List.getElem?_map] at found
  obtain ⟨fragment, at_i, rfl⟩ := Option.map_eq_some_iff.mp found
  rw [List.getElem?_append] at at_i
  split at at_i
  · rw [List.getElem?_map] at at_i
    obtain ⟨p, part, rfl⟩ := Option.map_eq_some_iff.mp at_i
    exact .inl ⟨p, part, rfl⟩
  next outside =>
      rw [List.getElem?_singleton] at at_i
      split at at_i
      next last =>
          cases at_i
          rw [List.length_map, length_parts_place] at outside last
          exact .inr ⟨by omega, rfl⟩
      next => cases at_i

end Statement

theorem getElem?_append_of_some {nodes : Array Node} {more : List Node} {i : Nat} {node : Node}
    (found : nodes[i]? = some node) : (nodes ++ more)[i]? = some node := by
  rw [← Array.getElem?_toList] at found ⊢
  rw [Array.toList_appendList, List.getElem?_append_left (List.getElem?_eq_some_iff.mp found).1,
    found]

theorem getElem?_append_add {nodes : Array Node} {more : List Node} (i : Nat) :
    (nodes ++ more)[nodes.size + i]? = more[i]? := by
  rw [← Array.getElem?_toList, Array.toList_appendList, List.getElem?_append_right (by simp)]
  simp

theorem getElem?_append {nodes : Array Node} {more : List Node} {i : Nat} {node : Node}
    (found : (nodes ++ more)[i]? = some node) :
    nodes[i]? = some node ∨ ∃ j, i = nodes.size + j ∧ more[j]? = some node := by
  rcases Nat.lt_or_ge i nodes.size with early | late
  · left
    rwa [← Array.getElem?_toList, Array.toList_appendList, List.getElem?_append_left (by simpa),
      Array.getElem?_toList] at found
  · right
    have place : i = nodes.size + (i - nodes.size) := by omega
    exact ⟨i - nodes.size, place, by rwa [place, getElem?_append_add] at found⟩

/-- The nodes of a statement can be appended to an arena. -/
theorem Arena.append {nodes : Array Node} (arena : Arena nodes) (statement : Statement α)
    (owner : ModuleId) (start : Nat) : Arena (nodes ++ statement.nodes owner start nodes.size) where
  label {i node} found := by
    have numbered := statement.numbered_place start nodes.size
    rcases getElem?_append found with old | ⟨j, rfl, new⟩
    · exact arena.label old
    · rcases Statement.getElem?_nodes new with ⟨p, part, rfl⟩ | ⟨rfl, rfl⟩
      · exact numbered.id part
      · exact statement.id_place start nodes.size
  child {i node} found e child := by
    have numbered := statement.numbered_place start nodes.size
    rcases getElem?_append found with old | ⟨j, rfl, new⟩
    · obtain ⟨lt, at_e⟩ := arena.child old e child
      exact ⟨lt, getElem?_append_of_some at_e⟩
    · have listed : ∃ k < j, (Expr.partsAll
          (statement.place start nodes.size).children)[k]? = some e ∧ node.owner = owner := by
        rcases Statement.getElem?_nodes new with ⟨p, part, rfl⟩ | ⟨rfl, rfl⟩
        · obtain ⟨k, lt, at_k⟩ := numbered.child part e child
          exact ⟨k, lt, at_k, rfl⟩
        · obtain ⟨k, inside, at_k⟩ := List.mem_iff_getElem.mp
            (Expr.mem_partsAll.mpr ⟨e, child, Expr.mem_parts_self e⟩)
          refine ⟨k, Statement.length_parts_place ▸ inside, ?_, rfl⟩
          exact List.getElem?_eq_some_iff.mpr ⟨inside, at_k⟩
      obtain ⟨k, lt, at_k, rfl⟩ := listed
      rw [numbered.id at_k]
      refine ⟨by simpa using lt, ?_⟩
      rw [getElem?_append_add]
      exact Statement.getElem?_nodes_of_part at_k

namespace Draft

variable {draft : Draft}

/-- The draft as a graph about which nothing is known. -/
def graph (draft : Draft) : Graph where
  nodes := draft.nodes
  marks := Array.replicate draft.nodes.size {}
  scopes := draft.scopes
  symbols := draft.symbols
  entry := default

@[simp]
theorem symbols_graph : draft.graph.symbols = draft.symbols := rfl

@[simp]
theorem markAt_graph (id : NodeId) : draft.graph.markAt id = {} := by
  simp only [Graph.markAt, graph, Array.getD_eq_getD_getElem?, Array.getElem?_replicate]
  split <;> rfl

theorem denotation?_graph (id : NodeId) : draft.graph.denotation? id = none := by
  simp [Graph.denotation?, Graph.resolutionAt]

/-! ## Adding a statement -/

theorem addStatement_fst (owner : ModuleId) (statement : Statement α) :
    (draft.addStatement owner statement).1 =
      statement.place (draft.symbols.moduleAt owner).source.utf8ByteSize draft.nodes.size := rfl

/-- The text and the body of a module after adding a statement. -/
def lengthen (statement : Statement α) (id : NodeId) (m : Module) : Module :=
  { m with source := m.source ++ statement.print ++ "\n", body := m.body.push id }

theorem addStatement_snd (owner : ModuleId) (statement : Statement α) :
    (draft.addStatement owner statement).2 =
      { draft with
        nodes := draft.nodes ++ statement.nodes owner
          (draft.symbols.moduleAt owner).source.utf8ByteSize draft.nodes.size
        symbols := draft.symbols.modifyModule owner
          (lengthen statement (draft.addStatement owner statement).1.id) } := rfl

section AddStatement

variable {owner : ModuleId} {statement : Statement α}

theorem moduleAt_addStatement (id : ModuleId) :
    (draft.addStatement owner statement).2.symbols.moduleAt id =
      if id = owner ∧ owner.index < draft.symbols.modules.size then
        lengthen statement (draft.addStatement owner statement).1.id (draft.symbols.moduleAt id)
      else draft.symbols.moduleAt id := by
  rw [addStatement_snd, Symbols.moduleAt_modifyModule]

theorem extends_addStatement :
    Graph.Extends draft.graph (draft.addStatement owner statement).2.graph where
  node found := getElem?_append_of_some found
  modules := by simp [graph, addStatement_snd, Symbols.modifyModule]
  externals := Nat.le_refl _
  namespaceDecl {id} _ := by
    rw [symbols_graph, moduleAt_addStatement]
    split <;> rfl
  body {id node} member := by
    rw [symbols_graph, moduleAt_addStatement]
    split
    · exact Array.mem_push_of_mem _ member
    · exact member
  declarations := Nat.le_refl _
  owner _ := rfl
  kind _ := .same

theorem node_addStatement :
    (draft.addStatement owner statement).2.nodes[(draft.addStatement owner statement).1.id.index]? =
      some ⟨owner, .statement (draft.addStatement owner statement).1⟩ := by
  rw [addStatement_fst, statement.id_place, addStatement_snd]
  exact (getElem?_append_add _).trans Statement.getElem?_nodes_self

theorem mem_body_addStatement (there : draft.graph.HasProvider (.internal owner)) :
    (draft.addStatement owner statement).1.id ∈
      ((draft.addStatement owner statement).2.symbols.moduleAt owner).body := by
  rw [moduleAt_addStatement, if_pos ⟨rfl, there⟩]
  exact Array.mem_push_self

theorem source?_addStatement :
    (draft.addStatement owner statement).1.source? = statement.source? := by
  rw [addStatement_fst]
  cases statement <;> rfl

theorem links_addStatement (there : draft.graph.HasProvider (.internal owner)) {source : Provider}
    (link : statement.source? = some source) :
    (draft.addStatement owner statement).2.graph.Links owner source :=
  ⟨_, mem_body_addStatement there, _, node_addStatement, source?_addStatement.trans link⟩

theorem sound_addStatement (sound : draft.graph.Sound)
    (there : draft.graph.HasProvider (.internal owner)) (statement : Statement α)
    (known : ∀ source, statement.source? = some source → draft.graph.HasProvider source) :
    (draft.addStatement owner statement).2.graph.Sound := by
  have extension : Graph.Extends draft.graph (draft.addStatement owner statement).2.graph :=
    extends_addStatement
  refine sound.step extension (sound.arena.append statement owner _) (by simp [graph]) ?_
    (fun inside => .inl ⟨inside, rfl⟩) (fun there => .inl ⟨there, rfl⟩) .inl ?_
    (fun _ => .inl rfl) (fun found => by rw [denotation?_graph] at found; cases found)
  · intro id inside
    have before : draft.graph.HasProvider (.internal id) := by
      simpa [Graph.HasProvider, graph, addStatement_snd, Symbols.modifyModule] using inside
    rw [symbols_graph, moduleAt_addStatement]
    split
    next same =>
        obtain ⟨rfl, -⟩ := same
        have old := extension.moduleSound (sound.modules before)
        refine .inr ⟨old.namespaceDecl, fun node member => ?_, old.own, old.again, old.star,
          old.resolved⟩
        rcases Array.mem_push.mp member with earlier | rfl
        · exact old.body node earlier
        · refine ⟨_, node_addStatement, fun source link => extension.hasProvider (known source ?_)⟩
          rwa [source?_addStatement] at link
    next => exact .inl ⟨before, rfl⟩
  · simpa [graph, addStatement_snd, Symbols.modifyModule] using sound.scopeCount

end AddStatement

end Draft

end Bundler
