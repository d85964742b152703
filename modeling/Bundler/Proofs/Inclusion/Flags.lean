import Bundler.Proofs.Graph.Access
import Bundler.Proofs.Inclusion.Closure

/-! # Setting flags

What a graph includes once nodes or a declaration are marked as included.
-/

namespace Bundler.Graph

variable {graph other : Graph}

/-- A change that a map overlooks is lost in it. -/
theorem mapIdx_modify {α β : Type} (entries : Array α) (i : Nat) (change : α → α)
    (f : Nat → α → β) (overlooks : ∀ j a, f j (change a) = f j a) :
    (entries.modify i change).mapIdx f = entries.mapIdx f := by
  apply Array.ext
  · simp
  · intro j _ _
    simp only [Array.getElem_mapIdx, Array.getElem_modify]
    split
    · exact overlooks j _
    · rfl

theorem alike_of_select (same : other.select ⊥ = graph.select ⊥) : Alike graph other :=
  ⟨other.selection, by rw [← select_select ⊥, ← same, select_select, select_selection]⟩

/-! ## Nodes -/

/-- Includes one node, and nothing else. -/
def includeNode (graph : Graph) (id : NodeId) : Graph :=
  graph.modifyMark id fun mark => { mark with included := true }

theorem markNodes_cons (id : NodeId) (rest : List NodeId) :
    graph.markNodes (id :: rest) = (graph.includeNode id).markNodes rest := rfl

@[simp]
theorem size_marks_includeNode (id : NodeId) :
    (graph.includeNode id).marks.size = graph.marks.size := by
  simp [includeNode, modifyMark]

theorem includesNode_includeNode (id node : NodeId) :
    (graph.includeNode id).includesNode node = true ↔
      graph.includesNode node = true ∨ node = id ∧ node.index < graph.marks.size := by
  simp only [includesNode, includeNode, markAt_modifyMark]
  split
  next marked =>
      obtain ⟨rfl, inside⟩ := marked
      simp [inside]
  next unmarked =>
      refine ⟨.inl, fun included => included.resolve_right fun marked => unmarked ?_⟩
      exact ⟨marked.1, marked.1 ▸ marked.2⟩

theorem alike_includeNode (id : NodeId) : Alike graph (graph.includeNode id) := by
  apply alike_of_select
  simp only [includeNode, select, modifyMark, Graph.mk.injEq, and_true, true_and]
  exact mapIdx_modify _ _ _ _ fun _ _ => rfl

theorem alike_markNodes (ids : List NodeId) : Alike graph (graph.markNodes ids) := by
  induction ids generalizing graph with
  | nil => exact Alike.refl graph
  | cons id rest ih => exact (alike_includeNode id).trans ih

theorem includesNode_markNodes (ids : List NodeId) (node : NodeId) :
    (graph.markNodes ids).includesNode node = true ↔
      graph.includesNode node = true ∨ node ∈ ids ∧ node.index < graph.marks.size := by
  induction ids generalizing graph with
  | nil => simp [markNodes]
  | cons id rest ih =>
      rw [markNodes_cons, ih, includesNode_includeNode, size_marks_includeNode, List.mem_cons]
      tauto

@[simp]
theorem symbols_markNodes (ids : List NodeId) : (graph.markNodes ids).symbols = graph.symbols := by
  induction ids generalizing graph with
  | nil => rfl
  | cons id rest ih =>
      rw [markNodes_cons, ih]
      rfl

@[simp]
theorem includesDeclaration_markNodes (ids : List NodeId) (id : DeclId) :
    (graph.markNodes ids).includesDeclaration id = graph.includesDeclaration id := by
  simp [includesDeclaration]

theorem le_markNodes (ids : List NodeId) : graph.selection ≤ (graph.markNodes ids).selection := by
  refine ⟨fun node included => ?_, fun id included => ?_, fun id used => ?_⟩
  · exact (includesNode_markNodes ids node).mpr (.inl included)
  · simpa [selection] using included
  · simpa [selection] using used

theorem markNodes_eq_self {ids : List NodeId} (included : ∀ id ∈ ids, graph.includesNode id = true) :
    graph.markNodes ids = graph := by
  refine (alike_markNodes ids).eq_of_selection ?_
  ext node
  · rw [Bool.eq_iff_iff]
    refine (includesNode_markNodes ids node).trans ⟨fun either => ?_, .inl⟩
    exact either.elim id fun marked => included node marked.1
  · simp [selection]
  · simp [selection]

/-! ## Declarations -/

/-- Includes one declaration with its external module, and nothing else. -/
def includeDeclaration (graph : Graph) (id : DeclId) : Graph :=
  let symbols := graph.symbols.modifyDeclaration id fun declaration =>
    { declaration with included := true }
  let symbols :=
    match (graph.symbols.declarationAt id).kind with
    | .provided source _ =>
      symbols.modifyExternal source fun external => { external with used := true }
    | _ => symbols
  { graph with symbols }

theorem markDeclaration_eq (id : DeclId) :
    graph.markDeclaration id = (graph.includeDeclaration id).markNodes (graph.ownNodes id) := rfl

theorem declarations_includeDeclaration (id : DeclId) :
    (graph.includeDeclaration id).symbols.declarations =
      graph.symbols.declarations.modify id.index fun declaration =>
        { declaration with included := true } := by
  simp only [includeDeclaration]
  split <;> rfl

theorem alike_includeDeclaration (id : DeclId) : Alike graph (graph.includeDeclaration id) := by
  apply alike_of_select
  have declarations := mapIdx_modify graph.symbols.declarations id.index
    (fun declaration => { declaration with included := true })
    (fun _ declaration => { declaration with included := false }) fun _ _ => rfl
  have externals := fun source : ExternalId =>
    mapIdx_modify graph.symbols.externals source.index
      (fun external => { external with used := true })
      (fun _ external => { external with used := false }) fun _ _ => rfl
  simp only [includeDeclaration]
  split
  next source _ _ =>
      simp only [select, Symbols.modifyExternal, Symbols.modifyDeclaration, Bot.bot, declarations,
        externals]
  next => simp only [select, Symbols.modifyDeclaration, Bot.bot, declarations]

theorem includesDeclaration_includeDeclaration (id declaration : DeclId) :
    (graph.includeDeclaration id).includesDeclaration declaration = true ↔
      graph.includesDeclaration declaration = true ∨
        declaration = id ∧ declaration.index < graph.symbols.declarations.size := by
  have entry : (graph.includeDeclaration id).symbols.declarationAt declaration =
      (graph.symbols.modifyDeclaration id fun declaration =>
        { declaration with included := true }).declarationAt declaration := by
    simp only [Symbols.declarationAt, declarations_includeDeclaration, Symbols.modifyDeclaration]
  simp only [includesDeclaration, entry, Symbols.declarationAt_modifyDeclaration]
  split
  next marked =>
      obtain ⟨rfl, inside⟩ := marked
      simp [inside]
  next unmarked =>
      refine ⟨.inl, fun included => included.resolve_right fun marked => unmarked ?_⟩
      exact ⟨marked.1, marked.1 ▸ marked.2⟩

theorem used_includeDeclaration (id : DeclId) (source : ExternalId) :
    ((graph.includeDeclaration id).symbols.externalAt source).used = true ↔
      (graph.symbols.externalAt source).used = true ∨
        (∃ name, (graph.symbols.declarationAt id).kind = .provided source name) ∧
          source.index < graph.symbols.externals.size := by
  simp only [includeDeclaration]
  split
  next other name kind =>
      have untouched : (graph.symbols.modifyDeclaration id fun declaration =>
          { declaration with included := true }).externalAt source =
            graph.symbols.externalAt source := rfl
      simp only [Symbols.externalAt_modifyExternal, kind, DeclarationKind.provided.injEq, untouched]
      split
      next marked =>
          obtain ⟨rfl, inside⟩ := marked
          exact ⟨fun _ => .inr ⟨⟨name, rfl, rfl⟩, inside⟩, fun _ => rfl⟩
      next unmarked =>
          refine ⟨.inl, fun used => used.resolve_right fun marked => unmarked ?_⟩
          obtain ⟨⟨_, rfl, rfl⟩, inside⟩ := marked
          exact ⟨rfl, inside⟩
  next kind =>
      refine ⟨.inl, fun used => used.resolve_right fun marked => ?_⟩
      obtain ⟨⟨name, provided⟩, -⟩ := marked
      exact kind _ _ provided

theorem le_includeDeclaration (id : DeclId) :
    graph.selection ≤ (graph.includeDeclaration id).selection :=
  ⟨fun _ included => included,
    fun declaration included => (includesDeclaration_includeDeclaration id declaration).mpr (.inl included),
    fun source used => (used_includeDeclaration id source).mpr (.inl used)⟩

end Bundler.Graph
