import Bundler.Proofs.Inclusion.Excluded
import Bundler.Proofs.Inclusion.Flags

/-! # Retention

Retaining a declaration follows what it takes along, depth first.  While that goes on some
declarations are marked whose needs are not included yet, so what is kept up on the way is
`Graph.Grows`: everything that has been included since some earlier state has by now what it takes
along.  A declaration is marked before its needs are followed, which is why the number of excluded
declarations bounds the depth.
-/

namespace Bundler

variable {graph other : Graph}

theorem Selection.HasParts.mono {s t : Selection} (le : s ≤ t) {id : NodeId}
    (parts : s.HasParts graph id) : t.HasParts graph id where
  child e child := le.1 _ (parts.child e child)
  denoted denoted := le.2.1 _ (parts.denoted denoted)

theorem Selection.HasNeeds.mono {s t : Selection} (le : s ≤ t) {id : DeclId}
    (needs : s.HasNeeds graph id) : t.HasNeeds graph id where
  declared kind := le.1 _ (needs.declared kind)
  target kind := le.2.1 _ (needs.target kind)
  exported kind declaration member := le.2.1 _ (needs.exported kind declaration member)
  provided kind := le.2.2 _ (needs.provided kind)

namespace Graph

/-- The other graph includes more, and all that it includes on top has what it takes along. -/
structure Grows (graph other : Graph) : Prop where
  alike : Alike graph other
  le : graph.selection ≤ other.selection
  parts : ∀ {id}, other.includesNode id = true →
    graph.includesNode id = true ∨ other.selection.HasParts graph id
  needs : ∀ {id}, other.includesDeclaration id = true →
    graph.includesDeclaration id = true ∨ other.selection.HasNeeds graph id

namespace Grows

theorem refl (graph : Graph) : Grows graph graph :=
  ⟨Alike.refl graph, Selection.le_refl _, .inl, .inl⟩

theorem trans {last : Graph} (first : Grows graph other) (second : Grows other last) :
    Grows graph last where
  alike := first.alike.trans second.alike
  le := Selection.le_trans first.le second.le
  parts included := by
    rcases second.parts included with earlier | parts
    · exact (first.parts earlier).imp_right (·.mono second.le)
    · exact .inr (first.alike.symm.hasParts parts)
  needs included := by
    rcases second.needs included with earlier | needs
    · exact (first.needs earlier).imp_right (·.mono second.le)
    · exact .inr (first.alike.symm.hasNeeds needs)

/-- Growth from a state in which all is complete ends in such a state. -/
theorem supported (grows : Grows graph other) (before : graph.selection.Supported graph) :
    other.selection.Supported graph where
  parts included := (grows.parts included).elim (fun earlier => (before.parts earlier).mono grows.le) id
  needs included := (grows.needs included).elim (fun earlier => (before.needs earlier).mono grows.le) id

/-- Visiting declarations one after the other grows the graph if every single visit does. -/
theorem foldl (visit : Graph → DeclId → Graph) {start : Graph}
    (step : ∀ graph, Grows start graph → ∀ id : DeclId,
      id.index < start.symbols.declarations.size →
      Grows graph (visit graph id) ∧ (visit graph id).includesDeclaration id = true)
    (ids : List DeclId) (inside : ∀ id ∈ ids, id.index < start.symbols.declarations.size)
    (grows : Grows start graph) :
    Grows graph (ids.foldl visit graph) ∧
      ∀ id ∈ ids, (ids.foldl visit graph).includesDeclaration id = true := by
  induction ids generalizing graph with
  | nil => exact ⟨refl graph, by simp⟩
  | cons id rest ih =>
      obtain ⟨first, included⟩ := step graph grows id (inside id List.mem_cons_self)
      obtain ⟨later, all⟩ := ih (fun id member => inside id (List.mem_cons_of_mem _ member))
        (grows.trans first)
      refine ⟨first.trans later, fun other member => ?_⟩
      rcases List.mem_cons.mp member with rfl | among
      · exact later.le.2.1 _ included
      · exact all other among

end Grows

/-! ## What a declaration takes along -/

namespace Grounded

theorem mem_ids (grounded : graph.Grounded) {node : NodeId} (inside : node.index < graph.nodes.size)
    {id : NodeId} (member : id ∈ (graph.nodeAt node).fragment.ids) :
    id.index < graph.marks.size ∧
      ∀ e ∈ (graph.nodeAt id).fragment.children, e.id ∈ (graph.nodeAt node).fragment.ids := by
  have found : graph.nodes[node.index]? = some graph.nodes[node.index] :=
    Array.getElem?_eq_getElem inside
  rw [nodeAt_of_getElem? found] at member ⊢
  obtain ⟨below, at_id, children⟩ := grounded.arena.mem_ids_of_child found member
  rw [nodeAt_of_getElem? at_id, grounded.marks]
  exact ⟨(Array.getElem?_eq_some_iff.mp at_id).1, children⟩

theorem mem_ids_self (grounded : graph.Grounded) {node : NodeId}
    (inside : node.index < graph.nodes.size) : node ∈ (graph.nodeAt node).fragment.ids := by
  have found : graph.nodes[node.index]? = some graph.nodes[node.index] :=
    Array.getElem?_eq_getElem inside
  rw [nodeAt_of_getElem? found]
  exact (grounded.arena.mem_ids found).mpr (.inl rfl)

theorem ids_subset (grounded : graph.Grounded) {s : Selection} (supported : s.Supported graph)
    {node : NodeId} (inside : node.index < graph.nodes.size) (selected : s.nodes node = true) :
    ∀ id ∈ (graph.nodeAt node).fragment.ids, s.nodes id = true := by
  have found : graph.nodes[node.index]? = some graph.nodes[node.index] :=
    Array.getElem?_eq_getElem inside
  rw [nodeAt_of_getElem? found]
  refine grounded.arena.forall_ids (fun {id below} at_id holds e child => ?_) found selected
  exact (supported.parts holds).child e (by rwa [nodeAt_of_getElem? at_id])

theorem denotations_inside (grounded : graph.Grounded) {ids : List NodeId} {id : DeclId}
    (member : id ∈ graph.denotations ids) : id.index < graph.symbols.declarations.size := by
  obtain ⟨node, -, denoted⟩ := List.mem_filterMap.mp member
  exact grounded.denoted denoted

theorem needs_inside (grounded : graph.Grounded) {id need : DeclId} (member : need ∈ graph.needs id) :
    need.index < graph.symbols.declarations.size := by
  unfold needs at member
  split at member
  next => exact grounded.denotations_inside member
  next source name target kind =>
      obtain ⟨rfl⟩ := Option.mem_toList.mp member
      exact grounded.target kind
  next => exact grounded.exported member
  next => exact absurd member List.not_mem_nil
  next => exact absurd member List.not_mem_nil

end Grounded

/-! ## Retaining a declaration -/

theorem alike_markDeclaration (id : DeclId) : Alike graph (graph.markDeclaration id) :=
  (alike_includeDeclaration id).trans (alike_markNodes _)

theorem includesDeclaration_markDeclaration (id declaration : DeclId) :
    (graph.markDeclaration id).includesDeclaration declaration = true ↔
      graph.includesDeclaration declaration = true ∨
        declaration = id ∧ declaration.index < graph.symbols.declarations.size := by
  rw [markDeclaration_eq, includesDeclaration_markNodes, includesDeclaration_includeDeclaration]

theorem includesNode_markDeclaration (id : DeclId) (node : NodeId) :
    (graph.markDeclaration id).includesNode node = true ↔
      graph.includesNode node = true ∨ node ∈ graph.ownNodes id ∧ node.index < graph.marks.size := by
  have marks : (graph.includeDeclaration id).marks = graph.marks := rfl
  rw [markDeclaration_eq, includesNode_markNodes, marks]
  rfl

theorem used_markDeclaration (id : DeclId) (source : ExternalId) :
    ((graph.markDeclaration id).symbols.externalAt source).used = true ↔
      (graph.symbols.externalAt source).used = true ∨
        (∃ name, (graph.symbols.declarationAt id).kind = .provided source name) ∧
          source.index < graph.symbols.externals.size := by
  rw [markDeclaration_eq, symbols_markNodes, used_includeDeclaration]

theorem le_markDeclaration (id : DeclId) : graph.selection ≤ (graph.markDeclaration id).selection :=
  ⟨fun node included => (includesNode_markDeclaration id node).mpr (.inl included),
    fun declaration included => (includesDeclaration_markDeclaration id declaration).mpr (.inl included),
    fun source used => (used_markDeclaration id source).mpr (.inl used)⟩

/-- The nodes of a declaration have what they take along once it is marked and its needs are
    included. -/
theorem hasParts_of_own (grounded : graph.Grounded) {id : DeclId}
    (inside : id.index < graph.symbols.declarations.size)
    (le : (graph.markDeclaration id).selection ≤ other.selection)
    (needs : ∀ need ∈ graph.needs id, other.includesDeclaration need = true)
    {node : NodeId} (own : node ∈ graph.ownNodes id) : other.selection.HasParts graph node := by
  have marked : ∀ below ∈ graph.ownNodes id, below.index < graph.marks.size →
      other.includesNode below = true := fun below member inside =>
    le.1 _ ((includesNode_markDeclaration id below).mpr (.inr ⟨member, inside⟩))
  unfold ownNodes at own marked
  unfold Graph.needs at needs
  split at own
  next statement kind =>
      have statementInside := grounded.declared inside kind
      simp only [kind, ownNodes] at needs marked
      obtain ⟨-, children⟩ := grounded.mem_ids statementInside own
      refine ⟨fun e child => ?_, fun {declaration} denoted => ?_⟩
      · have below := children e child
        exact marked e.id below (grounded.mem_ids statementInside below).1
      · exact needs declaration (List.mem_filterMap.mpr ⟨node, own, denoted⟩)
  next => exact absurd own List.not_mem_nil

theorem hasNeeds_of_marked (grounded : graph.Grounded) {id : DeclId}
    (inside : id.index < graph.symbols.declarations.size)
    (le : (graph.markDeclaration id).selection ≤ other.selection)
    (needs : ∀ need ∈ graph.needs id, other.includesDeclaration need = true) :
    other.selection.HasNeeds graph id where
  declared {statement} kind := by
    have own : graph.ownNodes id = (graph.nodeAt statement).fragment.ids := by
      simp only [ownNodes, kind]
    have statementInside := grounded.declared inside kind
    refine le.1 _ ((includesNode_markDeclaration id statement).mpr (.inr ⟨?_, ?_⟩))
    · rw [own]
      exact grounded.mem_ids_self statementInside
    · rw [grounded.marks]
      exact statementInside
  target {source name target} kind := needs target (by simp [Graph.needs, kind])
  exported {owner} kind declaration member := needs declaration (by simpa [Graph.needs, kind])
  provided {source name} kind :=
    le.2.2 _ ((used_markDeclaration id source).mpr (.inr ⟨⟨name, kind⟩, grounded.provided kind⟩))

/-- Once its needs are included too, a marked declaration has all that it takes along. -/
theorem grows_of_marked (grounded : graph.Grounded) {id : DeclId}
    (inside : id.index < graph.symbols.declarations.size)
    (grows : Grows (graph.markDeclaration id) other)
    (needs : ∀ need ∈ graph.needs id, other.includesDeclaration need = true) :
    Grows graph other where
  alike := (alike_markDeclaration id).trans grows.alike
  le := Selection.le_trans (le_markDeclaration id) grows.le
  parts := by
    intro node included
    rcases grows.parts included with earlier | parts
    · refine ((includesNode_markDeclaration id node).mp earlier).imp_right fun own => ?_
      exact hasParts_of_own grounded inside grows.le needs own.1
    · exact .inr ((alike_markDeclaration id).symm.hasParts parts)
  needs := by
    intro declaration included
    rcases grows.needs included with earlier | needed
    · refine ((includesDeclaration_markDeclaration id declaration).mp earlier).imp_right fun here => ?_
      exact here.1 ▸ hasNeeds_of_marked grounded inside grows.le needs
    · exact .inr ((alike_markDeclaration id).symm.hasNeeds needed)

theorem includesDeclaration_of_none_excluded (none : graph.excludedDeclarations = 0) {id : DeclId}
    (inside : id.index < graph.symbols.declarations.size) : graph.includesDeclaration id = true := by
  have all := List.countP_eq_zero.mp none _ (Symbols.declarationAt_mem inside)
  simpa [includesDeclaration] using all

/-- With enough depth, retaining a declaration includes it with all that it takes along. -/
theorem grows_retainWithin (depth : Nat) (grounded : graph.Grounded)
    (enough : graph.excludedDeclarations ≤ depth) {id : DeclId}
    (inside : id.index < graph.symbols.declarations.size) :
    Grows graph (retainWithin depth graph id) ∧
      (retainWithin depth graph id).includesDeclaration id = true := by
  induction depth generalizing graph id with
  | zero =>
      exact ⟨Grows.refl graph, includesDeclaration_of_none_excluded (Nat.le_zero.mp enough) inside⟩
  | succ depth ih =>
      rw [retainWithin]
      split
      next included => exact ⟨Grows.refl graph, included⟩
      next excluded =>
          have marked : (graph.markDeclaration id).includesDeclaration id = true :=
            (includesDeclaration_markDeclaration id id).mpr (.inr ⟨rfl, inside⟩)
          -- One declaration less is excluded now, so the depth that is left is enough for all needs.
          have fewer := excludedDeclarations_lt (alike_markDeclaration id) (le_markDeclaration id)
            inside (by simpa using excluded) marked
          have alike : Alike graph (graph.markDeclaration id) := alike_markDeclaration id
          have size := alike.sizes.2.1
          obtain ⟨grows, all⟩ := Grows.foldl (retainWithin depth) (fun between grows need inside => by
              refine ih (grows.alike.grounded (alike.grounded grounded)) ?_ ?_
              · have le := excludedDeclarations_le grows.alike grows.le
                omega
              · rw [grows.alike.sizes.2.1]
                exact inside)
            (graph.needs id) (fun need member => size ▸ grounded.needs_inside member)
            (Grows.refl (graph.markDeclaration id))
          exact ⟨grows_of_marked grounded inside grows all, grows.le.2.1 _ marked⟩

theorem grows_retain (grounded : graph.Grounded) {id : DeclId}
    (inside : id.index < graph.symbols.declarations.size) :
    Grows graph (graph.retain id) ∧ (graph.retain id).includesDeclaration id = true :=
  grows_retainWithin _ grounded excludedDeclarations_le_size inside

theorem grows_retainAll (grounded : graph.Grounded) {ids : List DeclId}
    (inside : ∀ id ∈ ids, id.index < graph.symbols.declarations.size) :
    Grows graph (graph.retainAll ids) ∧
      ∀ id ∈ ids, (graph.retainAll ids).includesDeclaration id = true := by
  refine Grows.foldl retain (fun between grows id inside => ?_) ids inside (Grows.refl _)
  exact grows_retain (grows.alike.grounded grounded) (grows.alike.sizes.2.1 ▸ inside)

/-! ## Retention is minimal -/

/-- A supported selection has all that a declaration of it takes along. -/
theorem selected_of_needs {s : Selection} (grounded : graph.Grounded) (supported : s.Supported graph)
    {id : DeclId} (inside : id.index < graph.symbols.declarations.size)
    (selected : s.declarations id = true) :
    ∀ need ∈ graph.needs id, s.declarations need = true := by
  intro need member
  have own := supported.needs selected
  unfold needs at member
  split at member
  next statement kind =>
      obtain ⟨node, among, denoted⟩ := List.mem_filterMap.mp member
      simp only [ownNodes, kind] at among
      refine (supported.parts ?_).denoted denoted
      exact grounded.ids_subset supported (grounded.declared inside kind) (own.declared kind) node among
  next source name target kind =>
      obtain ⟨rfl⟩ := Option.mem_toList.mp member
      exact own.target kind
  next owner kind => exact own.exported kind need member
  next => exact absurd member List.not_mem_nil
  next => exact absurd member List.not_mem_nil

theorem markDeclaration_le {s : Selection} (grounded : graph.Grounded) (supported : s.Supported graph)
    (le : graph.selection ≤ s) {id : DeclId} (inside : id.index < graph.symbols.declarations.size)
    (selected : s.declarations id = true) : (graph.markDeclaration id).selection ≤ s := by
  have own := supported.needs selected
  refine ⟨fun node included => ?_, fun declaration included => ?_, fun source used => ?_⟩
  · rcases (includesNode_markDeclaration id node).mp included with earlier | ⟨among, -⟩
    · exact le.1 node earlier
    · unfold ownNodes at among
      split at among
      next statement kind =>
          exact grounded.ids_subset supported (grounded.declared inside kind) (own.declared kind)
            node among
      next => exact absurd among List.not_mem_nil
  · rcases (includesDeclaration_markDeclaration id declaration).mp included with earlier | ⟨rfl, -⟩
    · exact le.2.1 declaration earlier
    · exact selected
  · rcases (used_markDeclaration id source).mp used with earlier | ⟨⟨name, kind⟩, -⟩
    · exact le.2.2 source earlier
    · exact own.provided kind

theorem alike_foldl {visit : Graph → DeclId → Graph} (alike : ∀ graph id, Alike graph (visit graph id))
    (ids : List DeclId) (graph : Graph) : Alike graph (ids.foldl visit graph) := by
  induction ids generalizing graph with
  | nil => exact Alike.refl graph
  | cons id rest ih => exact (alike graph id).trans (ih _)

theorem alike_retainWithin (depth : Nat) (graph : Graph) (id : DeclId) :
    Alike graph (retainWithin depth graph id) := by
  induction depth generalizing graph id with
  | zero => exact Alike.refl graph
  | succ depth ih =>
      rw [retainWithin]
      split
      · exact Alike.refl graph
      · exact (alike_markDeclaration id).trans (alike_foldl ih _ _)

theorem alike_retainAll (ids : List DeclId) (graph : Graph) : Alike graph (graph.retainAll ids) :=
  alike_foldl (fun graph => alike_retainWithin _ graph) ids graph

/-- Visiting declarations of a selection one after the other stays within the selection if every
    single visit does. -/
theorem foldl_le {s : Selection} {visit : Graph → DeclId → Graph}
    (alike : ∀ graph id, Alike graph (visit graph id))
    (step : ∀ other, Alike graph other → other.selection ≤ s → ∀ id : DeclId,
      id.index < graph.symbols.declarations.size → s.declarations id = true →
      (visit other id).selection ≤ s)
    (ids : List DeclId) (inside : ∀ id ∈ ids, id.index < graph.symbols.declarations.size)
    (selected : ∀ id ∈ ids, s.declarations id = true)
    (reached : Alike graph other) (le : other.selection ≤ s) :
    (ids.foldl visit other).selection ≤ s := by
  induction ids generalizing other with
  | nil => exact le
  | cons id rest ih =>
      refine ih (fun id member => inside id (List.mem_cons_of_mem _ member))
        (fun id member => selected id (List.mem_cons_of_mem _ member))
        (reached.trans (alike other id)) ?_
      exact step other reached le id (inside id List.mem_cons_self) (selected id List.mem_cons_self)

/-- A supported selection that has the declaration has all that is retained for it. -/
theorem retainWithin_le {s : Selection} (depth : Nat) (grounded : graph.Grounded)
    (supported : s.Supported graph) (le : graph.selection ≤ s) {id : DeclId}
    (inside : id.index < graph.symbols.declarations.size) (selected : s.declarations id = true) :
    (retainWithin depth graph id).selection ≤ s := by
  induction depth generalizing graph id with
  | zero => exact le
  | succ depth ih =>
      rw [retainWithin]
      split
      · exact le
      · refine foldl_le (alike_retainWithin depth) (fun other alike below need there wanted => ?_)
          (graph.needs id) (fun need member => grounded.needs_inside member)
          (selected_of_needs grounded supported inside selected) (alike_markDeclaration id)
          (markDeclaration_le grounded supported le inside selected)
        exact ih (alike.grounded grounded) (alike.supported supported) below
          (alike.sizes.2.1 ▸ there) wanted

theorem retainAll_le {s : Selection} (grounded : graph.Grounded) (supported : s.Supported graph)
    (le : graph.selection ≤ s) {ids : List DeclId}
    (inside : ∀ id ∈ ids, id.index < graph.symbols.declarations.size)
    (selected : ∀ id ∈ ids, s.declarations id = true) : (graph.retainAll ids).selection ≤ s := by
  refine foldl_le (fun graph => alike_retainWithin _ graph) (fun other alike below id there wanted => ?_)
    ids inside selected (Alike.refl graph) le
  exact retainWithin_le _ (alike.grounded grounded) (alike.supported supported) below
    (alike.sizes.2.1 ▸ there) wanted

theorem retainAll_eq_self {ids : List DeclId}
    (included : ∀ id ∈ ids, graph.includesDeclaration id = true) : graph.retainAll ids = graph := by
  induction ids with
  | nil => rfl
  | cons id rest ih =>
      have same : graph.retain id = graph := by
        unfold retain
        cases graph.symbols.declarations.size with
        | zero => rfl
        | succ depth => rw [retainWithin, if_pos (included id List.mem_cons_self)]
      unfold retainAll at ih ⊢
      rw [List.foldl_cons, same]
      exact ih fun id member => included id (List.mem_cons_of_mem _ member)

/-! ## Nodes -/

theorem alike_retainFragment (graph : Graph) (fragment : Fragment) :
    Alike graph (graph.retainFragment fragment) :=
  (alike_markNodes _).trans (alike_retainAll _ _)

theorem grows_retainFragment (grounded : graph.Grounded) {id : NodeId}
    (inside : id.index < graph.nodes.size) :
    Grows graph (graph.retainFragment (graph.nodeAt id).fragment) ∧
      ∀ node ∈ (graph.nodeAt id).fragment.ids,
        (graph.retainFragment (graph.nodeAt id).fragment).includesNode node = true := by
  have marked : Alike graph (graph.markNodes (graph.nodeAt id).fragment.ids) := alike_markNodes _
  obtain ⟨grows, denoted⟩ := grows_retainAll (marked.grounded grounded)
    fun declaration member =>
      marked.sizes.2.1 ▸ grounded.denotations_inside member
  have own : ∀ node ∈ (graph.nodeAt id).fragment.ids,
      (graph.retainFragment (graph.nodeAt id).fragment).includesNode node = true :=
    fun node member => grows.le.1 node
      ((includesNode_markNodes _ node).mpr (.inr ⟨member, (grounded.mem_ids inside member).1⟩))
  refine ⟨⟨marked.trans grows.alike, Selection.le_trans (le_markNodes _) grows.le, ?_, ?_⟩, own⟩
  · intro node included
    rcases grows.parts included with earlier | parts
    · refine ((includesNode_markNodes _ node).mp earlier).imp_right fun among => ⟨?_, ?_⟩
      · intro e child
        exact own e.id ((grounded.mem_ids inside among.1).2 e child)
      · intro declaration denotes
        exact denoted declaration (List.mem_filterMap.mpr ⟨node, among.1, denotes⟩)
    · exact .inr (marked.symm.hasParts parts)
  · intro declaration included
    rcases grows.needs included with earlier | needs
    · exact .inl (by simpa using earlier)
    · exact .inr (marked.symm.hasNeeds needs)

theorem retainFragment_le {s : Selection} (grounded : graph.Grounded)
    (supported : s.Supported graph) (le : graph.selection ≤ s) {id : NodeId}
    (inside : id.index < graph.nodes.size) (selected : s.nodes id = true) :
    (graph.retainFragment (graph.nodeAt id).fragment).selection ≤ s := by
  have below := grounded.ids_subset supported inside selected
  have marked : Alike graph (graph.markNodes (graph.nodeAt id).fragment.ids) := alike_markNodes _
  refine retainAll_le (marked.grounded grounded) (marked.supported supported) ?_ ?_ ?_
  · refine ⟨fun node included => ?_, fun declaration included => ?_, fun source used => ?_⟩
    · exact ((includesNode_markNodes _ node).mp included).elim (le.1 node) fun among =>
        below node among.1
    · exact le.2.1 declaration (by simpa [selection] using included)
    · exact le.2.2 source (by simpa [selection] using used)
  · exact fun declaration member => marked.sizes.2.1 ▸ grounded.denotations_inside member
  · intro declaration member
    obtain ⟨node, among, denoted⟩ := List.mem_filterMap.mp member
    exact (supported.parts (below node among)).denoted denoted

theorem retainFragment_eq_self (grounded : graph.Grounded)
    (supported : graph.selection.Supported graph) {id : NodeId} (inside : id.index < graph.nodes.size)
    (included : graph.includesNode id = true) :
    graph.retainFragment (graph.nodeAt id).fragment = graph := by
  have below := grounded.ids_subset supported inside included
  rw [retainFragment, markNodes_eq_self below]
  apply retainAll_eq_self
  intro declaration member
  obtain ⟨node, among, denoted⟩ := List.mem_filterMap.mp member
  exact (supported.parts (below node among)).denoted denoted

end Graph

end Bundler
