import Bundler.Proofs.Inclusion.Retention

/-! # Completion

What is included in a graph may lack what it takes along, as when names are found out for nodes that are
included already.  To include more does not repair this, since a declaration that is included is left
alone.  So what including something adds is the least selection that has it and is complete apart from
what the graph includes already.  It has the steps on the way to it in whatever order.
-/

namespace Bundler

/-- What can be included. -/
inductive Includable where
  | node (id : NodeId)
  | declaration (id : DeclId)

namespace Graph

variable {graph other : Graph}

/-- What including something goes on with. -/
def beyond (graph : Graph) : Includable → List Includable
  | .node id =>
    (graph.denotation? id).toList.map .declaration ++ (graph.nodeAt id).fragment.children.map (.node ·.id)
  | .declaration id =>
    match (graph.symbols.declarationAt id).kind with
    | .declared statement => [.node statement]
    | .imported _ _ target => target.toList.map .declaration
    | .namespaceOf owner => (graph.exportedDeclarations owner).map .declaration
    | .provided _ _ | .free => []

/-- The id leads to an entry. -/
def Holds (graph : Graph) : Includable → Prop
  | .node id => id.index < graph.nodes.size
  | .declaration id => id.index < graph.symbols.declarations.size

end Graph

/-- The selection has what is asked for: a node with all nodes below it and all that these denote, or a
    declaration. -/
def Selection.Takes (s : Selection) (graph : Graph) : Includable → Prop
  | .node id => ∀ below ∈ (graph.nodeAt id).fragment.ids, s.nodes below = true ∧
      ∀ declaration, graph.denotation? below = some declaration → s.declarations declaration = true
  | .declaration id => s.declarations id = true

/-- The selection has what including a declaration goes on with, and the external module that provides the
    declaration. -/
structure Selection.Covers (s : Selection) (graph : Graph) (id : DeclId) : Prop where
  beyond : ∀ next ∈ graph.beyond (.declaration id), s.Takes graph next
  provided : ∀ {source name}, (graph.symbols.declarationAt id).kind = .provided source name →
    s.externals source = true

/-- The selection goes beyond that of the graph, and covers the declarations that it has on top. -/
structure Selection.Completes (s : Selection) (graph : Graph) : Prop where
  le : graph.selection ≤ s
  covered : ∀ {id}, s.declarations id = true → graph.includesDeclaration id = true ∨ s.Covers graph id

namespace Graph

variable {graph other : Graph} {s t : Selection}

/-! ## What is asked for -/

theorem takes_mono (le : s ≤ t) {item : Includable} (takes : s.Takes graph item) : t.Takes graph item := by
  cases item with
  | node id =>
      intro below member
      obtain ⟨there, denoted⟩ := takes below member
      exact ⟨le.1 below there, fun declaration denotes => le.2.1 declaration (denoted declaration denotes)⟩
  | declaration id => exact le.2.1 id takes

theorem Alike.beyond (alike : Alike graph other) (item : Includable) :
    other.beyond item = graph.beyond item := by
  cases item with
  | node id => simp only [Graph.beyond, alike.agrees.denotation?, alike.agrees.nodeAt]
  | declaration id =>
      simp only [Graph.beyond, alike.agrees.kind, alike.agrees.exportedDeclarations]

theorem Alike.holds (alike : Alike graph other) {item : Includable} (holds : graph.Holds item) :
    other.Holds item := by
  cases item with
  | node id =>
      rw [Holds, alike.agrees.nodes]
      exact holds
  | declaration id =>
      rw [Holds, alike.agrees.declarations]
      exact holds

theorem Alike.takes (alike : Alike graph other) {item : Includable} :
    s.Takes other item ↔ s.Takes graph item := by
  cases item with
  | node id => simp only [Selection.Takes, alike.agrees.nodeAt, alike.agrees.denotation?]
  | declaration id => rfl

theorem Alike.covers (alike : Alike graph other) {id : DeclId} (covers : s.Covers other id) :
    s.Covers graph id where
  beyond next member := alike.takes.mp (covers.beyond next (alike.beyond _ ▸ member))
  provided kind := covers.provided ((alike.agrees.kind id).trans kind)

theorem Covers.mono (le : s ≤ t) {id : DeclId} (covers : s.Covers graph id) : t.Covers graph id where
  beyond next member := takes_mono le (covers.beyond next member)
  provided kind := le.2.2 _ (covers.provided kind)

namespace Grounded

variable (grounded : graph.Grounded)

include grounded

theorem child_lt {id : NodeId} (inside : id.index < graph.nodes.size) {e : Expr Label}
    (child : e ∈ (graph.nodeAt id).fragment.children) : e.id.index < id.index := by
  have found : graph.nodes[id.index]? = some graph.nodes[id.index] := Array.getElem?_eq_getElem inside
  rw [nodeAt_of_getElem? found] at child
  exact (grounded.arena.child found e child).1

theorem holds_beyond {item : Includable} (holds : graph.Holds item) :
    ∀ next ∈ graph.beyond item, graph.Holds next := by
  intro next member
  cases item with
  | node id =>
      rcases List.mem_append.mp member with denoted | below
      · obtain ⟨declaration, denotes, rfl⟩ := List.mem_map.mp denoted
        exact grounded.denoted (Option.mem_toList.mp denotes)
      · obtain ⟨e, child, rfl⟩ := List.mem_map.mp below
        exact Nat.lt_trans (grounded.child_lt holds child) holds
  | declaration id =>
      simp only [beyond] at member
      split at member
      next statement kind =>
          cases List.mem_singleton.mp member
          exact grounded.declared holds kind
      next source name target kind =>
          obtain ⟨declaration, among, rfl⟩ := List.mem_map.mp member
          obtain ⟨rfl⟩ := Option.mem_toList.mp among
          exact grounded.target kind
      next owner kind =>
          obtain ⟨declaration, among, rfl⟩ := List.mem_map.mp member
          exact grounded.exported among
      next => exact absurd member List.not_mem_nil
      next => exact absurd member List.not_mem_nil

/-- The ids of a node's fragment are its own id and those of its children's fragments. -/
theorem mem_ids_iff {id : NodeId} (inside : id.index < graph.nodes.size) {below : NodeId} :
    below ∈ (graph.nodeAt id).fragment.ids ↔
      below = id ∨ ∃ e ∈ (graph.nodeAt id).fragment.children,
        below ∈ (graph.nodeAt e.id).fragment.ids := by
  have found : graph.nodes[id.index]? = some graph.nodes[id.index] := Array.getElem?_eq_getElem inside
  rw [nodeAt_of_getElem? found, grounded.arena.mem_ids found]
  refine or_congr_right ?_
  constructor
  · rintro ⟨p, part, rfl⟩
    obtain ⟨e, child, among⟩ := Expr.mem_partsAll.mp part
    refine ⟨e, child, ?_⟩
    rw [nodeAt_of_getElem? (grounded.arena.child found e child).2]
    exact List.mem_map_of_mem among
  · rintro ⟨e, child, among⟩
    rw [nodeAt_of_getElem? (grounded.arena.child found e child).2] at among
    obtain ⟨p, part, rfl⟩ := List.mem_map.mp among
    exact ⟨p, Expr.mem_partsAll.mpr ⟨e, child, part⟩, rfl⟩

/-- A node is taken with all below it when it is taken itself with what it goes on with. -/
theorem takes_node {id : NodeId} (inside : id.index < graph.nodes.size) :
    s.Takes graph (.node id) ↔ s.nodes id = true ∧ ∀ next ∈ graph.beyond (.node id), s.Takes graph next := by
  constructor
  · intro takes
    have here := takes id (grounded.mem_ids_self inside)
    refine ⟨here.1, fun next member => ?_⟩
    rcases List.mem_append.mp member with denoted | below
    · obtain ⟨declaration, denotes, rfl⟩ := List.mem_map.mp denoted
      exact here.2 declaration (Option.mem_toList.mp denotes)
    · obtain ⟨e, child, rfl⟩ := List.mem_map.mp below
      exact fun below among => takes below ((grounded.mem_ids_iff inside).mpr (.inr ⟨e, child, among⟩))
  · rintro ⟨here, all⟩ below member
    rcases (grounded.mem_ids_iff inside).mp member with rfl | ⟨e, child, among⟩
    · refine ⟨here, fun declaration denotes => ?_⟩
      exact all (.declaration declaration)
        (List.mem_append_left _ (List.mem_map_of_mem (Option.mem_toList.mpr denotes)))
    · exact all (.node e.id) (List.mem_append_right _ (List.mem_map.mpr ⟨e, child, rfl⟩)) below among

end Grounded

/-! ## The least completion -/

/-- The other graph is the same with the least selection that completes the graph and takes what is asked
    for. -/
structure Closes (graph : Graph) (items : List Includable) (other : Graph) : Prop where
  alike : Alike graph other
  completes : other.selection.Completes graph
  takes : ∀ item ∈ items, other.selection.Takes graph item
  least : ∀ {s : Selection}, s.Completes graph → (∀ item ∈ items, s.Takes graph item) →
    other.selection ≤ s

namespace Closes

variable {items rest : List Includable} {item : Includable} {id : DeclId}

theorem unique {another : Graph} (closes : Closes graph items other)
    (also : Closes graph items another) : another = other := by
  refine (closes.alike.symm.trans also.alike).eq_of_selection (Selection.le_antisymm ?_ ?_)
  · exact also.least closes.completes closes.takes
  · exact closes.least also.completes also.takes

theorem completes_self (graph : Graph) : graph.selection.Completes graph :=
  ⟨Selection.le_refl _, .inl⟩

/-- Nothing changes exactly if what is asked for is there. -/
theorem eq_self_iff (closes : Closes graph items other) :
    other = graph ↔ ∀ item ∈ items, graph.selection.Takes graph item := by
  constructor
  · rintro rfl
    exact closes.takes
  · intro takes
    refine closes.alike.eq_of_selection (Selection.le_antisymm ?_ closes.completes.le)
    exact closes.least (completes_self graph) takes

theorem self (takes : ∀ item ∈ items, graph.selection.Takes graph item) : Closes graph items graph where
  alike := Alike.refl graph
  completes := completes_self graph
  takes := takes
  least completes _ := completes.le

theorem nil (graph : Graph) : Closes graph [] graph := self fun _ member => absurd member List.not_mem_nil

theorem append {last : Graph} (first : Closes graph items other) (later : Closes other rest last) :
    Closes graph (items ++ rest) last where
  alike := first.alike.trans later.alike
  completes := by
    refine ⟨Selection.le_trans first.completes.le later.completes.le, fun included => ?_⟩
    rcases later.completes.covered included with before | covers
    · exact (first.completes.covered before).imp_right (Covers.mono later.completes.le)
    · exact .inr (first.alike.covers covers)
  takes item member := by
    rcases List.mem_append.mp member with before | among
    · exact takes_mono later.completes.le (first.takes item before)
    · exact first.alike.takes.mp (later.takes item among)
  least {s} completes takes := by
    have middle := first.least completes fun item member => takes item (List.mem_append_left _ member)
    refine later.least ⟨middle, fun included => ?_⟩ fun item member => ?_
    · refine (completes.covered included).imp (first.completes.le.2.1 _) fun covers => ?_
      exact first.alike.symm.covers covers
    · exact first.alike.takes.mpr (takes item (List.mem_append_right _ member))

theorem cons {last : Graph} (first : Closes graph [item] other) (later : Closes other rest last) :
    Closes graph (item :: rest) last := first.append later

/-- Visiting declarations one after the other closes them if every single visit does. -/
theorem foldl {visit : Graph → DeclId → Graph} {ids : List DeclId}
    (step : ∀ between, Alike graph between → graph.selection ≤ between.selection →
      ∀ id ∈ ids, Closes between [.declaration id] (visit between id)) :
    Closes graph (ids.map .declaration) (ids.foldl visit graph) := by
  induction ids generalizing graph with
  | nil => exact nil graph
  | cons id rest ih =>
      have first := step graph (Alike.refl graph) (Selection.le_refl _) id List.mem_cons_self
      refine first.cons (ih fun between alike le other member => ?_)
      exact step between (first.alike.trans alike) (Selection.le_trans first.completes.le le) other
        (List.mem_cons_of_mem _ member)

/-- To include something more and close what it goes on with is to close what was asked for, if a complete
    selection that has the one has the other, and the other way round. -/
theorem enter {middle : Graph} (alike : Alike graph middle) (le : graph.selection ≤ middle.selection)
    (closes : Closes middle rest other)
    (onward : ∀ {s : Selection}, s.Completes graph → s.Takes graph item →
      middle.selection ≤ s ∧ ∀ next ∈ rest, s.Takes graph next)
    (back : ∀ {s : Selection}, middle.selection ≤ s → (∀ next ∈ rest, s.Takes graph next) →
      s.Takes graph item ∧ ∀ id, middle.includesDeclaration id = true →
        graph.includesDeclaration id = true ∨ s.Covers graph id) : Closes graph [item] other := by
  obtain ⟨takes, covered⟩ := back closes.completes.le fun next member =>
    alike.takes.mp (closes.takes next member)
  constructor
  · exact alike.trans closes.alike
  · refine ⟨Selection.le_trans le closes.completes.le, fun {id} included => ?_⟩
    rcases closes.completes.covered included with before | covers
    · exact covered id before
    · exact .inr (alike.covers covers)
  · exact List.forall_mem_singleton.mpr takes
  · intro s completes asked
    obtain ⟨above, further⟩ := onward completes (asked _ List.mem_cons_self)
    apply closes.least
    · exact ⟨above, fun included => (completes.covered included).imp (le.2.1 _) alike.symm.covers⟩
    · exact fun next member => alike.takes.mpr (further next member)

/-- A declaration that is not included yet is closed by including it and closing what comes beyond it. -/
theorem declaration (grounded : graph.Grounded) (inside : id.index < graph.symbols.declarations.size)
    (excluded : graph.includesDeclaration id = false)
    (closes : Closes (graph.includeDeclaration id) (graph.beyond (.declaration id)) other) :
    Closes graph [.declaration id] other := by
  have marked := @includesDeclaration_includeDeclaration graph id
  have used := @used_includeDeclaration graph id
  apply enter (alike_includeDeclaration id) (le_includeDeclaration id) closes
  · intro s completes selected
    have covers : s.Covers graph id := (completes.covered selected).resolve_left (by simp [excluded])
    refine ⟨⟨completes.le.1, fun declaration included => ?_, fun source there => ?_⟩, covers.beyond⟩
    · rcases (marked declaration).mp included with before | ⟨rfl, -⟩
      · exact completes.le.2.1 declaration before
      · exact selected
    · rcases (used source).mp there with before | ⟨⟨name, kind⟩, -⟩
      · exact completes.le.2.2 source before
      · exact covers.provided kind
  · intro s above further
    refine ⟨above.2.1 id ((marked id).mpr (.inr ⟨rfl, inside⟩)), fun declaration included => ?_⟩
    rcases (marked declaration).mp included with before | ⟨rfl, -⟩
    · exact .inl before
    · refine .inr ⟨further, fun {source _} kind => ?_⟩
      exact above.2.2 source ((used source).mpr (.inr ⟨⟨_, kind⟩, grounded.provided kind⟩))

/-- What asks for some nodes and for more is closed by including these nodes and closing the rest. -/
theorem nodes (grounded : graph.Grounded) {ids : List NodeId}
    (inside : ∀ id ∈ ids, id.index < graph.nodes.size)
    (same : ∀ s : Selection, s.Takes graph item ↔
      (∀ id ∈ ids, s.nodes id = true) ∧ ∀ next ∈ rest, s.Takes graph next)
    (closes : Closes (graph.markNodes ids) rest other) : Closes graph [item] other := by
  have marked := @includesNode_markNodes graph ids
  apply enter (alike_markNodes ids) (le_markNodes ids) closes
  · intro s completes takes
    obtain ⟨selected, further⟩ := (same s).mp takes
    refine ⟨⟨fun node included => ?_, fun declaration included => ?_, fun source there => ?_⟩, further⟩
    · exact ((marked node).mp included).elim (completes.le.1 node) fun among => selected node among.1
    · exact completes.le.2.1 declaration (by simpa [selection] using included)
    · exact completes.le.2.2 source (by simpa [selection] using there)
  · intro s above further
    refine ⟨(same s).mpr ⟨fun id member => ?_, further⟩, fun declaration included => ?_⟩
    · exact above.1 id ((marked id).mpr (.inr ⟨member, grounded.marks ▸ inside id member⟩))
    · exact .inl (by simpa using included)

end Closes

/-! ## Retention closes -/

section Retention

variable (grounded : graph.Grounded) {id : NodeId} {declaration : DeclId} {ids : List DeclId}

include grounded

theorem closes_node (inside : id.index < graph.nodes.size)
    (closes : Closes (graph.includeNode id) (graph.beyond (.node id)) other) :
    Closes graph [.node id] other := by
  refine Closes.nodes grounded (fun other (member : other ∈ [id]) => ?_) (fun s => ?_) closes
  · exact List.mem_singleton.mp member ▸ inside
  · rw [grounded.takes_node inside, List.forall_mem_singleton]

/-- A node is closed by including all nodes below it and closing what these denote. -/
theorem closes_fragment (inside : id.index < graph.nodes.size)
    (closes : Closes (graph.markNodes (graph.nodeAt id).fragment.ids)
      ((graph.denotations (graph.nodeAt id).fragment.ids).map .declaration) other) :
    Closes graph [.node id] other := by
  refine Closes.nodes grounded (fun below member => ?_) (fun s => ?_) closes
  · exact grounded.marks ▸ (grounded.mem_ids inside member).1
  · constructor
    · intro takes
      refine ⟨fun below member => (takes below member).1, fun next member => ?_⟩
      obtain ⟨declaration, among, rfl⟩ := List.mem_map.mp member
      obtain ⟨below, member, denoted⟩ := List.mem_filterMap.mp among
      exact (takes below member).2 declaration denoted
    · rintro ⟨selected, further⟩ below member
      refine ⟨selected below member, fun declaration denoted => ?_⟩
      exact further _ (List.mem_map_of_mem (List.mem_filterMap.mpr ⟨below, member, denoted⟩))

/-- To mark a declaration with its own nodes and then close its needs is to include it and close what comes
    beyond it. -/
theorem closes_needs (inside : declaration.index < graph.symbols.declarations.size)
    (closes : Closes (graph.markDeclaration declaration) ((graph.needs declaration).map .declaration) other) :
    Closes (graph.includeDeclaration declaration) (graph.beyond (.declaration declaration)) other := by
  have alike : Alike graph (graph.includeDeclaration declaration) := alike_includeDeclaration declaration
  have grounded' := alike.grounded grounded
  rw [markDeclaration_eq] at closes
  cases kind : (graph.symbols.declarationAt declaration).kind with
  | declared statement =>
      simp only [needs, ownNodes, beyond, kind] at closes ⊢
      refine closes_fragment grounded' (grounded.declared inside kind) ?_
      have denoted : (graph.includeDeclaration declaration).denotation? = graph.denotation? :=
        funext alike.agrees.denotation?
      rwa [denotations, denoted]
  | imported | namespaceOf | provided | free =>
      simp only [needs, ownNodes, beyond, kind] at closes ⊢
      exact closes

/-- With enough depth, retaining a declaration closes it. -/
theorem closes_retainWithin (depth : Nat) (enough : graph.excludedDeclarations ≤ depth)
    (inside : declaration.index < graph.symbols.declarations.size) :
    Closes graph [.declaration declaration] (retainWithin depth graph declaration) := by
  induction depth generalizing graph declaration with
  | zero =>
      refine Closes.self (List.forall_mem_singleton.mpr ?_)
      exact includesDeclaration_of_none_excluded (Nat.le_zero.mp enough) inside
  | succ depth ih =>
      rw [retainWithin]
      split
      next included => exact Closes.self (List.forall_mem_singleton.mpr included)
      next excluded =>
          have excluded : graph.includesDeclaration declaration = false := by simpa using excluded
          refine Closes.declaration grounded inside excluded (closes_needs grounded inside ?_)
          have alike : Alike graph (graph.markDeclaration declaration) := alike_markDeclaration declaration
          have fewer := excludedDeclarations_lt alike (le_markDeclaration declaration) inside excluded
            ((includesDeclaration_markDeclaration declaration declaration).mpr (.inr ⟨rfl, inside⟩))
          refine Closes.foldl fun between reached le need member => ?_
          have still := alike.trans reached
          have less := excludedDeclarations_le reached le
          exact ih (still.grounded grounded) (by omega)
            (still.sizes.2.1 ▸ grounded.needs_inside member)

theorem closes_retainAll (inside : ∀ id ∈ ids, id.index < graph.symbols.declarations.size) :
    Closes graph (ids.map .declaration) (graph.retainAll ids) :=
  Closes.foldl fun _ alike _ id member =>
    closes_retainWithin (alike.grounded grounded) _ excludedDeclarations_le_size
      (alike.sizes.2.1 ▸ inside id member)

theorem closes_retainFragment (inside : id.index < graph.nodes.size) :
    Closes graph [.node id] (graph.retainFragment (graph.nodeAt id).fragment) := by
  have alike : Alike graph (graph.markNodes (graph.nodeAt id).fragment.ids) := alike_markNodes _
  refine closes_fragment grounded inside (closes_retainAll (alike.grounded grounded) ?_)
  exact fun declaration member => alike.sizes.2.1 ▸ grounded.denotations_inside member

end Retention

end Graph

end Bundler
