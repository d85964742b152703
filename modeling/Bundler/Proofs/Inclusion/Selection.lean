import Mathlib.Order.Notation
import Bundler.Proofs.Symbols.Access
import Bundler.Graph.Inclusion

/-! # Selections

A selection says which nodes, declarations and external modules belong to a bundle.  Every graph
carries one in its flags, and `Graph.select` gives a graph another one and changes nothing else, so
two graphs are alike when they differ in no more than their selections.
-/

namespace Bundler

/-- A choice of what is part of the bundle. -/
@[ext]
structure Selection where
  nodes : NodeId → Bool
  declarations : DeclId → Bool
  externals : ExternalId → Bool

namespace Selection

instance : LE Selection where
  le s t := (∀ id, s.nodes id = true → t.nodes id = true) ∧
    (∀ id, s.declarations id = true → t.declarations id = true) ∧
    ∀ id, s.externals id = true → t.externals id = true

/-- The empty selection. -/
instance : Bot Selection := ⟨⟨fun _ => false, fun _ => false, fun _ => false⟩⟩

theorem bot_le (s : Selection) : ⊥ ≤ s := ⟨by simp, by simp, by simp⟩

theorem le_refl (s : Selection) : s ≤ s := ⟨fun _ => id, fun _ => id, fun _ => id⟩

theorem le_trans {s t u : Selection} (st : s ≤ t) (tu : t ≤ u) : s ≤ u :=
  ⟨fun id h => tu.1 id (st.1 id h), fun id h => tu.2.1 id (st.2.1 id h),
    fun id h => tu.2.2 id (st.2.2 id h)⟩

theorem le_antisymm {s t : Selection} (st : s ≤ t) (ts : t ≤ s) : s = t := by
  ext id
  · exact Bool.eq_iff_iff.mpr ⟨st.1 id, ts.1 id⟩
  · exact Bool.eq_iff_iff.mpr ⟨st.2.1 id, ts.2.1 id⟩
  · exact Bool.eq_iff_iff.mpr ⟨st.2.2 id, ts.2.2 id⟩

end Selection

namespace Graph

variable {graph other : Graph}

/-- The selection that the flags of a graph hold. -/
def selection (graph : Graph) : Selection where
  nodes := graph.includesNode
  declarations := graph.includesDeclaration
  externals id := (graph.symbols.externalAt id).used

/-- The same graph with another selection. -/
def select (graph : Graph) (s : Selection) : Graph :=
  { graph with
    marks := graph.marks.mapIdx fun i mark => { mark with included := s.nodes ⟨i⟩ }
    symbols := { graph.symbols with
      declarations := graph.symbols.declarations.mapIdx fun i declaration =>
        { declaration with included := s.declarations ⟨i⟩ }
      externals := graph.symbols.externals.mapIdx fun i external =>
        { external with used := s.externals ⟨i⟩ } } }

/-! ## Reading a graph with another selection -/

@[simp]
theorem nodeAt_select (s : Selection) (id : NodeId) : (graph.select s).nodeAt id = graph.nodeAt id :=
  rfl

@[simp]
theorem moduleAt_select (s : Selection) (id : ModuleId) :
    (graph.select s).symbols.moduleAt id = graph.symbols.moduleAt id := rfl

@[simp]
theorem statements_select (s : Selection) (id : ModuleId) :
    (graph.select s).statements id = graph.statements id := rfl

@[simp]
theorem exportedDeclarations_select (s : Selection) (id : ModuleId) :
    (graph.select s).exportedDeclarations id = graph.exportedDeclarations id := rfl

@[simp]
theorem order_select (s : Selection) : (graph.select s).order = graph.order := rfl

@[simp]
theorem entry_select (s : Selection) : (graph.select s).entry = graph.entry := rfl

theorem markAt_select (s : Selection) (id : NodeId) :
    (graph.select s).markAt id =
      { graph.markAt id with included := decide (id.index < graph.marks.size) && s.nodes id } := by
  simp only [markAt, select, Array.getD_eq_getD_getElem?, Array.getElem?_mapIdx]
  by_cases inside : id.index < graph.marks.size
  · simp [inside]
  · simp only [inside, Array.getElem?_eq_none (Nat.not_lt.mp inside), decide_false]
    rfl

theorem declarationAt_select (s : Selection) (id : DeclId) :
    (graph.select s).symbols.declarationAt id =
      { graph.symbols.declarationAt id with
        included := decide (id.index < graph.symbols.declarations.size) && s.declarations id } := by
  simp only [Symbols.declarationAt, select, Array.getD_eq_getD_getElem?, Array.getElem?_mapIdx]
  by_cases inside : id.index < graph.symbols.declarations.size
  · simp [inside]
  · simp only [inside, Array.getElem?_eq_none (Nat.not_lt.mp inside), decide_false]
    rfl

theorem externalAt_select (s : Selection) (id : ExternalId) :
    (graph.select s).symbols.externalAt id =
      { graph.symbols.externalAt id with
        used := decide (id.index < graph.symbols.externals.size) && s.externals id } := by
  simp only [Symbols.externalAt, select, Array.getD_eq_getD_getElem?, Array.getElem?_mapIdx]
  by_cases inside : id.index < graph.symbols.externals.size
  · simp [inside]
  · simp only [inside, Array.getElem?_eq_none (Nat.not_lt.mp inside), decide_false]
    rfl

@[simp]
theorem resolutionAt_select (s : Selection) (id : NodeId) :
    (graph.select s).resolutionAt id = graph.resolutionAt id := by
  simp [resolutionAt, markAt_select]

@[simp]
theorem denotation?_select (s : Selection) (id : NodeId) :
    (graph.select s).denotation? id = graph.denotation? id := by
  simp [denotation?]

@[simp]
theorem kind_select (s : Selection) (id : DeclId) :
    ((graph.select s).symbols.declarationAt id).kind = (graph.symbols.declarationAt id).kind := by
  simp [declarationAt_select]

theorem includesDeclaration_select (s : Selection) (id : DeclId) :
    (graph.select s).includesDeclaration id =
      (decide (id.index < graph.symbols.declarations.size) && s.declarations id) := by
  simp [includesDeclaration, declarationAt_select]

@[simp]
theorem select_select (s t : Selection) : (graph.select s).select t = graph.select t := by
  simp [select, Array.mapIdx_mapIdx, Function.comp_def]

@[simp]
theorem select_selection : graph.select graph.selection = graph := by
  have marks : graph.marks.mapIdx (fun i mark =>
      { mark with included := graph.includesNode ⟨i⟩ }) = graph.marks := by
    apply Array.ext
    · simp
    · intro i inside _
      have inside : i < graph.marks.size := by simpa using inside
      simp [includesNode, markAt, Array.getD, inside]
  have declarations : graph.symbols.declarations.mapIdx (fun i declaration =>
      { declaration with included := graph.includesDeclaration ⟨i⟩ }) =
        graph.symbols.declarations := by
    apply Array.ext
    · simp
    · intro i inside _
      have inside : i < graph.symbols.declarations.size := by simpa using inside
      simp [includesDeclaration, Symbols.declarationAt, Array.getD, inside]
  have externals : graph.symbols.externals.mapIdx (fun i external =>
      { external with used := (graph.symbols.externalAt ⟨i⟩).used }) = graph.symbols.externals := by
    apply Array.ext
    · simp
    · intro i inside _
      have inside : i < graph.symbols.externals.size := by simpa using inside
      simp [Symbols.externalAt, Array.getD, inside]
  simp only [select, selection, marks, declarations, externals]

/-! ## Graphs that are alike -/

/-- The graphs differ in no more than their selections. -/
def Alike (graph other : Graph) : Prop := ∃ s, other = graph.select s

namespace Alike

theorem refl (graph : Graph) : Alike graph graph := ⟨graph.selection, select_selection.symm⟩

theorem trans {last : Graph} (first : Alike graph other) (second : Alike other last) :
    Alike graph last := by
  obtain ⟨s, rfl⟩ := first
  obtain ⟨t, rfl⟩ := second
  exact ⟨t, select_select s t⟩

theorem symm (alike : Alike graph other) : Alike other graph := by
  obtain ⟨s, rfl⟩ := alike
  exact ⟨graph.selection, by rw [select_select, select_selection]⟩

theorem select_eq (alike : Alike graph other) : graph.select other.selection = other := by
  obtain ⟨s, rfl⟩ := alike
  rw [← select_select s, select_selection]

theorem eq_of_selection (alike : Alike graph other) (same : other.selection = graph.selection) :
    other = graph := by
  rw [← alike.select_eq, same, select_selection]

end Alike

end Graph

end Bundler
