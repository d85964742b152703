import Mathlib.Data.List.Forall2
import Bundler.Proofs.Inclusion.Closure

/-! # What is left to include

Including something makes the number of excluded nodes and declarations smaller. These numbers bound
how deep and how often the marking can go.
-/

namespace Bundler

section Counting

variable {α β : Type} {p : α → Bool} {q : β → Bool} {before : List α} {after : List β}

theorem countP_le_of_forall₂ (falls : List.Forall₂ (fun a b => q b = true → p a = true) before after) :
    after.countP q ≤ before.countP p := by
  induction falls with
  | nil => exact Nat.le_refl 0
  | @cons a b before after fall _ ih =>
      simp only [List.countP_cons]
      by_cases holds : q b = true
      · simp only [holds, fall holds, if_true]
        omega
      · simp only [holds, Bool.false_eq_true, if_false]
        omega

theorem countP_lt_of_forall₂ (falls : List.Forall₂ (fun a b => q b = true → p a = true) before after)
    {i : Nat} {a : α} {b : β} (first : before[i]? = some a) (second : after[i]? = some b)
    (left : p a = true) (right : q b = false) : after.countP q < before.countP p := by
  induction falls generalizing i with
  | nil => simp at first
  | @cons a' b' before after fall rest ih =>
      simp only [List.countP_cons]
      cases i with
      | zero =>
          simp only [List.getElem?_cons_zero, Option.some.injEq] at first second
          subst first second
          have le := countP_le_of_forall₂ rest
          simp only [left, right, if_true, Bool.false_eq_true, if_false]
          omega
      | succ i =>
          have lt := ih first second
          by_cases holds : q b' = true
          · simp only [holds, fall holds, if_true]
            omega
          · simp only [holds, Bool.false_eq_true, if_false]
            omega

end Counting

namespace Graph

variable {graph other : Graph}

/-- The number of declarations that are not part of the bundle. -/
def excludedDeclarations (graph : Graph) : Nat :=
  graph.symbols.declarations.toList.countP fun declaration => !declaration.included

theorem excludedDeclarations_le_size :
    graph.excludedDeclarations ≤ graph.symbols.declarations.size := by
  have le := List.countP_le_length (l := graph.symbols.declarations.toList)
    (p := fun declaration => !declaration.included)
  rwa [Array.length_toList] at le

theorem forall₂_declarations (alike : Alike graph other) (le : graph.selection ≤ other.selection) :
    List.Forall₂ (fun a b : Declaration => (!b.included) = true → (!a.included) = true)
      graph.symbols.declarations.toList other.symbols.declarations.toList := by
  rw [List.forall₂_iff_get]
  refine ⟨by simpa using alike.sizes.2.1.symm, fun i inside inside' => ?_⟩
  have more := le.2.1 ⟨i⟩
  simp only [Array.length_toList] at inside inside'
  simp only [selection, includesDeclaration, Symbols.declarationAt, Array.getD, inside, inside',
    dite_true] at more
  simp only [List.get_eq_getElem, Array.getElem_toList, Bool.not_eq_true', Bool.eq_false_iff]
  exact mt more

theorem forall₂_marks (alike : Alike graph other) (le : graph.selection ≤ other.selection) :
    List.Forall₂ (fun a b : Mark => (!b.included) = true → (!a.included) = true)
      graph.marks.toList other.marks.toList := by
  rw [List.forall₂_iff_get]
  refine ⟨by simpa using alike.sizes.1.symm, fun i inside inside' => ?_⟩
  have more := le.1 ⟨i⟩
  simp only [Array.length_toList] at inside inside'
  simp only [selection, includesNode, markAt, Array.getD, inside, inside', dite_true] at more
  simp only [List.get_eq_getElem, Array.getElem_toList, Bool.not_eq_true', Bool.eq_false_iff]
  exact mt more

theorem excludedDeclarations_le (alike : Alike graph other)
    (le : graph.selection ≤ other.selection) :
    other.excludedDeclarations ≤ graph.excludedDeclarations :=
  countP_le_of_forall₂ (forall₂_declarations alike le)

theorem excludedDeclarations_lt (alike : Alike graph other)
    (le : graph.selection ≤ other.selection) {id : DeclId}
    (inside : id.index < graph.symbols.declarations.size)
    (excluded : graph.includesDeclaration id = false) (included : other.includesDeclaration id = true) :
    other.excludedDeclarations < graph.excludedDeclarations := by
  have inside' : id.index < other.symbols.declarations.size := alike.sizes.2.1 ▸ inside
  simp only [includesDeclaration, Symbols.declarationAt, Array.getD, inside, inside', dite_true] at *
  refine countP_lt_of_forall₂ (forall₂_declarations alike le) (i := id.index)
    (a := graph.symbols.declarations[id.index]) (b := other.symbols.declarations[id.index])
    ?_ ?_ ?_ ?_
  · simp
  · simp
  · simpa using excluded
  · simpa using included

theorem excluded_le (alike : Alike graph other) (le : graph.selection ≤ other.selection) :
    other.excluded ≤ graph.excluded :=
  Nat.add_le_add (countP_le_of_forall₂ (forall₂_marks alike le)) (excludedDeclarations_le alike le)

theorem excluded_lt_of_declaration (alike : Alike graph other) (le : graph.selection ≤ other.selection)
    {id : DeclId} (inside : id.index < graph.symbols.declarations.size)
    (excluded : graph.includesDeclaration id = false) (included : other.includesDeclaration id = true) :
    other.excluded < graph.excluded :=
  Nat.add_lt_add_of_le_of_lt (countP_le_of_forall₂ (forall₂_marks alike le))
    (excludedDeclarations_lt alike le inside excluded included)

theorem excluded_lt_of_node (alike : Alike graph other) (le : graph.selection ≤ other.selection)
    {id : NodeId} (inside : id.index < graph.marks.size) (excluded : graph.includesNode id = false)
    (included : other.includesNode id = true) : other.excluded < graph.excluded := by
  refine Nat.add_lt_add_of_lt_of_le ?_ (excludedDeclarations_le alike le)
  have inside' : id.index < other.marks.size := alike.sizes.1 ▸ inside
  simp only [includesNode, markAt, Array.getD, inside, inside', dite_true] at excluded included
  refine countP_lt_of_forall₂ (forall₂_marks alike le) (i := id.index)
    (a := graph.marks[id.index]) (b := other.marks[id.index]) ?_ ?_ ?_ ?_
  · simp
  · simp
  · simpa using excluded
  · simpa using included

/-- When the count does not fall, no declaration has been added. -/
theorem includesDeclaration_of_excluded_le (alike : Alike graph other)
    (le : graph.selection ≤ other.selection) (same : graph.excluded ≤ other.excluded) {id : DeclId}
    (included : other.includesDeclaration id = true) : graph.includesDeclaration id = true := by
  by_contra excluded
  have inside : id.index < graph.symbols.declarations.size := by
    by_contra outside
    rw [includesDeclaration, Symbols.declarationAt_of_le] at included
    · cases included
    · rw [alike.sizes.2.1]
      exact Nat.not_lt.mp outside
  have fewer := excluded_lt_of_declaration alike le inside (by simpa using excluded) included
  exact absurd fewer (Nat.not_lt.mpr same)

end Graph

end Bundler
