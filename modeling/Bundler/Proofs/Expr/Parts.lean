import Mathlib.Tactic.Common
import Bundler.Graph.Inclusion

/-! # Parts of expressions

The parts of an expression are the expression and all that is below it: they are closed under taking
children, and whatever passes from an expression to its children holds of all its parts.
-/

namespace Bundler

namespace Expr

variable {α : Type}

theorem size_le_sizeAll {c : Expr α} {es : List (Expr α)} (among : c ∈ es) : c.size ≤ sizeAll es := by
  induction es with
  | nil => cases among
  | cons e rest ih =>
      rcases List.mem_cons.mp among with rfl | later
      · simp [sizeAll]
      · have below := ih later
        simp only [sizeAll]
        omega

theorem size_eq (e : Expr α) : e.size = sizeAll e.children + 1 := by
  cases e <;> simp [size, sizeAll, children, Nat.add_assoc]

theorem size_lt_of_child {e c : Expr α} (child : c ∈ e.children) : c.size < e.size := by
  have below := size_le_sizeAll child
  have size := size_eq e
  omega

/-- Induction along the children of an expression, whatever its constructor. -/
@[elab_as_elim]
theorem children_induction {P : Expr α → Prop} (step : ∀ e, (∀ c ∈ e.children, P c) → P e)
    (e : Expr α) : P e :=
  step e fun c _ => children_induction step c
termination_by e.size
decreasing_by exact size_lt_of_child ‹_›

theorem parts_eq (e : Expr α) : e.parts = partsAll e.children ++ [e] := by
  cases e <;> simp [parts, partsAll, children]

theorem mem_partsAll {p : Expr α} {es : List (Expr α)} :
    p ∈ partsAll es ↔ ∃ e ∈ es, p ∈ e.parts := by
  induction es with
  | nil => simp [partsAll]
  | cons e rest ih => simp [partsAll, ih]

theorem mem_parts {e p : Expr α} : p ∈ e.parts ↔ p = e ∨ ∃ c ∈ e.children, p ∈ c.parts := by
  rw [parts_eq, List.mem_append, mem_partsAll, List.mem_singleton, or_comm]

theorem mem_parts_self (e : Expr α) : e ∈ e.parts := mem_parts.mpr (.inl rfl)

/-- What passes from an expression to its children holds of all parts. -/
theorem forall_parts {P : Expr α → Prop} (down : ∀ p, P p → ∀ c ∈ p.children, P c) {e : Expr α}
    (holds : P e) : ∀ p ∈ e.parts, P p := by
  induction e using children_induction with
  | step e ih =>
      intro p part
      rcases mem_parts.mp part with rfl | ⟨c, child, below⟩
      · exact holds
      · exact ih c child (down e holds c child) p below

theorem forall_parts_of_child {P : Expr α → Prop} {e : Expr α} (holds : ∀ p ∈ e.parts, P p)
    {c : Expr α} (child : c ∈ e.children) : ∀ p ∈ c.parts, P p :=
  fun p part => holds p (mem_parts.mpr (.inr ⟨c, child, part⟩))

theorem mem_parts_of_child {e p c : Expr α} (part : p ∈ e.parts) (child : c ∈ p.children) :
    c ∈ e.parts := by
  induction e using children_induction with
  | step e ih =>
      rcases mem_parts.mp part with rfl | ⟨d, between, below⟩
      · exact mem_parts.mpr (.inr ⟨c, child, mem_parts_self c⟩)
      · exact mem_parts.mpr (.inr ⟨d, between, ih d between below⟩)

end Expr

theorem Fragment.ids_eq (fragment : Fragment) :
    fragment.ids = (Expr.partsAll fragment.children).map (·.id) ++ [fragment.label.id] := by
  cases fragment with
  | statement body =>
      simp [ids, ofStatement, children, label, Function.comp_def, Expr.id]
  | expr body => simp [ids, children, label, Expr.parts_eq body, Expr.id]

end Bundler
