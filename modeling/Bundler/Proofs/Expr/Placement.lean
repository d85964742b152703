import Bundler.Proofs.Expr.Parts

/-! # Ids of placed expressions

The parts of a placed expression are numbered in the order in which `Expr.parts` lists them, without
gaps and each behind its children.
-/

namespace Bundler

namespace Expr

variable {α : Type}

/-- Expressions with ids one after the other from `next` on, whose children are all listed earlier. -/
structure Numbered (next : Nat) (es : List (Expr Label)) : Prop where
  id : ∀ {i : Nat} {e}, es[i]? = some e → e.id = ⟨next + i⟩
  child : ∀ {i : Nat} {e}, es[i]? = some e → ∀ c ∈ e.children, ∃ j < i, es[j]? = some c

namespace Numbered

variable {next : Nat} {es fs : List (Expr Label)}

theorem nil : Numbered next [] := ⟨by simp, by simp⟩

theorem append (first : Numbered next es) (second : Numbered (next + es.length) fs) :
    Numbered next (es ++ fs) where
  id {i e} found := by
    rcases Nat.lt_or_ge i es.length with early | late
    · exact first.id (by rwa [List.getElem?_append_left early] at found)
    · rw [List.getElem?_append_right late] at found
      rw [second.id found, NodeId.mk.injEq]
      omega
  child {i e} found c child := by
    rcases Nat.lt_or_ge i es.length with early | late
    · rw [List.getElem?_append_left early] at found
      obtain ⟨j, lt, at_j⟩ := first.child found c child
      exact ⟨j, lt, by rwa [List.getElem?_append_left (by omega)]⟩
    · rw [List.getElem?_append_right late] at found
      obtain ⟨j, lt, at_j⟩ := second.child found c child
      refine ⟨es.length + j, by omega, ?_⟩
      rwa [List.getElem?_append_right (by omega), Nat.add_sub_cancel_left]

theorem concat (before : Numbered next es) {e : Expr Label} (id : e.id = ⟨next + es.length⟩)
    (children : ∀ c ∈ e.children, c ∈ es) : Numbered next (es ++ [e]) where
  id {i f} found := by
    rcases Nat.lt_or_ge i es.length with early | late
    · exact before.id (by rwa [List.getElem?_append_left early] at found)
    · rw [List.getElem?_append_right late, List.getElem?_singleton] at found
      split at found
      next last =>
          cases found
          rw [id, NodeId.mk.injEq]
          omega
      next => cases found
  child {i f} found c child := by
    rcases Nat.lt_or_ge i es.length with early | late
    · rw [List.getElem?_append_left early] at found
      obtain ⟨j, lt, at_j⟩ := before.child found c child
      exact ⟨j, lt, by rwa [List.getElem?_append_left (by omega)]⟩
    · rw [List.getElem?_append_right late, List.getElem?_singleton] at found
      split at found
      next last =>
          cases found
          obtain ⟨j, inside, at_j⟩ := List.mem_iff_getElem.mp (children c child)
          refine ⟨j, by omega, ?_⟩
          rw [List.getElem?_append_left inside, List.getElem?_eq_getElem inside, at_j]
      next => cases found

end Numbered

mutual

theorem size_place : ∀ (e : Expr α) (start next : Nat), (e.place start next).size = e.size
  | .ident _ _, _, _ | .literal _ _, _, _ => rfl
  | .member _ object _, _, _ => by simp [place, size, size_place object]
  | .index _ object key, _, _ => by simp [place, size, size_place object, size_place key]
  | .call _ callee arguments, _, _ => by
    simp [place, size, size_place callee, sizeAll_placeAll arguments]
  | .assign _ target value, _, _ => by simp [place, size, size_place target, size_place value]

theorem sizeAll_placeAll : ∀ (es : List (Expr α)) (start next : Nat),
    sizeAll (placeAll start next es) = sizeAll es
  | [], _, _ => rfl
  | e :: rest, _, _ => by simp [placeAll, sizeAll, size_place e, sizeAll_placeAll rest]

end

theorem id_place (e : Expr α) (start next : Nat) :
    (e.place start next).id = ⟨next + (sizeAll e.children)⟩ := by
  cases e <;> simp [place, id, tag, children, sizeAll, Nat.add_assoc]

theorem sizeAll_children_place (e : Expr α) (start next : Nat) :
    sizeAll (e.place start next).children = sizeAll e.children := by
  have placed := size_place e start next
  rw [size_eq, size_eq e] at placed
  omega

theorem numbered_parts {e : Expr Label} {next : Nat} (below : Numbered next (partsAll e.children))
    (id : e.id = ⟨next + sizeAll e.children⟩) : Numbered next e.parts := by
  rw [parts_eq]
  apply below.concat (by rw [length_partsAll, id])
  intro c child
  exact mem_partsAll.mpr ⟨c, child, mem_parts_self c⟩

mutual

theorem numbered_place : ∀ (e : Expr α) (start next : Nat), Numbered next (e.place start next).parts
  | .ident tag name, start, next =>
    numbered_parts Numbered.nil (id_place (.ident tag name) start next)
  | .literal tag value, start, next =>
    numbered_parts Numbered.nil (id_place (.literal tag value) start next)
  | .member tag object key, start, next => by
    refine numbered_parts ?_ (by rw [id_place, sizeAll_children_place])
    simp only [place, children, partsAll, List.append_nil]
    exact numbered_place object _ next
  | .index tag object key, start, next => by
    refine numbered_parts ?_ (by rw [id_place, sizeAll_children_place])
    simp only [place, children, partsAll, List.append_nil]
    apply (numbered_place object _ next).append
    rw [length_parts, size_place]
    exact numbered_place key _ _
  | .call tag callee arguments, start, next => by
    refine numbered_parts ?_ (by rw [id_place, sizeAll_children_place])
    simp only [place, children, partsAll]
    apply (numbered_place callee _ next).append
    rw [length_parts, size_place]
    exact numbered_placeAll arguments _ _
  | .assign tag target value, start, next => by
    refine numbered_parts ?_ (by rw [id_place, sizeAll_children_place])
    simp only [place, children, partsAll, List.append_nil]
    apply (numbered_place target _ next).append
    rw [length_parts, size_place]
    exact numbered_place value _ _

theorem numbered_placeAll : ∀ (es : List (Expr α)) (start next : Nat),
    Numbered next (partsAll (placeAll start next es))
  | [], _, _ => Numbered.nil
  | e :: rest, start, next => by
    simp only [placeAll, partsAll]
    apply (numbered_place e start next).append
    rw [length_parts, size_place]
    exact numbered_placeAll rest _ _

end

end Expr

namespace Statement

variable {α : Type}

theorem id_place (statement : Statement α) (start next : Nat) :
    (statement.place start next).id = ⟨next + Expr.sizeAll statement.children⟩ := by
  cases statement <;> rfl

theorem sizeAll_children_place (statement : Statement α) (start next : Nat) :
    Expr.sizeAll (statement.place start next).children = Expr.sizeAll statement.children := by
  cases statement with
  | expression tag body => simp [place, children, Expr.sizeAll, Expr.size_place]
  | declare tag exported mode nameTag name init =>
      cases init <;> simp [place, children, Expr.sizeAll, Expr.size, Expr.size_place]
  | importFrom | exportList | exportFrom => rfl

/-- The expressions of a placed statement are numbered. -/
theorem numbered_place (statement : Statement α) (start next : Nat) :
    Expr.Numbered next (Expr.partsAll (statement.place start next).children) := by
  cases statement with
  | expression tag body =>
      simp only [place, children, Expr.partsAll, List.append_nil]
      exact Expr.numbered_place body start next
  | declare tag exported mode nameTag name init =>
      have named : ∀ range : Range, Expr.Numbered next [.ident ⟨⟨next⟩, range⟩ name] :=
        fun range => Expr.Numbered.nil.concat rfl (by simp [Expr.children])
      simp only [place, children, Expr.partsAll, Expr.parts]
      apply (named _).append
      cases init with
      | none => exact Expr.Numbered.nil
      | some init =>
          simp only [Option.map_some, Option.toList_some, Expr.partsAll, List.append_nil]
          exact Expr.numbered_place init _ _
  | importFrom | exportList | exportFrom => exact Expr.Numbered.nil

end Statement

end Bundler
