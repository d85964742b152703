import Mathlib.Logic.Relation
import Bundler.Proofs.DepthFirst

/-! # Postorder

A walk leaves a vertex behind its successors, as far as these do not lead back to it.  While a walk is
under way, each vertex that it has entered and not left leads to the vertex that it enters next, so a
successor that is not left yet is one that leads back.
-/

namespace Bundler.DepthFirst

variable {α : Type} {successors : α → List α}

/-- A path of successors leads from one vertex to the other. -/
def Leads (successors : α → List α) : α → α → Prop :=
  Relation.ReflTransGen fun v w => w ∈ successors v

/-- Every vertex of the list, which has the last one first, stands behind those of its successors that
    do not lead back to it. -/
inductive Postordered (successors : α → List α) : List α → Prop where
  | nil : Postordered successors []
  | cons {v older} : Postordered successors older →
    (∀ w ∈ successors v, w ∈ older ∨ Leads successors w v) → Postordered successors (v :: older)

/-- In the order of a walk a successor comes first, or leads back. -/
theorem Postordered.idxOf [DecidableEq α] {list : List α} (ordered : Postordered successors list)
    {v w : α} (member : v ∈ list) (successor : w ∈ successors v) :
    list.reverse.idxOf w < list.reverse.idxOf v ∨ Leads successors w v := by
  induction ordered with
  | nil => cases member
  | @cons u older _ all ih =>
      rw [List.reverse_cons]
      by_cases before : v ∈ older
      · rw [List.idxOf_append_of_mem (List.mem_reverse.mpr before)]
        refine (ih before).imp_left fun less => ?_
        have there := List.idxOf_lt_length_iff.mp
          (Nat.lt_trans less (List.idxOf_lt_length_of_mem (List.mem_reverse.mpr before)))
        rwa [List.idxOf_append_of_mem there]
      · obtain rfl := (List.mem_cons.mp member).resolve_right before
        refine (all w successor).imp_left fun there => ?_
        rw [List.idxOf_append_of_mem (List.mem_reverse.mpr there),
          List.idxOf_append_of_notMem (fun there => before (List.mem_reverse.mp there))]
        exact Nat.lt_add_right _ (List.idxOf_lt_length_of_mem (List.mem_reverse.mpr there))

variable [DecidableEq α] {before : DepthFirst α}

/-! ## What a walk leaves -/

/-- A visit leaves nothing but what its vertex leads to. -/
theorem leads_visit (depth : Nat) : ∀ walked vertex, ∀ v ∈ (visit successors depth walked vertex).left,
    v ∈ walked.left ∨ Leads successors vertex v := by
  induction depth with
  | zero => exact fun _ _ _ => .inl
  | succ depth ih =>
      intro walked vertex v member
      rw [visit] at member
      split at member
      next => exact .inl member
      next =>
          have below : ∀ list : List α, ∀ start, v ∈ (list.foldl (visit successors depth) start).left →
              v ∈ start.left ∨ ∃ w ∈ list, Leads successors w v := by
            intro list
            induction list with
            | nil => exact fun _ => .inl
            | cons w rest ih' =>
                intro start there
                rcases ih' _ there with first | ⟨other, among, leads⟩
                · refine (ih start w v first).imp_right fun leads => ⟨w, List.mem_cons_self, leads⟩
                · exact .inr ⟨other, List.mem_cons_of_mem _ among, leads⟩
          rcases List.mem_cons.mp member with rfl | member
          · exact .inr .refl
          · rcases below _ _ member with first | ⟨w, successor, leads⟩
            · exact .inl first
            · exact .inr (leads.head successor)

theorem leads_walk {count : Nat} {start v : α} (member : v ∈ (walk successors count start).left) :
    Leads successors start v :=
  (leads_visit count {} start v member).resolve_left List.not_mem_nil

/-- The vertex that a walk starts at is the last one that it leaves. -/
theorem head?_walk (successors : α → List α) (count : Nat) (start : α) :
    (walk successors (count + 1) start).left.head? = some start := by
  rw [walk, visit, if_neg List.not_mem_nil]
  rfl

/-- No vertex has been left twice, or without having been entered. -/
structure Tidy (walked : DepthFirst α) : Prop where
  nodup : walked.left.Nodup
  entered : ∀ v ∈ walked.left, v ∈ walked.entered

/-- What a walk has left on the way had not been entered before. -/
structure LeavesNew (before after : DepthFirst α) : Prop where
  entered : ∀ v ∈ before.entered, v ∈ after.entered
  new : ∀ v ∈ after.left, v ∈ before.left ∨ v ∉ before.entered

omit [DecidableEq α] in
theorem LeavesNew.trans {after last : DepthFirst α} (first : LeavesNew before after)
    (second : LeavesNew after last) : LeavesNew before last where
  entered v there := second.entered v (first.entered v there)
  new v there := by
    rcases second.new v there with between | new
    · exact first.new v between
    · exact .inr fun entered => new (first.entered v entered)

theorem tidy_foldl {depth : Nat}
    (visits : ∀ walked v, Tidy walked → Tidy (visit successors depth walked v) ∧
      LeavesNew walked (visit successors depth walked v))
    (list : List α) (tidy : Tidy before) : Tidy (list.foldl (visit successors depth) before) ∧
      LeavesNew before (list.foldl (visit successors depth) before) := by
  induction list generalizing before with
  | nil => exact ⟨tidy, fun _ => id, fun _ => .inl⟩
  | cons v rest ih =>
      obtain ⟨first, new⟩ := visits before v tidy
      obtain ⟨later, new'⟩ := ih first
      exact ⟨later, new.trans new'⟩

/-- A visit leaves no vertex twice. -/
theorem tidy_visit (depth : Nat) : ∀ walked vertex, Tidy walked →
    Tidy (visit successors depth walked vertex) ∧
      LeavesNew walked (visit successors depth walked vertex) := by
  induction depth with
  | zero => exact fun _ _ tidy => ⟨tidy, fun _ => id, fun _ => .inl⟩
  | succ depth ih =>
      intro walked vertex tidy
      rw [visit]
      split
      next => exact ⟨tidy, fun _ => id, fun _ => .inl⟩
      next unseen =>
          have start : Tidy { walked with entered := vertex :: walked.entered } :=
            ⟨tidy.nodup, fun v left => List.mem_cons_of_mem _ (tidy.entered v left)⟩
          obtain ⟨below, new⟩ := tidy_foldl ih (successors vertex) start
          have here := new.entered vertex List.mem_cons_self
          refine ⟨⟨List.nodup_cons.mpr ⟨fun left => ?_, below.nodup⟩, fun v left => ?_⟩,
            fun v entered => new.entered v (List.mem_cons_of_mem _ entered), fun v left => ?_⟩
          · rcases new.new vertex left with earlier | absent
            · exact unseen (tidy.entered vertex earlier)
            · exact absent List.mem_cons_self
          · rcases List.mem_cons.mp left with rfl | left
            · exact here
            · exact below.entered v left
          · rcases List.mem_cons.mp left with rfl | left
            · exact .inr unseen
            · exact (new.new v left).imp_right fun absent entered =>
                absent (List.mem_cons_of_mem _ entered)

theorem nodup_walk (successors : α → List α) (count : Nat) (start : α) :
    (walk successors count start).left.Nodup :=
  (tidy_visit count {} start ⟨List.nodup_nil, fun _ => id⟩).1.nodup

/-! ## In which order -/

section Visits

variable {vertices : Finset α}

theorem postordered_foldl {depth : Nat}
    (closed : ∀ v ∈ vertices, ∀ w ∈ successors v, w ∈ vertices)
    (visits : ∀ walked, ∀ v ∈ vertices, ahead vertices walked < depth →
      Postordered successors walked.left →
      (∀ u ∈ walked.entered, u ∈ walked.left ∨ Leads successors u v) →
      Postordered successors (visit successors depth walked v).left)
    {list : List α} (known : ∀ v ∈ list, v ∈ vertices) (enough : ahead vertices before < depth)
    (ordered : Postordered successors before.left)
    (opened : ∀ u ∈ before.entered, u ∈ before.left ∨ ∀ v ∈ list, Leads successors u v) :
    Postordered successors (list.foldl (visit successors depth) before).left := by
  induction list generalizing before with
  | nil => exact ordered
  | cons v rest ih =>
      have here := known v List.mem_cons_self
      obtain ⟨goesOn, -⟩ := goesOn_visit closed depth before v here enough
      refine ih (fun w member => known w (List.mem_cons_of_mem _ member))
        (Nat.lt_of_le_of_lt (ahead_le vertices goesOn) enough) ?_ fun u entered => ?_
      · exact visits before v here enough ordered fun u entered =>
          (opened u entered).imp_right fun all => all v List.mem_cons_self
      · rcases goesOn.finished u entered with earlier | left
        · rcases opened u earlier with left | all
          · exact .inl (goesOn.left u left)
          · exact .inr fun w member => all w (List.mem_cons_of_mem _ member)
        · exact .inl left

/-- A visit keeps the order, if all vertices that are entered and not left lead to its vertex. -/
theorem postordered_visit (closed : ∀ v ∈ vertices, ∀ w ∈ successors v, w ∈ vertices) (depth : Nat) :
    ∀ walked, ∀ vertex ∈ vertices, ahead vertices walked < depth →
      Postordered successors walked.left →
      (∀ u ∈ walked.entered, u ∈ walked.left ∨ Leads successors u vertex) →
      Postordered successors (visit successors depth walked vertex).left := by
  induction depth with
  | zero => exact fun _ _ _ enough => absurd enough (Nat.not_lt_zero _)
  | succ depth ih =>
      intro walked vertex member enough ordered opened
      rw [visit]
      split
      next => exact ordered
      next new =>
          have less := Nat.lt_of_lt_of_le (ahead_enter member new walked.left)
            (Nat.le_of_lt_succ enough)
          obtain ⟨goesOn, all⟩ := goesOn_foldl (goesOn_visit closed depth) (closed vertex member) less
          refine .cons (postordered_foldl closed ih (closed vertex member) less ordered ?_) ?_
          · intro u entered
            rcases List.mem_cons.mp entered with rfl | earlier
            · exact .inr fun w successor => .single successor
            · exact (opened u earlier).imp_right fun leads w successor => leads.tail successor
          · intro w successor
            rcases goesOn.finished w (all w successor) with earlier | left
            · rcases List.mem_cons.mp earlier with rfl | earlier
              · exact .inr .refl
              · exact (opened w earlier).imp_left (goesOn.left w)
            · exact .inl left

theorem postordered_walk (closed : ∀ v ∈ vertices, ∀ w ∈ successors v, w ∈ vertices) {count : Nat}
    (enough : vertices.card < count) {start : α} (member : start ∈ vertices) :
    Postordered successors (walk successors count start).left :=
  postordered_visit closed count {} start member
    (Nat.lt_of_le_of_lt (Finset.card_le_card Finset.sdiff_subset) enough) .nil fun _ entered =>
      absurd entered List.not_mem_nil

end Visits

end Bundler.DepthFirst
