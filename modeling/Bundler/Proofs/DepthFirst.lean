import Mathlib.Data.Finset.Card
import Bundler.DepthFirst

/-! # Depth-first search reaches everything

While a walk is under way there are vertices that it has entered and not left, and these may still
have successors ahead.  A visit leaves all that it enters, so when the first visit is over there are
none of these, and what the walk left is closed under successors.
-/

namespace Bundler.DepthFirst

variable {α : Type} {successors : α → List α} {before after : DepthFirst α}

/-- A walk that has gone on forgets nothing, has left all that it has entered on the way, and has
    entered all successors of what it has left on the way. -/
structure GoesOn (successors : α → List α) (before after : DepthFirst α) : Prop where
  entered : ∀ v ∈ before.entered, v ∈ after.entered
  left : ∀ v ∈ before.left, v ∈ after.left
  finished : ∀ v ∈ after.entered, v ∈ before.entered ∨ v ∈ after.left
  successor : ∀ v ∈ after.left, v ∈ before.left ∨ ∀ w ∈ successors v, w ∈ after.entered

namespace GoesOn

theorem refl (walked : DepthFirst α) : GoesOn successors walked walked :=
  ⟨fun _ => id, fun _ => id, fun _ => .inl, fun _ => .inl⟩

theorem trans {last : DepthFirst α} (first : GoesOn successors before after)
    (second : GoesOn successors after last) : GoesOn successors before last where
  entered v there := second.entered v (first.entered v there)
  left v there := second.left v (first.left v there)
  finished v there := by
    rcases second.finished v there with between | left
    · exact (first.finished v between).imp_right (second.left v)
    · exact .inr left
  successor v there := by
    rcases second.successor v there with between | all
    · refine (first.successor v between).imp_right fun all w succ => ?_
      exact second.entered w (all w succ)
    · exact .inr all

end GoesOn

variable [DecidableEq α]

/-- What a walk may still enter among the given vertices. -/
def ahead (vertices : Finset α) (walked : DepthFirst α) : Nat :=
  (vertices \ walked.entered.toFinset).card

theorem ahead_mono (vertices : Finset α) (more : ∀ v ∈ before.entered, v ∈ after.entered) :
    ahead vertices after ≤ ahead vertices before := by
  refine Finset.card_le_card (Finset.sdiff_subset_sdiff subset_rfl fun v there => ?_)
  exact List.mem_toFinset.mpr (more v (List.mem_toFinset.mp there))

theorem ahead_le (vertices : Finset α) (goesOn : GoesOn successors before after) :
    ahead vertices after ≤ ahead vertices before :=
  ahead_mono vertices goesOn.entered

theorem ahead_enter {vertices : Finset α} {vertex : α} (member : vertex ∈ vertices)
    (new : vertex ∉ before.entered) (left : List α) :
    ahead vertices { entered := vertex :: before.entered, left } < ahead vertices before := by
  apply Finset.card_lt_card
  rw [Finset.ssubset_iff_of_subset]
  · refine ⟨vertex, ?_, ?_⟩ <;> simp [member, new]
  · refine Finset.sdiff_subset_sdiff subset_rfl fun v there => ?_
    exact List.mem_toFinset.mpr (List.mem_cons_of_mem _ (List.mem_toFinset.mp there))

section Visits

variable {vertices : Finset α}

theorem goesOn_foldl {depth : Nat}
    (visits : ∀ walked, ∀ v ∈ vertices, ahead vertices walked < depth →
      GoesOn successors walked (visit successors depth walked v) ∧
        v ∈ (visit successors depth walked v).entered)
    {list : List α} (known : ∀ v ∈ list, v ∈ vertices) (enough : ahead vertices before < depth) :
    GoesOn successors before (list.foldl (visit successors depth) before) ∧
      ∀ v ∈ list, v ∈ (list.foldl (visit successors depth) before).entered := by
  induction list generalizing before with
  | nil => exact ⟨GoesOn.refl before, by simp⟩
  | cons v rest ih =>
      obtain ⟨first, here⟩ := visits before v (known v List.mem_cons_self) enough
      obtain ⟨later, there⟩ := ih (fun v member => known v (List.mem_cons_of_mem _ member))
        (Nat.lt_of_le_of_lt (ahead_le vertices first) enough)
      constructor
      · exact first.trans later
      · intro w member
        rcases List.mem_cons.mp member with rfl | among
        · exact later.entered w here
        · exact there w among

/-- A visit that is deep enough for all that is ahead goes on and enters its vertex. -/
theorem goesOn_visit (closed : ∀ v ∈ vertices, ∀ w ∈ successors v, w ∈ vertices) (depth : Nat) :
    ∀ walked, ∀ vertex ∈ vertices, ahead vertices walked < depth →
      GoesOn successors walked (visit successors depth walked vertex) ∧
        vertex ∈ (visit successors depth walked vertex).entered := by
  induction depth with
  | zero => exact fun _ _ _ enough => absurd enough (Nat.not_lt_zero _)
  | succ depth ih =>
      intro walked vertex member enough
      rw [visit]
      split
      next entered => exact ⟨GoesOn.refl walked, entered⟩
      next new =>
          -- The vertex is not ahead any more, so the depth that is left is enough for its successors.
          have less := ahead_enter member new walked.left
          obtain ⟨below, all⟩ := goesOn_foldl ih (closed vertex member)
            (Nat.lt_of_lt_of_le less (Nat.le_of_lt_succ enough))
          dsimp only
          generalize (successors vertex).foldl (visit successors depth) _ = walked' at below all ⊢
          refine ⟨⟨fun v there => ?_, fun v there => ?_, fun v there => ?_, fun v there => ?_⟩, ?_⟩
          · exact below.entered v (List.mem_cons_of_mem _ there)
          · exact List.mem_cons_of_mem _ (below.left v there)
          · rcases below.finished v there with before | left
            · rcases List.mem_cons.mp before with rfl | before
              · exact .inr List.mem_cons_self
              · exact .inl before
            · exact .inr (List.mem_cons_of_mem _ left)
          · rcases List.mem_cons.mp there with rfl | there
            · exact .inr all
            · exact below.successor v there
          · exact below.entered vertex List.mem_cons_self

/-- A walk leaves the vertex that it starts at, and all successors of what it leaves. -/
theorem closed_walk (closed : ∀ v ∈ vertices, ∀ w ∈ successors v, w ∈ vertices) {count : Nat}
    (enough : vertices.card < count) {start : α} (member : start ∈ vertices) :
    start ∈ (walk successors count start).left ∧
      ∀ v ∈ (walk successors count start).left, ∀ w ∈ successors v,
        w ∈ (walk successors count start).left := by
  obtain ⟨goesOn, entered⟩ := goesOn_visit closed count {} start member
    (Nat.lt_of_le_of_lt (Finset.card_le_card Finset.sdiff_subset) enough)
  have finished : ∀ v ∈ (walk successors count start).entered,
      v ∈ (walk successors count start).left := fun v there =>
    (goesOn.finished v there).resolve_left List.not_mem_nil
  refine ⟨finished start entered, fun v left w succ => finished w ?_⟩
  exact (goesOn.successor v left).resolve_left List.not_mem_nil w succ

/-! ## Other bounds -/

theorem foldl_visit_congr (closed : ∀ v ∈ vertices, ∀ w ∈ successors v, w ∈ vertices)
    {others : α → List α} {depth deep : Nat}
    (visits : ∀ walked, ∀ v ∈ vertices, ahead vertices walked < depth → ahead vertices walked < deep →
      visit others deep walked v = visit successors depth walked v)
    {list : List α} (known : ∀ v ∈ list, v ∈ vertices) (enough : ahead vertices before < depth)
    (enough' : ahead vertices before < deep) :
    list.foldl (visit others deep) before = list.foldl (visit successors depth) before := by
  induction list generalizing before with
  | nil => rfl
  | cons v rest ih =>
      have less := ahead_le vertices (goesOn_visit closed depth before v (known v List.mem_cons_self) enough).1
      rw [List.foldl_cons, List.foldl_cons, visits before v (known v List.mem_cons_self) enough enough']
      exact ih (fun v member => known v (List.mem_cons_of_mem _ member)) (Nat.lt_of_le_of_lt less enough)
        (Nat.lt_of_le_of_lt less enough')

theorem visit_congr (closed : ∀ v ∈ vertices, ∀ w ∈ successors v, w ∈ vertices) {others : α → List α}
    (same : ∀ v ∈ vertices, others v = successors v) {depth deep : Nat} :
    ∀ walked, ∀ vertex ∈ vertices, ahead vertices walked < depth → ahead vertices walked < deep →
      visit others deep walked vertex = visit successors depth walked vertex := by
  induction depth generalizing deep with
  | zero => exact fun _ _ _ enough => absurd enough (Nat.not_lt_zero _)
  | succ depth ih =>
      intro walked vertex member enough enough'
      obtain ⟨deep, rfl⟩ := Nat.exists_eq_succ_of_ne_zero (Nat.ne_zero_of_lt enough')
      rw [visit, visit]
      split
      next => rfl
      next new =>
          have less := ahead_enter member new walked.left
          rw [same vertex member, foldl_visit_congr closed ih (closed vertex member)
            (Nat.lt_of_lt_of_le less (Nat.le_of_lt_succ enough))
            (Nat.lt_of_lt_of_le less (Nat.le_of_lt_succ enough'))]

/-- A walk depends neither on its bound, as long as that is large enough, nor on the successors of vertices
    that it cannot come to. -/
theorem walk_congr (closed : ∀ v ∈ vertices, ∀ w ∈ successors v, w ∈ vertices) {others : α → List α}
    (same : ∀ v ∈ vertices, others v = successors v) {count more : Nat} (enough : vertices.card < count)
    (enough' : vertices.card < more) {start : α} (member : start ∈ vertices) :
    walk others more start = walk successors count start :=
  have bound : ahead vertices {} ≤ vertices.card := Finset.card_le_card Finset.sdiff_subset
  visit_congr closed same {} start member (Nat.lt_of_le_of_lt bound enough)
    (Nat.lt_of_le_of_lt bound enough')

end Visits

/-! ## Walks without a bound -/

/-- Visiting the vertices one after the other comes to an end, with at most so many visits inside of each
    other.  No rule gives up a visit. -/
inductive Visits (successors : α → List α) : (depth : Nat) → DepthFirst α → List α → DepthFirst α → Prop where
  | done {depth walked} : Visits successors depth walked [] walked
  | again {depth walked vertex rest after} : vertex ∈ walked.entered →
    Visits successors depth walked rest after → Visits successors depth walked (vertex :: rest) after
  | enter {depth walked vertex rest below after} : vertex ∉ walked.entered →
    Visits successors depth { walked with entered := vertex :: walked.entered } (successors vertex) below →
    Visits successors (depth + 1) { below with left := vertex :: below.left } rest after →
    Visits successors (depth + 1) walked (vertex :: rest) after

theorem visit_of_mem {vertex : α} (entered : vertex ∈ before.entered) (depth : Nat) :
    visit successors depth before vertex = before := by
  cases depth with
  | zero => rfl
  | succ depth => rw [visit, if_pos entered]

/-- A walk with a bound that is large enough does not notice it. -/
theorem Visits.foldl_eq {depth bound : Nat} {list : List α}
    (visits : Visits successors depth before list after) (enough : depth ≤ bound) :
    list.foldl (visit successors bound) before = after := by
  induction visits generalizing bound with
  | done => rfl
  | again entered _ ih => rw [List.foldl_cons, visit_of_mem entered, ih enough]
  | enter new _ _ below later =>
      obtain ⟨bound, rfl⟩ := Nat.exists_eq_add_of_le' (Nat.le_of_add_left_le enough)
      rw [List.foldl_cons, visit, if_neg new, below (Nat.le_of_succ_le_succ enough)]
      exact later enough

theorem mem_entered_visit {depth : Nat} {walked : DepthFirst α} {vertex v : α}
    (entered : v ∈ walked.entered) : v ∈ (visit successors depth walked vertex).entered := by
  induction depth generalizing walked vertex with
  | zero => exact entered
  | succ depth ih =>
      have below : ∀ (list : List α) (walked : DepthFirst α), v ∈ walked.entered →
          v ∈ (list.foldl (visit successors depth) walked).entered := by
        intro list
        induction list with
        | nil => exact fun _ => id
        | cons w rest later => exact fun walked entered => later _ (ih entered)
      rw [visit]
      split
      · exact entered
      · exact below _ _ (List.mem_cons_of_mem _ entered)

/-- A bound that is larger than the number of vertices with successors is large enough. -/
theorem visits_foldl {inner : Finset α} (only : ∀ v, successors v ≠ [] → v ∈ inner) (depth : Nat)
    (walked : DepthFirst α) (list : List α) (enough : ahead inner walked < depth) :
    Visits successors depth walked list (list.foldl (visit successors depth) walked) := by
  induction depth generalizing walked list with
  | zero => exact absurd enough (Nat.not_lt_zero _)
  | succ depth below =>
      induction list generalizing walked with
      | nil => exact .done
      | cons vertex rest later =>
          rw [List.foldl_cons]
          by_cases entered : vertex ∈ walked.entered
          · rw [visit_of_mem entered]
            exact .again entered (later walked enough)
          have inside : Visits successors depth
              { walked with entered := vertex :: walked.entered } (successors vertex)
              ((successors vertex).foldl (visit successors depth)
                { walked with entered := vertex :: walked.entered }) := by
            by_cases counted : vertex ∈ inner
            · have less := ahead_enter counted entered walked.left
              exact below _ _ (Nat.lt_of_lt_of_le less (Nat.le_of_lt_succ enough))
            · have none : successors vertex = [] := by_contra fun some => counted (only vertex some)
              rw [none]
              exact .done
          have onward := later (visit successors (depth + 1) walked vertex)
            (Nat.lt_of_le_of_lt (ahead_mono inner fun _ => mem_entered_visit) enough)
          rw [visit, if_neg entered] at onward ⊢
          exact .enter entered inside onward

/-- The visit of one vertex without a bound is the walk from it. -/
theorem visits_iff_walk {inner : Finset α} (only : ∀ v, successors v ≠ [] → v ∈ inner) {count : Nat}
    (enough : inner.card < count) {start : α} :
    (∃ depth, Visits successors depth {} [start] after) ↔ after = walk successors count start := by
  have walks : Visits successors count {} [start] (walk successors count start) :=
    visits_foldl only count {} [start]
      (Nat.lt_of_le_of_lt (Finset.card_le_card Finset.sdiff_subset) enough)
  constructor
  · rintro ⟨depth, visits⟩
    rw [← visits.foldl_eq (Nat.le_max_left depth count), ← walks.foldl_eq (Nat.le_max_right depth count)]
  · rintro rfl
    exact ⟨count, walks⟩

end Bundler.DepthFirst
