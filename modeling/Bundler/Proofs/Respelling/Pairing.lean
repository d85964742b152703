import Mathlib.Logic.Relator
import Bundler.Proofs.Draft.Statements
import Bundler.Proofs.Respelling.Expressions

/-! # Nodes that stand for each other

When a respelled tree is placed, its nodes get other ids, since there are more of them.  A pairing relates
the ids of nodes that stand for each other.  Only the ids of added literals stand for nothing.
-/

namespace Bundler

/-- The ids in two ranges that belong together. -/
structure Pairing (lo hi lo' hi' : Nat) (pairs : NodeId → NodeId → Prop) : Prop where
  le : lo ≤ hi
  le' : lo' ≤ hi'
  inside : ∀ {i i'}, pairs i i' → lo ≤ i.index ∧ i.index < hi
  inside' : ∀ {i i'}, pairs i i' → lo' ≤ i'.index ∧ i'.index < hi'
  unique : Relator.BiUnique pairs

/-- The label belongs to a node in the range that stands for no other. -/
def Lone (lo hi : Nat) (pairs : NodeId → NodeId → Prop) (label : Label) : Prop :=
  lo ≤ label.id.index ∧ label.id.index < hi ∧ ∀ i, ¬ pairs i label.id

/-- The labels belong to nodes that stand for each other. -/
def PairedLabels (pairs : NodeId → NodeId → Prop) (label label' : Label) : Prop := pairs label.id label'.id

namespace Pairing

variable {a b c a' b' c' : Nat} {p q : NodeId → NodeId → Prop}

theorem nothing (a a' : Nat) : Pairing a a a' a' fun _ _ => False :=
  ⟨Nat.le_refl _, Nat.le_refl _, nofun, nofun, nofun, nofun⟩

/-- Pairings of ranges that follow each other. -/
theorem append (first : Pairing a b a' b' p) (second : Pairing b c b' c' q) :
    Pairing a c a' c' fun i i' => p i i' ∨ q i i' where
  le := Nat.le_trans first.le second.le
  le' := Nat.le_trans first.le' second.le'
  inside := by
    rintro i i' (here | there)
    · exact ⟨(first.inside here).1, Nat.lt_of_lt_of_le (first.inside here).2 second.le⟩
    · exact ⟨Nat.le_trans first.le (second.inside there).1, (second.inside there).2⟩
  inside' := by
    rintro i i' (here | there)
    · exact ⟨(first.inside' here).1, Nat.lt_of_lt_of_le (first.inside' here).2 second.le'⟩
    · exact ⟨Nat.le_trans first.le' (second.inside' there).1, (second.inside' there).2⟩
  unique := by
    constructor
    · rintro i j k (ik | ik) (jk | jk)
      · exact first.unique.1 ik jk
      · exact absurd (first.inside' ik).2 (Nat.not_lt.mpr (second.inside' jk).1)
      · exact absurd (first.inside' jk).2 (Nat.not_lt.mpr (second.inside' ik).1)
      · exact second.unique.1 ik jk
    · rintro i j k (ij | ij) (ik | ik)
      · exact first.unique.2 ij ik
      · exact absurd (first.inside ij).2 (Nat.not_lt.mpr (second.inside ik).1)
      · exact absurd (first.inside ik).2 (Nat.not_lt.mpr (second.inside ij).1)
      · exact second.unique.2 ij ik

/-- One more node on both sides. -/
theorem single (a a' : Nat) : Pairing a (a + 1) a' (a' + 1) fun i i' => i = ⟨a⟩ ∧ i' = ⟨a'⟩ where
  le := Nat.le_succ a
  le' := Nat.le_succ a'
  inside := by
    rintro _ _ ⟨rfl, -⟩
    exact ⟨Nat.le_refl a, Nat.lt_succ_self a⟩
  inside' := by
    rintro _ _ ⟨-, rfl⟩
    exact ⟨Nat.le_refl a', Nat.lt_succ_self a'⟩
  unique := by
    constructor
    · rintro _ _ _ ⟨rfl, -⟩ ⟨rfl, -⟩
      rfl
    · rintro _ _ _ ⟨-, rfl⟩ ⟨-, rfl⟩
      rfl

/-- One more node on the second side only. -/
theorem skip (first : Pairing a b a' b' p) : Pairing a b a' (b' + 1) p :=
  { first with
    le' := Nat.le_succ_of_le first.le'
    inside' := fun here => ⟨(first.inside' here).1, Nat.lt_succ_of_lt (first.inside' here).2⟩ }

end Pairing

section Lone

variable {a b c : Nat} {lo mid hi : Nat} {p q : NodeId → NodeId → Prop} {label : Label}

theorem Lone.append_left (lone : Lone a b p label) (second : Pairing lo hi b c q) :
    Lone a c (fun i i' => p i i' ∨ q i i') label := by
  refine ⟨lone.1, Nat.lt_of_lt_of_le lone.2.1 second.le', ?_⟩
  rintro i (here | there)
  · exact lone.2.2 i here
  · exact absurd lone.2.1 (Nat.not_lt.mpr (second.inside' there).1)

theorem Lone.append_right (lone : Lone b c q label) (first : Pairing lo hi a b p) :
    Lone a c (fun i i' => p i i' ∨ q i i') label := by
  refine ⟨Nat.le_trans first.le' lone.1, lone.2.1, ?_⟩
  rintro i (here | there)
  · exact absurd (first.inside' here).2 (Nat.not_lt.mpr lone.1)
  · exact lone.2.2 i there

end Lone

/-! ## Placed expressions -/

/-- The expressions stand for each other, and so do the nodes of the two ranges, which are theirs. -/
def Forest (lo hi lo' hi' : Nat) (es es' : List (Expr Label)) : Prop :=
  ∃ pairs, Pairing lo hi lo' hi' pairs ∧
    List.Forall₂ (Expr.Respells (PairedLabels pairs) (Lone lo' hi' pairs)) es es'

namespace Forest

variable {a b c a' b' c' : Nat} {es es' fs fs' : List (Expr Label)}

theorem nil (a a' : Nat) : Forest a a a' a' [] [] := ⟨_, .nothing a a', .nil⟩

theorem append (first : Forest a b a' b' es es') (second : Forest b c b' c' fs fs') :
    Forest a c a' c' (es ++ fs) (es' ++ fs') := by
  obtain ⟨p, pairing, respells⟩ := first
  obtain ⟨q, pairing', respells'⟩ := second
  refine ⟨_, pairing.append pairing', List.rel_append ?_ ?_⟩
  · exact Expr.Respells.monoAll .inl (·.append_left pairing') _ respells
  · exact Expr.Respells.monoAll .inr (·.append_right pairing) _ respells'

theorem cons {e e' : Expr Label} (first : Forest a b a' b' [e] [e']) (second : Forest b c b' c' es es') :
    Forest a c a' c' (e :: es) (e' :: es') :=
  first.append second

/-- One more node on both sides. -/
theorem close (below : Forest a b a' b' es es') :
    ∃ pairs, Pairing a (b + 1) a' (b' + 1) pairs ∧ pairs ⟨b⟩ ⟨b'⟩ ∧
      List.Forall₂ (Expr.Respells (PairedLabels pairs) (Lone a' (b' + 1) pairs)) es es' := by
  obtain ⟨p, pairing, respells⟩ := below
  have last := Pairing.single b b'
  refine ⟨_, pairing.append last, .inr ⟨rfl, rfl⟩, ?_⟩
  exact Expr.Respells.monoAll .inl (·.append_left last) _ respells

/-- Expressions whose children stand for each other do so, too. -/
theorem root {label label' : Label} {e e' : Expr Label} (below : Forest a b a' b' es es')
    (id : label.id = ⟨b⟩) (id' : label'.id = ⟨b'⟩)
    (build : ∀ {same added}, List.Forall₂ (Expr.Respells same added) es es' → same label label' →
      e.Respells same added e') : Forest a (b + 1) a' (b' + 1) [e] [e'] := by
  obtain ⟨pairs, pairing, last, respells⟩ := below.close
  refine ⟨pairs, pairing, .cons (build respells ?_) .nil⟩
  rwa [PairedLabels, id, id']

/-- An access that is put in brackets has one node more. -/
theorem bracketed {label label' keyLabel : Label} {object object' : Expr Label} {key : String}
    (plain : Identifier.isPlain key = true) (below : Forest a b a' b' [object] [object'])
    (id : label.id = ⟨b⟩) (id' : label'.id = ⟨b' + 1⟩) (keyId : keyLabel.id = ⟨b'⟩) :
    Forest a (b + 1) a' (b' + 1 + 1) [.member label object key]
      [.index label' object' (.literal keyLabel (.string key))] := by
  obtain ⟨p, pairing, respells⟩ := below
  have last := Pairing.single b (b' + 1)
  cases respells with
  | cons respells _ =>
      have lone : Lone a' (b' + 1) p keyLabel := by
        refine ⟨keyId ▸ pairing.le', keyId ▸ Nat.lt_succ_self b', fun i paired => ?_⟩
        rw [keyId] at paired
        exact Nat.lt_irrefl _ (pairing.inside' paired).2
      have wider : object.Respells (PairedLabels p) (Lone a' (b' + 1) p) object' :=
        respells.mono (fun here => here) (fun lone => ⟨lone.1, Nat.lt_succ_of_lt lone.2.1, lone.2.2⟩) _
      refine ⟨_, pairing.skip.append last, .cons ?_ .nil⟩
      exact .bracketed plain (.inr ⟨id, id'⟩) (lone.append_left last)
        (wider.mono .inl (·.append_left last) _)

end Forest

section Placement

variable {α β : Type} {same : α → β → Prop} {added : β → Prop}

mutual

/-- Wherever the trees are placed, their nodes stand for each other. -/
theorem Expr.Respells.forest : ∀ (e : Expr α) {e' : Expr β}, e.Respells same added e' →
    ∀ start next start' next', Forest next (next + e.size) next' (next' + e'.size) [e.place start next]
      [e'.place start' next']
  | .ident _ _, _, .ident _, _, next, _, next' =>
    (Forest.nil next next').root rfl rfl fun _ here => .ident here
  | .literal _ _, _, .literal _, _, next, _, next' =>
    (Forest.nil next next').root rfl rfl fun _ here => .literal here
  | .member _ object _, _, .member _ below, _, _, _, _ =>
    (forest object below _ _ _ _).root rfl rfl fun
      | .cons below _, here => .member here below
  | .member _ object _, _, .bracketed plain _ _ below, _, _, _, _ =>
    (forest object below _ _ _ _).bracketed plain rfl rfl rfl
  | .index _ object key, _, .index _ first second, _, _, _, _ => by
    simp only [size, ← Nat.add_assoc]
    exact ((forest object first _ _ _ _).cons (forest key second _ _ _ _)).root rfl rfl fun
      | .cons first (.cons second _), here => .index here first second
  | .call _ callee arguments, _, .call _ first rest, _, _, _, _ => by
    simp only [size, ← Nat.add_assoc]
    exact ((forest callee first _ _ _ _).cons (forestAll arguments rest _ _ _ _)).root rfl rfl fun
      | .cons first rest, here => .call here first rest
  | .assign _ target value, _, .assign _ first second, _, _, _, _ => by
    simp only [size, ← Nat.add_assoc]
    exact ((forest target first _ _ _ _).cons (forest value second _ _ _ _)).root rfl rfl fun
      | .cons first (.cons second _), here => .assign here first second

theorem Expr.Respells.forestAll : ∀ (es : List (Expr α)) {es' : List (Expr β)},
    List.Forall₂ (Respells same added) es es' → ∀ start next start' next',
      Forest next (next + sizeAll es) next' (next' + sizeAll es') (placeAll start next es)
        (placeAll start' next' es')
  | [], _, .nil, _, next, _, next' => .nil next next'
  | e :: rest, _, .cons here later, _, _, _, _ => by
    simp only [sizeAll, ← Nat.add_assoc]
    exact (forest e here _ _ _ _).cons (forestAll rest later _ _ _ _)

end

end Placement

/-! ## Placed statements -/

namespace Statement

variable {α β : Type} {same : α → β → Prop} {added : β → Prop} {statement : Statement α}
  {other : Statement β}

theorem Respells.forest (respells : statement.Respells same added other) (start next start' next' : Nat) :
    Forest next (next + Expr.sizeAll statement.children) next' (next' + Expr.sizeAll other.children)
      (statement.place start next).children (other.place start' next').children := by
  cases respells with
  | expression _ body => exact body.forest _ start next start' next'
  | declare _ _ init =>
      cases init with
      | none => exact (Forest.nil next next').root rfl rfl fun _ here => .ident here
      | some init =>
          simp only [Statement.children, Expr.sizeAll, Expr.size, Option.toList_some, ← Nat.add_assoc]
          refine Forest.cons ?_ (init.forest _ _ (next + 1) _ (next' + 1))
          exact (Forest.nil next next').root rfl rfl fun _ here => .ident here
  | importFrom | exportList | exportFrom => exact .nil next next'

/-- Wherever the statements are placed, they stand for each other, and so do their nodes. -/
theorem Respells.paired (respells : statement.Respells same added other)
    (start next start' next' : Nat) :
    ∃ pairs, Pairing next (next + statement.size) next' (next' + other.size) pairs ∧
      (statement.place start next).Respells (PairedLabels pairs) (Lone next' (next' + other.size) pairs)
        (other.place start' next') := by
  obtain ⟨pairs, pairing, last, below⟩ := (respells.forest start next start' next').close
  refine ⟨pairs, pairing, ?_⟩
  cases respells with
  | expression =>
      cases below with
      | cons body _ => exact .expression last body
  | declare _ _ init =>
      cases init with
      | none =>
          cases below with
          | cons named _ => exact .declare last named.tag .none
      | some =>
          cases below with
          | cons named rest =>
              cases rest with
              | cons init _ => exact .declare last named.tag (.some init)
  | importFrom => exact .importFrom last
  | exportList => exact .exportList last
  | exportFrom => exact .exportFrom last

end Statement

end Bundler
