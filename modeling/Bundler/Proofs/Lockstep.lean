import Mathlib.Data.List.Forall2
import Bundler.Proofs.Step

/-! # Steps in lockstep

Two steps on different states go in lockstep if a relation of the states lasts, and the steps have related
results or fail with the same fault.  Sequences and loops of such steps go in lockstep as well.
-/

namespace Bundler.Step

variable {σ τ α β γ δ ι κ : Type}

/-- Both results are there and related, or both are the same fault. -/
inductive Results (related : α → β → Prop) : Except Fault α → Except Fault β → Prop where
  | ok {a b} : related a b → Results related (.ok a) (.ok b)
  | error {fault} : Results related (.error fault) (.error fault)

theorem Results.eq {result other : Except Fault α} (results : Results Eq result other) : other = result := by
  cases results with
  | ok same => rw [same]
  | error => rfl

/-- From related states the steps lead to related states, with related results. -/
def Lockstep (relation : σ → τ → Prop) (related : α → β → Prop) (step : Step σ α) (other : Step τ β) :
    Prop :=
  ∀ s t, relation s t → Results related (step.outcome s).1 (other.outcome t).1 ∧
    relation (step.outcome s).2 (other.outcome t).2

namespace Lockstep

variable {relation : σ → τ → Prop} {related : α → β → Prop} {onward : γ → δ → Prop}

theorem pure {a : α} {b : β} (same : related a b) :
    Lockstep relation related (Pure.pure a) (Pure.pure b) := fun _ _ holds => ⟨.ok same, holds⟩

theorem bind {step : Step σ α} {other : Step τ β} {next : α → Step σ γ} {next' : β → Step τ δ}
    (first : Lockstep relation related step other)
    (later : ∀ a b, related a b → Lockstep relation onward (next a) (next' b)) :
    Lockstep relation onward (step >>= next) (other >>= next') := by
  intro s t holds
  obtain ⟨results, holds⟩ := first s t holds
  rw [outcome_bind, outcome_bind]
  generalize step.outcome s = result, other.outcome t = result' at results holds
  obtain ⟨result, after⟩ := result
  obtain ⟨result', after'⟩ := result'
  cases results with
  | ok same => exact later _ _ same after after' holds
  | error => exact ⟨.error, holds⟩

/-- What is read from the states may depend on them. -/
theorem get {next : σ → Step σ γ} {next' : τ → Step τ δ}
    (later : ∀ s t, relation s t → Lockstep relation onward (next s) (next' t)) :
    Lockstep relation onward (MonadState.get >>= next) (MonadState.get >>= next') := fun s t holds =>
  later s t holds s t holds

theorem change {f : σ → σ} {g : τ → τ} (keeps : ∀ s t, relation s t → relation (f s) (g t)) :
    Lockstep relation Eq (modify f : Step σ PUnit) (modify g) := fun s t holds =>
  ⟨.ok rfl, keeps s t holds⟩

theorem changeGet {f : σ → α × σ} {g : τ → β × τ}
    (keeps : ∀ s t, relation s t → related (f s).1 (g t).1 ∧ relation (f s).2 (g t).2) :
    Lockstep relation related (modifyGet f) (modifyGet g) := fun s t holds =>
  ⟨.ok (keeps s t holds).1, (keeps s t holds).2⟩

theorem forM {step : ι → Step σ Unit} {other : κ → Step τ Unit} {items : List ι} {items' : List κ}
    (each : List.Forall₂ (fun i k => Lockstep relation Eq (step i) (other k)) items items') :
    Lockstep relation Eq (items.forM step) (items'.forM other) := by
  induction each with
  | nil => exact pure rfl
  | cons first _ ih =>
      rw [List.forM_eq_forM, List.forM_eq_forM, List.forM_cons, List.forM_cons]
      exact first.bind fun _ _ _ => ih

end Lockstep

end Bundler.Step
