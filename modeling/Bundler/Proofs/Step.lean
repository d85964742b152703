import Mathlib.Tactic.Common
import Bundler.Step

/-! # Reasoning about steps

The outcome of each way to build a step.  What holds after a sequence of steps, whether it fails or
not, holds after the first one if that fails, and after the rest otherwise.
-/

namespace Bundler.Step

variable {σ τ α β : Type}

/-! ## Outcomes -/

@[simp]
theorem outcome_pure (a : α) (s : σ) : (pure a : Step σ α).outcome s = (.ok a, s) := rfl

@[simp]
theorem outcome_bind (step : Step σ α) (next : α → Step σ β) (s : σ) :
    (step >>= next).outcome s =
      match step.outcome s with
      | (.ok a, s) => (next a).outcome s
      | (.error fault, s) => (.error fault, s) := by
  simp only [outcome, bind, EStateM.bind]
  cases step s <;> rfl

@[simp]
theorem outcome_map (f : α → β) (step : Step σ α) (s : σ) :
    (f <$> step).outcome s = ((step.outcome s).1.map f, (step.outcome s).2) := by
  simp only [outcome, Functor.map, EStateM.map]
  cases step s <;> rfl

@[simp]
theorem outcome_get (s : σ) : (get : Step σ σ).outcome s = (.ok s, s) := rfl

@[simp]
theorem outcome_set (new s : σ) : (set new : Step σ PUnit).outcome s = (.ok ⟨⟩, new) := rfl

@[simp]
theorem outcome_modify (f : σ → σ) (s : σ) :
    (modify f : Step σ PUnit).outcome s = (.ok ⟨⟩, f s) := rfl

@[simp]
theorem outcome_modifyGet (f : σ → α × σ) (s : σ) :
    (modifyGet f : Step σ α).outcome s = (.ok (f s).1, (f s).2) := rfl

@[simp]
theorem outcome_throw (fault : Fault) (s : σ) :
    (throw fault : Step σ α).outcome s = (.error fault, s) := rfl

@[simp]
theorem outcome_ofExcept (result : Except Fault α) (s : σ) :
    (ofExcept result).outcome s = (result, s) := by
  cases result <;> rfl

@[simp]
theorem outcome_within (part : σ → τ) (replace : σ → τ → σ) (step : Step τ α) (s : σ) :
    (within part replace step).outcome s =
      ((step.outcome (part s)).1, replace s (step.outcome (part s)).2) := by
  simp only [outcome, within]
  cases step (part s) <;> rfl

/-! ## States after steps -/

theorem outcome_eq {step : Step σ α} {s : σ} {result : Except Fault α}
    (returns : (step.outcome s).1 = result) : step.outcome s = (result, (step.outcome s).2) :=
  Prod.ext returns rfl

theorem after_bind (P : σ → Prop) {step : Step σ α} {next : α → Step σ β} {s : σ}
    (failed : ∀ fault, (step.outcome s).1 = .error fault → P (step.outcome s).2)
    (onward : ∀ a, (step.outcome s).1 = .ok a → P ((next a).outcome (step.outcome s).2).2) :
    P ((step >>= next).outcome s).2 := by
  rw [outcome_bind]
  generalize step.outcome s = result at *
  obtain ⟨result, after⟩ := result
  cases result with
  | ok a => exact onward a rfl
  | error fault => exact failed fault rfl

/-- What the step keeps, whether it fails or not. -/
def Preserves (P : σ → Prop) (step : Step σ α) : Prop := ∀ s, P s → P (step.outcome s).2

namespace Preserves

variable {P : σ → Prop}

theorem pure (a : α) : Preserves P (pure a : Step σ α) := fun _ holds => holds

theorem bind {step : Step σ α} {next : α → Step σ β} (first : Preserves P step)
    (later : ∀ a, Preserves P (next a)) : Preserves P (step >>= next) := fun s holds =>
  after_bind P (fun _ _ => first s holds) fun a _ => later a _ (first s holds)

theorem forM {step : α → Step σ Unit} {items : List α} (each : ∀ item ∈ items, Preserves P (step item)) :
    Preserves P (items.forM step) := by
  induction items with
  | nil => exact pure ()
  | cons item rest ih =>
      rw [List.forM_eq_forM, List.forM_cons]
      exact bind (each item List.mem_cons_self) fun _ =>
        ih fun item member => each item (List.mem_cons_of_mem _ member)

end Preserves

/-- A sequence of steps succeeds with its last one if all do. -/
theorem ok_of_bind {step : Step σ α} {next : α → Step σ β} {s last : σ} {b : β}
    (succeeded : (step >>= next).outcome s = (.ok b, last)) :
    ∃ a middle, step.outcome s = (.ok a, middle) ∧ (next a).outcome middle = (.ok b, last) := by
  rw [outcome_bind] at succeeded
  generalize step.outcome s = result at *
  obtain ⟨result, middle⟩ := result
  cases result with
  | ok a => exact ⟨a, middle, rfl, succeeded⟩
  | error fault => cases succeeded

theorem ok_of_forM_append {step : α → Step σ Unit} {first later : List α} {s last : σ}
    (succeeded : ((first ++ later).forM step).outcome s = (.ok (), last)) :
    ∃ middle, (first.forM step).outcome s = (.ok (), middle) ∧
      (later.forM step).outcome middle = (.ok (), last) := by
  rw [List.forM_eq_forM, List.forM_append] at succeeded
  obtain ⟨_, middle, before, after⟩ := ok_of_bind succeeded
  exact ⟨middle, before, after⟩

end Bundler.Step
