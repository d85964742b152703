import Bundler.Proofs.Step

/-! # Repeated steps

A step that only finds things out can be repeated.  Done again in any later state it gives the same
answer and changes nothing, and if it has failed it fails again.  This passes from the parts of a
sequence to the whole, since the state after the whole is a later one for each of its parts.
-/

namespace Bundler.Step

variable {σ α β : Type}

/-- The step succeeds and changes nothing. -/
def Idle (step : Step σ Unit) (s : σ) : Prop := step.outcome s = (.ok (), s)

theorem Idle.bind {step : Step σ Unit} {next : Unit → Step σ α} {s : σ} (idle : step.Idle s) :
    (step >>= next).outcome s = (next ()).outcome s := by
  rw [outcome_bind, idle]

theorem idle_forM {step : α → Step σ Unit} {items : List α} {s : σ}
    (idle : ∀ item ∈ items, (step item).Idle s) : (items.forM step).Idle s := by
  induction items with
  | nil => rfl
  | cons item rest ih =>
      rw [List.forM_eq_forM, List.forM_cons]
      refine (idle item List.mem_cons_self).bind.trans ?_
      exact ih fun item member => idle item (List.mem_cons_of_mem _ member)

/-- Done in the state and then again in any later one, the step gives the same answer and changes
    nothing; if it fails, it fails again. -/
structure Lasting (later : σ → σ → Prop) (step : Step σ α) (s : σ) : Prop where
  onward : later s (step.outcome s).2
  answered : ∀ {a}, (step.outcome s).1 = .ok a → ∀ {t}, later (step.outcome s).2 t →
    step.outcome t = (.ok a, t)
  failed : ∀ {fault}, (step.outcome s).1 = .error fault →
    step.outcome (step.outcome s).2 = (.error fault, (step.outcome s).2)

namespace Lasting

variable {later : σ → σ → Prop} {step : Step σ α} {s : σ}

theorem pure (refl : ∀ s, later s s) (a : α) (s : σ) : Lasting later (pure a : Step σ α) s where
  onward := refl s
  answered same _ _ := by
    cases same
    rfl
  failed fails := by cases fails

theorem bind {next : α → Step σ β} (trans : ∀ {s t u}, later s t → later t u → later s u)
    (first : Lasting later step s)
    (rest : ∀ a, (step.outcome s).1 = .ok a → Lasting later (next a) (step.outcome s).2) :
    Lasting later (step >>= next) s := by
  have answered := @first.answered
  have failed := @first.failed
  have onward := first.onward
  generalize outcome : step.outcome s = result at *
  obtain ⟨result, middle⟩ := result
  cases result with
  | error fault =>
      have whole : (step >>= next).outcome s = (.error fault, middle) := by
        rw [outcome_bind, outcome]
      refine ⟨whole ▸ onward, fun {a} fails => ?_, fun {fault'} fails => ?_⟩
      · rw [whole] at fails
        cases fails
      · rw [whole] at fails ⊢
        cases fails
        rw [outcome_bind, failed rfl]
  | ok a =>
      have second := rest a rfl
      have whole : (step >>= next).outcome s = (next a).outcome middle := by
        rw [outcome_bind, outcome]
      refine ⟨whole ▸ trans onward second.onward, fun {b} succeeds t after => ?_,
        fun {fault} fails => ?_⟩
      · rw [whole] at succeeds after
        rw [outcome_bind, answered rfl (trans second.onward after)]
        exact second.answered succeeds after
      · rw [whole] at fails ⊢
        rw [outcome_bind, answered rfl second.onward]
        exact second.failed fails

theorem forM {step : α → Step σ Unit} {items : List α}
    (refl : ∀ s, later s s) (trans : ∀ {s t u}, later s t → later t u → later s u)
    (each : ∀ item ∈ items, ∀ t, later s t → Lasting later (step item) t) :
    Lasting later (items.forM step) s := by
  induction items generalizing s with
  | nil => exact pure refl () s
  | cons item rest ih =>
      rw [List.forM_eq_forM, List.forM_cons]
      have first := each item List.mem_cons_self s (refl s)
      refine bind trans first fun _ _ => ih fun item member t after => ?_
      exact each item (List.mem_cons_of_mem _ member) t (trans first.onward after)

/-- After all items have been done, each of them can be repeated. -/
theorem idle_of_forM {step : α → Step σ Unit} {items : List α} (refl : ∀ s, later s s)
    (trans : ∀ {s t u}, later s t → later t u → later s u)
    (each : ∀ item ∈ items, ∀ t, later s t → Lasting later (step item) t)
    (succeeded : ((items.forM step).outcome s).1 = .ok ()) {item : α} (member : item ∈ items) :
    (step item).Idle ((items.forM step).outcome s).2 := by
  induction items generalizing s with
  | nil => exact absurd member List.not_mem_nil
  | cons first rest ih =>
      have lasting := each first List.mem_cons_self s (refl s)
      have later_each : ∀ item ∈ rest, ∀ t, later ((step first).outcome s).2 t →
          Lasting later (step item) t := fun item member t after =>
        each item (List.mem_cons_of_mem _ member) t (trans lasting.onward after)
      rw [List.forM_eq_forM, List.forM_cons, outcome_bind] at succeeded ⊢
      have answered := @lasting.answered
      generalize outcome : (step first).outcome s = result at *
      obtain ⟨result, middle⟩ := result
      cases result with
      | error fault => cases succeeded
      | ok done =>
          rcases List.mem_cons.mp member with rfl | among
          · exact answered rfl (forM refl trans later_each).onward
          · exact ih later_each succeeded among

end Lasting

end Bundler.Step
