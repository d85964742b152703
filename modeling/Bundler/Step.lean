import Bundler.Fault

/-!
# Steps

A step works on a state and may fail. What it has changed before it fails stays changed: a program
under construction keeps the text of a statement that it refuses, and a graph keeps what it has
found out before it came upon a fault.
-/

namespace Bundler

/-- A step that may fail and that changes a state, whether it fails or not. -/
abbrev Step (σ α : Type) := EStateM Fault σ α

namespace Step

variable {σ τ α : Type}

/-- The step that gives a result or fails, and changes nothing. -/
def ofExcept (result : Except Fault α) : Step σ α :=
  match result with
  | .ok a => pure a
  | .error fault => throw fault

/-- A step on a part of the state. -/
def within (part : σ → τ) (replace : σ → τ → σ) (step : Step τ α) : Step σ α := fun s =>
  match step (part s) with
  | .ok a t => .ok a (replace s t)
  | .error fault t => .error fault (replace s t)

/-- The result of a step and the state after it. -/
def outcome (step : Step σ α) (s : σ) : Except Fault α × σ :=
  match step s with
  | .ok a s => (.ok a, s)
  | .error fault s => (.error fault, s)

end Step

end Bundler
