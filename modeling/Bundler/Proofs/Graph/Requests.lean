import Bundler.Proofs.Exports.Stability
import Bundler.Proofs.Graph.Interning
import Bundler.Proofs.Repetition

/-! # Requests in a connected program

When every import has its target, no kind of a declaration changes any more, so a request that has been
answered gets the same answer for good.
-/

namespace Bundler.Graph

variable {graph other : Graph}

/-- Every import has its target. -/
def Connected (graph : Graph) : Prop := ∀ id, graph.HasDeclaration id → graph.Targeted id

theorem Develops.connected (develops : Develops graph other) (connected : graph.Connected) :
    other.Connected := fun id inside =>
  (develops.added inside).elim
    (fun before => develops.extension.targeted before (connected id before)) (·.targeted)

namespace Annotates

theorem kind_eq (annotates : Annotates graph other) (connected : graph.Connected) {id : DeclId}
    (inside : graph.HasDeclaration id) :
    (other.symbols.declarationAt id).kind = (graph.symbols.declarationAt id).kind := by
  rcases (annotates.kind inside).eq_or_linked with same | ⟨_, _, _, open_, -⟩
  · exact same
  · exact absurd open_ (connected id inside _ _)

theorem sameModules (annotates : Annotates graph other) : graph.symbols.SameModules other.symbols :=
  ⟨annotates.modules, annotates.moduleAt⟩

/-- More knowledge about a connected program does not change what its modules export. -/
theorem sameExports (annotates : Annotates graph other) (sound : graph.Sound)
    (connected : graph.Connected) : graph.symbols.SameExports other.symbols where
  toSameModules := annotates.sameModules
  kind found :=
    annotates.kind_eq connected ((sound.modules (Symbols.lt_of_export found)).own found).inside

end Annotates

/-- An answer is kept by whatever finds out more about a connected program. -/
theorem Develops.answered (develops : Develops graph other) (sound : graph.Sound)
    (connected : graph.Connected) {source : Provider} {name : String} {found : Option DeclId}
    (answered : graph.symbols.Answered source name found) :
    other.symbols.Answered source name found :=
  answered.mono (develops.sameExports sound connected) develops.remembers

/-- The answer to a request is there once it has been given. -/
theorem Sound.answered (sound : graph.Sound) (connected : graph.Connected) {source : Provider}
    (known : graph.HasProvider source) {name : String} {found : Option DeclId}
    (returned : ((Symbols.resolveExport? source name).outcome graph.symbols).1 = .ok found) :
    ((Symbols.resolveExport? source name).outcome graph.symbols).2.Answered source name found := by
  have develops := (develops_resolveExport? sound known name).1
  have search := (develops.sameExports sound connected).exportOrigin?_eq source name
  have spec := graph.symbols.exportOrigin?_spec source name
  have outcome := graph.symbols.resolveExport?_outcome source name
  cases result : graph.symbols.exportOrigin? source name with
  | error fault =>
      rw [result] at outcome
      rw [outcome] at returned
      cases returned
  | ok origin =>
      rw [result] at spec outcome search
      cases origin with
      | none =>
          rw [outcome] at returned search ⊢
          cases returned
          exact Symbols.answered_none search
      | some origin =>
          rw [outcome] at returned search ⊢
          cases returned
          refine Symbols.answered_some search (Symbols.interned_intern ?_)
          rintro other imported rfl
          have seen := sound.provides known spec
          cases source <;> exact seen

/-! ## Repetition -/

/-- More is known about the program with the later symbols. -/
def Later (graph : Graph) (before after : Symbols) : Prop :=
  Develops (graph.withSymbols before) (graph.withSymbols after)

theorem Later.refl (symbols : Symbols) : graph.Later symbols symbols := Develops.refl _

theorem Later.trans {before middle after : Symbols} (first : graph.Later before middle)
    (second : graph.Later middle after) : graph.Later before after := Develops.trans first second

variable {symbols : Symbols}

theorem lasting_resolveExport? (sound : (graph.withSymbols symbols).Sound)
    (connected : (graph.withSymbols symbols).Connected) {source : Provider}
    (known : (graph.withSymbols symbols).HasProvider source) (name : String) :
    Step.Lasting graph.Later (Symbols.resolveExport? source name) symbols where
  onward := (develops_resolveExport? sound known name).1
  answered returned _ after :=
    have develops := (develops_resolveExport? sound known name).1
    after.answered (develops.sound sound) (develops.connected connected)
      (sound.answered connected known returned)
  failed fails := by
    have outcome := symbols.resolveExport?_outcome source name
    cases result : symbols.exportOrigin? source name with
    | ok origin =>
        rw [result] at outcome
        rw [outcome] at fails
        cases origin <;> cases fails
    | error fault =>
        rw [result] at outcome
        rw [outcome] at fails ⊢
        cases fails
        exact outcome

theorem lasting_resolveExports (sound : (graph.withSymbols symbols).Sound)
    (connected : (graph.withSymbols symbols).Connected) {id : ModuleId}
    (known : (graph.withSymbols symbols).HasProvider (.internal id)) (names : List String) :
    Step.Lasting graph.Later (Symbols.resolveExports id names) symbols := by
  induction names generalizing symbols with
  | nil => exact .pure Later.refl [] symbols
  | cons name rest ih =>
      have first := lasting_resolveExport? sound connected known name
      refine .bind Later.trans first fun found _ => .bind Later.trans ?_ fun resolved _ =>
        .pure Later.refl _ _
      exact ih (first.onward.sound sound) (first.onward.connected connected)
        (first.onward.extension.hasProvider known)

end Bundler.Graph
