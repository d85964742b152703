import Bundler.Proofs.Draft.Frame

/-! # Finished programs

Finishing a draft makes its exports of local names.  The graph that comes out is sound, and nothing is
known about it yet.
-/

namespace Bundler

namespace Draft

variable {draft : Draft} {entry : ModuleId} {graph : Graph}

/-- Finishing an export that is not refused adds it to the table of its module. -/
theorem finishExport_eq {scopes : Scopes} {symbols after : Symbols} {item : ModuleId × String × String}
    (finished : finishExport scopes symbols item = .ok after) :
    ∃ id, scopes.binding? item.1.scope item.2.1 = some id ∧
      symbols.addExport item.1 item.2.2 (.own id) = .ok after := by
  obtain ⟨owner, binding, exported⟩ := item
  rw [finishExport] at finished
  split at finished
  next id bound => exact ⟨id, bound, finished⟩
  next => cases finished

/-- What finishing one export after the other keeps. -/
theorem finishExports_induction {P : Symbols → Prop} {items : List (ModuleId × String × String)}
    {scopes : Scopes} {symbols after : Symbols}
    (each : ∀ item ∈ items, ∀ {before after}, finishExport scopes before item = .ok after →
      P before → P after)
    (finished : items.foldlM (finishExport scopes) symbols = .ok after) (holds : P symbols) : P after := by
  induction items generalizing symbols with
  | nil =>
      cases finished
      exact holds
  | cons item rest ih =>
      rw [List.foldlM_cons] at finished
      cases first : finishExport scopes symbols item with
      | error fault =>
          rw [first] at finished
          cases finished
      | ok middle =>
          rw [first] at finished
          exact ih (fun other member => each other (List.mem_cons_of_mem _ member)) finished
            (each item List.mem_cons_self first holds)

theorem sound_finishExport {symbols after : Symbols} {item : ModuleId × String × String}
    (sound : ({ draft with symbols } : Draft).graph.Sound)
    (finished : finishExport draft.scopes symbols item = .ok after) :
    ({ draft with symbols := after } : Draft).graph.Sound ∧
      SameText { draft with symbols } { draft with symbols := after } := by
  obtain ⟨id, bound, added⟩ := finishExport_eq finished
  have belongs : ({ draft with symbols } : Draft).graph.Belongs item.1 id := sound.scopes.binding bound
  rw [symbols_of_addExport added]
  exact ⟨sound_insertExport sound belongs, sameText_modifyModule _ _ fun _ => ⟨rfl, rfl⟩⟩

theorem sound_finishExports {items : List (ModuleId × String × String)} {symbols after : Symbols}
    (sound : ({ draft with symbols } : Draft).graph.Sound)
    (finished : items.foldlM (finishExport draft.scopes) symbols = .ok after) :
    ({ draft with symbols := after } : Draft).graph.Sound ∧
      SameText { draft with symbols } { draft with symbols := after } := by
  refine finishExports_induction (P := fun after => ({ draft with symbols := after } : Draft).graph.Sound ∧
      SameText { draft with symbols } { draft with symbols := after })
    (fun item _ before after finished holds => ?_) finished ⟨sound, SameText.refl _⟩
  obtain ⟨there, same⟩ := sound_finishExport holds.1 finished
  exact ⟨there, holds.2.trans same⟩

theorem finish_eq (finished : draft.finish entry = .ok graph) :
    ∃ symbols, draft.localExports.toList.foldlM (finishExport draft.scopes) draft.symbols =
        .ok symbols ∧
      graph = { ({ draft with symbols } : Draft).graph with entry } := by
  rw [finish] at finished
  cases exports : draft.localExports.toList.foldlM (finishExport draft.scopes) draft.symbols with
  | error fault =>
      rw [exports] at finished
      cases finished
  | ok symbols =>
      rw [exports] at finished
      cases finished
      exact ⟨symbols, rfl, rfl⟩

end Draft

namespace Graph

/-- The graphs of finished drafts. -/
inductive Made : Graph → Prop where
  | finish {draft : Draft} {entry : ModuleId} {graph : Graph} (built : draft.Built)
    (there : draft.graph.HasProvider (.internal entry)) (finished : draft.finish entry = .ok graph) :
    Made graph

namespace Made

variable {graph : Graph}

theorem sound (made : graph.Made) : graph.Sound := by
  obtain ⟨built, -, finished⟩ := made
  obtain ⟨symbols, exports, rfl⟩ := Draft.finish_eq finished
  exact (Draft.sound_finishExports built.sound exports).1.withRest _ _ _

theorem entry (made : graph.Made) : graph.HasProvider (.internal graph.entry) := by
  obtain ⟨built, there, finished⟩ := made
  obtain ⟨symbols, exports, rfl⟩ := Draft.finish_eq finished
  exact Nat.lt_of_lt_of_eq there (Draft.sound_finishExports built.sound exports).2.modules.symm

/-- Nothing is part of a bundle yet. -/
theorem selection (made : graph.Made) : graph.selection = ⊥ := by
  obtain ⟨built, -, finished⟩ := made
  obtain ⟨symbols, exports, rfl⟩ := Draft.finish_eq finished
  have same := (Draft.sound_finishExports built.sound exports).2
  rw [← built.selection]
  ext id
  · rfl
  · exact same.included id
  · exact same.used id

theorem markAt (made : graph.Made) (id : NodeId) : graph.markAt id = {} := by
  obtain ⟨built, -, finished⟩ := made
  obtain ⟨symbols, exports, rfl⟩ := Draft.finish_eq finished
  exact Draft.markAt_graph id

theorem unresolved (made : graph.Made) (id : NodeId) : graph.denotation? id = none := by
  rw [Graph.denotation?, resolutionAt, made.markAt]

/-- Nothing has been warned about yet. -/
theorem warnings (made : graph.Made) : graph.warnings = #[] := by
  obtain ⟨-, -, finished⟩ := made
  obtain ⟨symbols, -, rfl⟩ := Draft.finish_eq finished
  rfl

end Made

end Graph

/-! ## A program -/

/-- A module greets somebody whose name it imports from another; the other declares one more name. -/
def Draft.greeting : Draft :=
  let draft := (Draft.addModule {} "lib").2
  let draft := (draft.addModule "main").2
  let draft := ((declare ⟨0⟩ .constant "name" (some (.literal () (.string "world"))) true).outcome
    draft).2
  let draft := ((declare ⟨0⟩ .block "spare" none false).outcome draft).2
  let draft := ((importFrom ⟨1⟩ (.internal ⟨0⟩) "name" "name").outcome draft).2
  (draft.addExpression ⟨1⟩ (.call () (.ident () "greet") [.ident () "name"])).2

/-- The program with the module that greets as its entry. -/
def Graph.greeting : Graph := { Draft.greeting.graph with entry := ⟨1⟩ }

theorem Draft.built_greeting : Draft.greeting.Built := by
  refine .addExpression (.importFrom (.declare (.declare
    (.addModule (.addModule .empty "lib") "main") ?_ _ _ _ _) ?_ _ _ _ _) ?_ ?_ _ _) ?_ _
  all_goals decide

theorem Graph.made_greeting : Graph.greeting.Made :=
  .finish Draft.built_greeting (by decide) rfl

end Bundler
