import Bundler.Proofs.Exports.Publication
import Bundler.Proofs.Graph.Linking
import Bundler.Proofs.Graph.Requests

/-! # Linking again

A link that has succeeded can be repeated in every later state of the program: all imports have their
targets, and every request for an export is answered as before.  A link that has failed fails again, with
the same fault and at the same place.
-/

namespace Bundler.Graph

variable {graph other : Graph} {symbols after : Symbols}

/-! ## Imports -/

theorem lasting_linkImport (sound : (graph.withSymbols symbols).Sound) {id : DeclId}
    (inside : (graph.withSymbols symbols).HasDeclaration id) :
    Step.Lasting graph.Later (Symbols.linkImport id) symbols where
  onward := (develops_linkImport sound id).1
  answered succeeded _ later :=
    have first := develops_linkImport sound id
    Symbols.idle_linkImport
      (later.extension.targeted (first.1.extension.hasDeclaration inside) (first.2 succeeded))
  failed fails := by
    rcases linkImport_outcome symbols id with ⟨same, -⟩ | ⟨fault, same⟩ | ⟨_, _, _, -, -, same⟩
    · rw [same] at fails
      cases fails
    · rw [same] at fails ⊢
      cases fails
      exact same
    · rw [same] at fails
      cases fails

theorem lasting_linkImports (sound : (graph.withSymbols symbols).Sound) :
    Step.Lasting graph.Later (symbols.declarationIds.forM Symbols.linkImport) symbols := by
  refine .forM Later.refl Later.trans fun id member _ later => ?_
  exact lasting_linkImport (later.sound sound)
    (later.extension.hasDeclaration (Symbols.mem_declarationIds.mp member))

/-! ## Exports -/

/-- More is known with the later symbols, and what was published still is. -/
def Onward (graph : Graph) (before after : Symbols) : Prop :=
  graph.Later before after ∧ ∀ id, before.Published id → after.Published id

theorem Onward.refl (symbols : Symbols) : graph.Onward symbols symbols :=
  ⟨Later.refl symbols, fun _ => id⟩

theorem Onward.trans {before middle after : Symbols} (first : graph.Onward before middle)
    (second : graph.Onward middle after) : graph.Onward before after :=
  ⟨first.1.trans second.1, fun id published => second.2 id (first.2 id published)⟩

theorem found_resolveExports (sound : graph.Sound) (connected : graph.Connected) {id : ModuleId}
    (known : graph.HasProvider (.internal id)) {names : List String}
    {resolved : List (String × DeclId)}
    (succeeded : (Symbols.resolveExports id names).outcome graph.symbols = (.ok resolved, after)) :
    after.Found id names resolved := by
  induction names generalizing graph resolved with
  | nil =>
      cases succeeded
      exact .nil
  | cons name rest ih =>
      obtain ⟨found, middle, first, later⟩ := Step.ok_of_bind succeeded
      obtain ⟨others, last, second, here⟩ := Step.ok_of_bind later
      cases here
      have develops := (develops_resolveExport? sound known name).1
      have answered := sound.answered connected known (congrArg Prod.fst first)
      rw [first] at develops answered
      have sound' := develops.sound sound
      have connected' := develops.connected connected
      have known' := develops.extension.hasProvider known
      have onward : Develops (graph.withSymbols middle) ((graph.withSymbols middle).withSymbols
          ((Symbols.resolveExports id rest).outcome middle).2) :=
        (develops_resolveExports sound' known' rest).1
      rw [second] at onward
      exact .cons (onward.answered sound' connected' answered) (ih sound' connected' known' second)

/-- Once the exports of a module have been linked, they are published. -/
theorem published_linkExports (sound : graph.Sound) (connected : graph.Connected) {id : ModuleId}
    (known : graph.HasProvider (.internal id))
    (succeeded : (Symbols.linkExports id).outcome graph.symbols = (.ok (), after)) :
    after.Published id := by
  have modules := graph.symbols.modules_resolveExports id (graph.symbols.exportedNames id)
  have develops := (develops_resolveExports sound known (graph.symbols.exportedNames id)).1
  rw [Symbols.linkExports_outcome] at succeeded
  split at succeeded
  next resolved middle outcome =>
      have found := found_resolveExports sound connected known outcome
      rw [outcome] at modules develops
      cases succeeded
      have entry := middle.moduleAt_modifyModule id id fun m => { m with resolvedExports := resolved }
      rw [if_pos ⟨rfl, Nat.lt_of_lt_of_eq known (congrArg Array.size modules).symm⟩] at entry
      have same : Symbols.SameExports middle
          (middle.modifyModule id fun m => { m with resolvedExports := resolved }) := by
        refine ⟨⟨Array.size_modify .., fun other => ?_⟩, fun _ => rfl⟩
        rw [Symbols.moduleAt_modifyModule]
        split <;> exact ⟨_, rfl⟩
      have names := same.exportedNames id
      have before := (develops.sameExports sound connected).exportedNames id
      rw [Symbols.Published, names, entry]
      rw [show Symbols.exportedNames middle id = _ from before]
      exact found.mono same (Symbols.remembers_modifyModule id _)
  next => cases succeeded

theorem lasting_linkExports (sound : (graph.withSymbols symbols).Sound)
    (connected : (graph.withSymbols symbols).Connected) {id : ModuleId}
    (known : (graph.withSymbols symbols).HasProvider (.internal id)) :
    Step.Lasting graph.Onward (Symbols.linkExports id) symbols where
  onward := by
    have develops := develops_linkExports sound known
    refine ⟨develops, fun other published => ?_⟩
    by_cases same : other = id
    · subst same
      rwa [published.idle]
    · exact published.mono (develops.sameExports sound connected) develops.remembers
        (Symbols.resolvedExports_linkExports same)
  answered succeeded _ later :=
    (later.2 id (published_linkExports sound connected known (Step.outcome_eq succeeded))).idle
  failed fails := by
    have lasting := lasting_resolveExports sound connected known (symbols.exportedNames id)
    have outcome := symbols.linkExports_outcome id
    cases result : (Symbols.resolveExports id (symbols.exportedNames id)).outcome symbols with
    | mk answer after =>
        have onward := lasting.onward
        have failed := @lasting.failed
        rw [result] at outcome onward failed
        rw [outcome] at fails ⊢
        cases answer with
        | ok resolved => cases fails
        | error _ =>
            cases fails
            have names : after.exportedNames id = symbols.exportedNames id :=
              (onward.sameExports sound connected).exportedNames id
            have again : (Symbols.resolveExports id (symbols.exportedNames id)).outcome after =
              (.error _, after) := failed rfl
            rw [Symbols.linkExports_outcome, names, again]

theorem lasting_linkModules (sound : (graph.withSymbols symbols).Sound)
    (connected : (graph.withSymbols symbols).Connected) :
    ∀ id ∈ symbols.moduleIds, ∀ after, graph.Onward symbols after →
      Step.Lasting graph.Onward (Symbols.linkExports id) after := fun _ member _ later =>
  lasting_linkExports (later.1.sound sound) (later.1.connected connected)
    (later.1.extension.hasProvider (Symbols.mem_moduleIds.mp member))

/-! ## All together -/

/-- After all imports have been linked, every import has its target. -/
theorem connected_linkImports (sound : graph.Sound)
    (succeeded : (graph.symbols.declarationIds.forM Symbols.linkImport).outcome graph.symbols =
      (.ok (), after)) : (graph.withSymbols after).Connected :=
  fun _ => targeted_linkImports sound succeeded

/-- A successful link leaves nothing to be linked. -/
theorem linked_link (sound : graph.Sound)
    (succeeded : Symbols.link.outcome graph.symbols = (.ok (), after)) : after.Linked := by
  obtain ⟨develops, targeted⟩ := develops_linkSymbols sound
  rw [succeeded] at develops targeted
  refine ⟨fun id source name kind => ?_, fun {id} inside => ?_⟩
  · exact targeted rfl (Symbols.lt_of_imported kind) source name kind
  rw [Symbols.link_outcome] at succeeded
  split at succeeded
  next middle imports =>
      have first := (develops_linkImports sound graph.symbols.declarationIds).1
      rw [imports] at first
      have sound' : (graph.withSymbols middle).Sound := first.sound sound
      have connected := connected_linkImports sound imports
      have later := develops_linkModules sound' fun id member => Symbols.mem_moduleIds.mp member
      have size : middle.modules.size = after.modules.size := first.modules.trans develops.modules.symm
      have member : id ∈ middle.moduleIds :=
        Symbols.mem_moduleIds.mpr (Nat.lt_of_lt_of_eq inside size.symm)
      have idle := Step.Lasting.idle_of_forM Onward.refl Onward.trans
        (lasting_linkModules sound' connected) (congrArg Prod.fst succeeded) member
      rw [succeeded] at idle
      exact published_linkExports (develops.sound sound) (fun _ => targeted rfl) inside idle
  next => cases succeeded

/-- A link that has failed fails again, and finds out nothing more. -/
theorem relink_failed (sound : graph.Sound) {fault : Fault}
    (failed : Symbols.link.outcome graph.symbols = (.error fault, after)) :
    Symbols.link.outcome after = (.error fault, after) := by
  have imports : Step.Lasting graph.Later (graph.symbols.declarationIds.forM Symbols.linkImport)
      graph.symbols := lasting_linkImports sound
  rw [Symbols.link_outcome] at failed ⊢
  have first := imports.onward
  have again := @imports.failed
  cases result : (graph.symbols.declarationIds.forM Symbols.linkImport).outcome graph.symbols with
  | mk answer middle =>
      rw [result] at failed first again
      cases answer with
      | error _ =>
          cases failed
          -- Declarations that were added come last, so the import that failed is reached before them.
          obtain ⟨added, ids⟩ : ∃ added, after.declarationIds = graph.symbols.declarationIds ++ added :=
            Symbols.declarationIds_of_le first.declarations
          have fails : (graph.symbols.declarationIds.forM Symbols.linkImport).outcome after =
            (.error fault, after) := again rfl
          rw [ids, List.forM_eq_forM, List.forM_append, Step.outcome_bind, ← List.forM_eq_forM, fails]
      | ok done =>
          have connected := connected_linkImports sound result
          have sound' : (graph.withSymbols middle).Sound := first.sound sound
          have exports := Step.Lasting.forM Onward.refl Onward.trans
            (lasting_linkModules sound' connected)
          dsimp only at failed
          have onward := exports.onward.1
          have again := @exports.failed
          rw [failed] at onward again
          have idle : (after.declarationIds.forM Symbols.linkImport).Idle after :=
            Step.idle_forM fun id member => Symbols.idle_linkImport
              (onward.connected connected id (Symbols.mem_declarationIds.mp member))
          have ids : after.moduleIds = middle.moduleIds := by
            rw [Symbols.moduleIds, show after.modules.size = middle.modules.size from onward.modules]
            rfl
          rw [idle]
          dsimp only
          rw [ids]
          exact again rfl

end Bundler.Graph
