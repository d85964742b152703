import Bundler.Proofs.Exports.Stability
import Bundler.Proofs.Repetition

/-! # Published exports

The exports of a module are published when each of its names has been asked for and the answers are
listed.  They stay published as long as requests keep their answers, and to link what is linked and
published already does nothing.
-/

namespace Bundler.Symbols

variable {symbols other : Symbols} {id : ModuleId}

/-! ## Published exports -/

/-- What the module exports under the names is known. -/
inductive Found (symbols : Symbols) (id : ModuleId) : List String → List (String × DeclId) → Prop where
  | nil : Found symbols id [] []
  | cons {name found rest resolved} :
    symbols.Answered (.internal id) name found → Found symbols id rest resolved →
    Found symbols id (name :: rest)
      ((found.map fun declaration => (name, declaration)).toList ++ resolved)

theorem Found.mono {names : List String} {resolved : List (String × DeclId)}
    (found : symbols.Found id names resolved) (same : SameExports symbols other)
    (remembers : Remembers symbols other) : other.Found id names resolved := by
  induction found with
  | nil => exact .nil
  | cons answered _ ih => exact .cons (answered.mono same remembers) ih

theorem Found.outcome {names : List String} {resolved : List (String × DeclId)}
    (found : symbols.Found id names resolved) :
    (resolveExports id names).outcome symbols = (.ok resolved, symbols) := by
  induction found with
  | nil => rfl
  | cons answered _ ih =>
      rw [resolveExports, Step.outcome_bind, answered]
      dsimp only
      rw [Step.outcome_bind, ih]
      rfl

theorem Found.answered {names : List String} {resolved : List (String × DeclId)}
    (found : symbols.Found id names resolved) {name : String} (member : name ∈ names) :
    ∃ declaration, symbols.Answered (.internal id) name declaration := by
  induction found with
  | nil => exact absurd member List.not_mem_nil
  | cons answered _ ih =>
      rcases List.mem_cons.mp member with rfl | among
      · exact ⟨_, answered⟩
      · exact ih among

/-- The exports of the module are listed with what they denote. -/
def Published (symbols : Symbols) (id : ModuleId) : Prop :=
  symbols.Found id (symbols.exportedNames id) (symbols.moduleAt id).resolvedExports

theorem Published.mono (published : symbols.Published id) (same : SameExports symbols other)
    (remembers : Remembers symbols other)
    (resolved : (other.moduleAt id).resolvedExports = (symbols.moduleAt id).resolvedExports) :
    other.Published id := by
  rw [Published, same.exportedNames, resolved]
  exact Found.mono published same remembers

theorem linkExports_outcome (symbols : Symbols) (id : ModuleId) :
    (linkExports id).outcome symbols =
      match (resolveExports id (symbols.exportedNames id)).outcome symbols with
      | (.ok resolvedExports, after) =>
        (.ok (), after.modifyModule id fun m => { m with resolvedExports })
      | (.error fault, after) => (.error fault, after) := by
  simp only [linkExports, Step.outcome_bind, Step.outcome_get, Step.outcome_modify]
  generalize (resolveExports id (symbols.exportedNames id)).outcome symbols = result
  obtain ⟨resolved | fault, after⟩ := result <;> rfl

theorem modifyModule_resolvedExports :
    (symbols.modifyModule id fun m =>
      { m with resolvedExports := (symbols.moduleAt id).resolvedExports }) = symbols := by
  have same : (symbols.modules.modify id.index fun m =>
      { m with resolvedExports := (symbols.moduleAt id).resolvedExports }) = symbols.modules := by
    apply Array.ext (Array.size_modify ..)
    intro i inside _
    rw [Array.getElem_modify]
    split
    next here =>
        subst here
        simp [moduleAt, Array.getD, Nat.lt_of_lt_of_eq inside (Array.size_modify ..)]
    next => rfl
  rw [modifyModule, same]

theorem Published.idle (published : symbols.Published id) : (linkExports id).Idle symbols := by
  rw [Step.Idle, linkExports_outcome, Found.outcome published]
  exact congrArg _ modifyModule_resolvedExports

/-! ## Modules stay as they are while exports are asked for -/

theorem modules_resolveExport? (symbols : Symbols) (source : Provider) (name : String) :
    ((resolveExport? source name).outcome symbols).2.modules = symbols.modules := by
  rw [resolveExport?_outcome]
  split
  next origin _ => exact symbols.modules_intern origin
  next => rfl
  next => rfl

theorem modules_resolveExports (symbols : Symbols) (id : ModuleId) (names : List String) :
    ((resolveExports id names).outcome symbols).2.modules = symbols.modules := by
  induction names generalizing symbols with
  | nil => rfl
  | cons name rest ih =>
      rw [resolveExports]
      have first := modules_resolveExport? symbols (.internal id) name
      have rest := (ih ((resolveExport? (.internal id) name).outcome symbols).2).trans first
      apply Step.after_bind (fun after : Symbols => after.modules = symbols.modules) fun _ _ => first
      intro _ _
      exact Step.after_bind (fun after : Symbols => after.modules = symbols.modules)
        (fun _ _ => rest) fun _ _ => rest

theorem resolvedExports_linkExports {other : ModuleId} (different : other ≠ id) :
    (((linkExports id).outcome symbols).2.moduleAt other).resolvedExports =
      (symbols.moduleAt other).resolvedExports := by
  have modules := symbols.modules_resolveExports id (symbols.exportedNames id)
  rw [linkExports_outcome]
  generalize (resolveExports id (symbols.exportedNames id)).outcome symbols = result at modules
  obtain ⟨resolved | fault, after⟩ := result
  · rw [moduleAt, modules]
    rfl
  · dsimp only
    rw [moduleAt_modifyModule, if_neg fun both => different both.1, moduleAt, modules]
    rfl

/-! ## Linked symbols -/

/-- All imports have their targets, and the exports of all modules are published. -/
structure Linked (symbols : Symbols) : Prop where
  targeted : ∀ id source name, (symbols.declarationAt id).kind ≠ .imported source name none
  published : ∀ {id : ModuleId}, id.index < symbols.modules.size → symbols.Published id

theorem idle_linkImport {id : DeclId}
    (targeted : ∀ source name, (symbols.declarationAt id).kind ≠ .imported source name none) :
    (linkImport id).Idle symbols := linkImport_of_targeted targeted

theorem link_outcome (symbols : Symbols) :
    link.outcome symbols =
      match (symbols.declarationIds.forM linkImport).outcome symbols with
      | (.ok _, middle) => (middle.moduleIds.forM linkExports).outcome middle
      | (.error fault, middle) => (.error fault, middle) := by
  simp only [link, Step.outcome_bind, Step.outcome_get]
  generalize (symbols.declarationIds.forM linkImport).outcome symbols = result
  obtain ⟨done | fault, middle⟩ := result <;> rfl

theorem Linked.idle (linked : symbols.Linked) : link.Idle symbols := by
  rw [Step.Idle, link_outcome]
  rw [Step.idle_forM fun id _ => idle_linkImport (linked.targeted id)]
  exact Step.idle_forM fun id member => (linked.published (mem_moduleIds.mp member)).idle

theorem Linked.mono (linked : symbols.Linked) (same : SameExports symbols other)
    (remembers : Remembers symbols other)
    (targeted : ∀ id source name, (other.declarationAt id).kind ≠ .imported source name none)
    (resolved : ∀ id, (other.moduleAt id).resolvedExports = (symbols.moduleAt id).resolvedExports) :
    other.Linked where
  targeted := targeted
  published {id} inside :=
    (linked.published (Nat.lt_of_lt_of_eq inside same.modules)).mono same remembers (resolved id)

end Bundler.Symbols
