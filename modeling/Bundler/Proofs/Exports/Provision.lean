import Mathlib.Logic.Relation
import Bundler.Proofs.Symbols.Access
import Bundler.Symbols.Origin

/-! # Provision of exports

What a module provides under a name, said without a search: a request for a name is answered on the
spot or passed on to another request, and a module provides every origin that some chain of requests
ends in.  Nothing is said about the order in which modules are asked, or about where to stop.
-/

namespace Bundler.Symbols

/-- What an explicit export takes from another module, either as a re-export or by exporting an import
    that has no target yet. -/
inductive Takes (symbols : Symbols) (id : ModuleId) (name : String) : Provider → String → Prop where
  | again {source imported} :
    (symbols.moduleAt id).exports[name]? = some (.again source imported) →
    Takes symbols id name source imported
  | imported {declaration source imported} :
    (symbols.moduleAt id).exports[name]? = some (.own declaration) →
    (symbols.declarationAt declaration).kind = .imported source imported none →
    Takes symbols id name source imported

/-- What answers a request on the spot. -/
inductive Answers (symbols : Symbols) : Provider → String → Origin → Prop where
  /-- An external module has every name. -/
  | external {id name} : Answers symbols (.external id) name (.provided id name)
  | declared {id name declaration} :
    (symbols.moduleAt id).exports[name]? = some (.own declaration) →
    (∀ source imported target,
      (symbols.declarationAt declaration).kind ≠ .imported source imported target) →
    Answers symbols (.internal id) name (.declaration declaration)
  /-- The target of an import stands for it. Before linking there are no targets. -/
  | linked {id name declaration source imported target} :
    (symbols.moduleAt id).exports[name]? = some (.own declaration) →
    (symbols.declarationAt declaration).kind = .imported source imported (some target) →
    Answers symbols (.internal id) name (.declaration target)
  | whole {id name source} :
    Takes symbols id name source wholeModule →
    Answers symbols (.internal id) name (symbols.namespaceOrigin source)

/-- An explicit export passes a request on to the name that it takes. -/
def PassesExplicitly (symbols : Symbols) (id : ModuleId) (name : String) (source : Provider)
    (imported : String) : Prop :=
  Takes symbols id name source imported ∧ imported ≠ wholeModule

/-- `export *` passes a request on to its source, unless the module exports the name explicitly or
    the request is for a default export. -/
def PassesByStar (symbols : Symbols) (id : ModuleId) (name : String) (source : Provider) : Prop :=
  (symbols.moduleAt id).exports[name]? = none ∧ name ≠ defaultExport ∧
    source ∈ (symbols.moduleAt id).starSources

/-- The requests that a request is passed on to. -/
inductive Passes (symbols : Symbols) : Provider → String → Provider → String → Prop where
  | explicitly {id name source imported} :
    PassesExplicitly symbols id name source imported →
    Passes symbols (.internal id) name source imported
  | byStar {id name source} :
    PassesByStar symbols id name source →
    Passes symbols (.internal id) name source name

/-- A module provides what answers a request for one of its names, at once or at the end of a chain
    of requests. -/
inductive Provides (symbols : Symbols) : Provider → String → Origin → Prop where
  | here {source name origin} :
    Answers symbols source name origin → Provides symbols source name origin
  | beyond {source name next imported origin} :
    Passes symbols source name next imported → Provides symbols next imported origin →
    Provides symbols source name origin

/-- The edges between requests for names of modules of the graph. -/
def LeadsTo (symbols : Symbols) (r next : ModuleId × String) : Prop :=
  Passes symbols (.internal r.1) r.2 (.internal next.1) next.2

/-- A request that reaches itself, where the last step is an explicit one. -/
def Circular (symbols : Symbols) (r : ModuleId × String) : Prop :=
  ∃ last, Relation.ReflTransGen symbols.LeadsTo r last ∧
    PassesExplicitly symbols last.1 last.2 (.internal r.1) r.2

/-- Provision at the end of a chain of exactly so many requests. -/
def ProvidesAfter (symbols : Symbols) : Nat → Provider → String → Origin → Prop
  | 0, source, name, origin => Answers symbols source name origin
  | n + 1, source, name, origin =>
    ∃ next imported, Passes symbols source name next imported ∧
      ProvidesAfter symbols n next imported origin

theorem Provides.after {symbols : Symbols} {source name origin}
    (provided : symbols.Provides source name origin) :
    ∃ n, symbols.ProvidesAfter n source name origin := by
  induction provided with
  | here answer => exact ⟨0, answer⟩
  | beyond passed _ ih =>
      obtain ⟨n, rest⟩ := ih
      exact ⟨n + 1, _, _, passed, rest⟩

/-- A module provides nothing under the name of a declaration of its own but this declaration. -/
theorem Provides.eq_declaration {symbols : Symbols} {id name declaration origin}
    (exported : (symbols.moduleAt id).exports[name]? = some (.own declaration))
    (declared : ∀ source imported target,
      (symbols.declarationAt declaration).kind ≠ .imported source imported target)
    (provided : symbols.Provides (.internal id) name origin) : origin = .declaration declaration := by
  have untaken : ∀ source imported, ¬ symbols.Takes id name source imported := by
    intro source imported takes
    cases takes with
    | again other => cases exported.symm.trans other
    | imported other kind =>
        cases exported.symm.trans other
        exact declared _ _ _ kind
  cases provided with
  | here answer =>
      cases answer with
      | declared other =>
          cases exported.symm.trans other
          rfl
      | linked other kind =>
          cases exported.symm.trans other
          exact absurd kind (declared _ _ _)
      | whole takes => exact absurd takes (untaken _ _)
  | beyond passed =>
      cases passed with
      | explicitly passes => exact absurd passes.1 (untaken _ _)
      | byStar passes => cases exported.symm.trans passes.1

theorem Passes.inside {symbols : Symbols} {id name source imported}
    (passed : symbols.Passes (.internal id) name source imported) :
    id.index < symbols.modules.size := by
  cases passed with
  | explicitly taken =>
      obtain ⟨⟨found⟩ | ⟨found, -⟩, -⟩ := taken
      · exact lt_of_export found
      · exact lt_of_export found
  | byStar starred => exact lt_of_mem_starSources starred.2.2

end Bundler.Symbols
