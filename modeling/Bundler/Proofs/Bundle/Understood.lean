import Bundler.Proofs.Bundle.Again
import Bundler.Proofs.Graph.Forward

/-! # Bundled programs are understood

From a successful link on, all targets are what the program as it was written grants, and the exports of
every module are listed.  Resolving, including and naming leave it so.  A module then lists a name that
it exports itself exactly if the written program provides it.
-/

namespace Bundler

namespace Symbols

variable {symbols : Symbols} {id : ModuleId}

theorem Found.mem_of_answered {names : List String} {resolved : List (String × DeclId)}
    (found : symbols.Found id names resolved) {name : String} {declaration : DeclId} (member : name ∈ names)
    (answered : symbols.Answered (.internal id) name (some declaration)) :
    (name, declaration) ∈ resolved := by
  induction found with
  | nil => cases member
  | @cons first found rest resolved before _ ih =>
      apply List.mem_append.mpr
      rcases List.mem_cons.mp member with rfl | among
      · obtain rfl : found = some declaration := before.unique answered
        exact .inl List.mem_cons_self
      · exact .inr (ih among)

/-- What answers a request for an exported name, or the request that it is passed on to. -/
theorem provides_again_iff {name imported : String} {source : Provider} {origin : Origin}
    (listed : (symbols.moduleAt id).exports[name]? = some (.again source imported)) :
    symbols.Provides (.internal id) name origin ↔ symbols.Grants source imported origin := by
  constructor
  · intro provided
    cases provided with
    | here answer =>
        cases answer with
        | declared found => cases listed.symm.trans found
        | linked found => cases listed.symm.trans found
        | whole takes =>
            cases takes with
            | again found =>
                cases listed.symm.trans found
                exact .whole
            | imported found => cases listed.symm.trans found
    | beyond passed rest =>
        cases passed with
        | explicitly explicit =>
            obtain ⟨takes, named⟩ := explicit
            cases takes with
            | again found =>
                cases listed.symm.trans found
                exact .named named rest
            | imported found => cases listed.symm.trans found
        | byStar starred => cases listed.symm.trans starred.1
  · intro grants
    cases grants with
    | whole => exact .here (.whole (.again listed))
    | named other provided => exact .beyond (.explicitly ⟨.again listed, other⟩) provided

/-- Once all imports have their targets, a module provides its own declarations. -/
theorem provides_own (targeted : ∀ id source name, (symbols.declarationAt id).kind ≠ .imported source name none)
    {name : String} {declaration : DeclId}
    (listed : (symbols.moduleAt id).exports[name]? = some (.own declaration)) :
    ∃ origin, symbols.Provides (.internal id) name origin := by
  cases kind : (symbols.declarationAt declaration).kind with
  | imported source imported target =>
      cases target with
      | none => exact absurd kind (targeted _ _ _)
      | some target => exact ⟨_, .here (.linked listed kind)⟩
  | declared | namespaceOf | provided | free =>
      refine ⟨_, .here (.declared listed fun _ _ _ import_ => ?_)⟩
      cases kind.symm.trans import_

end Symbols

namespace Graph

variable {made graph other : Graph} {options : Options}

/-! ## Understanding is kept -/

theorem SameProgram.understands (same : SameProgram graph other) (understands : Understands made graph) :
    Understands made other where
  annotates := understands.annotates.trans same.annotates
  sound := same.sound understands.sound
  connected id there source name kind :=
    understands.connected id (Nat.lt_of_lt_of_eq there same.declarations) source name
      ((same.kind id).symm.trans kind)
  faithful id source name target kind := by
    obtain ⟨origin, grants, interned⟩ :=
      understands.faithful id source name target ((same.kind id).symm.trans kind)
    exact ⟨origin, grants, interned.mono same.remembers⟩

/-- A program that has been linked is understood. -/
theorem Made.understands_link (program : made.Made) (linking : link.outcome made = (.ok (), graph)) :
    Understands made graph ∧ graph.symbols.Linked := by
  have sound := program.sound
  have develops := develops_of_link sound linking
  have linked := linked_of_link sound linking
  exact ⟨⟨develops.toAnnotates, develops.sound sound, fun id _ => linked.targeted id,
    faithful_link sound program.written (link_symbols linking)⟩, linked⟩

/-- A program that has been bundled is understood. -/
theorem Made.understands_bundle (program : made.Made) {bundle : Bundle}
    (succeeded : (Graph.bundle options).outcome made = (.ok bundle, graph)) :
    Understands made graph ∧ graph.symbols.Linked := by
  obtain ⟨linked, resolved, linking, resolving, rfl, -⟩ := bundle_stages succeeded
  obtain ⟨understands, published⟩ := program.understands_link linking
  obtain ⟨_, resolving', develops, keeps, -⟩ :=
    (understands.sound.navigable published).resolve options
  rw [resolving] at resolving'
  cases resolving'
  have published := develops.linked understands.sound published keeps.modules
  have understands := understands.develops develops
  have shaken := (grows_retain_shake understands.sound.grounded).alike.sameProgram
  have named := sameProgram_assignNames options resolved.retainEntryExports.shake.2
  exact ⟨named.understands (shaken.understands understands),
    named.linked (shaken.sound understands.sound) (shaken.linked understands.sound published)⟩

/-! ## Listed exports -/

namespace Understands

variable (understands : Understands made graph) (sound : made.Sound) (written : made.symbols.Written)
  (linked : graph.symbols.Linked)

include understands sound written linked

/-- What a module lists is the declaration of something that the written program provides. -/
theorem provides_listed {id : ModuleId} {name : String} {declaration : DeclId}
    (listed : (name, declaration) ∈ (graph.symbols.moduleAt id).resolvedExports) :
    ∃ origin, made.symbols.Provides (.internal id) name origin ∧
      graph.symbols.Interned origin declaration := by
  have answered := (linked.published (Symbols.lt_of_mem_resolvedExports listed)).mem listed
  have spec := graph.symbols.resolveExport?_sound_complete (.internal id) name
  rw [answered] at spec
  obtain ⟨origin, provided, interned⟩ := spec
  obtain ⟨first, before, means⟩ :=
    provides_before understands.annotates sound written understands.faithful provided
  exact ⟨first, before, means.interned (.refl _) (Symbols.interned_of_intern_eq interned)⟩

omit sound written in
/-- A module lists a name that it exports itself if it provides it. -/
theorem listed_of_provides {id : ModuleId} {name : String} {entry : Export} {origin : Origin}
    (exported : (graph.symbols.moduleAt id).exports[name]? = some entry)
    (provided : graph.symbols.Provides (.internal id) name origin) :
    ∃ declaration, (name, declaration) ∈ (graph.symbols.moduleAt id).resolvedExports := by
  have inside := Symbols.lt_of_export exported
  have published := linked.published inside
  have member : name ∈ graph.symbols.exportedNames id := by
    by_contra unlisted
    have absent := (Symbols.leadsTo_unlisted understands.sound.starModules_known inside unlisted .refl).2
    cases exported.symm.trans absent
  obtain ⟨found, answered⟩ := Symbols.Found.answered published member
  have spec := graph.symbols.resolveExport?_sound_complete (.internal id) name
  rw [answered] at spec
  cases found with
  | none => exact absurd provided (spec.2 origin)
  | some declaration => exact ⟨declaration, published.mem_of_answered member answered⟩

omit sound written in
theorem listed_own {id : ModuleId} {name : String} {declaration : DeclId}
    (exported : (graph.symbols.moduleAt id).exports[name]? = some (.own declaration)) :
    ∃ declaration, (name, declaration) ∈ (graph.symbols.moduleAt id).resolvedExports := by
  obtain ⟨origin, provided⟩ := Symbols.provides_own linked.targeted exported
  exact understands.listed_of_provides linked exported provided

/-- A module lists what it exports again exactly if the written program has it where it comes from. -/
theorem listed_again_iff {id : ModuleId} {name imported : String} {source : Provider}
    (exported : (graph.symbols.moduleAt id).exports[name]? = some (.again source imported)) :
    (∃ declaration, (name, declaration) ∈ (graph.symbols.moduleAt id).resolvedExports) ↔
      ∃ origin, made.symbols.Grants source imported origin := by
  have before := exported
  rw [understands.annotates.sameModules.exports] at before
  constructor
  · rintro ⟨declaration, listed⟩
    obtain ⟨origin, provided, -⟩ := understands.provides_listed sound written linked listed
    exact ⟨origin, (Symbols.provides_again_iff before).mp provided⟩
  · rintro ⟨origin, grants⟩
    obtain ⟨origin, provided⟩ :=
      provides_after understands.annotates sound ((Symbols.provides_again_iff before).mpr grants)
    exact understands.listed_of_provides linked exported provided

end Understands

end Graph

end Bundler
