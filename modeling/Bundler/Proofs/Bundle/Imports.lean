import Bundler.Proofs.Bundle.Warnings
import Bundler.Proofs.Draft.Building
import Bundler.Symbols.OutputText

/-! # Imports and their targets

An import may stand for another import, and that one for a further one.  A target is never found that way
halfway: whatever a program goes through, the target of an import is no import itself, and so is nothing
that a module provides.  To get from an import to what it denotes takes one step.
-/

namespace Bundler

namespace Symbols

/-- The text that refers to a declaration, read off the declaration itself or through the imports that lead
    to another one, and through how many of them.  Nothing bounds their number here. -/
inductive Refers (symbols : Symbols) (format : Format) : DeclId → (imports : Nat) → String → Prop where
  | declared {id statement} : (symbols.declarationAt id).kind = .declared statement →
    Refers symbols format id 0 ((symbols.declarationAt id).outputName.getD (symbols.declarationAt id).name)
  | namespaceOf {id owner} : (symbols.declarationAt id).kind = .namespaceOf owner →
    Refers symbols format id 0 ((symbols.declarationAt id).outputName.getD (symbols.declarationAt id).name)
  | linked {id source name target imports text} :
    (symbols.declarationAt id).kind = .imported source name (some target) →
    Refers symbols format target imports text → Refers symbols format id (imports + 1) text
  | unlinked {id source name} : (symbols.declarationAt id).kind = .imported source name none →
    Refers symbols format id 0 (symbols.declarationAt id).name
  | provided {id source name} : (symbols.declarationAt id).kind = .provided source name →
    Refers symbols format id 0
      (symbols.providedText format source name (symbols.declarationAt id).outputName)
  | free {id} : (symbols.declarationAt id).kind = .free →
    Refers symbols format id 0 (symbols.declarationAt id).name

variable {symbols : Symbols} {format : Format} {id target : DeclId} {source : Provider} {name : String}

/-- Without a target to go on to, the text is read off the declaration. -/
theorem refers_here (here : ∀ source name target,
      (symbols.declarationAt id).kind ≠ .imported source name (some target))
    (depth imports : Nat) (text : String) :
    symbols.Refers format id imports text ↔ imports = 0 ∧ text = symbols.textWithin format depth id := by
  constructor
  · intro refers
    cases refers with
    | declared kind | namespaceOf kind | unlinked kind | provided kind | free kind =>
        refine ⟨rfl, ?_⟩
        unfold textWithin
        simp only [kind]
    | linked kind => exact absurd kind (here _ _ _)
  · rintro ⟨rfl, rfl⟩
    unfold textWithin
    dsimp only
    split
    next kind => exact .declared kind
    next kind => exact .namespaceOf kind
    next kind => exact absurd kind (here _ _ _)
    next kind => exact .unlinked kind
    next kind => exact .free kind
    next kind => exact .provided kind

theorem refers_target (kind : (symbols.declarationAt id).kind = .imported source name (some target))
    (imports : Nat) (text : String) :
    symbols.Refers format id imports text ↔
      ∃ further, imports = further + 1 ∧ symbols.Refers format target further text := by
  constructor
  · intro refers
    cases refers with
    | linked kind' refers =>
        cases kind.symm.trans kind'
        exact ⟨_, rfl, refers⟩
    | declared kind' | namespaceOf kind' | unlinked kind' | provided kind' | free kind' =>
        cases kind.symm.trans kind'
  · rintro ⟨further, rfl, refers⟩
    exact .linked kind refers

theorem outputText_target (kind : (symbols.declarationAt id).kind = .imported source name (some target))
    (format : Format) : ∃ depth, symbols.outputText format id = symbols.textWithin format depth target := by
  obtain ⟨depth, size⟩ := Nat.exists_eq_succ_of_ne_zero (Nat.ne_zero_of_lt (lt_of_imported kind))
  refine ⟨depth, ?_⟩
  rw [outputText, size, textWithin]
  simp only [kind]

end Symbols

namespace Graph

open Symbols (Refers resolveExport?)

/-! ## States -/

/-- What a program goes through, while it is built and once it is finished.  Steps that fail count as
    well. -/
inductive Arises : Graph → Prop where
  | built {draft : Draft} : draft.Built → Arises draft.graph
  | reached {graph} : graph.Reachable → Arises graph

/-- What a program goes through from a successful link on. -/
inductive SinceLink : Graph → Prop where
  | link {graph linked} : graph.Reachable → Graph.link.outcome graph = (.ok (), linked) → SinceLink linked
  | run {graph} (phase : Phase) : SinceLink graph → phase.Applies graph → SinceLink (phase.run graph)

variable {graph : Graph}

theorem Arises.sound (arises : graph.Arises) : graph.Sound := by
  cases arises with
  | built built => exact built.sound
  | reached reachable => exact reachable.intact.sound

theorem SinceLink.reachable (since : graph.SinceLink) : graph.Reachable := by
  induction since with
  | link reachable linking =>
      have after := reachable.link
      rwa [linking] at after
  | run phase _ applies ih => exact ih.run applies

/-- No phase takes back what the link has found. -/
theorem OnceLinked.run (linked : graph.OnceLinked) {phase : Phase} (applies : phase.Applies graph) :
    (phase.run graph).OnceLinked := by
  have sound := linked.navigable.sound
  cases phase with
  | link => exact linked.develops (develops_link sound)
  | resolve options => exact linked.develops (develops_resolve sound options)
  | resolveNode options id => exact linked.resolveNode options applies
  | retainEntryExports => exact linked.sameProgram (alike_retainAll _ _).sameProgram
  | retainNode id => exact linked.sameProgram (alike_retainFragment _ _).sameProgram
  | retainDeclaration id => exact linked.sameProgram (alike_retainWithin _ _ _).sameProgram
  | shake => exact linked.sameProgram (alike_shakeWithin _ _).sameProgram
  | assignNames options => exact linked.sameProgram (sameProgram_assignNames options _)
  | bundle options => exact linked.bundle options

theorem SinceLink.onceLinked (since : graph.SinceLink) : graph.OnceLinked := by
  induction since with
  | link reachable linking => exact .link reachable linking
  | run phase _ applies ih => exact ih.run applies

/-- A bundle starts with a link, so what it leaves behind once that has succeeded counts as well, even if
    the bundle fails. -/
theorem SinceLink.bundle {linked : Graph} (reachable : graph.Reachable)
    (linking : Graph.link.outcome graph = (.ok (), linked)) (options : Options) :
    SinceLink ((Graph.bundle options).outcome graph).2 := by
  have resolved : SinceLink ((Graph.resolve options).outcome linked).2 :=
    .run (.resolve options) (.link reachable linking) trivial
  rw [Graph.bundle, Step.outcome_bind, linking]
  dsimp only
  rw [Step.outcome_bind]
  generalize (Graph.resolve options).outcome linked = outcome at resolved
  obtain ⟨fault | _, middle⟩ := outcome
  · exact resolved
  · have retained : SinceLink middle.retainEntryExports := .run .retainEntryExports resolved trivial
    have shaken : SinceLink middle.retainEntryExports.shake.2 := .run .shake retained trivial
    simp only [Step.outcome_bind, Step.outcome_modify, Step.outcome_get, Step.outcome_ofExcept]
    exact .run (.assignNames options) shaken trivial

theorem SinceLink.targeted (since : graph.SinceLink) (id : DeclId) : graph.Targeted id := fun _ _ kind =>
  since.onceLinked.navigable.connected id (Symbols.lt_of_imported kind) _ _ kind

/-! ## Targets and traces -/

namespace Sound

theorem target_final (sound : graph.Sound) {id target : DeclId} {source : Provider} {name : String}
    (kind : (graph.symbols.declarationAt id).kind = .imported source name (some target)) :
    graph.Final target := by
  obtain ⟨_, -, -, found⟩ := (sound.declarations (Symbols.lt_of_imported kind)).imported kind
  exact (found target rfl).2

/-- What a module provides is no import, however many modules and imports the search has gone through. -/
theorem trace_final (sound : graph.Sound) {source : Provider} (known : graph.HasProvider source)
    {name : String} {found : DeclId} {after : Symbols}
    (traced : (resolveExport? source name).outcome graph.symbols = (.ok (some found), after)) :
    (graph.withSymbols after).Final found := by
  obtain ⟨-, finds⟩ := develops_resolveExport? sound known name
  rw [traced] at finds
  cases source with
  | internal id => exact (finds found rfl id .refl).2
  | external id => exact (finds found rfl default trivial).2

theorem denoted_final (sound : graph.Sound) {id : DeclId} (targeted : graph.Targeted id) :
    graph.Final (graph.symbols.denoted id) := by
  rw [Symbols.denoted]
  split
  next kind => exact sound.target_final kind
  next other =>
      rintro source name (_ | target) kind
      · exact targeted source name kind
      · exact other source name target kind

end Sound

theorem Final.denoted {id : DeclId} (final : graph.Final id) : graph.symbols.denoted id = id := by
  rw [Symbols.denoted]
  split
  next kind => exact absurd kind (final _ _ _)
  next => rfl

/-- The text of a declaration is read through one import if the declaration is an import with a target, and
    through none otherwise. -/
theorem Sound.refers_iff (sound : graph.Sound) (format : Format) (id : DeclId) : ∃ imports ≤ 1,
    ∀ n text, graph.symbols.Refers format id n text ↔
      n = imports ∧ text = graph.symbols.outputText format id := by
  by_cases linked : ∃ source name target,
      (graph.symbols.declarationAt id).kind = .imported source name (some target)
  · obtain ⟨source, name, target, kind⟩ := linked
    obtain ⟨depth, same⟩ := Symbols.outputText_target kind format
    -- The target is final, so the reading stops there.
    have final := sound.target_final kind
    refine ⟨1, Nat.le_refl 1, fun n text => ?_⟩
    rw [Symbols.refers_target kind, same]
    simp only [Symbols.refers_here (fun source name target => final source name (some target)) depth]
    constructor
    · rintro ⟨_, rfl, rfl, read⟩
      exact ⟨rfl, read⟩
    · rintro ⟨rfl, read⟩
      exact ⟨0, rfl, rfl, read⟩
  · refine ⟨0, Nat.zero_le 1, fun n text => ?_⟩
    exact Symbols.refers_here (fun source name target kind => linked ⟨source, name, target, kind⟩) _ n text

/-- In every state that a program goes through, the target of an import is no import, and neither is what a
    search for an export leads to.  From a successful link on, every import has a target, so what a
    declaration denotes is never an import and denotes itself, and the text of a declaration is read through
    one import at most. -/
theorem targets_final :
    (∀ graph, Arises graph →
      (∀ id source name target,
        (graph.symbols.declarationAt id).kind = .imported source name (some target) → graph.Final target) ∧
      ∀ source, graph.HasProvider source → ∀ name found after,
        (resolveExport? source name).outcome graph.symbols = (.ok (some found), after) →
          (graph.withSymbols after).Final found) ∧
    ∀ graph, SinceLink graph →
      (∀ id source name target, (graph.symbols.declarationAt id).kind = .imported source name target →
        target.isSome) ∧
      (∀ id, graph.Final (graph.symbols.denoted id) ∧
        graph.symbols.denoted (graph.symbols.denoted id) = graph.symbols.denoted id) ∧
      ∀ format id, ∃ imports ≤ 1, ∀ n text, graph.symbols.Refers format id n text ↔
        n = imports ∧ text = graph.symbols.outputText format id := by
  constructor
  · intro graph arises
    exact ⟨fun _ _ _ _ => arises.sound.target_final, fun _ known _ _ _ => arises.sound.trace_final known⟩
  · intro graph since
    have sound := since.reachable.intact.sound
    refine ⟨fun id source name target kind => ?_, fun id => ?_, sound.refers_iff⟩
    · cases target with
      | none => exact absurd kind (since.targeted id source name)
      | some target => rfl
    · have final := sound.denoted_final (since.targeted id)
      exact ⟨final, final.denoted⟩

end Graph

/-- A module imports a name from another one, which only hands it on from a third one.  The first import is
    linked before the second. -/
def Draft.handed : Draft :=
  let draft := (((Draft.addModule {} "main").2.addModule "index").2.addModule "lib").2
  let draft := ((importFrom ⟨0⟩ (.internal ⟨1⟩) "x" "y").outcome draft).2
  let draft := ((importFrom ⟨1⟩ (.internal ⟨2⟩) "x" "x").outcome draft).2
  let draft := draft.exportLocal ⟨1⟩ "x" "x"
  ((declare ⟨2⟩ .constant "x" (some (.literal () .null)) true).outcome draft).2

/-- The program with the first of the modules as its entry. -/
def Graph.handed : Graph := (Draft.handed.finish ⟨0⟩).toOption.getD Draft.handed.graph

theorem Draft.built_handed : Draft.handed.Built := by
  refine .declare (.exportLocal (.importFrom (.importFrom (.addModule (.addModule
    (.addModule .empty "main") "index") "lib") ?_ ?_ _ _) ?_ ?_ _ _) ?_ _ _) ?_ _ _ _ _
  all_goals decide

theorem Graph.made_handed : Graph.handed.Made := by
  refine .finish Draft.built_handed (by decide) (?_ : Draft.handed.finish ⟨0⟩ = .ok Graph.handed)
  have succeeds : (Draft.handed.finish ⟨0⟩).isOk = true := by decide +kernel
  rw [Graph.handed]
  cases finished : Draft.handed.finish ⟨0⟩ with
  | ok graph => rfl
  | error fault =>
      rw [finished] at succeeds
      cases succeeds

namespace Graph

/-- Before the link the search for the name goes through an import that has no target yet, and what it finds
    is no import.  After a bundle both imports have it as their target, and the text that refers to the first
    one is that of its target. -/
theorem targets_handed : ∃ found bundled,
    (∃ after, (Symbols.resolveExport? (.internal ⟨1⟩) "x").outcome handed.symbols =
      (.ok (some found), after) ∧ (handed.withSymbols after).Final found) ∧
    SinceLink bundled ∧ bundled.Final found ∧ bundled.symbols.denoted ⟨3⟩ = found ∧
    bundled.symbols.denoted ⟨4⟩ = found ∧ bundled.symbols.denoted found = found ∧
    ∃ imports ≤ 1, bundled.symbols.Refers .es ⟨3⟩ imports "x" := by
  obtain ⟨always, since⟩ := targets_final
  have traced : ((Symbols.resolveExport? (.internal ⟨1⟩) "x").outcome handed.symbols).1 =
      .ok (some ⟨5⟩) := by decide +kernel
  have linking : (link.outcome handed).1 = .ok () := by decide +kernel
  have first : ((bundle {}).outcome handed).2.symbols.denoted ⟨3⟩ = ⟨5⟩ := by decide +kernel
  have second : ((bundle {}).outcome handed).2.symbols.denoted ⟨4⟩ = ⟨5⟩ := by decide +kernel
  have text : ((bundle {}).outcome handed).2.symbols.outputText .es ⟨3⟩ = "x" := by decide +kernel
  have known : handed.HasProvider (.internal ⟨1⟩) := by decide +kernel
  have bundled : SinceLink ((bundle {}).outcome handed).2 :=
    .bundle (.made made_handed) (Step.outcome_eq linking) {}
  obtain ⟨-, finds⟩ := always _ (.reached (.made made_handed))
  obtain ⟨-, denoted, refers⟩ := since _ bundled
  obtain ⟨final, again⟩ := denoted ⟨3⟩
  obtain ⟨imports, few, reads⟩ := refers .es ⟨3⟩
  rw [first] at final again
  exact ⟨⟨5⟩, _, ⟨_, Step.outcome_eq traced, finds _ known _ _ _ (Step.outcome_eq traced)⟩, bundled, final,
    first, second, again, imports, few, (reads _ _).mpr ⟨rfl, text.symm⟩⟩

end Graph

end Bundler
