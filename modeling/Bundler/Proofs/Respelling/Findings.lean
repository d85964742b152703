import Bundler.Proofs.Bundle.Warnings
import Bundler.Proofs.Respelling.Shaking

/-! # Findings about respelled programs

It does not matter whether a property is read behind a dot or in brackets.  Linking, resolving and shaking
find out the same, node by node, declaration by declaration and warning by warning.
-/

namespace Bundler

namespace Graph

variable {graph other : Graph}

/-- The phases that find out what a bundle is made of. -/
def Phase.analysis (options : Options) : List Phase :=
  [.link, .resolve options, .retainEntryExports, .shake]

/-- The same has been found out about two programs, the second of which has more literals. -/
structure SameFindings (graph other : Graph) : Prop where
  /-- Nodes that stand for each other are resolved and included alike, and the literals that have been added
      are nothing. -/
  statements : ∀ id, List.Forall₂
    (Statement.Respells
      (fun label label' => other.resolutionAt label'.id = graph.resolutionAt label.id ∧
        other.includesNode label'.id = graph.includesNode label.id)
      fun label' => other.resolutionAt label'.id = none)
    (graph.statements id) (other.statements id)
  /-- Declarations differ in no more than the ids of the statements that make them. -/
  declarations : ∀ id,
    (other.symbols.declarationAt id).outline = (graph.symbols.declarationAt id).outline
  included : ∀ id, other.includesDeclaration id = graph.includesDeclaration id
  externals : ∀ id, (other.symbols.externalAt id).name = (graph.symbols.externalAt id).name
  /-- Warnings differ in no more than the ranges that they point to. -/
  warnings : List.Forall₂ Diagnostic.SameReport graph.warnings.toList other.warnings.toList

theorem Respells.findings {n : Nat} {pairs : NodeId → NodeId → Prop}
    (respells : Respells n pairs graph other) : SameFindings graph other where
  statements id := by
    refine (respells.statements id).imp fun _ _ => Statement.Respells.mono (fun paired => ?_) fun lone => ?_
    · exact ⟨respells.resolutionAt paired, congrArg Mark.included (respells.markAt paired)⟩
    · exact respells.alone lone.2.2
  declarations := respells.declarationAt
  included id := (congrArg Declaration.included (respells.declarationAt id) :)
  externals id := by rw [respells.externalAt]
  warnings := respells.warnings

/-- Linking and resolving lets no more statements declare something. -/
theorem statedWithin_resolve (sound : graph.Sound) (options : Options) :
    ((resolve options).outcome (link.outcome graph).2).2.symbols.StatedWithin
      graph.symbols.declarations.size := by
  have lasting := Symbols.StatedWithin.lasting graph.symbols.declarations.size
  have linked := lasting.graph_link graph.nodes graph ⟨rfl, fun _ _ inside _ => inside⟩
  exact (lasting.resolve sound.arena (mentions_any _) (fun _ => trivial) options _ linked).2

/-- The analysis of finished programs that respell each other finds out the same. -/
theorem Respells.analysis {n : Nat} {pairs : NodeId → NodeId → Prop} (respells : Respells n pairs graph other)
    (counterparts : Counterparts pairs graph other) (made : graph.Made) (made' : other.Made)
    (options : Options) :
    (Graph.link.outcome other).1 = (Graph.link.outcome graph).1 ∧
    ((resolve options).outcome (Graph.link.outcome other).2).1 =
      ((resolve options).outcome (Graph.link.outcome graph).2).1 ∧
    SameFindings ((Phase.analysis options).foldl Phase.run graph)
      ((Phase.analysis options).foldl Phase.run other) := by
  obtain ⟨linking, linked⟩ := respells.link
  obtain ⟨resolving, resolved⟩ := lockstep_resolve options _ _ linked
  have develops := (develops_link made.sound).trans (develops_resolve linked.sound options)
  have develops' := (develops_link made'.sound).trans (develops_resolve linked.sound' options)
  have shaken := resolved.shake
    (counterparts.develop develops.toAnnotates develops'.toAnnotates
      (Draft.declarations_of_outline respells.outline) (statedWithin_resolve made.sound options))
    (develops.selection.trans made.selection) (develops'.selection.trans made'.selection)
  exact ⟨linking.eq, resolving.eq, shaken.findings⟩

end Graph

/-- Reading properties behind dots or in brackets makes no difference: finishing fails for the same reason, if
    it does, linking and resolving have the same results, and in the end the same has been found out. -/
theorem Draft.Respelled.sameFindings {draft draft' : Draft} (respelled : Respelled draft draft')
    {entry : ModuleId} (there : draft.graph.HasProvider (.internal entry)) (options : Options) :
    Step.Results
      (fun graph other => (Graph.link.outcome other).1 = (Graph.link.outcome graph).1 ∧
        ((Graph.resolve options).outcome (Graph.link.outcome other).2).1 =
          ((Graph.resolve options).outcome (Graph.link.outcome graph).2).1 ∧
        Graph.SameFindings ((Graph.Phase.analysis options).foldl Graph.Phase.run graph)
          ((Graph.Phase.analysis options).foldl Graph.Phase.run other))
      (draft.finish entry) (draft'.finish entry) := by
  have results := respelled.finish there
  generalize draft.finish entry = result, draft'.finish entry = result' at results
  cases results with
  | error => exact .error
  | ok programs =>
      obtain ⟨made, made', pairs, counterparts, respells⟩ := programs
      exact .ok (respells.analysis counterparts made made' options)

/-! ## A program in two spellings -/

/-- A module reads properties of two namespaces, one of which does not have a property that is read.  How a
    property is read is left open. -/
def Draft.spelled (read : Expr Unit → String → Expr Unit) : Draft :=
  let draft := (Draft.addModule {} "lib").2
  let draft := (draft.addModule "main").2
  let draft := (draft.addExternal "ext").2
  let draft := ((declare ⟨0⟩ .constant "make" (some (.literal () .null)) true).outcome draft).2
  let draft := ((importFrom ⟨1⟩ (.internal ⟨0⟩) wholeModule "lib").outcome draft).2
  let draft := ((importFrom ⟨1⟩ (.external ⟨0⟩) wholeModule "ext").outcome draft).2
  (draft.addExpression ⟨1⟩ (.call () (read (read (.ident () "lib") "make") "first")
    [read (.ident () "lib") "absent", read (read (.ident () "ext") "outer") "inner"])).2

/-- The program with all properties behind dots. -/
def Draft.dotted : Draft := spelled (.member ())

/-- The program with all properties in brackets. -/
def Draft.bracketed : Draft := spelled fun object key => .index () object (.literal () (.string key))

theorem Draft.respelled_bracketed : Respelled dotted bracketed := by
  have read : ∀ {object object' : Expr Unit} {key : String}, Identifier.isPlain key = true →
      object.Bracketed object' →
      (Expr.member () object key).Bracketed (.index () object' (.literal () (.string key))) :=
    fun plain below => .bracketed plain trivial trivial below
  have name : ∀ name : String, (Expr.ident () name).Bracketed (.ident () name) := fun _ => .ident trivial
  have modules := ((Respelled.empty.addModule "lib").addModule "main").addExternal "ext"
  refine .addExpression (.importFrom (.importFrom (.declare modules ?_ _ _ _ ?_) ?_ ?_ _ _) ?_ ?_ _ _) ?_ ?_
  · decide
  · exact .some (.literal trivial)
  · decide
  · decide
  · decide
  · decide
  · decide
  · refine .call trivial (read ?_ (read ?_ (name "lib"))) (.cons (read ?_ (name "lib")) (.cons ?_ .nil))
    · decide
    · decide
    · decide
    · exact read (by decide) (read (by decide) (name "ext"))

/-- In both spellings what is read from `lib` is included, and there is a warning about what it lacks. -/
theorem Draft.sameFindings_bracketed : ∃ graph other, dotted.finish ⟨1⟩ = .ok graph ∧
    bracketed.finish ⟨1⟩ = .ok other ∧
    Graph.SameFindings ((Graph.Phase.analysis {}).foldl Graph.Phase.run graph)
      ((Graph.Phase.analysis {}).foldl Graph.Phase.run other) ∧
    ((Graph.Phase.analysis {}).foldl Graph.Phase.run other).includesDeclaration ⟨2⟩ = true ∧
    ((Graph.Phase.analysis {}).foldl Graph.Phase.run other).warnings.size = 1 := by
  have here : dotted.finish ⟨1⟩ = .ok { dotted.graph with entry := ⟨1⟩ } := rfl
  have there : bracketed.finish ⟨1⟩ = .ok { bracketed.graph with entry := ⟨1⟩ } := rfl
  have entry : dotted.graph.HasProvider (.internal ⟨1⟩) := by decide
  have results := respelled_bracketed.sameFindings entry {}
  rw [here, there] at results
  cases results with
  | ok findings => exact ⟨_, _, here, there, findings.2.2, by decide +kernel, by decide +kernel⟩

end Bundler
