import Bundler.Proofs.Bundle.Prepared
import Bundler.Proofs.Graph.Lasting
import Bundler.Proofs.Respelling.Drafts

/-! # Respelled programs

What has been found out about a program is in step with what has been found out about a respelled one: nodes
that stand for each other have the same mark, the symbols have the same outline, and the warnings say the
same.  Whatever is done to both of them, they stay in step.
-/

namespace Bundler

open Step (Lockstep)

/-- The reports differ in no more than where in the file they point to. -/
def Diagnostic.SameReport (report other : Diagnostic) : Prop :=
  ∃ range, other = { report with primary := { report.primary with range } }

namespace Graph

variable {graph other : Graph} {pairs : NodeId → NodeId → Prop}

/-- The same is known about both programs.  About the nodes of the second one that stand for nothing, nothing
    is known. -/
structure InStep (pairs : NodeId → NodeId → Prop) (graph other : Graph) : Prop where
  unique : Relator.BiUnique pairs
  outline : other.symbols.outline = graph.symbols.outline
  scopes : other.scopes = graph.scopes
  entry : other.entry = graph.entry
  order : other.order = graph.order
  marked : ∀ {i i'}, pairs i i' → i.index < graph.marks.size ∧ i'.index < other.marks.size
  markAt : ∀ {i i'}, pairs i i' → other.markAt i' = graph.markAt i
  alone : ∀ {i'}, (∀ i, ¬ pairs i i') → other.resolutionAt i' = none
  warnings : List.Forall₂ Diagnostic.SameReport graph.warnings.toList other.warnings.toList

namespace InStep

variable (inStep : InStep pairs graph other)

include inStep

theorem resolutionAt {i i' : NodeId} (paired : pairs i i') :
    other.resolutionAt i' = graph.resolutionAt i := by
  rw [Graph.resolutionAt, inStep.markAt paired]
  rfl

theorem moduleAt (id : ModuleId) :
    (other.symbols.moduleAt id).outline = (graph.symbols.moduleAt id).outline := by
  rw [← Symbols.moduleAt_outline, inStep.outline, Symbols.moduleAt_outline]

theorem declarationAt (id : DeclId) :
    (other.symbols.declarationAt id).outline = (graph.symbols.declarationAt id).outline := by
  rw [← Symbols.declarationAt_outline, inStep.outline, Symbols.declarationAt_outline]

theorem externalAt (id : ExternalId) : other.symbols.externalAt id = graph.symbols.externalAt id := by
  rw [← Symbols.externalAt_outline, inStep.outline, Symbols.externalAt_outline]

theorem kind (id : DeclId) : (other.symbols.declarationAt id).kind.outline =
    (graph.symbols.declarationAt id).kind.outline :=
  congrArg Declaration.kind (inStep.declarationAt id)

theorem specifier (source : Provider) : other.symbols.specifier source = graph.symbols.specifier source := by
  rw [← Symbols.specifier_outline, inStep.outline, Symbols.specifier_outline]

/-! ## Changes on both sides -/

theorem withSymbols {symbols symbols' : Symbols} (outline : symbols'.outline = symbols.outline) :
    InStep pairs (graph.withSymbols symbols) (other.withSymbols symbols') :=
  { inStep with outline := outline }

/-- The marks of nodes that stand for each other change in the same way. -/
theorem modifyMark {i i' : NodeId} (paired : pairs i i') (change : Mark → Mark) :
    InStep pairs (graph.modifyMark i change) (other.modifyMark i' change) := by
  have sizes : ∀ {graph : Graph} {i : NodeId}, (graph.modifyMark i change).marks.size = graph.marks.size := by
    intro graph i
    exact Array.size_modify
  obtain ⟨inside, inside'⟩ := inStep.marked paired
  refine { inStep with marked := ?_, markAt := ?_, alone := ?_ }
  · intro j j' here
    rw [sizes, sizes]
    exact inStep.marked here
  · intro j j' here
    rw [markAt_modifyMark, markAt_modifyMark, inStep.markAt here]
    have same : j' = i' ↔ j = i :=
      ⟨fun same => inStep.unique.1 (same ▸ here) paired, fun same => inStep.unique.2 (same ▸ here) paired⟩
    simp only [same, inside, inside']
  · intro j' alone
    have different : j' ≠ i' := fun same => alone i (same ▸ paired)
    rw [Graph.resolutionAt, markAt_modifyMark_of_ne different]
    exact inStep.alone alone

/-- Looking at a node that stands for nothing says nothing about it. -/
theorem lookAlone {i' : NodeId} (alone : ∀ i, ¬ pairs i i') :
    InStep pairs graph (other.modifyMark i' fun mark => { mark with bound := true }) := by
  refine { inStep with marked := ?_, markAt := ?_, alone := ?_ }
  · intro j j' here
    rw [Graph.modifyMark, Array.size_modify]
    exact inStep.marked here
  · intro j j' here
    have different : j' ≠ i' := fun same => alone j (same ▸ here)
    rw [markAt_modifyMark_of_ne different]
    exact inStep.markAt here
  · intro j' lonely
    rw [Graph.resolutionAt, markAt_modifyMark]
    split
    · exact inStep.alone lonely
    · exact inStep.alone lonely

end InStep

/-! ## Linking -/

theorem lockstep_onSymbols {α : Type} {step : Step Symbols α} (outlines : Symbols.Outlines step) :
    Lockstep (InStep pairs) Eq (onSymbols step) (onSymbols step) := by
  intro graph other inStep
  rw [onSymbols_outcome, onSymbols_outcome]
  obtain ⟨results, outline⟩ := outlines.of_eq inStep.outline
  refine ⟨?_, inStep.withSymbols outline⟩
  dsimp only
  rw [results]
  cases (step.outcome graph.symbols).1 with
  | ok => exact .ok rfl
  | error => exact .error

/-- Sound programs that are in step, with statements that stand for each other. -/
structure Respells (n : Nat) (pairs : NodeId → NodeId → Prop) (graph other : Graph) : Prop
    extends InStep pairs graph other where
  sound : graph.Sound
  sound' : other.Sound
  statements : ∀ id, List.Forall₂ (Statement.Respells (PairedLabels pairs) (Lone 0 n pairs))
    (graph.statements id) (other.statements id)

namespace Respells

variable {n : Nat} (respells : Respells n pairs graph other)

include respells

/-- Sound programs respell each other as long as they are in step, whatever has been found out. -/
theorem develop {after after' : Graph} (inStep : InStep pairs after after') (develops : Develops graph after)
    (develops' : Develops other after') : Respells n pairs after after' :=
  { inStep with
    sound := develops.sound respells.sound
    sound' := develops'.sound respells.sound'
    statements := fun id => by
      rw [develops.statements, develops'.statements]
      exact respells.statements id }

theorem executionOrder : other.executionOrder = graph.executionOrder := by
  have dependencies : other.dependencies = graph.dependencies := by
    funext id
    rw [Graph.dependencies, Graph.dependencies]
    have statements := respells.statements id
    generalize graph.statements id = statements, other.statements id = statements' at statements
    induction statements with
    | nil => rfl
    | cons here _ ih => rw [List.filterMap_cons, List.filterMap_cons, here.source?, ih]
  rw [Graph.executionOrder, Graph.executionOrder, dependencies, respells.entry,
    Draft.modules_of_outline respells.outline]

/-- Linking has the same result for both programs. -/
theorem link : Step.Results Eq (link.outcome graph).1 (link.outcome other).1 ∧
    Respells n pairs (link.outcome graph).2 (link.outcome other).2 := by
  obtain ⟨results, inStep⟩ := lockstep_onSymbols Symbols.outlines_link graph other respells.toInStep
  have develops := (develops_linkSymbols respells.sound).1
  have develops' := (develops_linkSymbols respells.sound').1
  rw [onSymbols_outcome, onSymbols_outcome] at results inStep
  have linked := respells.develop inStep develops develops'
  suffices both : Step.Results Eq (Graph.link.outcome graph).1 (Graph.link.outcome other).1 ∧
      InStep pairs (Graph.link.outcome graph).2 (Graph.link.outcome other).2 from
    ⟨both.1, respells.develop both.2 (develops_link respells.sound) (develops_link respells.sound')⟩
  rw [link_outcome, link_outcome]
  generalize Symbols.link.outcome graph.symbols = result, Symbols.link.outcome other.symbols = result'
    at results linked
  obtain ⟨result, symbols⟩ := result
  obtain ⟨result', symbols'⟩ := result'
  cases results with
  | error => exact ⟨.error, linked.toInStep⟩
  | ok => exact ⟨.ok rfl, { linked.toInStep with order := linked.executionOrder }⟩

end Respells

end Graph

/-! ## Finishing -/

namespace Draft

variable {draft draft' : Draft}

/-- Making the export of a local name is refused for both drafts, or for none. -/
theorem Alongside.finishExport (alongside : Alongside draft draft') (item : ModuleId × String × String) :
    Step.Results
      (fun symbols symbols' => Alongside { draft with symbols } { draft' with symbols := symbols' })
      (Draft.finishExport draft.scopes draft.symbols item)
      (Draft.finishExport draft'.scopes draft'.symbols item) := by
  obtain ⟨owner, binding, exported⟩ := item
  have bindings : draft'.scopes.binding? owner.scope binding = draft.scopes.binding? owner.scope binding := by
    rw [alongside.scopes]
  rw [Draft.finishExport, Draft.finishExport, bindings]
  cases draft.scopes.binding? owner.scope binding with
  | some id => exact alongside.resultsOfAddExport owner exported (.own id)
  | none =>
      rw [alongside.moduleId]
      exact .error

theorem Alongside.finishExports (alongside : Alongside draft draft')
    (items : List (ModuleId × String × String)) :
    Step.Results
      (fun symbols symbols' => Alongside { draft with symbols } { draft' with symbols := symbols' })
      (items.foldlM (Draft.finishExport draft.scopes) draft.symbols)
      (items.foldlM (Draft.finishExport draft'.scopes) draft'.symbols) := by
  induction items generalizing draft draft' with
  | nil => exact .ok alongside
  | cons item rest ih =>
      have first := alongside.finishExport item
      rw [List.foldlM_cons, List.foldlM_cons]
      generalize Draft.finishExport draft.scopes draft.symbols item = result,
        Draft.finishExport draft'.scopes draft'.symbols item = result' at first
      cases first with
      | ok after => exact ih after
      | error => exact .error

/-- Finishing respelled drafts is refused for both of them with the same fault, or it gives respelled
    programs. -/
theorem Respelled.finish (respelled : Respelled draft draft') {entry : ModuleId}
    (there : draft.graph.HasProvider (.internal entry)) :
    Step.Results
      (fun graph other => graph.Made ∧ other.Made ∧ ∃ pairs, Graph.Counterparts pairs graph other ∧
        Graph.Respells other.nodes.size pairs graph other)
      (draft.finish entry) (draft'.finish entry) := by
  have alongside := respelled.alongside
  obtain ⟨built, built'⟩ := respelled.built
  have results := alongside.finishExports draft.localExports.toList
  have made : ∀ {graph}, draft.finish entry = .ok graph → graph.Made := .finish built there
  have made' : ∀ {graph}, draft'.finish entry = .ok graph → graph.Made := .finish built' (respelled.has there)
  rw [Draft.finish] at made ⊢
  rw [Draft.finish] at made' ⊢
  rw [alongside.localExports] at made' ⊢
  generalize draft.localExports.toList.foldlM (Draft.finishExport draft.scopes) draft.symbols = result,
    draft.localExports.toList.foldlM (Draft.finishExport draft'.scopes) draft'.symbols = result'
    at results made made'
  cases results with
  | error => exact .error
  | @ok symbols symbols' finished =>
      have made := made rfl
      have made' := made' rfl
      obtain ⟨pairs, counterparts⟩ := finished.counterparts
      have counterparts : Graph.Counterparts pairs { (Draft.graph { draft with symbols }) with entry }
          { (Draft.graph { draft' with symbols := symbols' }) with entry } :=
        counterparts.frame rfl rfl (fun _ => rfl) (fun _ => rfl) rfl rfl
      have statements := counterparts.statements made.sound made'.sound
      have inside : ∀ {i i'}, pairs i i' → i.index < draft.nodes.size ∧ i'.index < draft'.nodes.size :=
        fun paired => ⟨(counterparts.pairing.inside paired).2, (counterparts.pairing.inside' paired).2⟩
      exact .ok ⟨made, made', pairs, counterparts, {
        unique := counterparts.pairing.unique
        outline := finished.outline
        scopes := finished.scopes
        entry := rfl
        order := rfl
        marked := fun paired => by simpa using inside paired
        markAt := fun {i i'} _ => (made'.markAt i').trans (made.markAt i).symm
        alone := fun {i'} _ => congrArg Mark.resolution (made'.markAt i')
        warnings := .nil
        sound := made.sound
        sound' := made'.sound
        statements := statements }⟩

end Draft

end Bundler
