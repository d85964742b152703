import Bundler.Proofs.Respelling.Programs

/-! # Resolving respelled programs

However its keys are spelled, a chain of property reads has the same root and the same keys, so it is
followed in the same way.  Where it leads nowhere, its parts are looked at one by one.  A key in brackets is
such a part, but there is nothing to be found out about a literal.
-/

namespace Bundler

open Step (Lockstep)

namespace Graph

variable {n : Nat} {pairs : NodeId → NodeId → Prop} {options : Options} {owner : ModuleId}

/-- Both ways lead to the same, up to the place of a key that is missing. -/
inductive SameDestination : Destination → Destination → Prop where
  | declaration (id : DeclId) : SameDestination (.declaration id) (.declaration id)
  | missing (exporter : Provider) {key key' : ChainKey} : key'.name = key.name →
    SameDestination (.missing exporter key) (.missing exporter key')
  | beyond : SameDestination .beyond .beyond

/-! ## Single nodes -/

theorem lockstep_settle {i i' : NodeId} (paired : pairs i i') (resolution : Resolution) :
    Lockstep (InStep pairs) Eq (settle i resolution) (settle i' resolution) :=
  .change fun _ _ inStep => inStep.modifyMark paired _

theorem lockstep_once {i i' : NodeId} (paired : pairs i i') {step step' : Step Graph Unit}
    (lockstep : Lockstep (InStep pairs) Eq step step') :
    Lockstep (InStep pairs) Eq (once i step) (once i' step') := by
  refine .get fun graph other inStep => ?_
  rw [inStep.markAt paired]
  cases (graph.markAt i).bound with
  | true => exact .pure rfl
  | false => exact .bind (.change fun _ _ inStep => inStep.modifyMark paired _) fun _ _ _ => lockstep

/-- Looking at a literal that stands for nothing leaves the programs in step. -/
theorem lockstep_alone {i' : NodeId} (alone : ∀ i, ¬ pairs i i') :
    Lockstep (InStep pairs) Eq (pure ()) (once i' (pure ())) := by
  intro graph other inStep
  rw [once, Step.outcome_bind, Step.outcome_get]
  dsimp only
  split
  · exact ⟨.ok rfl, inStep⟩
  · exact ⟨.ok rfl, inStep.lookAlone alone⟩

/-! ## Names and chains -/

theorem lockstep_lookup (name : String) :
    Lockstep (InStep pairs) Eq (lookup owner name) (lookup owner name) := by
  refine .changeGet fun graph other inStep => ?_
  have outline : ∀ symbols : Symbols, graph.scopes.find symbols.outline owner.scope name =
      ((graph.scopes.find symbols owner.scope name).1,
        (graph.scopes.find symbols owner.scope name).2.outline) := by
    intro symbols
    rw [Scopes.find, Scopes.find]
    split
    · rfl
    · exact symbols.globalDeclaration_outline name
  have scopes : other.scopes.find other.symbols owner.scope name =
      graph.scopes.find other.symbols owner.scope name := by
    rw [inStep.scopes]
  have found := outline other.symbols
  rw [inStep.outline, outline, Prod.mk.injEq] at found
  obtain ⟨same, after⟩ := found
  dsimp only
  rw [scopes, ← same]
  refine ⟨?_, inStep.withSymbols after.symm⟩
  rw [← Symbols.denoted_outline, after, Symbols.denoted_outline]

theorem lockstep_follow {keys keys' : List ChainKey}
    (same : List.Forall₂ (fun key key' : ChainKey => key'.name = key.name) keys keys') (id : DeclId) :
    Lockstep (InStep pairs) SameDestination (follow id keys) (follow id keys') := by
  induction same generalizing id with
  | nil => exact .pure (.declaration id)
  | @cons key key' _ _ name _ ih =>
      refine .get fun graph other inStep => ?_
      have named : (other.symbols.declarationAt id).namespace? =
          (graph.symbols.declarationAt id).namespace? := by
        rw [← Declaration.namespace?_outline, inStep.declarationAt, Declaration.namespace?_outline]
      rw [named, name]
      cases (graph.symbols.declarationAt id).namespace? with
      | none => exact .pure .beyond
      | some exporter =>
          have asked := Symbols.outlines_resolveExport? exporter key.name
          refine (lockstep_onSymbols asked).bind fun found _ same => ?_
          subst same
          cases found with
          | some next => exact ih next
          | none => exact .pure (.missing exporter name)

theorem lockstep_proposeFor (id : DeclId) (hint : String) :
    Lockstep (InStep pairs) Eq (proposeFor id hint) (proposeFor id hint) := by
  refine .change fun graph other inStep => ?_
  have proposed : ∀ source : ExternalId,
      InStep pairs (graph.withSymbols (graph.symbols.proposeName source hint))
        (other.withSymbols (other.symbols.proposeName source hint)) := by
    intro source
    have outline : ∀ symbols : Symbols, (symbols.proposeName source hint).outline =
        symbols.outline.proposeName source hint := fun _ => rfl
    refine inStep.withSymbols ?_
    rw [outline, outline, inStep.outline]
  have kinds := inStep.kind id
  generalize (graph.symbols.declarationAt id).kind = kind,
    (other.symbols.declarationAt id).kind = kind' at kinds
  rcases DeclarationKind.eq_of_outline kinds with rfl | ⟨_, _, rfl, rfl⟩
  · split
    · exact proposed _
    · exact inStep
  · exact inStep

theorem lockstep_warn (exporter : Provider) {key key' : ChainKey} (name : key'.name = key.name) :
    Lockstep (InStep pairs) Eq (warn options owner exporter key) (warn options owner exporter key') := by
  refine .change fun graph other inStep => ?_
  have report : Diagnostic.SameReport (missingExportWarning graph.symbols options owner exporter key)
      (missingExportWarning other.symbols options owner exporter key') := by
    have importer : (other.symbols.moduleAt owner).id = (graph.symbols.moduleAt owner).id :=
      (congrArg Module.id (inStep.moduleAt owner) :)
    refine ⟨key'.range.saturated, ?_⟩
    rw [missingExportWarning, missingExportWarning, name, importer, inStep.specifier]
    rfl
  refine { inStep with warnings := ?_ }
  rw [Array.toList_push, Array.toList_push]
  exact List.rel_append inStep.warnings (.cons report .nil)

theorem lockstep_conclude {i i' : NodeId} (paired : pairs i i') (root : String)
    {destination destination' : Destination} (same : SameDestination destination destination') :
    Lockstep (InStep pairs) Eq (conclude options owner i root destination)
      (conclude options owner i' root destination') := by
  cases same with
  | declaration id =>
      exact (lockstep_settle paired _).bind fun _ _ _ =>
        (lockstep_proposeFor id root).bind fun _ _ _ => .pure rfl
  | missing exporter name =>
      exact (lockstep_warn exporter name).bind fun _ _ _ =>
        (lockstep_settle paired _).bind fun _ _ _ => .pure rfl
  | beyond => exact (lockstep_settle paired _).bind fun _ _ _ => .pure rfl

/-- However its keys are spelled, an access turns out to be the same. -/
theorem lockstep_resolveAccess {access access' : Expr Label}
    (respells : access.Respells (PairedLabels pairs) (Lone 0 n pairs) access') :
    Lockstep (InStep pairs) Eq (resolveAccess options owner access)
      (resolveAccess options owner access') := by
  have paired : pairs access.id access'.id := respells.tag
  have beyond : Lockstep (InStep pairs) Eq (settle access.id .fallback >>= fun _ => pure false)
      (settle access'.id .fallback >>= fun _ => pure false) :=
    (lockstep_settle paired _).bind fun _ _ _ => .pure rfl
  have chains := respells.chain? access
  rw [resolveAccess, resolveAccess]
  generalize access.chain? = chain, access'.chain? = chain' at chains
  cases chains with
  | none => exact beyond
  | @some chain chain' same =>
      obtain ⟨root, keys⟩ := chain
      obtain ⟨root', keys'⟩ := chain'
      obtain ⟨roots, keys⟩ := same
      cases roots with
      | ident =>
          refine (lockstep_lookup _).bind fun id _ same => ?_
          subst same
          refine (lockstep_follow keys id).bind fun destination destination' same => ?_
          exact lockstep_conclude paired _ same
      | literal | member | bracketed | index | call | assign => exact beyond

/-! ## Expressions -/

mutual

theorem lockstep_resolveExpr : ∀ (e : Expr Label) {e' : Expr Label},
    e.Respells (PairedLabels pairs) (Lone 0 n pairs) e' →
    Lockstep (InStep pairs) Eq (resolveExpr options owner e) (resolveExpr options owner e')
  | .ident label name, _, .ident here => by
    rw [resolveExpr, resolveExpr]
    refine lockstep_once here ((lockstep_lookup name).bind fun id _ same => ?_)
    subst same
    exact lockstep_settle here _
  | .literal label value, _, .literal here => by
    rw [resolveExpr, resolveExpr]
    exact lockstep_once here (.pure rfl)
  | .member label object key, _, respells@(.member here below) => by
    rw [resolveExpr, resolveExpr]
    refine lockstep_once here ((lockstep_resolveAccess respells).bind fun settled _ same => ?_)
    subst same
    cases settled with
    | true => exact .pure rfl
    | false => exact lockstep_resolveExpr object below
  | .member label object key, _, respells@(.bracketed plain here alone below) => by
    rw [resolveExpr, resolveExpr]
    refine lockstep_once here ((lockstep_resolveAccess respells).bind fun settled _ same => ?_)
    subst same
    cases settled with
    | true => exact .pure rfl
    | false =>
        -- The key in brackets is looked at on the second side only.
        have below := lockstep_resolveExpr object below
        have both := below.bind fun _ _ _ => lockstep_alone alone.2.2
        rw [bind_pure_unit] at both
        exact both
  | .index label object key, _, respells@(.index here first second) => by
    rw [resolveExpr, resolveExpr]
    refine lockstep_once here ((lockstep_resolveAccess respells).bind fun settled _ same => ?_)
    subst same
    cases settled with
    | true => exact .pure rfl
    | false =>
        exact (lockstep_resolveExpr object first).bind fun _ _ _ => lockstep_resolveExpr key second
  | .call label callee arguments, _, .call here first rest => by
    rw [resolveExpr, resolveExpr]
    exact lockstep_once here ((lockstep_resolveExpr callee first).bind fun _ _ _ =>
      lockstep_resolveExprs arguments rest)
  | .assign label target value, _, .assign here first second => by
    rw [resolveExpr, resolveExpr]
    exact lockstep_once here ((lockstep_resolveExpr target first).bind fun _ _ _ =>
      lockstep_resolveExpr value second)

theorem lockstep_resolveExprs : ∀ (es : List (Expr Label)) {es' : List (Expr Label)},
    List.Forall₂ (Expr.Respells (PairedLabels pairs) (Lone 0 n pairs)) es es' →
    Lockstep (InStep pairs) Eq (resolveExprs options owner es) (resolveExprs options owner es')
  | [], _, .nil => by
    rw [resolveExprs]
    exact .pure rfl
  | e :: rest, _, .cons here later => by
    rw [resolveExprs, resolveExprs]
    exact (lockstep_resolveExpr e here).bind fun _ _ _ => lockstep_resolveExprs rest later

end

theorem lockstep_resolveStatement {statement statement' : Statement Label}
    (respells : statement.Respells (PairedLabels pairs) (Lone 0 n pairs) statement') :
    Lockstep (InStep pairs) Eq (resolveStatement options owner statement)
      (resolveStatement options owner statement') :=
  lockstep_once respells.tag (lockstep_resolveExprs _ respells.children)

/-! ## Programs -/

theorem lockstep_resolveModule (id : ModuleId) :
    Lockstep (Respells n pairs) Eq (resolveModule options id) (resolveModule options id) := by
  intro graph other respells
  have each : Lockstep (InStep pairs) Eq ((graph.statements id).forM (resolveStatement options id))
      ((other.statements id).forM (resolveStatement options id)) :=
    .forM ((respells.statements id).imp fun _ _ => lockstep_resolveStatement)
  obtain ⟨results, inStep⟩ := each graph other respells.toInStep
  exact ⟨results, respells.develop inStep (develops_resolveModule respells.sound options id)
    (develops_resolveModule respells.sound' options id)⟩

/-- Resolving has the same result for both programs. -/
theorem lockstep_resolve (options : Options) :
    Lockstep (Respells n pairs) Eq (resolve options) (resolve options) := by
  refine .get fun graph other respells => ?_
  rw [respells.order]
  exact .forM (List.forall₂_same.mpr fun id _ => lockstep_resolveModule id)

end Graph

end Bundler
