import Bundler.Proofs.Bundle.Again
import Bundler.Proofs.Bundle.Reachable
import Bundler.Proofs.Graph.Accesses

/-! # Once a program is linked

From then on every access with known keys is resolved by following its keys, whatever else is found out,
included or named before.  Where they lead to a declaration, or to one that is missing, the access is
settled as a whole; where they lead beyond all namespaces, its object is resolved on its own.
-/

namespace Bundler

namespace Graph

/-- A program that has been linked with success, and all that it becomes by finding out more, by
    including and by naming. -/
inductive OnceLinked : Graph → Prop where
  | link {graph linked} : Reachable graph → Graph.link.outcome graph = (.ok (), linked) →
    OnceLinked linked
  | develops {graph other} : OnceLinked graph → Develops graph other → OnceLinked other
  | sameProgram {graph other} : OnceLinked graph → SameProgram graph other → OnceLinked other

variable {graph other : Graph} {owner : ModuleId} {options : Options}

theorem Navigable.sameProgram (navigable : graph.Navigable) (same : SameProgram graph other) :
    other.Navigable := by
  have sound := navigable.sound
  refine navigable.of_sameExports (same.sound sound) (fun id there source name open_ => ?_)
    (same.annotates.sameExports sound navigable.connected) fun source there => ?_
  · exact navigable.connected id (Nat.lt_of_lt_of_eq there same.declarations) source name
      ((same.kind id).symm.trans open_)
  · cases source with
    | internal id => exact Nat.lt_of_lt_of_eq there (congrArg Array.size same.modules)
    | external id => exact Nat.lt_of_lt_of_eq there same.externals

namespace OnceLinked

theorem navigable (linked : graph.OnceLinked) : graph.Navigable := by
  induction linked with
  | link reachable linking =>
      have sound := reachable.intact.sound
      exact ((develops_of_link sound linking).sound sound).navigable (linked_of_link sound linking)
  | develops _ develops ih => exact ih.develops develops
  | sameProgram _ same ih => exact ih.sameProgram same

theorem resolveNode (linked : graph.OnceLinked) (options : Options) {id : NodeId}
    (inside : id.index < graph.nodes.size) : ((resolveNode options id).outcome graph).2.OnceLinked :=
  linked.develops (develops_resolveNode linked.navigable.sound inside options)

theorem bundle (linked : graph.OnceLinked) (options : Options) :
    ((bundle options).outcome graph).2.OnceLinked :=
  after_bundle (fun linked => linked.develops (develops_link linked.navigable.sound))
    (fun linked => linked.develops (develops_resolve linked.navigable.sound options))
    (fun linked => linked.sameProgram (alike_retainAll _ _).sameProgram)
    (fun linked => linked.sameProgram (alike_shakeWithin _ _).sameProgram)
    (fun linked => linked.sameProgram (sameProgram_assignNames options _)) linked

end OnceLinked

/-! ## Nodes and their expressions -/

theorem resolveNode_expr {e : Expr Label} (placed : Placed graph.nodes owner e) :
    (resolveNode options e.id).outcome graph = (resolveExpr options owner e).outcome graph := by
  rw [resolveNode, Step.outcome_bind, Step.outcome_get]
  dsimp only
  rw [nodeAt_of_getElem? placed]

/-- Resolving some expressions is resolving their nodes one after another. -/
theorem resolveExprs_eq_forM (sound : graph.Sound) {es : List (Expr Label)}
    (placed : ∀ e ∈ es, Placed graph.nodes owner e) :
    (resolveExprs options owner es).outcome graph =
      (es.forM fun e => resolveNode options e.id).outcome graph := by
  induction es generalizing graph with
  | nil =>
      rw [resolveExprs]
      rfl
  | cons e rest ih =>
      have here := placed e List.mem_cons_self
      have develops : Develops graph ((resolveExpr options owner e).outcome graph).2 :=
        (composes_improves sound.arena).resolveExpr e here graph sound rfl
      rw [resolveExprs, List.forM_eq_forM, List.forM_cons, Step.outcome_bind, Step.outcome_bind,
        resolveNode_expr here]
      cases outcome : (resolveExpr options owner e).outcome graph with
      | mk result middle =>
          rw [outcome] at develops
          cases result with
          | error fault => rfl
          | ok _ =>
              refine ih (develops.sound sound) fun other member => ?_
              exact develops.nodes ▸ placed other (List.mem_cons_of_mem _ member)

/-! ## Accesses -/

/-- Resolving an access with known keys that has not been looked at never fails and does exactly what its
    keys lead to, which is determined.

    If all keys can be followed, the access denotes the declaration that they lead to.  If a module lacks
    a key, the access is `undefined`, with one warning that names the key, the two modules and the place
    of the key.  In both cases no other node is touched, so the parts of the access are not looked at.
    If keys are left where there is no namespace, the access stands as it is written; then its parts are
    resolved one after another, the object by the same law, without a warning. -/
theorem resolveNode_chain (linked : graph.OnceLinked) (options : Options) {id : NodeId}
    {access : Expr Label} (found : graph.nodes[id.index]? = some ⟨owner, .expr access⟩)
    {label : Label} {root : String} {keys : List ChainKey}
    (chain : access.chain? = some (.ident label root, keys)) (nonempty : keys ≠ [])
    (unbound : (graph.markAt id).bound = false) :
    ∃ symbols destination after, graph.Leads owner root keys symbols destination ∧
      (∀ symbols' destination', graph.Leads owner root keys symbols' destination' →
        destination' = destination) ∧
      (resolveNode options id).outcome graph = (.ok (), after) ∧
      match destination with
      | .declaration last => Notes graph after id (.declaration last) #[]
      | .missing exporter key => ∃ home warning, exporter = .internal home ∧
          Notes graph after id .undefined #[warning] ∧
          warning.severity = .warning ∧ warning.code = missingExport ∧
          warning.primary = ⟨owner.file, key.range.saturated⟩ ∧
          warning.field? "missing" = some key.name ∧
          warning.field? "exporter" =
            some (Path.display (graph.symbols.moduleAt home).id options.cwd) ∧
          warning.field? "importer" =
            some (Path.display (graph.symbols.moduleAt owner).id options.cwd)
      | .beyond => ∃ settled object rest shorter key, settled.OnceLinked ∧
          Notes graph settled id .fallback #[] ∧
          access.children = object :: rest ∧
          object.chain? = some (.ident label root, shorter) ∧ keys = shorter ++ [key] ∧
          (access.children.forM fun part => resolveNode options part.id).outcome settled =
            (.ok (), after) ∧
          after.resolutionAt id = some .fallback ∧ after.warnings = graph.warnings := by
  have navigable := linked.navigable
  have sound := navigable.sound
  obtain rfl : access.id = id := sound.arena.label found
  obtain ⟨symbols, destination, settled, leads, notes, kept, outcome⟩ :=
    navigable.resolveExpr_chain options found chain nonempty unbound
  rw [← resolveNode_expr found] at outcome
  have unique : ∀ symbols' destination', graph.Leads owner root keys symbols' destination' →
      destination' = destination := fun _ _ other => (other.unique leads).2
  cases destination with
  | declaration last => exact ⟨symbols, _, settled, leads, unique, outcome, notes⟩
  | missing exporter key =>
      obtain ⟨home, rfl⟩ := leads.internal
      have same : ∀ id, symbols.moduleAt id = graph.symbols.moduleAt id := fun id => by
        rw [Symbols.moduleAt, leads.modules]
        rfl
      refine ⟨symbols, _, settled, leads, unique, outcome, home, _, rfl, notes, rfl, rfl, rfl, ?_⟩
      rw [missingExportWarning, Symbols.specifier, same, same]
      simp
  | beyond =>
      obtain rfl := kept rfl
      obtain ⟨-, object, rest, shorter, key, children, objectChain, split, -⟩ :=
        Expr.chain?_access chain nonempty
      obtain ⟨after, parts, spared, silent⟩ :=
        navigable.resolveExprs_children options found chain nonempty notes.develops leads
      refine ⟨_, _, after, leads, unique, outcome.trans parts, settled, object, rest, shorter, key,
        linked.develops notes.develops, notes, children, objectChain, split, ?_, ?_, ?_⟩
      · rw [← resolveExprs_eq_forM (notes.develops.sound sound), parts]
        exact fun part member => notes.develops.nodes ▸ Placed.child sound.arena found part member
      · exact (congrArg Mark.resolution spared).trans notes.resolution
      · exact silent.trans (notes.warnings.trans Array.append_empty)

end Graph

/-- A module reads a key of another one that this does not export. -/
def Draft.absent : Draft :=
  let draft := (Draft.addModule {} "lib").2
  let draft := (draft.addModule "main").2
  let draft := ((declare ⟨0⟩ .constant "name" (some (.literal () .null)) true).outcome draft).2
  let draft := ((importFrom ⟨1⟩ (.internal ⟨0⟩) wholeModule "lib").outcome draft).2
  (draft.addExpression ⟨1⟩ (.member () (.member () (.ident () "lib") "nme") "length")).2

/-- The program with the module that reads the key as its entry. -/
def Graph.absent : Graph := { Draft.absent.graph with entry := ⟨1⟩ }

theorem Draft.built_absent : Draft.absent.Built := by
  refine .addExpression (.importFrom (.declare
    (.addModule (.addModule .empty "lib") "main") ?_ _ _ _ _) ?_ ?_ _ _) ?_ _
  all_goals decide

theorem Graph.made_absent : Graph.absent.Made :=
  .finish Draft.built_absent (by decide) rfl

namespace Graph

/-- The access comes out as `undefined`, with one warning to the module that it stands in. -/
theorem resolveNode_absent : ∃ linked after warning,
    link.outcome absent = (.ok (), linked) ∧ (resolveNode {} ⟨6⟩).outcome linked = (.ok (), after) ∧
      after.resolutionAt ⟨6⟩ = some .undefined ∧ after.markAt ⟨5⟩ = linked.markAt ⟨5⟩ ∧
      after.warnings = #[warning] ∧ warning.code = missingExport ∧
      warning.field? "importer" = some "main" := by
  have succeeds : (link.outcome absent).1.isOk = true := by decide
  have found : (link.outcome absent).2.nodes[6]? = some ⟨⟨1⟩, .expr
      (.member ⟨⟨6⟩, ⟨28, 42⟩⟩ (.member ⟨⟨5⟩, ⟨28, 35⟩⟩ (.ident ⟨⟨4⟩, ⟨28, 31⟩⟩ "lib") "nme")
        "length")⟩ := by
    rw [(develops_link made_absent.sound).nodes]
    rfl
  have unbound : ((link.outcome absent).2.markAt ⟨6⟩).bound = false := by decide
  have undefined : ((resolveNode {} ⟨6⟩).outcome (link.outcome absent).2).2.resolutionAt ⟨6⟩ =
      some .undefined := by decide
  have silent : (link.outcome absent).2.warnings.size = 0 := by decide
  have named : Path.display ((link.outcome absent).2.symbols.moduleAt ⟨1⟩).id none = "main" := by
    decide
  cases linking : link.outcome absent with
  | mk result linked =>
      rw [linking] at succeeds found unbound undefined silent named
      cases result with
      | error fault => cases succeeds
      | ok _ =>
          obtain ⟨_, destination, after, -, -, outcome, law⟩ :=
            resolveNode_chain (.link (.made made_absent) linking) {} found rfl (by decide) unbound
          rw [outcome] at undefined
          cases destination with
          | declaration last => cases undefined.symm.trans law.resolution
          | beyond =>
              obtain ⟨_, _, _, _, _, -, -, -, -, -, -, fallback, -⟩ := law
              cases undefined.symm.trans fallback
          | missing exporter key =>
              obtain ⟨home, warning, -, notes, -, code, -, -, -, importer⟩ := law
              refine ⟨linked, after, warning, rfl, outcome, undefined, notes.others _ (by decide), ?_,
                code, importer.trans (congrArg some named)⟩
              rw [notes.warnings, Array.eq_empty_of_size_eq_zero silent, Array.empty_append]

end Graph

end Bundler
