import Bundler.Proofs.Bundle.Closed
import Bundler.Proofs.Bundle.Understood
import Bundler.Proofs.Draft.Exporting

/-! # The exports of a bundle

A bundle ends with the exports of its entry.  Every name that a statement of the entry exports is among
them, with a declaration that the output defines, unless the statement exports it again from a module that
does not provide it: such a name is left out, and nothing is said about it.
-/

namespace Bundler

/-! ## Statements that export -/

/-- A statement by which a bundle exports names, each bound to a text: the list of them in a standard module,
    or one property of the exports in a CommonJS module. -/
inductive ExportStatement where
  | list (bindings : List (String × String))
  | property (name binding : String)

namespace ExportStatement

/-- What the statement exports. -/
def bindings : ExportStatement → List (String × String)
  | list bindings => bindings
  | property name binding => [(name, binding)]

/-- The text of the statement. -/
def print : ExportStatement → String
  | list bindings =>
    let specifiers := bindings.map fun (name, binding) =>
      if binding = name then binding else binding ++ " as " ++ name
    "export \x7b " ++ ", ".intercalate specifiers ++ " \x7d;"
  | property name binding => "exports." ++ name ++ " = " ++ binding ++ ";"

end ExportStatement

namespace Graph

variable {graph made : Graph} {options : Options}

/-- What the entry exports, each name with the text that refers to its declaration. -/
def exportBindings (graph : Graph) (format : Format) : List (String × String) :=
  (graph.symbols.moduleAt graph.entry).resolvedExports.map fun (name, declaration) =>
    (name, graph.symbols.outputText format declaration)

/-- The statements that export them.  Where nothing is exported, there is none. -/
def exportStatements (graph : Graph) : Format → List ExportStatement
  | .es => if (graph.exportBindings .es).isEmpty then [] else [.list (graph.exportBindings .es)]
  | .cjs => (graph.exportBindings .cjs).map fun (name, binding) => .property name binding

theorem bindings_exportStatements (graph : Graph) (format : Format) :
    (graph.exportStatements format).flatMap ExportStatement.bindings = graph.exportBindings format := by
  cases format with
  | es =>
      rw [exportStatements]
      cases graph.exportBindings .es <;> simp [ExportStatement.bindings]
  | cjs => simp [exportStatements, List.flatMap_map, ExportStatement.bindings]

/-- The footer is the text of these statements. -/
theorem footer_eq (graph : Graph) (format : Format) :
    graph.symbols.footer (graph.symbols.moduleAt graph.entry).resolvedExports format =
      "\n".intercalate ((graph.exportStatements format).map ExportStatement.print) := by
  cases format with
  | es =>
      rw [exportStatements, exportBindings]
      cases (graph.symbols.moduleAt graph.entry).resolvedExports <;>
        simp [Symbols.footer, ExportStatement.print, printAs, Function.comp_def]
  | cjs => simp [exportStatements, exportBindings, Symbols.footer, ExportStatement.print, Function.comp_def]

/-! ## The end of the text -/

theorem intercalate_concat (separator : String) (texts : List String) (text : String) :
    ∃ before, separator.intercalate (texts ++ [text]) = before ++ text := by
  cases texts with
  | nil => exact ⟨"", by simp⟩
  | cons first rest =>
      refine ⟨separator.intercalate (first :: rest) ++ separator, ?_⟩
      rw [String.intercalate_append_of_ne_nil (by simp) (by simp), String.intercalate_singleton]

/-- A bundle ends with the statements that export. -/
theorem bundleText_footer (graph : Graph) (format : Format) (modules : List EmittedModule) :
    ∃ before, graph.bundleText format modules =
      before ++ "\n".intercalate ((graph.exportStatements format).map ExportStatement.print) ++ "\n" := by
  rw [bundleText, footer_eq, List.filter_append]
  generalize List.filter _ (_ :: _) = kept
  generalize "\n".intercalate ((graph.exportStatements format).map ExportStatement.print) = footer
  cases empty : footer.isEmpty with
  | true =>
      obtain rfl := String.isEmpty_iff.mp empty
      exact ⟨"\n\n".intercalate kept, by simp⟩
  | false =>
      obtain ⟨before, ends⟩ := intercalate_concat "\n\n" kept footer
      refine ⟨before, ?_⟩
      rw [← ends]
      simp [empty]

/-! ## Names that statements export -/

/-- Of the names that statements of the entry export, a bundle exports all that are declared there or
    provided by the module that they are exported from.  The code ends with the statements that export them
    and nothing else, each bound to what refers to a declaration that the output defines, which is that of
    something the entry provides. -/
theorem exports_entry (accepted : made.Accepted) {bundle : Bundle}
    (succeeded : (Graph.bundle options).outcome made = (.ok bundle, graph)) :
    (∃ before, bundle.code = before ++
      "\n".intercalate ((graph.exportStatements options.format).map ExportStatement.print) ++ "\n") ∧
    (graph.exportStatements options.format).flatMap ExportStatement.bindings =
      (graph.symbols.moduleAt graph.entry).resolvedExports.map (fun (name, declaration) =>
        (name, graph.symbols.outputText options.format declaration)) ∧
    (∀ entry ∈ (graph.symbols.moduleAt graph.entry).resolvedExports, graph.Emitted entry.2 ∧
      ∃ origin, made.symbols.Provides (.internal made.entry) entry.1 origin ∧
        graph.symbols.Interned origin entry.2) ∧
    ∀ statement ∈ made.statements made.entry, ∀ name, statement.exportedName? = some name →
      ((∃ declaration, (name, declaration) ∈ (graph.symbols.moduleAt graph.entry).resolvedExports) ↔
        ∀ source imported, statement.again? = some (source, imported) →
          ∃ origin, made.symbols.Grants source imported origin) := by
  have program := accepted.made
  have sound := program.sound
  have written := program.written
  obtain ⟨understands, linked⟩ := program.understands_bundle succeeded
  have annotates := understands.annotates
  obtain ⟨_, _, _, _, rfl, emitted⟩ := bundle_stages succeeded
  refine ⟨?_, bindings_exportStatements _ _, fun ⟨name, declaration⟩ listed => ⟨?_, ?_⟩,
    fun statement member name named => ?_⟩
  · obtain ⟨modules, code⟩ := emit_code emitted
    rw [code]
    exact bundleText_footer _ _ _
  · obtain ⟨-, exported, -⟩ := bundle_closed program succeeded
    exact exported declaration (List.mem_map.mpr ⟨_, listed, rfl⟩)
  · rw [annotates.entry] at listed
    exact understands.provides_listed sound written linked listed
  · obtain ⟨entry, exported, again⟩ := accepted.tabled _ statement member name named
    rw [annotates.entry]
    rw [← annotates.sameModules.exports] at exported
    rw [← again]
    cases entry with
    | own declaration =>
        exact iff_of_true (understands.listed_own linked exported) fun _ _ none => nomatch none
    | again source imported =>
        rw [understands.listed_again_iff sound written linked exported]
        constructor
        · rintro grants _ _ ⟨⟩
          exact grants
        · exact fun grants => grants source imported rfl

end Graph

/-! ## A name that is lost -/

/-- A module exports one name again from another, and a second one that is misspelled. -/
def Draft.misspelled : Draft :=
  let draft := (Draft.addModule {} "lib").2
  let draft := (draft.addModule "main").2
  let draft := ((declare ⟨0⟩ .constant "name" (some (.literal () (.string "world"))) true).outcome
    draft).2
  let draft := ((exportFrom ⟨1⟩ (.internal ⟨0⟩) "name" "name").outcome draft).2
  ((exportFrom ⟨1⟩ (.internal ⟨0⟩) "nme" "nme").outcome draft).2

/-- The program with the module that exports again as its entry. -/
def Graph.misspelled : Graph := { Draft.misspelled.graph with entry := ⟨1⟩ }

theorem Draft.accepted_misspelled : Draft.misspelled.Accepted := by
  have declared : ((declare ⟨0⟩ .constant "name" (some (.literal () (.string "world"))) true).outcome
      ((Draft.addModule {} "lib").2.addModule "main").2).1 = .ok ⟨2⟩ := by decide
  refine .exportFrom (.exportFrom (.declare (.addModule (.addModule .empty "lib") "main") ?_ _ _ _ _
    (Step.outcome_eq declared)) ?_ ?_ _ _ (Step.outcome_eq ?_)) ?_ ?_ _ _ (Step.outcome_eq ?_)
  all_goals decide

theorem Graph.accepted_misspelled : Graph.misspelled.Accepted :=
  .finish Draft.accepted_misspelled (by decide) rfl

namespace Graph

/-- The name that is spelled as it is declared is exported, as is what it stands for. -/
theorem exports_misspelled : ∃ bundle graph, (Graph.bundle {}).outcome misspelled = (.ok bundle, graph) ∧
    (∃ before, bundle.code =
      before ++ "\n".intercalate ((graph.exportStatements .es).map ExportStatement.print) ++ "\n") ∧
    ∃ declaration, ("name", declaration) ∈ (graph.symbols.moduleAt graph.entry).resolvedExports ∧
      ("name", graph.symbols.outputText .es declaration) ∈
        (graph.exportStatements .es).flatMap ExportStatement.bindings ∧
      graph.Emitted declaration := by
  have succeeds : ((Graph.bundle {}).outcome misspelled).1.isOk = true := by decide +kernel
  have stated : ∃ statement ∈ misspelled.statements misspelled.entry,
      statement.exportedName? = some "name" ∧
        statement.again? = some (.internal ⟨0⟩, "name") := by decide
  have declared : (misspelled.symbols.moduleAt ⟨0⟩).exports["name"]? = some (.own ⟨2⟩) := by
    decide
  have kind : (misspelled.symbols.declarationAt ⟨2⟩).kind = .declared ⟨2⟩ := by decide
  cases result : (Graph.bundle {}).outcome misspelled with
  | mk returned graph =>
      rw [result] at succeeds
      cases returned with
      | error fault => cases succeeds
      | ok bundle =>
          obtain ⟨statement, member, named, again⟩ := stated
          obtain ⟨ends, exported, emitted, kept⟩ := exports_entry accepted_misspelled result
          have provided : misspelled.symbols.Grants (.internal ⟨0⟩) "name" (.declaration ⟨2⟩) :=
            .named (by decide) (.here (.declared declared fun _ _ _ other => nomatch kind.symm.trans other))
          obtain ⟨declaration, listed⟩ := (kept statement member "name" named).mpr
            fun source imported same => by
              cases again.symm.trans same
              exact ⟨_, provided⟩
          refine ⟨bundle, graph, rfl, ends, declaration, listed, ?_, (emitted _ listed).1⟩
          rw [exported]
          exact List.mem_map_of_mem listed

/-- The other one is lost: the bundle succeeds without a warning, and a name that a statement of the entry
    exports is not exported by it. -/
theorem bundle_misspelled : misspelled.Accepted ∧
    ∃ bundle graph, (Graph.bundle {}).outcome misspelled = (.ok bundle, graph) ∧
    bundle.warnings = [] ∧ bundle.code = "const name = \"world\";\n\nexport \x7b name \x7d;\n" ∧
    ∃ statement ∈ misspelled.statements misspelled.entry, statement.exportedName? = some "nme" ∧
      ∀ declaration, ("nme", declaration) ∉ (graph.symbols.moduleAt graph.entry).resolvedExports := by
  refine ⟨accepted_misspelled, ?_⟩
  have emitted : ((Graph.bundle {}).outcome misspelled).1.toOption.map (fun bundle =>
      (bundle.warnings.isEmpty, bundle.code)) =
        some (true, "const name = \"world\";\n\nexport \x7b name \x7d;\n") := by decide +kernel
  have lost : ∃ statement ∈ misspelled.statements misspelled.entry,
      statement.exportedName? = some "nme" ∧ ∀ entry ∈
        (((Graph.bundle {}).outcome misspelled).2.symbols.moduleAt ⟨1⟩).resolvedExports,
          entry.1 ≠ "nme" := by decide +kernel
  have entry : ((Graph.bundle {}).outcome misspelled).2.entry = ⟨1⟩ := by decide +kernel
  cases result : (Graph.bundle {}).outcome misspelled with
  | mk returned graph =>
      rw [result] at emitted lost entry
      cases returned with
      | error fault => cases emitted
      | ok bundle =>
          obtain ⟨statement, member, named, missing⟩ := lost
          have both : (bundle.warnings.isEmpty, bundle.code) = _ := Option.some.inj emitted
          obtain ⟨quiet, code⟩ := Prod.mk.inj both
          refine ⟨bundle, graph, rfl, List.isEmpty_iff.mp quiet, code, statement, member, named, ?_⟩
          rw [entry]
          exact fun declaration listed => missing _ listed rfl

end Graph

end Bundler
