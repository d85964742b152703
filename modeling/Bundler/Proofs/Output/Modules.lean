import Bundler.Proofs.Bundle.Reachable
import Bundler.Proofs.Output.Statements

/-! # Modules in the output

The edited text of a module is what its statements give when they are printed directly, and the names
that the edits replace are those of the outermost replaced nodes.
-/

namespace Bundler

/-- The fragment is no name, or one with at least one character. -/
def Fragment.isNamed : Fragment → Bool
  | .expr (.ident _ name) => name != ""
  | _ => true

theorem Statement.named_place {α : Type} (statement : Statement α) (start next : Nat) :
    (statement.place start next).Named ↔ statement.Named := by
  cases statement with
  | expression tag body => exact and_congr (Expr.named_place body _ _) .rfl
  | declare tag exported mode nameTag name init =>
      apply and_congr .rfl
      cases init with
      | none => exact .rfl
      | some init => exact and_congr (Expr.named_place init _ _) .rfl
  | importFrom | exportList | exportFrom => exact .rfl

namespace Graph

variable {graph : Graph}

/-- No name in the program is empty. -/
def Named (graph : Graph) : Prop := ∀ node ∈ graph.nodes, node.fragment.isNamed = true

/-- A member of a namespace object: the exported name, in quotes unless it is a plain identifier, and the
    name of the declaration. -/
def printMember (graph : Graph) (format : Format) (member : String × DeclId) : String :=
  "  " ++ (if Identifier.isPlain member.1 then member.1 else Text.quote member.1) ++ ": " ++
    graph.symbols.outputText format member.2

/-- An object with each member on a line of its own. -/
def printObject (graph : Graph) (format : Format) : List (String × DeclId) → String
  | [] => "\x7b\x7d"
  | first :: rest =>
    "\x7b\n" ++ ",\n".intercalate ((first :: rest).map (graph.printMember format)) ++ "\n\x7d"

/-- The value of a module's namespace: the object of all its exports, frozen on demand. -/
def printNamespace (graph : Graph) (options : Options) (id : ModuleId) : String :=
  let object := graph.printObject options.format (graph.symbols.moduleAt id).resolvedExports
  if options.freezeNamespaces then "Object.freeze(" ++ object ++ ")" else object

/-- The definition of a module's namespace object, if it is included. -/
def definedNamespace (graph : Graph) (options : Options) (id : ModuleId) : String :=
  let declaration := (graph.symbols.moduleAt id).namespaceDecl
  if graph.includesDeclaration declaration then
    "\nconst " ++ graph.symbols.outputText options.format declaration ++ " = " ++
      graph.printNamespace options id ++ ";\n"
  else ""

/-- The text of a module in the output: all statements that are written, in order and each on a line, and
    the namespace object. -/
def printModule (graph : Graph) (options : Options) (id : ModuleId) : String :=
  String.join ((graph.statements id).map (graph.lineText options.format)) ++
    graph.definedNamespace options id

/-- The names that are replaced in a module, in the order of the source. -/
def moduleNames (graph : Graph) (options : Options) (id : ModuleId) : List Renaming :=
  (graph.statements id).flatMap (graph.lineNames options.format)

theorem objectText_eq (format : Format) (exports : List (String × DeclId)) :
    objectText graph.symbols format exports = graph.printObject format exports := by
  cases exports <;> rfl

/-- What is put behind a module with an included namespace is the definition of its object. -/
theorem namespaceText_eq {options : Options} {id : ModuleId}
    (included : graph.includesDeclaration (graph.symbols.moduleAt id).namespaceDecl = true) :
    graph.namespaceText options id = graph.definedNamespace options id := by
  rw [definedNamespace, if_pos included, namespaceText, objectText_eq, printNamespace]

theorem Named.statement (named : graph.Named) (grounded : graph.Grounded) {id : ModuleId}
    {statement : Statement Label} (member : statement ∈ graph.statements id) : statement.Named := by
  apply Expr.allNamed_of_parts _
  intro e child p part tag name same
  obtain ⟨-, found⟩ := grounded.statement member
  have at_part := grounded.arena.part found p (Expr.mem_partsAll.mpr ⟨e, child, part⟩)
  have some_name := named _ (Array.mem_of_getElem? at_part)
  rw [same] at some_name
  exact bne_iff_ne.mp some_name

/-- Statements that are laid out one after the other are rewritten one after the other. -/
theorem rewrites_statements (format : Format) {start : Nat} {statements : List (Statement Label)}
    {source : String} (laid : Laid start statements source)
    (named : ∀ statement ∈ statements, statement.Named) :
    Rewrites (statements.forM (graph.emitStatement format)) start source
      (String.join (statements.map (graph.lineText format)))
      (statements.flatMap (graph.lineNames format)) := by
  induction laid with
  | nil => exact Rewrites.keep _ ""
  | @cons start rest source statement next _ ih =>
      have here := named _ List.mem_cons_self
      have first := rewrites_emitStatement graph format ((statement.named_place _ _).mp here) start next
      have later := ih fun statement member => named statement (List.mem_cons_of_mem _ member)
      rw [List.map_cons, String.join_cons, List.flatMap_cons]
      exact first.bind later rfl

/-- The steps that edit a module replace what its statements say, and put the namespace object behind. -/
theorem outcome_patchModule (intact : graph.Intact) (named : graph.Named) (options : Options)
    (id : ModuleId) :
    ∃ edits,
      Edited 0 (graph.symbols.moduleAt id).source edits
        (String.join ((graph.statements id).map (graph.lineText options.format)))
        (graph.moduleNames options id) ∧
      (graph.patchModule options id).outcome { source := (graph.symbols.moduleAt id).source } =
        (.ok (), {
          source := (graph.symbols.moduleAt id).source
          edits
          outro := graph.definedNamespace options id }) := by
  obtain ⟨edits, edited, adds⟩ := graph.rewrites_statements options.format (intact.laid id)
    fun _ member => named.statement intact.sound.grounded member
  refine ⟨edits, edited, ?_⟩
  have edited_lines := adds { source := (graph.symbols.moduleAt id).source } (.self _)
    (by simp [Patch.EndsBefore])
  rw [patchModule, Step.outcome_bind, edited_lines]
  dsimp only
  split
  next included => simp [Patch.append, namespaceText_eq included]
  next excluded =>
      rw [definedNamespace, includesDeclaration, if_neg excluded]
      rfl

/-- Editing a module never fails, and gives what printing it directly gives. -/
theorem emitModule_eq (reachable : graph.Reachable) (named : graph.Named) (options : Options)
    (id : ModuleId) :
    (∃ edits, graph.emitModule options id =
      .ok ⟨(graph.symbols.moduleAt id).id,
        { code := graph.printModule options id, edits, names := graph.moduleNames options id }⟩) ∧
    (graph.moduleNames options id).Pairwise (fun a b => a.range.stop ≤ b.range.start) ∧
    ∀ name ∈ graph.moduleNames options id,
      Patch.slice? { source := (graph.symbols.moduleAt id).source } name.range =
        some name.original := by
  obtain ⟨edits, edited, patched⟩ := outcome_patchModule reachable.intact named options id
  have emitted : graph.emitModule options id = .ok ⟨(graph.symbols.moduleAt id).id,
      { code := graph.printModule options id, edits, names := graph.moduleNames options id }⟩ := by
    rw [emitModule, patched]
    dsimp only
    rw [edited.apply_eq, printModule]
  exact ⟨⟨edits, emitted⟩, edited.sorted.1, edited.slice?⟩

end Graph

/-! ## A module that takes itself -/

/-- A module takes itself as a whole and asks itself for something that it lacks. -/
def Draft.reflecting : Draft :=
  let draft := (Draft.addModule {} "lib").2
  let draft := ((importFrom ⟨0⟩ (.internal ⟨0⟩) "*" "self").outcome draft).2
  let draft := ((declare ⟨0⟩ .constant "name" (some (.member () (.ident () "self") "nme")) true).outcome
    draft).2
  (draft.addExpression ⟨0⟩ (.call () (.ident () "use") [.ident () "self"])).2

/-- The program that consists of this module. -/
def Graph.reflecting : Graph := Draft.reflecting.graph

theorem Draft.built_reflecting : Draft.reflecting.Built := by
  refine .addExpression (.declare (.importFrom (.addModule .empty "lib") ?_ ?_ _ _) ?_ _ _ _ _) ?_ _
  all_goals decide

theorem Graph.made_reflecting : Graph.reflecting.Made :=
  .finish Draft.built_reflecting (by decide) rfl

namespace Graph

/-- What is missing is replaced, with the name before its dot, and what stands for the module is renamed.
    The object that it stands for is defined behind the statements. -/
theorem emitModule_reflecting : ∃ edits,
    ((Graph.bundle {}).outcome reflecting).2.emitModule {} ⟨0⟩ = .ok ⟨"lib", {
      code := "const name = undefined;\nuse(lib);\n" ++
        "\nconst lib = Object.freeze(\x7b\n  name: name\n\x7d);\n"
      edits
      names := [⟨⟨49, 57⟩, "self.nme", "undefined"⟩, ⟨⟨63, 67⟩, "self", "lib"⟩] }⟩ := by
  have facts : ((Graph.bundle {}).outcome reflecting).2.Named ∧
      (((Graph.bundle {}).outcome reflecting).2.symbols.moduleAt ⟨0⟩).id = "lib" ∧
      ((Graph.bundle {}).outcome reflecting).2.printModule {} ⟨0⟩ =
        "const name = undefined;\nuse(lib);\n" ++
          "\nconst lib = Object.freeze(\x7b\n  name: name\n\x7d);\n" ∧
      ((Graph.bundle {}).outcome reflecting).2.moduleNames {} ⟨0⟩ =
        [⟨⟨49, 57⟩, "self.nme", "undefined"⟩, ⟨⟨63, 67⟩, "self", "lib"⟩] := by
    unfold Named
    decide +kernel
  obtain ⟨named, id, printed, replaced⟩ := facts
  obtain ⟨⟨edits, emitted⟩, -, -⟩ := emitModule_eq (.bundle {} (.made made_reflecting)) named {} ⟨0⟩
  rw [id, printed, replaced] at emitted
  exact ⟨edits, emitted⟩

end Graph

end Bundler
