import Bundler.Proofs.Output.Expressions

/-! # Statements in the output

A statement that is written keeps its text but for the keyword that makes it an export and for what is
replaced below it.  All others are removed along with their line breaks.
-/

namespace Bundler

namespace Statement

variable {α : Type}

/-- What stands between the name and the end of a declaration, where nodes with a text of their own are
    written as that. -/
def printInitWith (own? : α → Option String) : Option (Expr α) → String
  | none => ""
  | some init => " = " ++ init.printWith own?

/-- A statement as it stands in the output, where nodes with a text of their own are written as that.
    A declaration has no keyword there that makes it an export. -/
def printWith (own? : α → Option String) : Statement α → String
  | .expression _ body => body.printWith own? ++ ";"
  | .declare _ _ mode nameTag name init =>
    opening mode ++ (Expr.ident nameTag name).printWith own? ++ printInitWith own? init ++ ";"
  | .importFrom tag source specifier imported binding =>
    (Statement.importFrom tag source specifier imported binding).print
  | .exportList tag binding exported => (Statement.exportList tag binding exported).print
  | .exportFrom tag source specifier clause => (Statement.exportFrom tag source specifier clause).print

/-- Without any replacements only the keyword is missing. -/
theorem print_eq_printWith {own? : α → Option String} {statement : Statement α}
    (plain : ∀ p ∈ Expr.partsAll statement.children, own? p.tag = none) :
    statement.print =
      (match statement with
        | .declare _ true _ _ _ _ => exportKeyword
        | _ => "") ++ statement.printWith own? := by
  have below : ∀ e ∈ statement.children, e.printWith own? = e.print := fun e child =>
    Expr.printWith_of_none e fun p part => plain p (Expr.mem_partsAll.mpr ⟨e, child, part⟩)
  cases statement with
  | expression tag body =>
      simp only [print, printWith, below body List.mem_cons_self, String.empty_append]
  | declare tag exported mode nameTag name init =>
      have same : (Expr.ident nameTag name).printWith own? = name := below _ List.mem_cons_self
      have value : printInitWith own? init = printInit init := by
        cases init with
        | none => rfl
        | some init =>
            rw [printInitWith, printInit, below init (List.mem_cons_of_mem _ List.mem_cons_self)]
      cases exported with
      | false => simp [print, printWith, printDeclaration, same, value]
      | true => simp [print, printWith, printDeclaration, same, value]
  | importFrom | exportList | exportFrom => exact String.empty_append.symm

/-- No name in the statement is empty. -/
def Named (statement : Statement α) : Prop := Expr.AllNamed statement.children

theorem range_place (statement : Statement α) (start next : Nat) :
    (statement.place start next).range = ⟨start, start + statement.print.utf8ByteSize⟩ := by
  cases statement <;> rfl

end Statement

namespace Graph

variable {α : Type} (graph : Graph) (format : Format)

/-- The statement is written to the output. -/
def writes (statement : Statement Label) : Bool :=
  graph.includesNode statement.id && !statement.isLinkage

/-- A statement and its line break as they stand in the output. -/
def lineText (statement : Statement Label) : String :=
  if graph.writes statement then statement.printWith (graph.ownText? format) ++ "\n" else ""

/-- The names that are replaced in a statement. -/
def lineNames (statement : Statement Label) : List Renaming :=
  if graph.writes statement then
    renamings (Expr.outermostAll (graph.ownText? format) statement.children)
  else []

/-! ## Removed statements -/

theorem lineRange_eq {patch : Patch} {start : Nat} {line : String}
    (spells : Spells patch.source start (line ++ "\n")) :
    lineRange patch ⟨start, start + line.utf8ByteSize⟩ =
      ⟨start, start + (line ++ "\n").utf8ByteSize⟩ := by
  have broken : patch.slice? ⟨start + line.utf8ByteSize, start + line.utf8ByteSize + 1⟩ = some "\n" :=
    spells.right.slice?
  rw [lineRange, if_pos broken, String.utf8ByteSize_append, ← Nat.add_assoc]
  rfl

theorem rewrites_removed (statement : Statement α) (start next : Nat) :
    Rewrites (edit fun patch => patch.remove (lineRange patch (statement.place start next).range)) start
      (statement.print ++ "\n") "" [] := by
  have some_line : statement.print ++ "\n" ≠ "" := fun none =>
    absurd (String.append_eq_empty_iff.mp none).2 (by decide)
  obtain ⟨edits, edited, adds⟩ : Rewrites _ start (statement.print ++ "\n") "" [] :=
    Rewrites.remove some_line
  refine ⟨edits, edited, fun patch spells before => ?_⟩
  rw [← adds patch spells before, statement.range_place]
  simp only [edit, Step.outcome_bind, Step.outcome_get, lineRange_eq spells]

/-! ## Written statements -/

/-- The step edits the place of a statement as the direct print says. -/
def PrintsStatement (step : Step Patch Unit) (start : Nat) (text : String)
    (placed : Statement Label) : Prop :=
  Rewrites step start text (placed.printWith (graph.ownText? format))
    (renamings (Expr.outermostAll (graph.ownText? format) placed.children))

theorem prints_declaration (tag nameTag : α) (mode : Mode) {name : String} {init : Option (Expr α)}
    (named : (Statement.declare tag false mode nameTag name init).Named) (start next : Nat) :
    graph.PrintsStatement format
      (graph.emitExprs format ((Statement.declare tag false mode nameTag name init).place start next).children)
      start (Statement.printDeclaration mode name init)
      ((Statement.declare tag false mode nameTag name init).place start next) := by
  have first := prints_emitExpr graph format (.ident nameTag name)
    (start + (Statement.opening mode).utf8ByteSize) next named.1
  have follows : start + (Statement.opening mode).utf8ByteSize + name.utf8ByteSize =
      start + (Statement.opening mode ++ name).utf8ByteSize := by
    rw [String.utf8ByteSize_append, Nat.add_assoc]
  simp only [PrintsStatement, Statement.place, Statement.children, emitExprs, Expr.outermostAll,
    renamings_append]
  cases init with
  | none => exact ((Rewrites.behind _ first).bind (Rewrites.keep _ "") follows).before ";"
  | some init =>
      have second := prints_emitExprs graph format [init]
        (start + (Statement.opening mode).utf8ByteSize + name.utf8ByteSize + 3) (next + 1) named.2
      exact ((Rewrites.behind _ first).bind (Rewrites.behind " = " second) follows).before ";"

/-- A statement that is written is edited as the direct print says. -/
theorem prints_emitStatement {statement : Statement α} (named : statement.Named) {start next : Nat}
    (writes : graph.writes (statement.place start next) = true) :
    graph.PrintsStatement format (graph.emitStatement format (statement.place start next)) start
      statement.print (statement.place start next) := by
  simp only [Graph.writes, includesNode, Bool.and_eq_true, Bool.not_eq_true'] at writes
  rw [emitStatement, writes.1, writes.2]
  simp only [Bool.not_true, Bool.or_self, Bool.false_eq_true, if_false]
  cases statement with
  | expression tag body => exact (prints_emitExprs graph format [body] start next named).before ";"
  | declare tag exported mode nameTag name init =>
      cases exported with
      | false =>
          have declared := prints_declaration graph format tag nameTag mode named start next
          rwa [Statement.print, if_neg (by simp), String.empty_append]
      | true =>
          have declared := prints_declaration graph format tag nameTag mode named
            (start + Statement.exportKeyword.utf8ByteSize) next
          have removed : Rewrites _ start Statement.exportKeyword "" [] :=
            Rewrites.remove (by decide)
          exact removed.bind declared rfl
  | importFrom | exportList | exportFrom => cases writes.2

/-- Every line of a module is edited as the direct print says. -/
theorem rewrites_emitStatement {statement : Statement α} (named : statement.Named) (start next : Nat) :
    Rewrites (graph.emitStatement format (statement.place start next)) start (statement.print ++ "\n")
      (graph.lineText format (statement.place start next))
      (graph.lineNames format (statement.place start next)) := by
  rw [lineText, lineNames]
  split
  next writes => exact (prints_emitStatement graph format named writes).before "\n"
  next removed =>
      have leaves : (!(graph.markAt (statement.place start next).id).included ||
          (statement.place start next).isLinkage) = true := by
        grind [Graph.writes, includesNode]
      rw [emitStatement, if_pos leaves]
      exact rewrites_removed statement start next

end Graph

end Bundler
