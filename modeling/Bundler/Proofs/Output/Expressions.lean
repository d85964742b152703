import Bundler.Proofs.Expr.Printing
import Bundler.Proofs.Output.Rewriting

/-! # Expressions in the output

Editing the text of an expression gives what printing it with the replaced nodes gives.  The induction
follows the printer, which says for every form of expression what stands between its parts.
-/

namespace Bundler.Graph

variable {α : Type} (graph : Graph) (format : Format)

/-- The text of its own that a node has in the output: the name of the declaration that it denotes, or
    `undefined` where there is none. -/
def ownText? (label : Label) : Option String :=
  match graph.resolutionAt label.id with
  | some (.declaration declaration) => some (graph.symbols.outputText format declaration)
  | some .undefined => some "undefined"
  | some .fallback | none => none

/-- This is the text that the node is replaced by. -/
theorem ownText?_eq (label : Label) : graph.ownText? format label = graph.replacement? format label.id := by
  cases found : graph.resolutionAt label.id with
  | none => simp only [ownText?, replacement?, found]
  | some resolution => cases resolution <;> simp only [ownText?, replacement?, found]

/-- The renamings of parts that have a text of their own, of those that have another text in the
    source. -/
def renamings (found : List (Expr Label × String)) : List Renaming :=
  found.filterMap fun (e, text) => if e.print = text then none else some ⟨e.range, e.print, text⟩

theorem renamings_append (found more : List (Expr Label × String)) :
    renamings (found ++ more) = renamings found ++ renamings more :=
  List.filterMap_append

/-- The step edits the place of the expression as the direct print says. -/
def Prints (step : Step Patch Unit) (start : Nat) (e : Expr α) (placed : Expr Label) : Prop :=
  Rewrites step start e.print (placed.printWith (graph.ownText? format))
    (renamings (placed.outermost (graph.ownText? format)))

theorem range_place (e : Expr α) (start next : Nat) :
    (e.place start next).range = ⟨start, start + e.print.utf8ByteSize⟩ := by
  cases e <;> rfl

/-! ## Replaced expressions -/

section Own

variable {graph format}

theorem emitExpr_of_own {e : Expr Label} {text : String} (own : graph.ownText? format e.tag = some text) :
    graph.emitExpr format e = rename e.range text := by
  rw [ownText?_eq] at own
  cases e <;> (dsimp only [Expr.tag] at own; rw [emitExpr, own]; rfl)

theorem printWith_of_own {own? : α → Option String} {e : Expr α} {text : String}
    (own : own? e.tag = some text) : e.printWith own? = text := by
  cases e <;> (dsimp only [Expr.tag] at own; rw [Expr.printWith, own]; rfl)

theorem outermost_of_own {own? : α → Option String} {e : Expr α} {text : String}
    (own : own? e.tag = some text) : e.outermost own? = [(e, text)] := by
  cases e <;> (dsimp only [Expr.tag] at own; simp [Expr.outermost, own])

theorem prints_of_own {e : Expr α} (named : e.Named) {start next : Nat} {text : String}
    (own : graph.ownText? format (e.place start next).tag = some text) :
    graph.Prints format (graph.emitExpr format (e.place start next)) start e (e.place start next) := by
  have rewrites : Rewrites _ start e.print text _ := Rewrites.rename (Expr.print_ne_empty named) text
  rw [Prints, emitExpr_of_own own, printWith_of_own own, outermost_of_own own, range_place]
  by_cases same : e.print = text
  · simpa [renamings, Expr.print_place, same] using rewrites
  · simpa [renamings, Expr.print_place, range_place, same] using rewrites

end Own

/-! ## Operands -/

/-- Where the text behind an operand and an opening bracket starts. -/
theorem offset_operand (e : Expr α) (start : Nat) {opening : String} (single : opening.utf8ByteSize = 1) :
    start + e.width + 2 * e.indent + 1 =
      start + (Expr.enclose e.isAssign e.print ++ opening).utf8ByteSize := by
  rw [String.utf8ByteSize_append, Expr.width, Expr.indent, single]
  cases e.isAssign with
  | false => rfl
  | true =>
      have opened : "(".utf8ByteSize = 1 := rfl
      have closed : ")".utf8ByteSize = 1 := rfl
      simp only [Expr.enclose, if_true, String.utf8ByteSize_append]
      omega

end Bundler.Graph

namespace Bundler.Rewrites

variable {α : Type} {start : Nat} {step : Step Patch Unit} {text output : String} {names : List Renaming}

/-- An operand stands in its parentheses, if it needs them. -/
theorem operand {e : Expr α} (rewrites : Rewrites step (start + e.indent) e.print output names) :
    Rewrites step start (Expr.enclose e.isAssign e.print) (Expr.enclose e.isAssign output) names := by
  rw [Expr.indent] at rewrites
  cases assign : e.isAssign with
  | false =>
      rw [assign] at rewrites
      exact rewrites
  | true =>
      rw [assign] at rewrites
      exact (Rewrites.behind "(" rewrites).before ")"

end Bundler.Rewrites

namespace Bundler.Graph

variable {α : Type} (graph : Graph) (format : Format)

/-- The step edits the place of the arguments of a call as the direct print says. -/
def PrintsAll (step : Step Patch Unit) (start : Nat) (es : List (Expr α)) (placed : List (Expr Label)) :
    Prop :=
  Rewrites step start (Expr.printAll es) (Expr.printAllWith (graph.ownText? format) placed)
    (renamings (Expr.outermostAll (graph.ownText? format) placed))

theorem prints_of_plain {e : Expr α} (named : e.Named) {start next : Nat}
    (plain : graph.ownText? format (e.place start next).tag = none →
      graph.Prints format (graph.emitExpr format (e.place start next)) start e (e.place start next)) :
    graph.Prints format (graph.emitExpr format (e.place start next)) start e (e.place start next) := by
  cases own : graph.ownText? format (e.place start next).tag with
  | some text => exact prints_of_own named own
  | none => exact plain own

mutual

/-- Every expression is edited as the direct print says. -/
theorem prints_emitExpr : ∀ (e : Expr α) (start next : Nat), e.Named →
    graph.Prints format (graph.emitExpr format (e.place start next)) start e (e.place start next)
  | .ident tag name, start, next, named => by
    apply prints_of_plain graph format named
    intro own
    simp only [Expr.place, Expr.tag, ownText?_eq] at own
    simp only [Prints, Expr.place, emitExpr, Expr.printWith, Expr.outermost, ownText?_eq, own]
    exact Rewrites.keep start name
  | .literal tag value, start, next, named => by
    apply prints_of_plain graph format named
    intro own
    simp only [Expr.place, Expr.tag, ownText?_eq] at own
    simp only [Prints, Expr.place, emitExpr, Expr.printWith, Expr.outermost, ownText?_eq, own]
    exact Rewrites.keep start value.print
  | .member tag object key, start, next, named => by
    apply prints_of_plain graph format named
    intro own
    have below := prints_emitExpr object (start + object.indent) next named
    simp only [Expr.place, Expr.tag, ownText?_eq] at own
    simp only [Prints, Expr.place, emitExpr, Expr.printWith, Expr.outermost, ownText?_eq, own,
      Expr.isAssign_place]
    exact (below.operand.before ".").before key
  | .index tag object key, start, next, named => by
    apply prints_of_plain graph format named
    intro own
    have first := prints_emitExpr object (start + object.indent) next named.1
    have second := prints_emitExpr key (start + object.width + 2 * object.indent + 1)
      (next + object.size) named.2
    simp only [Expr.place, Expr.tag, ownText?_eq] at own
    simp only [Prints, Expr.place, emitExpr, Expr.printWith, Expr.outermost, ownText?_eq, own,
      Expr.isAssign_place, renamings_append]
    exact ((first.operand.before "[").bind second (offset_operand object start rfl)).before "]"
  | .call tag callee arguments, start, next, named => by
    apply prints_of_plain graph format named
    intro own
    have first := prints_emitExpr callee (start + callee.indent) next named.1
    have second := prints_emitExprs arguments (start + callee.width + 2 * callee.indent + 1)
      (next + callee.size) named.2
    simp only [Expr.place, Expr.tag, ownText?_eq] at own
    simp only [Prints, Expr.place, emitExpr, Expr.printWith, Expr.outermost, ownText?_eq, own,
      Expr.isAssign_place, renamings_append]
    exact ((first.operand.before "(").bind second (offset_operand callee start rfl)).before ")"
  | .assign tag target value, start, next, named => by
    apply prints_of_plain graph format named
    intro own
    have first := prints_emitExpr target start next named.1
    have second := prints_emitExpr value (start + target.width + 3) (next + target.size) named.2
    simp only [Expr.place, Expr.tag, ownText?_eq] at own
    simp only [Prints, Expr.place, emitExpr, Expr.printWith, Expr.outermost, ownText?_eq, own,
      renamings_append]
    apply (first.before " = ").bind second
    rw [String.utf8ByteSize_append, Nat.add_assoc]
    rfl

/-- The arguments of a call are edited one by one; the commas between them are kept. -/
theorem prints_emitExprs : ∀ (es : List (Expr α)) (start next : Nat), Expr.AllNamed es →
    graph.PrintsAll format (graph.emitExprs format (Expr.placeAll start next es)) start es
      (Expr.placeAll start next es)
  | [], start, _, _ => by
    simp only [PrintsAll, Expr.placeAll, emitExprs]
    exact Rewrites.keep start ""
  | [e], start, next, named => by
    have first := prints_emitExpr e start next named.1
    have both := first.bind (Rewrites.keep _ "") rfl
    simpa only [PrintsAll, Expr.placeAll, emitExprs, Expr.printAll, Expr.printAllWith,
      Expr.outermostAll, String.append_empty, List.append_nil] using both
  | e :: other :: rest, start, next, named => by
    have first := prints_emitExpr e start next named.1
    have second := prints_emitExprs (other :: rest) (start + e.width + 2) (next + e.size) named.2
    simp only [PrintsAll, Expr.placeAll] at second ⊢
    rw [emitExprs, Expr.printAll, Expr.printAllWith, Expr.outermostAll, renamings_append]
    apply (first.before ", ").bind second
    rw [String.utf8ByteSize_append, Nat.add_assoc]
    rfl

end

end Bundler.Graph
