import Bundler.Proofs.Expr.Parts
import Bundler.Statement

/-! # Printing with some nodes replaced

The text of an expression in which some nodes have a text of their own, which depends on their tags.
Such a node is written as that text, whatever is below it, so only the outermost ones count.
-/

namespace Bundler

/-! ## Texts with at least one character -/

theorem ofList_ne_empty {c : Char} {rest : List Char} : String.ofList (c :: rest) ≠ "" := by
  intro none
  have none := congrArg String.toList none
  rw [String.toList_ofList] at none
  cases none

namespace Decimal

theorem positional_ne_empty (n places : Nat) : positional n places ≠ "" := by
  rw [positional]
  simp only [List.splitAt_eq]
  generalize digits : List.replicate (places + 1 - (Nat.toDigits 10 n).length) '0' ++
    Nat.toDigits 10 n = padded
  have long : places < padded.length := by
    simp only [← digits, List.length_append, List.length_replicate]
    omega
  obtain ⟨c, rest, whole⟩ : ∃ c rest, padded.take (padded.length - places) = c :: rest := by
    apply List.exists_cons_of_length_pos
    rw [List.length_take]
    omega
  rw [whole]
  split
  · exact ofList_ne_empty
  · exact ofList_ne_empty

theorem Binary64.print_ne_empty (value : Binary64) : value.print ≠ "" := by
  cases value with
  | notANumber => decide
  | infinite negative => cases negative <;> decide
  | finite negative mantissa exponent =>
      rw [Binary64.print]
      have digits : (if mantissa = 0 then "0" else printFinite mantissa exponent) ≠ "" := by
        split
        · decide
        · exact positional_ne_empty _ _
      split
      · exact fun none => absurd (String.append_eq_empty_iff.mp none).1 (by decide)
      · exact digits

end Decimal

theorem Literal.print_ne_empty (value : Literal) : value.print ≠ "" := by
  cases value with
  | string value => exact ofList_ne_empty
  | number bits => exact Decimal.Binary64.print_ne_empty _
  | boolean value => cases value <;> decide
  | null => decide

namespace Expr

variable {α : Type}

mutual

/-- An expression as source text, where a node with a text of its own is written as that. -/
def printWith (own? : α → Option String) : Expr α → String
  | .ident tag name => (own? tag).getD name
  | .literal tag value => (own? tag).getD value.print
  | .member tag object key =>
    (own? tag).getD (enclose object.isAssign (object.printWith own?) ++ "." ++ key)
  | .index tag object key =>
    (own? tag).getD
      (enclose object.isAssign (object.printWith own?) ++ "[" ++ key.printWith own? ++ "]")
  | .call tag callee arguments =>
    (own? tag).getD
      (enclose callee.isAssign (callee.printWith own?) ++ "(" ++ printAllWith own? arguments ++ ")")
  | .assign tag target value =>
    (own? tag).getD (target.printWith own? ++ " = " ++ value.printWith own?)

/-- The arguments of a call as source text, where nodes with a text of their own are written as that. -/
def printAllWith (own? : α → Option String) : List (Expr α) → String
  | [] => ""
  | [e] => e.printWith own?
  | e :: next :: rest => e.printWith own? ++ ", " ++ printAllWith own? (next :: rest)

end

mutual

/-- The parts with a text of their own that are not below another such part, in the order of the
    source, each with its text. -/
def outermost (own? : α → Option String) : Expr α → List (Expr α × String)
  | .ident tag name => ((own? tag).map fun text => (.ident tag name, text)).toList
  | .literal tag value => ((own? tag).map fun text => (.literal tag value, text)).toList
  | .member tag object key =>
    match own? tag with
    | some text => [(.member tag object key, text)]
    | none => object.outermost own?
  | .index tag object key =>
    match own? tag with
    | some text => [(.index tag object key, text)]
    | none => object.outermost own? ++ key.outermost own?
  | .call tag callee arguments =>
    match own? tag with
    | some text => [(.call tag callee arguments, text)]
    | none => callee.outermost own? ++ outermostAll own? arguments
  | .assign tag target value =>
    match own? tag with
    | some text => [(.assign tag target value, text)]
    | none => target.outermost own? ++ value.outermost own?

/-- The outermost parts of some expressions that have a text of their own. -/
def outermostAll (own? : α → Option String) : List (Expr α) → List (Expr α × String)
  | [] => []
  | e :: rest => e.outermost own? ++ outermostAll own? rest

end

/-! ## Nothing replaced -/

mutual

/-- Without any replacements this is how programs are written. -/
theorem printWith_of_none {own? : α → Option String} : ∀ e : Expr α,
    (∀ p ∈ e.parts, own? p.tag = none) → e.printWith own? = e.print
  | .ident tag name, plain | .literal tag value, plain => by
    have here : own? tag = none := plain _ (mem_parts_self _)
    simp only [printWith, here, Option.getD_none, print]
  | .member tag object key, plain => by
    have here : own? tag = none := plain _ (mem_parts_self _)
    have below := printWith_of_none object (forall_parts_of_child plain List.mem_cons_self)
    simp only [printWith, here, Option.getD_none, print, below]
  | .index tag object key, plain => by
    have here : own? tag = none := plain _ (mem_parts_self _)
    have first := printWith_of_none object (forall_parts_of_child plain List.mem_cons_self)
    have second := printWith_of_none key
      (forall_parts_of_child plain (List.mem_cons_of_mem _ List.mem_cons_self))
    simp only [printWith, here, Option.getD_none, print, first, second]
  | .call tag callee arguments, plain => by
    have here : own? tag = none := plain _ (mem_parts_self _)
    have first := printWith_of_none callee (forall_parts_of_child plain List.mem_cons_self)
    have second := printAllWith_of_none arguments fun e among =>
      forall_parts_of_child plain (List.mem_cons_of_mem _ among)
    simp only [printWith, here, Option.getD_none, print, first, second]
  | .assign tag target value, plain => by
    have here : own? tag = none := plain _ (mem_parts_self _)
    have first := printWith_of_none target (forall_parts_of_child plain List.mem_cons_self)
    have second := printWith_of_none value
      (forall_parts_of_child plain (List.mem_cons_of_mem _ List.mem_cons_self))
    simp only [printWith, here, Option.getD_none, print, first, second]

theorem printAllWith_of_none {own? : α → Option String} : ∀ es : List (Expr α),
    (∀ e ∈ es, ∀ p ∈ e.parts, own? p.tag = none) → printAllWith own? es = printAll es
  | [], _ => rfl
  | [e], plain => by
    rw [printAllWith, printAll, printWith_of_none e (plain e List.mem_cons_self)]
  | e :: next :: rest, plain => by
    rw [printAllWith, printAll, printWith_of_none e (plain e List.mem_cons_self),
      printAllWith_of_none (next :: rest) fun e among => plain e (List.mem_cons_of_mem _ among)]

end

/-! ## Printing placed expressions -/

section Placed

theorem isAssign_place (e : Expr α) (start next : Nat) :
    (e.place start next).isAssign = e.isAssign := by
  cases e <;> rfl

mutual

theorem print_place : ∀ (e : Expr α) (start next : Nat), (e.place start next).print = e.print
  | .ident _ _, _, _ | .literal _ _, _, _ => rfl
  | .member _ object _, _, _ => by simp only [place, print, isAssign_place, print_place object]
  | .index _ object key, _, _ => by
    simp only [place, print, isAssign_place, print_place object, print_place key]
  | .call _ callee arguments, _, _ => by
    simp only [place, print, isAssign_place, print_place callee, printAll_placeAll arguments]
  | .assign _ target value, _, _ => by
    simp only [place, print, print_place target, print_place value]

theorem printAll_placeAll : ∀ (es : List (Expr α)) (start next : Nat),
    printAll (placeAll start next es) = printAll es
  | [], _, _ => rfl
  | [e], _, _ => by simp only [placeAll, printAll, print_place e]
  | e :: next :: rest, start, id => by
    have later := printAll_placeAll (next :: rest) (start + e.width + 2) (id + e.size)
    simp only [placeAll] at later ⊢
    rw [printAll, printAll, print_place e, later]

end

end Placed

/-! ## Names with at least one character -/

mutual

/-- No name in the expression is empty. -/
def Named : Expr α → Prop
  | .ident _ name => name ≠ ""
  | .literal _ _ => True
  | .member _ object _ => object.Named
  | .index _ object key => object.Named ∧ key.Named
  | .call _ callee arguments => callee.Named ∧ AllNamed arguments
  | .assign _ target value => target.Named ∧ value.Named

/-- No name in the expressions is empty. -/
def AllNamed : List (Expr α) → Prop
  | [] => True
  | e :: rest => e.Named ∧ AllNamed rest

end

mutual

theorem named_place : ∀ (e : Expr α) (start next : Nat), (e.place start next).Named ↔ e.Named
  | .ident _ _, _, _ | .literal _ _, _, _ => Iff.rfl
  | .member _ object _, _, _ => named_place object _ _
  | .index _ object key, _, _ => and_congr (named_place object _ _) (named_place key _ _)
  | .call _ callee arguments, _, _ =>
    and_congr (named_place callee _ _) (allNamed_placeAll arguments _ _)
  | .assign _ target value, _, _ => and_congr (named_place target _ _) (named_place value _ _)

theorem allNamed_placeAll : ∀ (es : List (Expr α)) (start next : Nat),
    AllNamed (placeAll start next es) ↔ AllNamed es
  | [], _, _ => Iff.rfl
  | e :: rest, _, _ => and_congr (named_place e _ _) (allNamed_placeAll rest _ _)

end

mutual

theorem named_of_parts : ∀ e : Expr α,
    (∀ p ∈ e.parts, ∀ tag name, p = .ident tag name → name ≠ "") → e.Named
  | .ident tag name, named => named _ (mem_parts_self _) tag name rfl
  | .literal _ _, _ => trivial
  | .member _ object _, named => named_of_parts object (forall_parts_of_child named List.mem_cons_self)
  | .index _ object key, named =>
    ⟨named_of_parts object (forall_parts_of_child named List.mem_cons_self),
      named_of_parts key (forall_parts_of_child named (List.mem_cons_of_mem _ List.mem_cons_self))⟩
  | .call _ callee arguments, named =>
    ⟨named_of_parts callee (forall_parts_of_child named List.mem_cons_self),
      allNamed_of_parts arguments fun _ among =>
        forall_parts_of_child named (List.mem_cons_of_mem _ among)⟩
  | .assign _ target value, named =>
    ⟨named_of_parts target (forall_parts_of_child named List.mem_cons_self),
      named_of_parts value (forall_parts_of_child named (List.mem_cons_of_mem _ List.mem_cons_self))⟩

theorem allNamed_of_parts : ∀ es : List (Expr α),
    (∀ e ∈ es, ∀ p ∈ e.parts, ∀ tag name, p = .ident tag name → name ≠ "") → AllNamed es
  | [], _ => trivial
  | e :: rest, named =>
    ⟨named_of_parts e (named e List.mem_cons_self),
      allNamed_of_parts rest fun other among => named other (List.mem_cons_of_mem _ among)⟩

end

theorem print_ne_empty {e : Expr α} (named : e.Named) : e.print ≠ "" := by
  cases e with
  | ident tag name => exact named
  | literal tag value => exact value.print_ne_empty
  | member | index | call | assign =>
      rw [print]
      simp [String.append_eq_empty_iff]

end Expr

end Bundler
