import Bundler.Expr.Basic

/-!
# Expressions as text

The one way in which expressions are written: no blanks but after commas and around `=`, and
parentheses exactly around an assignment that is called or whose property is read.
-/

namespace Bundler.Expr

variable {α : Type}

/-- A text, in parentheses if asked for. -/
def enclose (parenthesized : Bool) (text : String) : String :=
  if parenthesized then "(" ++ text ++ ")" else text

mutual

/-- An expression as source text. -/
def print : Expr α → String
  | .ident _ name => name
  | .literal _ value => value.print
  | .member _ object key => enclose object.isAssign object.print ++ "." ++ key
  | .index _ object key => enclose object.isAssign object.print ++ "[" ++ key.print ++ "]"
  | .call _ callee arguments =>
    enclose callee.isAssign callee.print ++ "(" ++ printAll arguments ++ ")"
  | .assign _ target value => target.print ++ " = " ++ value.print

/-- The arguments of a call as source text. -/
def printAll : List (Expr α) → String
  | [] => ""
  | [e] => e.print
  | e :: next :: rest => e.print ++ ", " ++ printAll (next :: rest)

end

end Bundler.Expr
