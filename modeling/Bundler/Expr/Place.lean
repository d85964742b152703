import Bundler.Expr.Print
import Bundler.Id
import Bundler.Range

/-!
# Placed expressions

An expression that is part of a module knows for each of its nodes the id in the arena and the range
of the module's source that the node was printed to. Nodes get their ids from the leaves to the
root, children in the order of the source, so the root has the greatest id of its tree.
-/

namespace Bundler

/-- The id of a node and the bytes that its text takes in the source of its module. -/
structure Label where
  id : NodeId
  range : Range
  deriving Repr, DecidableEq, Inhabited

namespace Expr

variable {α : Type}

/-- The bytes that stand between the start of an operand's place and the operand: one if it needs a
    parenthesis. -/
def indent (e : Expr α) : Nat := if e.isAssign then 1 else 0

/-- The number of bytes that an expression's text takes. -/
def width (e : Expr α) : Nat := e.print.utf8ByteSize

mutual

/-- Places an expression: its text starts at byte `start`, and `next` is the first id to be given. -/
def place (start next : Nat) : Expr α → Expr Label
  | .ident _ name => .ident ⟨⟨next⟩, ⟨start, start + name.utf8ByteSize⟩⟩ name
  | .literal _ value => .literal ⟨⟨next⟩, ⟨start, start + value.print.utf8ByteSize⟩⟩ value
  | .member tag object key =>
    .member ⟨⟨next + object.size⟩, ⟨start, start + (Expr.member tag object key).width⟩⟩
      (object.place (start + object.indent) next) key
  | .index tag object key =>
    .index ⟨⟨next + object.size + key.size⟩, ⟨start, start + (Expr.index tag object key).width⟩⟩
      (object.place (start + object.indent) next)
      (key.place (start + object.width + 2 * object.indent + 1) (next + object.size))
  | .call tag callee arguments =>
    .call ⟨⟨next + callee.size + sizeAll arguments⟩,
        ⟨start, start + (Expr.call tag callee arguments).width⟩⟩
      (callee.place (start + callee.indent) next)
      (placeAll (start + callee.width + 2 * callee.indent + 1) (next + callee.size) arguments)
  | .assign tag target value =>
    .assign ⟨⟨next + target.size + value.size⟩,
        ⟨start, start + (Expr.assign tag target value).width⟩⟩
      (target.place start next)
      (value.place (start + target.width + 3) (next + target.size))

/-- Places the arguments of a call, which have a comma and a blank between them. -/
def placeAll (start next : Nat) : List (Expr α) → List (Expr Label)
  | [] => []
  | e :: rest => e.place start next :: placeAll (start + e.width + 2) (next + e.size) rest

end

/-- The id of an expression's root. -/
def id (e : Expr Label) : NodeId := e.tag.id

/-- The place of an expression. -/
def range (e : Expr Label) : Range := e.tag.range

end Expr

end Bundler
