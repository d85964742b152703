import Bundler.Decimal.Binary64
import Bundler.Text.Quoted

/-!
# Expressions

The expressions that programs are made of here: names, literals, property accesses, calls and
assignments. Every node of a tree carries a tag, which is nothing in a tree that somebody just
wrote down, and the node's id and place once the tree is part of a module.
-/

namespace Bundler

/-- A literal value. A number is the 64 bits of its double. -/
inductive Literal where
  | string (value : String)
  | number (bits : UInt64)
  | boolean (value : Bool)
  | null
  deriving Repr, DecidableEq, Inhabited

/-- A literal as source text. -/
def Literal.print : Literal → String
  | .string value => Text.quote value
  | .number bits => (Decimal.Binary64.ofBits bits).print
  | .boolean value => if value then "true" else "false"
  | .null => "null"

/-- An expression whose nodes carry tags of type `α`. -/
inductive Expr (α : Type) where
  /-- A name. -/
  | ident (tag : α) (name : String)
  | literal (tag : α) (value : Literal)
  /-- A property read by its name, `object.key`. -/
  | member (tag : α) (object : Expr α) (key : String)
  /-- A property read by a value, `object[key]`. -/
  | index (tag : α) (object key : Expr α)
  | call (tag : α) (callee : Expr α) (arguments : List (Expr α))
  | assign (tag : α) (target value : Expr α)
  deriving Repr

namespace Expr

variable {α : Type}

/-- The tag of the root. -/
def tag : Expr α → α
  | .ident tag _ | .literal tag _ | .member tag _ _ | .index tag _ _ | .call tag _ _
  | .assign tag _ _ => tag

/-- The expressions directly below the root, in the order of the source. -/
def children : Expr α → List (Expr α)
  | .ident _ _ | .literal _ _ => []
  | .member _ object _ => [object]
  | .index _ object key => [object, key]
  | .call _ callee arguments => callee :: arguments
  | .assign _ target value => [target, value]

/-- Whether the expression reads a property. -/
def isAccess : Expr α → Bool
  | .member _ _ _ | .index _ _ _ => true
  | _ => false

/-- Whether the expression is an assignment. These bind less tightly than all others. -/
def isAssign : Expr α → Bool
  | .assign _ _ _ => true
  | _ => false

mutual

/-- The number of nodes of an expression. -/
def size : Expr α → Nat
  | .ident _ _ | .literal _ _ => 1
  | .member _ object _ => object.size + 1
  | .index _ object key => object.size + key.size + 1
  | .call _ callee arguments => callee.size + sizeAll arguments + 1
  | .assign _ target value => target.size + value.size + 1

/-- The number of nodes of some expressions. -/
def sizeAll : List (Expr α) → Nat
  | [] => 0
  | e :: rest => e.size + sizeAll rest

end

mutual

/-- All parts of an expression: those of its children in their order, and last the expression. -/
def parts : Expr α → List (Expr α)
  | .ident tag name => [.ident tag name]
  | .literal tag value => [.literal tag value]
  | .member tag object key => object.parts ++ [.member tag object key]
  | .index tag object key => object.parts ++ key.parts ++ [.index tag object key]
  | .call tag callee arguments =>
    callee.parts ++ partsAll arguments ++ [.call tag callee arguments]
  | .assign tag target value => target.parts ++ value.parts ++ [.assign tag target value]

/-- All parts of some expressions. -/
def partsAll : List (Expr α) → List (Expr α)
  | [] => []
  | e :: rest => e.parts ++ partsAll rest

end

mutual

/-- An expression has as many parts as nodes. -/
theorem length_parts : ∀ e : Expr α, e.parts.length = e.size
  | .ident _ _ | .literal _ _ => rfl
  | .member _ object _ => by simp [parts, size, length_parts object]
  | .index _ object key => by
    simp [parts, size, length_parts object, length_parts key, Nat.add_assoc]
  | .call _ callee arguments => by
    simp [parts, size, length_parts callee, length_partsAll arguments, Nat.add_assoc]
  | .assign _ target value => by
    simp [parts, size, length_parts target, length_parts value, Nat.add_assoc]

theorem length_partsAll : ∀ es : List (Expr α), (partsAll es).length = sizeAll es
  | [] => rfl
  | e :: rest => by simp [partsAll, sizeAll, length_parts e, length_partsAll rest]

end

end Expr

end Bundler
