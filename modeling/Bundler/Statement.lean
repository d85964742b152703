import Bundler.Expr.Place

/-!
# Statements

The statements of a module, their text and their place in it. Statements that import, re-export or
list exports only link modules with each other; they are never part of a bundle.
-/

namespace Bundler

/-- How a statement declares a name. -/
inductive Mode where
  /-- The name never gets another value. -/
  | constant
  /-- The name is seen in its block. -/
  | block
  /-- The name is seen in its whole function. -/
  | function
  deriving Repr, DecidableEq, Inhabited

/-- The keyword of a declaration. -/
def Mode.keyword : Mode → String
  | .constant => "const"
  | .block => "let"
  | .function => "var"

/-- What is exported again from another module. -/
inductive Clause where
  /-- One of its names, under a name that may be another. -/
  | single (imported exported : String)
  /-- All its names, as one object with the given name. -/
  | whole (exported : String)
  /-- All its names, as they are. -/
  | all
  deriving Repr, DecidableEq

/-- A statement whose nodes carry tags of type `α`. What names another module carries both the
    module and its id, which is what the text shows. -/
inductive Statement (α : Type) where
  | expression (tag : α) (body : Expr α)
  /-- A declaration of `name`, which is a node of its own. -/
  | declare (tag : α) (exported : Bool) (mode : Mode) (nameTag : α) (name : String)
      (init : Option (Expr α))
  /-- An import of `imported` as `binding`. -/
  | importFrom (tag : α) (source : Provider) (specifier imported binding : String)
  /-- An export of the module's own name `binding` as `exported`. -/
  | exportList (tag : α) (binding exported : String)
  | exportFrom (tag : α) (source : Provider) (specifier : String) (clause : Clause)
  deriving Repr

/-- A name, and the name that it is given if that is another. -/
def printAs (name other : String) : String :=
  if name = other then name else name ++ " as " ++ other

/-- A name with an alias, as the one item of a list in braces. -/
def printItem (name other : String) : String := "\x7b " ++ printAs name other ++ " \x7d"

namespace Statement

variable {α : Type}

/-- The tag of the statement itself. -/
def tag : Statement α → α
  | .expression tag _ | .declare tag _ _ _ _ _ | .importFrom tag _ _ _ _ | .exportList tag _ _
  | .exportFrom tag _ _ _ => tag

/-- The expressions directly below the statement, in the order of the source. -/
def children : Statement α → List (Expr α)
  | .expression _ body => [body]
  | .declare _ _ _ nameTag name init => .ident nameTag name :: init.toList
  | .importFrom _ _ _ _ _ | .exportList _ _ _ | .exportFrom _ _ _ _ => []

/-- Whether the statement only links modules. -/
def isLinkage : Statement α → Bool
  | .importFrom _ _ _ _ _ | .exportList _ _ _ | .exportFrom _ _ _ _ => true
  | .expression _ _ | .declare _ _ _ _ _ _ => false

/-- The module that the statement links to. -/
def source? : Statement α → Option Provider
  | .importFrom _ source _ _ _ | .exportFrom _ source _ _ => some source
  | .expression _ _ | .declare _ _ _ _ _ _ | .exportList _ _ _ => none

/-- The keyword that makes a declaration an export, with the blank behind it. -/
def exportKeyword : String := "export "

/-- What stands before the name in a declaration that is no export. -/
def opening (mode : Mode) : String := mode.keyword ++ " "

/-- What stands between the name and the end of a declaration. -/
def printInit : Option (Expr α) → String
  | none => ""
  | some init => " = " ++ init.print

/-- A declaration without the keyword that makes it an export. -/
def printDeclaration (mode : Mode) (name : String) (init : Option (Expr α)) : String :=
  opening mode ++ name ++ printInit init ++ ";"

/-- What an import statement imports. -/
def printImport (imported binding : String) : String :=
  if imported = wholeModule then "* as " ++ binding
  else if imported = defaultExport then binding
  else printItem imported binding

end Statement

/-- What an export statement takes from its module. -/
def Clause.print : Clause → String
  | .single imported exported => printItem imported exported
  | .whole exported => "* as " ++ exported
  | .all => "*"

namespace Statement

variable {α : Type}

/-- A statement as source text, without the line break behind it. -/
def print : Statement α → String
  | .expression _ body => body.print ++ ";"
  | .declare _ exported mode _ name init =>
    (if exported then exportKeyword else "") ++ printDeclaration mode name init
  | .importFrom _ _ specifier imported binding =>
    "import " ++ printImport imported binding ++ " from " ++ Text.quote specifier ++ ";"
  | .exportList _ binding exported => "export " ++ printItem binding exported ++ ";"
  | .exportFrom _ _ specifier clause =>
    "export " ++ clause.print ++ " from " ++ Text.quote specifier ++ ";"

/-- The number of nodes of a statement. -/
def size (statement : Statement α) : Nat := Expr.sizeAll statement.children + 1

/-- Places a statement: its text starts at byte `start`, and `next` is the first id to be given. The
    statement itself gets its id after its expressions. -/
def place (start next : Nat) (statement : Statement α) : Statement Label :=
  let label : Label :=
    ⟨⟨next + Expr.sizeAll statement.children⟩,
      ⟨start, start + statement.print.utf8ByteSize⟩⟩
  match statement with
  | .expression _ body => .expression label (body.place start next)
  | .declare _ exported mode _ name init =>
    let nameStart := start + (if exported then exportKeyword.utf8ByteSize else 0) +
      (opening mode).utf8ByteSize
    let nameStop := nameStart + name.utf8ByteSize
    .declare label exported mode ⟨⟨next⟩, ⟨nameStart, nameStop⟩⟩ name
      (init.map fun init => init.place (nameStop + 3) (next + 1))
  | .importFrom _ source specifier imported binding =>
    .importFrom label source specifier imported binding
  | .exportList _ binding exported => .exportList label binding exported
  | .exportFrom _ source specifier clause => .exportFrom label source specifier clause

/-- The id of a statement. -/
def id (statement : Statement Label) : NodeId := statement.tag.id

/-- The place of a statement. -/
def range (statement : Statement Label) : Range := statement.tag.range

/-- The place of the keyword that makes a declaration an export. -/
def keywordRange? : Statement Label → Option Range
  | .declare label true _ _ _ _ =>
    some ⟨label.range.start, label.range.start + exportKeyword.utf8ByteSize⟩
  | _ => none

end Statement

/-- What a node of the arena stands for. -/
inductive Fragment where
  | statement (body : Statement Label)
  | expr (body : Expr Label)
  deriving Repr

namespace Fragment

/-- The id and place of a fragment. -/
def label : Fragment → Label
  | .statement body => body.tag
  | .expr body => body.tag

/-- The expressions directly below a fragment. -/
def children : Fragment → List (Expr Label)
  | .statement body => body.children
  | .expr body => body.children

/-- Whether a fragment reads a property. -/
def isAccess : Fragment → Bool
  | .statement _ => false
  | .expr body => body.isAccess

/-- Whether a fragment only links modules. -/
def isLinkage : Fragment → Bool
  | .statement body => body.isLinkage
  | .expr _ => false

/-- All fragments of a statement, in the order of their ids. -/
def ofStatement (statement : Statement Label) : List Fragment :=
  (Expr.partsAll statement.children).map .expr ++ [.statement statement]

end Fragment

end Bundler
