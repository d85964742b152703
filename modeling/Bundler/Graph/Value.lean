import Bundler.Graph.Basic

/-!
# Values

The literals that an expression may evaluate to. They are known for literals, for assignments of
something known, and for names of constants whose initial value is known. Constants may be defined
by each other, in a circle and from module to module, so the search for a value keeps the constants
that it is on the way through, and does not enter one of them again.
-/

namespace Bundler

/-- What is known about the value of an expression. -/
inductive PossibleValue where
  | unknown
  | literal (value : Literal)
  deriving Repr, DecidableEq, Inhabited

namespace Graph

/-- The expression that a constant declaration starts with. -/
def constantInit? (graph : Graph) (id : DeclId) : Option (Expr Label) :=
  match graph.symbols.declarations[id.index]? with
  | none => none
  | some declaration =>
    match declaration.kind with
    | .declared statement =>
      match (graph.nodeAt statement).fragment with
      | .statement (.declare _ _ .constant _ _ init) => init
      | _ => none
    | _ => none

/-- Only what is declared has an initial value. -/
theorem mem_declarationIds_of_constantInit? {graph : Graph} {id : DeclId} {init : Expr Label}
    (starts : graph.constantInit? id = some init) : id ∈ graph.symbols.declarationIds := by
  refine List.mem_map.mpr ⟨id.index, List.mem_range.mpr (Nat.lt_of_not_le fun outside => ?_), rfl⟩
  rw [constantInit?, Array.getElem?_eq_none outside] at starts
  cases starts

/-- The declarations that the search for a value may still enter. -/
def unvisited (graph : Graph) (onTheWay : List DeclId) : List DeclId :=
  graph.symbols.declarationIds.filter fun id => id ∉ onTheWay

/-- Entering a constant leaves fewer declarations to enter. -/
theorem length_unvisited_lt {graph : Graph} {onTheWay : List DeclId} {id : DeclId}
    {init : Expr Label} (starts : graph.constantInit? id = some init) (fresh : id ∉ onTheWay) :
    (graph.unvisited (id :: onTheWay)).length < (graph.unvisited onTheWay).length := by
  have here : id ∈ graph.unvisited onTheWay :=
    List.mem_filter.mpr ⟨mem_declarationIds_of_constantInit? starts, by simpa using fresh⟩
  have rest : graph.unvisited (id :: onTheWay) =
      (graph.unvisited onTheWay).filter fun other => other ≠ id := by
    simp [unvisited, List.filter_filter, not_or]
  rw [rest, List.length_filter_lt_length_iff_exists]
  exact ⟨id, here, by simp⟩

/-- Adds to some values the one that is known of an expression, given the constants on the way to
    it. -/
def gatherExpr (graph : Graph) (onTheWay : List DeclId) (values : List PossibleValue) :
    Expr Label → List PossibleValue
  | .literal _ value => values.insert (.literal value)
  | .assign _ _ value => graph.gatherExpr onTheWay values value
  | .ident label _ =>
    match graph.denotation? label.id with
    | none => values.insert .unknown
    | some id =>
      match _starts : graph.constantInit? id with
      | none => values.insert .unknown
      | some init =>
        if _fresh : id ∉ onTheWay then graph.gatherExpr (id :: onTheWay) values init
        else values.insert .unknown
  | .member _ _ _ | .index _ _ _ | .call _ _ _ => values.insert .unknown
termination_by e => ((graph.unvisited onTheWay).length, sizeOf e)
decreasing_by
  · exact Prod.Lex.right _ (by rw [Expr.assign.sizeOf_spec]; omega)
  · exact Prod.Lex.left _ _ (length_unvisited_lt _starts _fresh)

/-- Adds to some values the one that is known of a node. Of a statement none is known. -/
def gatherValues (graph : Graph) (values : List PossibleValue) (id : NodeId) :
    List PossibleValue :=
  match (graph.nodeAt id).fragment with
  | .statement _ => values.insert .unknown
  | .expr body => graph.gatherExpr [] values body

/-- The values of some nodes, each once. -/
def possibleValues (graph : Graph) (ids : List NodeId) : List PossibleValue :=
  ids.foldl graph.gatherValues []

end Graph

end Bundler
