import Bundler.Graph.Basic

/-!
# Effects

Whether evaluating something may be noticed from outside. There is no analysis of what calls do or
of which objects are shared: when in doubt, there is an effect.
-/

namespace Bundler.Graph

/-- Whether changing an object may be noticed. Any object may be shared, so it always may. -/
def mutationHasEffects (_graph : Graph) (_object : Fragment) : Bool := true

/-- Whether assigning to a declaration may be noticed: not if a statement declares it and it is not
    part of the bundle. -/
def writeHasEffects (graph : Graph) (id : DeclId) : Bool :=
  let declaration := graph.symbols.declarationAt id
  match declaration.kind with
  | .declared _ => declaration.included
  | _ => true

/-- Whether assigning to an expression may be noticed. -/
def assignmentHasEffects (graph : Graph) : Expr Label → Bool
  | .member _ object _ | .index _ object _ => graph.mutationHasEffects (.expr object)
  | .ident label _ =>
    match graph.denotation? label.id with
    | some id => graph.writeHasEffects id
    | none => true
  | .literal _ _ | .call _ _ _ | .assign _ _ _ => true

/-- Whether a property access was found to denote something else than a property. -/
def isSettled (graph : Graph) (id : NodeId) : Bool :=
  match graph.resolutionAt id with
  | some (.declaration _) | some .undefined => true
  | some .fallback | none => false

/-- Whether evaluating an expression may be noticed. -/
def exprHasEffects (graph : Graph) : Expr Label → Bool
  | .ident _ _ | .literal _ _ => false
  | .member label object _ => !graph.isSettled label.id && graph.exprHasEffects object
  | .index label object key =>
    !graph.isSettled label.id && (graph.exprHasEffects object || graph.exprHasEffects key)
  | .call _ _ _ => true
  | .assign _ target value => graph.exprHasEffects value || graph.assignmentHasEffects target

/-- Whether running a statement may be noticed. -/
def statementHasEffects (graph : Graph) (statement : Statement Label) : Bool :=
  statement.children.any graph.exprHasEffects

/-- Whether evaluating a node may be noticed. -/
def hasEffects (graph : Graph) (id : NodeId) : Bool :=
  match (graph.nodeAt id).fragment with
  | .statement body => graph.statementHasEffects body
  | .expr body => graph.exprHasEffects body

/-- Whether assigning to a node may be noticed. -/
def hasEffectsWhenAssigned (graph : Graph) (id : NodeId) : Bool :=
  match (graph.nodeAt id).fragment with
  | .statement _ => true
  | .expr body => graph.assignmentHasEffects body

/-- Whether changing the object that a node evaluates to may be noticed. -/
def hasEffectsWhenMutated (graph : Graph) (id : NodeId) : Bool :=
  graph.mutationHasEffects (graph.nodeAt id).fragment

end Bundler.Graph
