import Bundler.Graph.Effect

/-!
# Inclusion

What has to be part of the bundle. A declaration that is included takes along what it needs: the
nodes of the statement that declares it, the target of an import, all exports of a namespace, or an
external module. A node that is included takes along the nodes below it and the declarations that
they denote. Nothing that is included is ever taken out again.

`shake` includes the statements whose effects may be noticed. Including one can make assignments in
others noticeable, so it goes over all statements again until nothing is added.
-/

namespace Bundler

/-- The ids of a fragment and of all that is below it. -/
def Fragment.ids : Fragment → List NodeId
  | .statement body => (Fragment.ofStatement body).map (·.label.id)
  | .expr body => body.parts.map (·.id)

namespace Graph

/-- Whether a declaration is part of the bundle. -/
def includesDeclaration (graph : Graph) (id : DeclId) : Bool :=
  (graph.symbols.declarationAt id).included

/-- Whether a node is part of the bundle. -/
def includesNode (graph : Graph) (id : NodeId) : Bool := (graph.markAt id).included

/-- Includes some nodes, and nothing else. -/
def markNodes (graph : Graph) (ids : List NodeId) : Graph :=
  ids.foldl (fun graph id => graph.modifyMark id fun mark => { mark with included := true }) graph

/-- The declarations that some nodes denote. -/
def denotations (graph : Graph) (ids : List NodeId) : List DeclId :=
  ids.filterMap graph.denotation?

/-- The nodes that a declaration takes along. -/
def ownNodes (graph : Graph) (id : DeclId) : List NodeId :=
  match (graph.symbols.declarationAt id).kind with
  | .declared statement => (graph.nodeAt statement).fragment.ids
  | _ => []

/-- The declarations that a module exports. -/
def exportedDeclarations (graph : Graph) (id : ModuleId) : List DeclId :=
  (graph.symbols.moduleAt id).resolvedExports.map (·.2)

/-- The declarations that a declaration takes along. -/
def needs (graph : Graph) (id : DeclId) : List DeclId :=
  match (graph.symbols.declarationAt id).kind with
  | .declared _ => graph.denotations (graph.ownNodes id)
  | .imported _ _ target => target.toList
  | .namespaceOf source => graph.exportedDeclarations source
  | .provided _ _ | .free => []

/-- Includes a declaration with its own nodes and its external module, and nothing else. -/
def markDeclaration (graph : Graph) (id : DeclId) : Graph :=
  let symbols := graph.symbols.modifyDeclaration id fun declaration =>
    { declaration with included := true }
  let symbols :=
    match (graph.symbols.declarationAt id).kind with
    | .provided source _ =>
      symbols.modifyExternal source fun external => { external with used := true }
    | _ => symbols
  { graph with symbols }.markNodes (graph.ownNodes id)

/-- Includes a declaration and all that it takes along, over at most `depth` declarations in a row.
    All declarations in a row are different from each other. -/
def retainWithin : (depth : Nat) → Graph → DeclId → Graph
  | 0, graph, _ => graph
  | depth + 1, graph, id =>
    if graph.includesDeclaration id then graph
    else (graph.needs id).foldl (retainWithin depth) (graph.markDeclaration id)

/-- Includes a declaration and all that it takes along. -/
def retain (graph : Graph) (id : DeclId) : Graph :=
  retainWithin graph.symbols.declarations.size graph id

/-- Includes some declarations and all that they take along. -/
def retainAll (graph : Graph) (ids : List DeclId) : Graph := ids.foldl retain graph

/-- Whether including a fragment adds something to the bundle. Nothing is added if its nodes and
    the declarations that they denote are included, since these took along what they need. -/
def lacks (graph : Graph) (fragment : Fragment) : Bool :=
  fragment.ids.any (fun id => !graph.includesNode id) ||
    (graph.denotations fragment.ids).any fun id => !graph.includesDeclaration id

/-- Includes a fragment and all that it takes along. -/
def retainFragment (graph : Graph) (fragment : Fragment) : Graph :=
  (graph.markNodes fragment.ids).retainAll (graph.denotations fragment.ids)

/-- Includes a node and all that it takes along, and says whether that adds something. -/
def retainNode (graph : Graph) (id : NodeId) : Bool × Graph :=
  let fragment := (graph.nodeAt id).fragment
  (graph.lacks fragment, graph.retainFragment fragment)

/-- Includes a declaration and all that it takes along, and says whether that adds something. -/
def retainDeclaration (graph : Graph) (id : DeclId) : Bool × Graph :=
  (!graph.includesDeclaration id, graph.retain id)

/-- Includes all that the entry exports. -/
def retainEntryExports (graph : Graph) : Graph :=
  graph.retainAll (graph.exportedDeclarations graph.entry)

/-- The number of nodes and declarations that are not part of the bundle. -/
def excluded (graph : Graph) : Nat :=
  graph.marks.toList.countP (fun mark => !mark.included) +
    graph.symbols.declarations.toList.countP (fun declaration => !declaration.included)

/-- Includes a statement if it is included already, since it may denote more by now, or if running
    it may be noticed. -/
def shakeStatement (graph : Graph) (statement : Statement Label) : Graph :=
  if graph.includesNode statement.id || graph.statementHasEffects statement then
    graph.retainFragment (.statement statement)
  else
    graph

/-- Goes once over all statements of the modules that the entry needs. -/
def shakeOnce (graph : Graph) : Graph :=
  graph.order.foldl (fun graph id => (graph.statements id).foldl shakeStatement graph) graph

/-- Goes over all statements until nothing is added, at most `limit` times, and counts how often. -/
def shakeWithin : (limit : Nat) → Graph → Nat × Graph
  | 0, graph => (0, graph)
  | limit + 1, graph =>
    let shaken := graph.shakeOnce
    if shaken.excluded < graph.excluded then
      let (passes, shaken) := shakeWithin limit shaken
      (passes + 1, shaken)
    else
      (1, shaken)

/-- Goes over all statements until nothing is added, and counts how often. Every time but the last
    something is added, so it goes over them at most once more than there is something to add. -/
def shake (graph : Graph) : Nat × Graph := shakeWithin (graph.excluded + 1) graph

end Graph

end Bundler
