import Bundler.Proofs.Exports.Publication
import Bundler.Proofs.Graph.Answers
import Bundler.Proofs.Graph.Denotation
import Bundler.Proofs.Graph.Linking

/-! # Properties that last

Linking and resolving change symbols in a few ways only: they declare what somebody asks an external
module for, they declare globals, they set the targets of imports and the exports of modules, and they
propose names for external modules.  What is asked for is imported, exported or read as a key by the
program.  A property of symbols that all this keeps holds of every state that they lead to.
-/

namespace Bundler

open Step (Preserves)

variable {asked said : String → Prop} {P : Symbols → Prop}

namespace Symbols

variable {symbols : Symbols}

/-- Setting the target of an import changes nothing else. -/
theorem setTarget_cases (symbols : Symbols) (id target other : DeclId) :
    (symbols.setTarget id target).declarationAt other = symbols.declarationAt other ∨
      ∃ source name earlier, (symbols.declarationAt other).kind = .imported source name earlier ∧
        (symbols.setTarget id target).declarationAt other =
          { symbols.declarationAt other with kind := .imported source name (some target) } := by
  rw [Symbols.setTarget, declarationAt_modifyDeclaration]
  split
  · split
    next kind => exact .inr ⟨_, _, _, kind, rfl⟩
    next => exact .inl rfl
  · exact .inl rfl

/-- The names that the symbols may ask modules for have the property. -/
structure Asks (asked : String → Prop) (symbols : Symbols) : Prop where
  whole : asked wholeModule
  plain : ∀ {name}, Identifier.isPlain name = true → asked name
  imported : ∀ {id source name}, (symbols.declarationAt id).kind = .imported source name none → asked name
  exported : ∀ {id : ModuleId} {name : String} {entry : Export},
    (symbols.moduleAt id).exports[name]? = some entry → asked name
  again : ∀ {id : ModuleId} {name : String} {source imported},
    (symbols.moduleAt id).exports[name]? = some (.again source imported) → asked imported

theorem asks_any (symbols : Symbols) : symbols.Asks fun _ => True :=
  ⟨trivial, fun _ => trivial, fun _ => trivial, fun _ => trivial, fun _ => trivial⟩

/-- The property lasts while a program is linked and resolved in which all names that modules are asked
    for are of one kind, and all names that expressions consist of are of another. -/
structure Lasting (asked said : String → Prop) (P : Symbols → Prop) : Prop where
  asks : ∀ {symbols}, P symbols → symbols.Asks asked
  external : ∀ {symbols} source {name}, asked name → P symbols →
    P (symbols.externalDeclaration source name).2
  global : ∀ {symbols : Symbols} {name}, said name → P symbols → P (symbols.globalDeclaration name).2
  target : ∀ {symbols : Symbols} id target, P symbols → P (symbols.setTarget id target)
  exports : ∀ {symbols : Symbols} id resolvedExports, P symbols →
    P (symbols.modifyModule id fun m => { m with resolvedExports })
  propose : ∀ {symbols : Symbols} id {hint}, said hint → P symbols → P (symbols.proposeName id hint)

/-! ## What is asked for -/

namespace Asks

variable (asks : symbols.Asks asked)

include asks

theorem takes {id : ModuleId} {name imported : String} {source : Provider}
    (takes : symbols.Takes id name source imported) : asked imported := by
  cases takes with
  | again found => exact asks.again found
  | imported found kind => exact asks.imported kind

theorem namespaceOrigin {source : Provider} {id : ExternalId} {name : String}
    (same : symbols.namespaceOrigin source = .provided id name) : asked name := by
  cases source with
  | internal => cases same
  | external =>
      cases same
      exact asks.whole

/-- What an external module provides at the end of a chain of requests is asked for somewhere. -/
theorem provides {source : Provider} {name : String} {origin : Origin}
    (provided : symbols.Provides source name origin) (start : asked name) {id : ExternalId}
    {imported : String} (same : origin = .provided id imported) : asked imported := by
  induction provided with
  | here answer =>
      cases answer with
      | external =>
          cases same
          exact start
      | declared => cases same
      | linked => cases same
      | whole => exact asks.namespaceOrigin same
  | beyond passed _ ih =>
      refine ih ?_ same
      cases passed with
      | explicitly passed => exact asks.takes passed.1
      | byStar => exact start

theorem origin {source : Provider} {name : String} {id : ExternalId} {imported : String}
    (found : symbols.exportOrigin? source name = .ok (some (.provided id imported)))
    (start : asked name) : asked imported := by
  have spec := symbols.exportOrigin?_spec source name
  rw [found] at spec
  exact asks.provides spec start rfl

theorem declarationOrigin {id : DeclId} {source : ExternalId} {name : String}
    (found : symbols.declarationOrigin? id = .ok (some (.provided source name))) : asked name := by
  rw [declarationOrigin?, bindingOrigin?] at found
  split at found
  next => cases found
  next kind =>
      rw [requestOrigin?] at found
      split at found
      next => exact asks.namespaceOrigin (Option.some.inj (Except.ok.inj found))
      next => exact asks.provides (provides_of_search? found) (asks.imported kind) rfl
  next => cases found

theorem exportedNames {id : ModuleId} {name : String} (member : name ∈ symbols.exportedNames id) :
    asked name := by
  obtain ⟨source, -, listed, -⟩ := mem_exportedNames.mp member
  obtain ⟨entry, found⟩ := Option.isSome_iff_exists.mp (Std.TreeMap.mem_iff_isSome_getElem?.mp listed)
  exact asks.exported found

end Asks

/-! ## Linking -/

namespace Lasting

variable (lasting : Lasting asked said P)

include lasting

theorem intern {origin : Origin} (start : ∀ id name, origin = .provided id name → asked name)
    (holds : P symbols) : P (symbols.intern origin).2 := by
  cases origin with
  | declaration => exact holds
  | provided source name => exact lasting.external source (start source name rfl) holds

theorem resolveExport? (source : Provider) {name : String} (start : asked name) :
    Preserves P (Symbols.resolveExport? source name) := by
  intro symbols holds
  rw [resolveExport?_outcome]
  split
  next origin found =>
      refine lasting.intern (fun id imported same => ?_) holds
      subst same
      exact (lasting.asks holds).origin found start
  next => exact holds
  next => exact holds

theorem resolveExports (id : ModuleId) (names : List String) (start : ∀ name ∈ names, asked name) :
    Preserves P (Symbols.resolveExports id names) := by
  induction names with
  | nil => exact Preserves.pure _
  | cons name rest ih =>
      rw [Symbols.resolveExports]
      refine (lasting.resolveExport? _ (start name List.mem_cons_self)).bind fun _ => ?_
      exact (ih fun other member => start other (List.mem_cons_of_mem _ member)).bind fun _ =>
        Preserves.pure _

theorem linkExports (id : ModuleId) : Preserves P (Symbols.linkExports id) := by
  intro symbols holds
  have resolved := lasting.resolveExports id (symbols.exportedNames id)
    (fun _ member => (lasting.asks holds).exportedNames member) symbols holds
  rw [linkExports_outcome]
  generalize (Symbols.resolveExports id (symbols.exportedNames id)).outcome symbols = result at resolved
  obtain ⟨resolved' | fault, after⟩ := result
  · exact resolved
  · exact lasting.exports id _ resolved

theorem linkImport (id : DeclId) : Preserves P (Symbols.linkImport id) := by
  intro symbols holds
  rcases Graph.linkImport_outcome symbols id with
    ⟨same, -⟩ | ⟨fault, same⟩ | ⟨_, _, origin, -, found, same⟩
  · rwa [same]
  · rwa [same]
  · rw [same]
    refine lasting.target _ _ (lasting.intern (fun source name same => ?_) holds)
    subst same
    exact (lasting.asks holds).declarationOrigin found

theorem link : Preserves P Symbols.link := by
  intro symbols holds
  have first : Preserves P (symbols.declarationIds.forM Symbols.linkImport) :=
    Preserves.forM fun id _ => lasting.linkImport id
  have later : ∀ middle : Symbols, Preserves P (middle.moduleIds.forM Symbols.linkExports) :=
    fun middle => Preserves.forM fun id _ => lasting.linkExports id
  rw [Symbols.link_outcome]
  have middle := first symbols holds
  generalize (symbols.declarationIds.forM Symbols.linkImport).outcome symbols = result at middle
  obtain ⟨fault | _, after⟩ := result
  · exact middle
  · exact later after after middle

end Lasting

end Symbols

/-! ## Expressions -/

/-- The root of the expression is no name, or one of the kind that is said, and reads no key, or one of the
    kind that is asked for. -/
def Expr.Mentions (asked said : String → Prop) : Expr Label → Prop
  | .ident _ name => said name
  | .member _ _ key => asked key
  | _ => True

namespace Graph

open Symbols (Lasting)

variable {nodes : Array Node} {options : Options} {owner : ModuleId}

/-- Where a node is a statement, it is there. -/
theorem getElem?_of_statement {graph : Graph} {id : NodeId} {statement : Statement Label}
    (here : (graph.nodeAt id).fragment = .statement statement) :
    graph.nodes[id.index]? = some ⟨(graph.nodeAt id).owner, .statement statement⟩ := by
  rw [nodeAt, Array.getD_eq_getD_getElem?] at here ⊢
  cases found : graph.nodes[id.index]? with
  | none =>
      rw [found] at here
      cases here
  | some node =>
      rw [found] at here
      obtain ⟨owner, fragment⟩ := node
      cases here
      rfl

/-! ## Resolving a program -/

section Resolving

variable {Q : Graph → Prop} (fixed : ∀ {graph : Graph}, Q graph → graph.nodes = nodes)
  (arena : Arena nodes)
  (once : ∀ {id : NodeId} {step : Step Graph Unit}, Preserves Q step → Preserves Q (Graph.once id step))
  (composes : ∀ owner, Composes options owner (fun e => ∃ home, Placed nodes home e) (Preserves Q))

include fixed arena once composes

omit fixed in
theorem preserves_resolveStatement {i : Nat} {home : ModuleId} {statement : Statement Label}
    (found : nodes[i]? = some ⟨home, .statement statement⟩) :
    Preserves Q (resolveStatement options owner statement) :=
  once ((composes owner).resolveExprs _ fun e child => ⟨home, (arena.child found e child).2⟩)

theorem preserves_resolveModule (id : ModuleId) : Preserves Q (resolveModule options id) := by
  intro graph holds
  rw [resolveModule, Step.outcome_bind, Step.outcome_get]
  refine Preserves.forM (fun statement member => ?_) graph holds
  obtain ⟨node, -, at_node⟩ := mem_statements.mp member
  exact preserves_resolveStatement arena once composes (fixed holds ▸ getElem?_of_statement at_node)

/-- What resolving single nodes keeps is kept by resolving the program. -/
theorem preserves_resolve : Preserves Q (resolve options) :=
  Preserves.bind (fun _ holds => holds) fun _ =>
    Preserves.forM fun id _ => preserves_resolveModule fixed arena once composes id

theorem preserves_resolveNode {id : NodeId} (inside : id.index < nodes.size) :
    Preserves Q (resolveNode options id) := by
  intro graph holds
  have found : graph.nodes[id.index]? = some nodes[id.index] := by
    rw [fixed holds]
    exact Array.getElem?_eq_getElem inside
  have found' : nodes[id.index]? = some nodes[id.index] := Array.getElem?_eq_getElem inside
  rw [resolveNode, Step.outcome_bind, Step.outcome_get]
  dsimp only
  rw [nodeAt_of_getElem? found]
  generalize nodes[id.index] = node at found'
  obtain ⟨home, fragment⟩ := node
  cases fragment with
  | statement body => exact preserves_resolveStatement arena once composes found' graph holds
  | expr body =>
      have placed : Placed nodes home body := by
        rwa [Placed, show body.id = id from arena.label found']
      exact (composes home).resolveExpr body ⟨home, placed⟩ graph holds

end Resolving

/-! ## Names and keys of a program -/

/-- All expressions among the nodes are of the given kinds. -/
def Mentions (asked said : String → Prop) (nodes : Array Node) : Prop :=
  ∀ {i : Nat} {owner : ModuleId} {e : Expr Label}, nodes[i]? = some ⟨owner, .expr e⟩ →
    e.Mentions asked said

theorem mentions_any (nodes : Array Node) : Mentions (fun _ => True) (fun _ => True) nodes := by
  intro i owner e _
  cases e <;> trivial

/-- What is read in a chain from a node is of the given kinds. -/
theorem Mentions.chain (mentions : Mentions asked said nodes) (arena : Arena nodes)
    (plain : ∀ {name}, Identifier.isPlain name = true → asked name) :
    ∀ {e : Expr Label} {root keys}, Placed nodes owner e → e.chain? = some (root, keys) →
      Placed nodes owner root ∧ ∀ key ∈ keys, asked key.name
  | .member label object key, root, keys, placed, chain => by
    rw [Expr.chain?] at chain
    obtain ⟨⟨inner, first⟩, below, same⟩ := Option.bind_eq_some_iff.mp chain
    cases same
    obtain ⟨there, rest⟩ := mentions.chain arena plain (placed.child arena object List.mem_cons_self) below
    refine ⟨there, fun other member => ?_⟩
    rcases List.mem_append.mp member with before | last
    · exact rest other before
    · obtain rfl := List.mem_singleton.mp last
      exact mentions placed
  | .index label object key, root, keys, placed, chain => by
    rw [Expr.chain?] at chain
    obtain ⟨found, bracket, chain⟩ := Option.bind_eq_some_iff.mp chain
    obtain ⟨⟨inner, first⟩, below, same⟩ := Option.bind_eq_some_iff.mp chain
    cases same
    obtain ⟨there, rest⟩ := mentions.chain arena plain (placed.child arena object List.mem_cons_self) below
    refine ⟨there, fun other member => ?_⟩
    rcases List.mem_append.mp member with before | last
    · exact rest other before
    · obtain rfl := List.mem_singleton.mp last
      rw [Expr.bracketKey?.eq_def] at bracket
      split at bracket
      next =>
          split at bracket
          next legal =>
              cases bracket
              exact plain legal
          next => cases bracket
      next => cases bracket
  | .ident label name, root, keys, placed, chain
  | .literal label value, root, keys, placed, chain
  | .call label callee arguments, root, keys, placed, chain
  | .assign label target value, root, keys, placed, chain => by
    cases chain
    exact ⟨placed, fun _ member => absurd member List.not_mem_nil⟩

end Graph

namespace Symbols.Lasting

open Bundler.Graph

variable {nodes : Array Node} {options : Options} {owner : ModuleId}
  (lasting : Lasting asked said P)

/-- The graph has the given nodes, and its symbols have the property. -/
def Over (nodes : Array Node) (P : Symbols → Prop) (graph : Graph) : Prop :=
  graph.nodes = nodes ∧ P graph.symbols

theorem over_onSymbols {α : Type} {step : Step Symbols α} (preserves : Preserves P step) :
    Preserves (Over nodes P) (onSymbols step) := by
  intro graph holds
  rw [onSymbols_outcome]
  exact ⟨holds.1, preserves graph.symbols holds.2⟩

include lasting

theorem graph_link (nodes : Array Node) : Preserves (Over nodes P) Graph.link :=
  (over_onSymbols lasting.link).bind fun _ _ holds => holds

theorem follow (declaration : DeclId) {keys : List ChainKey} (start : ∀ key ∈ keys, asked key.name) :
    Preserves (Over nodes P) (Graph.follow declaration keys) := by
  induction keys generalizing declaration with
  | nil => exact Preserves.pure _
  | cons key rest ih =>
      rw [Graph.follow]
      refine Preserves.bind (fun _ holds => holds) fun graph => ?_
      split
      · exact Preserves.pure _
      · refine (over_onSymbols (lasting.resolveExport? _ (start key List.mem_cons_self))).bind
          fun found => ?_
        split
        · exact ih _ fun other member => start other (List.mem_cons_of_mem _ member)
        · exact Preserves.pure _

theorem lookup {name : String} (start : said name) :
    Preserves (Over nodes P) (Graph.lookup owner name) := by
  intro graph holds
  rw [Graph.lookup, Step.outcome_modifyGet]
  dsimp only
  rw [Scopes.find]
  split
  · exact holds
  · exact ⟨holds.1, lasting.global start holds.2⟩

theorem conclude (id : NodeId) {root : String} (start : said root) (destination : Destination) :
    Preserves (Over nodes P) (Graph.conclude options owner id root destination) := by
  cases destination with
  | declaration last =>
      refine Preserves.bind (fun _ holds => holds) fun _ =>
        Preserves.bind (fun graph holds => ?_) fun _ => Preserves.pure _
      rw [proposeFor, Step.outcome_modify]
      dsimp only
      split
      · exact ⟨holds.1, lasting.propose _ start holds.2⟩
      · exact holds
  | missing exporter key => exact fun _ holds => holds
  | beyond => exact fun _ holds => holds

omit lasting in
theorem once {id : NodeId} {step : Step Graph Unit} (preserves : Preserves (Over nodes P) step) :
    Preserves (Over nodes P) (Graph.once id step) :=
  Preserves.bind (fun _ holds => holds) fun _ => by
    split
    · exact Preserves.pure _
    · exact Preserves.bind (fun _ holds => holds) fun _ => preserves

variable (arena : Arena nodes) (mentions : Mentions asked said nodes)
  (plain : ∀ {name}, Identifier.isPlain name = true → asked name)

include arena mentions plain

theorem composes :
    Composes options owner (fun e => ∃ home, Placed nodes home e) (Preserves (Over nodes P)) where
  child {e} placed c child := placed.imp fun _ placed => placed.child arena c child
  pure := Preserves.pure
  bind := Preserves.bind
  once _ := once
  name placed := by
    obtain ⟨home, placed⟩ := placed
    exact (lasting.lookup (mentions placed)).bind fun _ _ holds => holds
  access {access} placed := by
    obtain ⟨home, placed⟩ := placed
    by_cases named : ∃ label root keys, access.chain? = some (.ident label root, keys)
    · obtain ⟨label, root, keys, chain⟩ := named
      obtain ⟨there, asks⟩ := mentions.chain arena plain placed chain
      rw [resolveAccess_eq chain]
      exact (lasting.lookup (mentions there)).bind fun _ =>
        (lasting.follow _ asks).bind fun _ => lasting.conclude _ (mentions there) _
    · rw [resolveAccess]
      split
      next chain => exact absurd ⟨_, _, _, chain⟩ named
      next => exact fun _ holds => holds

theorem resolve (options : Options) : Preserves (Over nodes P) (Graph.resolve options) :=
  preserves_resolve And.left arena once fun _ => lasting.composes arena mentions plain

theorem resolveNode (options : Options) {id : NodeId} (inside : id.index < nodes.size) :
    Preserves (Over nodes P) (Graph.resolveNode options id) :=
  preserves_resolveNode And.left arena once (fun _ => lasting.composes arena mentions plain) inside

end Symbols.Lasting

end Bundler
