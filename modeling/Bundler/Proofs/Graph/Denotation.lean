import Bundler.Proofs.Graph.Access
import Bundler.Proofs.Graph.Linking
import Bundler.Graph.Denotation

/-! # Denotations

Resolving settles for every name and every access what it denotes, and this is always visible from the
module of the node.  After a successful link it is no import either.
-/

namespace Bundler.Graph

variable {graph other : Graph} {owner : ModuleId}

/-- What a node of the module may denote. -/
def Denotable (graph : Graph) (owner : ModuleId) (declaration : DeclId) : Prop :=
  graph.Visible owner declaration ∧ (graph.Bound → graph.Final declaration)

/-! ## Marks -/

theorem denotation?_modifyMark {id node : NodeId} {change : Mark → Mark} {declaration : DeclId}
    (denoted : (graph.modifyMark id change).denotation? node = some declaration) :
    graph.denotation? node = some declaration ∨
      node = id ∧ (change (graph.markAt id)).resolution = some (.declaration declaration) := by
  simp only [denotation?, resolutionAt, markAt_modifyMark] at denoted
  split at denoted
  next found =>
      split at found
      next here =>
          cases denoted
          exact .inr ⟨here.1, here.1 ▸ found⟩
      next =>
          left
          simpa only [denotation?, resolutionAt, found] using denoted
  next => cases denoted

/-- What is noted about a node may change if what it comes to denote is visible. -/
theorem develops_modifyMark {id : NodeId} {change : Mark → Mark}
    (included : ∀ mark, (change mark).included = mark.included)
    (denotable : ∀ declaration,
      (change (graph.markAt id)).resolution = some (.declaration declaration) →
      graph.denotation? id = some declaration ∨
        graph.Denotable (graph.nodeAt id).owner declaration) :
    Develops graph (graph.modifyMark id change) := by
  have extension : Extends graph (graph.modifyMark id change) := { Extends.refl graph with }
  have size : (graph.modifyMark id change).marks.size = graph.marks.size := by simp [modifyMark]
  refine { Annotates.refl graph with
    remembers := .refl _
    marks := size
    selection := ?_
    added := .inl
    sound := fun sound => ?_
    bound := fun _ bound => ?_ }
  · ext node
    · simp only [selection, includesNode, markAt_modifyMark]
      split
      · exact included _
      · rfl
    · rfl
    · rfl
  · refine sound.step extension sound.arena (size.trans sound.marks) (fun there => .inl ⟨there, rfl⟩)
      (fun inside => .inl ⟨inside, rfl⟩) (fun there => .inl ⟨there, rfl⟩) .inl sound.scopeCount
      (fun _ => .inl rfl) fun {node declaration} denoted => ?_
    rcases denotation?_modifyMark denoted with before | ⟨rfl, now⟩
    · exact .inl ⟨before, rfl⟩
    · rcases denotable declaration now with before | new
      · exact .inl ⟨before, rfl⟩
      · exact .inr (extension.visible new.1)
  · refine ⟨bound.linked, fun {node declaration} denoted => ?_⟩
    rcases denotation?_modifyMark denoted with before | ⟨rfl, now⟩
    · exact bound.final before
    · rcases denotable declaration now with before | new
      · exact bound.final before
      · exact new.2 bound

/-- Noting that a node has been looked at changes nothing that is known about it. -/
theorem develops_look (id : NodeId) :
    Develops graph (graph.modifyMark id fun mark => { mark with bound := true }) := by
  refine develops_modifyMark (fun _ => rfl) fun declaration denoted => .inl ?_
  rw [denotation?, resolutionAt]
  dsimp only at denoted
  rw [denoted]

theorem develops_settle (id : NodeId) (resolution : Resolution)
    (denotable : ∀ declaration, resolution = .declaration declaration →
      graph.Denotable (graph.nodeAt id).owner declaration) :
    Develops graph ((settle id resolution).outcome graph).2 :=
  develops_modifyMark (fun _ => rfl) fun declaration same => .inr
    (denotable declaration (Option.some.inj same))

/-! ## Names -/

theorem lookup?_eq {scopes : Scopes} {scope : ScopeId} (outermost : (scopes.scopeAt scope).parent = none)
    (name : String) (depth : Nat) : scopes.lookup? name depth scope = scopes.binding? scope name := by
  unfold Scopes.lookup?
  split
  next bound => exact bound.symm
  next absent =>
      rw [outermost, absent]
      cases depth <;> rfl

theorem Sound.denoted_belongs (sound : graph.Sound) {declaration : DeclId}
    (belongs : graph.Belongs owner declaration) :
    graph.Denotable owner (graph.symbols.denoted declaration) := by
  rw [Symbols.denoted]
  split
  next source name target kind =>
      obtain ⟨home, owned, -, visible⟩ := (sound.declarations belongs.inside).imported kind
      rw [belongs.owner] at owned
      cases owned
      exact ⟨(visible target rfl).1, fun _ => (visible target rfl).2⟩
  next open_ =>
      refine ⟨belongs.visible, fun bound source name target kind => ?_⟩
      cases target with
      | some target => exact open_ source name target kind
      | none => exact bound.linked belongs.inside source name kind

theorem Sound.lookup_bound (sound : graph.Sound) {name : String} {id : DeclId}
    (bound : graph.scopes.binding? owner.scope name = some id) :
    (lookup owner name).outcome graph = (.ok (graph.symbols.denoted id), graph) := by
  have outermost : (graph.scopes.scopeAt owner.scope).parent = none := sound.scopes.parent
  simp only [lookup, Step.outcome_modifyGet, Scopes.find, lookup?_eq outermost, bound]

theorem Sound.lookup_global (sound : graph.Sound) {name : String}
    (unbound : graph.scopes.binding? owner.scope name = none) :
    (lookup owner name).outcome graph = (.ok (graph.symbols.globalDeclaration name).1,
      graph.withSymbols (graph.symbols.globalDeclaration name).2) := by
  have outermost : (graph.scopes.scopeAt owner.scope).parent = none := sound.scopes.parent
  have same : (graph.symbols.globalDeclaration name).2.denoted (graph.symbols.globalDeclaration name).1 =
      (graph.symbols.globalDeclaration name).1 := by
    rw [Symbols.denoted, (develops_globalDeclaration sound name).2.2]
  simp only [lookup, Step.outcome_modifyGet, Scopes.find, lookup?_eq outermost, unbound, same, withSymbols]

theorem develops_lookup (sound : graph.Sound) (owner : ModuleId) (name : String) :
    ∃ declaration after, (lookup owner name).outcome graph = (.ok declaration, after) ∧
      Develops graph after ∧ after.Denotable owner declaration := by
  cases bound : graph.scopes.binding? owner.scope name with
  | some declaration =>
      exact ⟨_, _, sound.lookup_bound bound, Develops.refl graph,
        sound.denoted_belongs (sound.scopes.binding bound)⟩
  | none =>
      obtain ⟨develops, there⟩ := develops_globalDeclaration sound name
      obtain ⟨visible, final⟩ := visible_of_kind there (.inl rfl) owner
      exact ⟨_, _, sound.lookup_global bound, develops, visible, fun _ => final⟩

/-! ## Chains of keys -/

theorem Sound.namespace? (sound : graph.Sound) {declaration : DeclId} {exporter : Provider}
    (visible : graph.Visible owner declaration)
    (named : (graph.symbols.declarationAt declaration).namespace? = some exporter) :
    graph.HasProvider exporter ∧ graph.Sees owner exporter := by
  have entry := sound.declarations visible.inside
  rw [Declaration.namespace?] at named
  split at named
  next home kind =>
      cases named
      exact ⟨(entry.namespaceOf kind).1, visible.namespaceOf kind⟩
  next source name kind =>
      split at named
      · cases named
        exact ⟨entry.provided kind, trivial⟩
      · cases named
  next => cases named

theorem onSymbols_outcome {α : Type} (step : Step Symbols α) :
    (onSymbols step).outcome graph =
      ((step.outcome graph.symbols).1, graph.withSymbols (step.outcome graph.symbols).2) := by
  rw [onSymbols, Step.outcome_within]
  rfl

/-- Where a chain of keys can be followed to its end, it leads to something visible. -/
theorem develops_follow (sound : graph.Sound) {declaration : DeclId}
    (denotable : graph.Denotable owner declaration) (keys : List ChainKey) :
    Develops graph ((follow declaration keys).outcome graph).2 ∧
      ∀ last, ((follow declaration keys).outcome graph).1 = .ok (.declaration last) →
        ((follow declaration keys).outcome graph).2.Denotable owner last := by
  induction keys generalizing graph declaration with
  | nil =>
      refine ⟨Develops.refl graph, fun last same => ?_⟩
      cases same
      exact denotable
  | cons key rest ih =>
      rw [follow, Step.outcome_bind, Step.outcome_get]
      dsimp only
      split
      next => exact ⟨Develops.refl graph, by simp⟩
      next exporter named =>
          obtain ⟨known, sees⟩ := sound.namespace? denotable.1 named
          obtain ⟨first, found⟩ := develops_resolveExport? sound known key.name
          rw [Step.outcome_bind, onSymbols_outcome]
          cases outcome : (Symbols.resolveExport? exporter key.name).outcome graph.symbols with
          | mk result symbols =>
              rw [outcome] at first found
              cases result with
              | error fault => exact ⟨first, by simp⟩
              | ok next =>
                  cases next with
                  | none => exact ⟨first, by simp⟩
                  | some next =>
                      obtain ⟨visible, final⟩ := found next rfl owner sees
                      obtain ⟨later, reached⟩ := ih (first.sound sound) ⟨visible, fun _ => final⟩
                      exact ⟨first.trans later, reached⟩

/-! ## Steps without conditions -/

theorem develops_warn (options : Options) (exporter : Provider) (key : ChainKey) :
    Develops graph ((warn options owner exporter key).outcome graph).2 := by
  refine { Annotates.refl graph with
    remembers := .refl _
    selection := rfl
    added := .inl
    sound := fun sound => ?_
    bound := fun _ bound => ?_ }
  · exact sound.withRest graph.entry graph.order _
  · exact ⟨bound.linked, bound.final⟩

theorem develops_proposeFor (declaration : DeclId) (hint : String) :
    Develops graph ((proposeFor declaration hint).outcome graph).2 := by
  rw [proposeFor, Step.outcome_modify]
  dsimp only
  split
  · exact develops_proposeName _ hint
  · exact Develops.refl graph

/-- The step develops every sound program with the given nodes. -/
def Improves {α : Type} (nodes : Array Node) (step : Step Graph α) : Prop :=
  ∀ graph : Graph, graph.Sound → graph.nodes = nodes → Develops graph (step.outcome graph).2

namespace Improves

variable {α β : Type} {nodes : Array Node}

theorem pure (a : α) : Improves nodes (pure a : Step Graph α) := fun graph _ _ => Develops.refl graph

theorem bind {step : Step Graph α} {next : α → Step Graph β} (first : Improves nodes step)
    (later : ∀ a, Improves nodes (next a)) : Improves nodes (step >>= next) := by
  intro graph sound same
  have develops := first graph sound same
  apply Step.after_bind (Develops graph) (fun _ _ => develops)
  intro a _
  exact develops.trans (later a _ (develops.sound sound) (develops.nodes.trans same))

theorem once {id : NodeId} {step : Step Graph Unit} (improves : Improves nodes step) :
    Improves nodes (once id step) := by
  intro graph sound same
  rw [Graph.once, Step.outcome_bind, Step.outcome_get]
  dsimp only
  split
  · exact Develops.refl graph
  · rw [Step.outcome_bind, Step.outcome_modify]
    have looked : Develops graph (graph.modifyMark id fun mark => { mark with bound := true }) :=
      develops_look id
    exact looked.trans (improves _ (looked.sound sound) (looked.nodes.trans same))

theorem forM {step : α → Step Graph Unit} {items : List α}
    (each : ∀ item ∈ items, Improves nodes (step item)) : Improves nodes (items.forM step) := by
  induction items with
  | nil => exact pure ()
  | cons item rest ih =>
      rw [List.forM_eq_forM, List.forM_cons]
      exact bind (each item List.mem_cons_self) fun _ =>
        ih fun item member => each item (List.mem_cons_of_mem _ member)

end Improves

/-! ## Expressions -/

variable {nodes : Array Node} {options : Options}

theorem owner_nodeAt {id : NodeId} {fragment : Fragment} (same : graph.nodes = nodes)
    (found : nodes[id.index]? = some ⟨owner, fragment⟩) : (graph.nodeAt id).owner = owner := by
  rw [nodeAt_of_getElem? (same ▸ found)]

theorem improves_settle (id : NodeId) {resolution : Resolution}
    (other : ∀ declaration, resolution ≠ .declaration declaration) :
    Improves nodes (settle id resolution) :=
  fun _ _ _ => develops_settle id resolution fun declaration same => absurd same (other declaration)

theorem develops_settleDeclaration {id : NodeId} {fragment : Fragment} {declaration : DeclId}
    (same : graph.nodes = nodes) (found : nodes[id.index]? = some ⟨owner, fragment⟩)
    (denotable : graph.Denotable owner declaration) :
    Develops graph ((settle id (.declaration declaration)).outcome graph).2 := by
  apply develops_settle id _
  intro other named
  cases named
  rwa [owner_nodeAt same found]

theorem improves_settleName {id : NodeId} {fragment : Fragment}
    (found : nodes[id.index]? = some ⟨owner, fragment⟩) (name : String) :
    Improves nodes (do settle id (.declaration (← lookup owner name))) := by
  intro graph sound same
  obtain ⟨declaration, after, looked, develops, denotable⟩ := develops_lookup sound owner name
  rw [Step.outcome_bind, looked]
  exact develops.trans
    (develops_settleDeclaration (develops.nodes.trans same) found denotable)

/-- What is noted about an access, given where its keys lead to. -/
def conclude (options : Options) (owner : ModuleId) (id : NodeId) (root : String) :
    Destination → Step Graph Bool
  | .declaration last => do
    settle id (.declaration last)
    proposeFor last root
    return true
  | .missing exporter key => do
    warn options owner exporter key
    settle id .undefined
    return true
  | .beyond => do
    settle id .fallback
    return false

theorem resolveAccess_eq {access : Expr Label} {label : Label} {root : String} {keys : List ChainKey}
    (chain : access.chain? = some (.ident label root, keys)) :
    resolveAccess options owner access =
      (do conclude options owner access.id root (← follow (← lookup owner root) keys)) := by
  rw [resolveAccess, chain]
  rfl

theorem develops_conclude {id : NodeId} {fragment : Fragment} (sound : graph.Sound)
    (found : graph.nodes[id.index]? = some ⟨owner, fragment⟩) (root : String)
    {destination : Destination}
    (denotable : ∀ last, destination = .declaration last → graph.Denotable owner last) :
    Develops graph ((conclude options owner id root destination).outcome graph).2 := by
  cases destination with
  | declaration last =>
      have here := develops_settleDeclaration rfl found (denotable last rfl)
      rw [conclude, Step.outcome_bind]
      exact here.trans (develops_proposeFor last root)
  | missing exporter key =>
      have warned : Develops graph ((warn options owner exporter key).outcome graph).2 :=
        develops_warn options exporter key
      have noted : Improves graph.nodes (settle id .undefined) := improves_settle id (by simp)
      exact warned.trans (noted _ (warned.sound sound) warned.nodes)
  | beyond =>
      have noted : Improves graph.nodes (settle id .fallback) := improves_settle id (by simp)
      exact noted graph sound rfl

theorem improves_resolveAccess {access : Expr Label} {fragment : Fragment}
    (found : nodes[access.id.index]? = some ⟨owner, fragment⟩) :
    Improves nodes (resolveAccess options owner access) := by
  by_cases named : ∃ label root keys, access.chain? = some (.ident label root, keys)
  · obtain ⟨label, root, keys, chain⟩ := named
    intro graph sound same
    obtain ⟨declaration, middle, looked, develops, denotable⟩ := develops_lookup sound owner root
    obtain ⟨followed, reached⟩ := develops_follow (develops.sound sound) denotable keys
    rw [resolveAccess_eq chain, Step.outcome_bind, looked]
    refine develops.trans ?_
    dsimp only
    apply Step.after_bind (Develops middle) (fun _ _ => followed)
    intro destination arrived
    rw [← same, ← develops.nodes, ← followed.nodes] at found
    refine followed.trans (develops_conclude (followed.sound (develops.sound sound)) found root ?_)
    rintro last rfl
    exact reached last arrived
  · rw [resolveAccess]
    split
    next chain => exact absurd ⟨_, _, _, chain⟩ named
    next => exact Improves.bind (improves_settle access.id (by simp)) fun _ => Improves.pure false

/-- The expression is a node of the module. -/
def Placed (nodes : Array Node) (owner : ModuleId) (e : Expr Label) : Prop :=
  nodes[e.id.index]? = some ⟨owner, .expr e⟩

theorem Placed.child {e : Expr Label} (arena : Arena nodes) (placed : Placed nodes owner e) :
    ∀ c ∈ e.children, Placed nodes owner c :=
  fun c child => (arena.child placed c child).2

/-- A property of steps that resolving single nodes of known expressions has, and that sequences of
    steps take over from their parts. -/
structure Composes (options : Options) (owner : ModuleId) (known : Expr Label → Prop)
    (P : ∀ {α : Type}, Step Graph α → Prop) : Prop where
  child : ∀ {e : Expr Label}, known e → ∀ c ∈ e.children, known c
  pure : ∀ {α : Type} (a : α), P (Pure.pure a : Step Graph α)
  bind : ∀ {α β : Type} {step : Step Graph α} {next : α → Step Graph β},
    P step → (∀ a, P (next a)) → P (step >>= next)
  once : ∀ {e : Expr Label} {step : Step Graph Unit}, known e → P step → P (Graph.once e.id step)
  name : ∀ {label : Label} {name : String}, known (.ident label name) →
    P (do settle label.id (.declaration (← lookup owner name)))
  access : ∀ {access : Expr Label}, known access → P (resolveAccess options owner access)

namespace Composes

variable {known : Expr Label → Prop} {P : ∀ {α : Type}, Step Graph α → Prop}
  (composes : Composes options owner known P)

include composes

mutual

theorem resolveExpr : ∀ e : Expr Label, known e → P (Graph.resolveExpr options owner e)
  | .ident label name, here => by
    rw [Graph.resolveExpr]
    exact composes.once here (composes.name here)
  | .literal label value, here => by
    rw [Graph.resolveExpr]
    exact composes.once here (composes.pure ())
  | .member label object key, here => by
    rw [Graph.resolveExpr]
    have below := composes.child here object List.mem_cons_self
    refine composes.once here (composes.bind (composes.access here) fun settled => ?_)
    cases settled with
    | true => exact composes.pure _
    | false => exact resolveExpr object below
  | .index label object key, here => by
    rw [Graph.resolveExpr]
    have first := composes.child here object List.mem_cons_self
    have second := composes.child here key (List.mem_cons_of_mem _ List.mem_cons_self)
    refine composes.once here (composes.bind (composes.access here) fun settled => ?_)
    cases settled with
    | true => exact composes.pure _
    | false => exact composes.bind (resolveExpr object first) fun _ => resolveExpr key second
  | .call label callee arguments, here => by
    rw [Graph.resolveExpr]
    have first := composes.child here callee List.mem_cons_self
    refine composes.once here (composes.bind (resolveExpr callee first) fun _ => ?_)
    exact resolveExprs arguments fun e member => composes.child here e (List.mem_cons_of_mem _ member)
  | .assign label target value, here => by
    rw [Graph.resolveExpr]
    have first := composes.child here target List.mem_cons_self
    have second := composes.child here value (List.mem_cons_of_mem _ List.mem_cons_self)
    exact composes.once here
      (composes.bind (resolveExpr target first) fun _ => resolveExpr value second)

theorem resolveExprs : ∀ es : List (Expr Label), (∀ e ∈ es, known e) →
    P (Graph.resolveExprs options owner es)
  | [], _ => by
    rw [Graph.resolveExprs]
    exact composes.pure ()
  | e :: rest, here => by
    rw [Graph.resolveExprs]
    exact composes.bind (resolveExpr e (here e List.mem_cons_self)) fun _ =>
      resolveExprs rest fun other member => here other (List.mem_cons_of_mem _ member)

end

end Composes

theorem composes_improves (arena : Arena nodes) :
    Composes options owner (Placed nodes owner) (Improves nodes) where
  child := Placed.child arena
  pure := Improves.pure
  bind := Improves.bind
  once _ := Improves.once
  name placed := improves_settleName placed _
  access placed := improves_resolveAccess placed

theorem improves_resolveStatement (arena : Arena nodes) {statement : Statement Label}
    (found : nodes[statement.id.index]? = some ⟨owner, .statement statement⟩) :
    Improves nodes (resolveStatement options owner statement) :=
  Improves.once ((composes_improves arena).resolveExprs _ fun e child => (arena.child found e child).2)

/-! ## Whole programs -/

/-- Resolving a node of the graph finds out more about the program. -/
theorem develops_resolveNode (sound : graph.Sound) {id : NodeId} (inside : id.index < graph.nodes.size)
    (options : Options) : Develops graph ((resolveNode options id).outcome graph).2 := by
  have found : graph.nodes[id.index]? = some graph.nodes[id.index] := Array.getElem?_eq_getElem inside
  have label := sound.arena.label found
  rw [resolveNode, Step.outcome_bind, Step.outcome_get]
  dsimp only
  rw [nodeAt_of_getElem? found]
  generalize graph.nodes[id.index] = node at found label ⊢
  obtain ⟨owner, fragment⟩ := node
  cases fragment with
  | statement body =>
      exact improves_resolveStatement sound.arena (by rwa [show body.id = id from label]) graph sound rfl
  | expr body =>
      have placed : Placed graph.nodes owner body := by rwa [Placed, show body.id = id from label]
      exact (composes_improves sound.arena).resolveExpr body placed graph sound rfl

theorem develops_resolveModule (sound : graph.Sound) (options : Options) (id : ModuleId) :
    Develops graph ((resolveModule options id).outcome graph).2 := by
  rw [resolveModule, Step.outcome_bind, Step.outcome_get]
  refine Improves.forM (fun statement member => ?_) graph sound rfl
  exact improves_resolveStatement sound.arena (sound.grounded.statement member).2

theorem develops_resolve (sound : graph.Sound) (options : Options) :
    Develops graph ((resolve options).outcome graph).2 := by
  rw [resolve, Step.outcome_bind, Step.outcome_get]
  exact Improves.forM (fun id _ graph sound _ => develops_resolveModule sound options id) graph sound
    rfl

theorem develops_of_resolve {other : Graph} {result : Except Fault Unit} (sound : graph.Sound)
    (resolving : (resolve options).outcome graph = (result, other)) : Develops graph other := by
  have develops := develops_resolve sound options
  rwa [resolving] at develops

end Bundler.Graph
