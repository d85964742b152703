import Bundler.Proofs.Graph.Accesses
import Bundler.Proofs.Graph.Targets

/-! # Namespaces lie ahead

A module comes to know the namespace object of another one, or its own, only by an import or a re-export
of it, so a chain of at least one link leads from where the object is referred to, to the module that it
stands for.
-/

namespace Bundler

namespace Symbols

variable {symbols : Symbols}

theorem Found.mem {id : ModuleId} {names : List String}
    {resolved : List (String × DeclId)} (found : symbols.Found id names resolved)
    {entry : String × DeclId} (member : entry ∈ resolved) :
    symbols.Answered (.internal id) entry.1 (some entry.2) := by
  induction found with
  | nil => cases member
  | @cons name found rest resolved answered _ ih =>
      rcases List.mem_append.mp member with here | among
      · obtain ⟨declaration, rfl, rfl⟩ := Option.map_eq_some_iff.mp (Option.mem_toList.mp here)
        exact answered
      · exact ih among

end Symbols

namespace Graph

variable {made graph other : Graph} {owner : ModuleId}

/-- A chain of at least one import or re-export leads from one module to the other. -/
def Depends (graph : Graph) : ModuleId → ModuleId → Prop :=
  Relation.TransGen fun id source => graph.Links id (.internal source)

/-- If the declaration is a namespace object, the module depends on the one that it stands for. -/
def Ahead (graph : Graph) (id : ModuleId) (declaration : DeclId) : Prop :=
  ∀ home, (graph.symbols.declarationAt declaration).kind = .namespaceOf home → graph.Depends id home

theorem Extends.depends (extension : Extends graph other) {id home : ModuleId}
    (depends : graph.Depends id home) : other.Depends id home :=
  Relation.TransGen.mono (fun _ _ => extension.links) _ _ depends

theorem Extends.ahead (extension : Extends graph other) {id : ModuleId} {declaration : DeclId}
    (inside : graph.HasDeclaration declaration) (ahead : graph.Ahead id declaration) :
    other.Ahead id declaration := by
  intro home kind
  have before := (extension.kind inside).eq (by simp [kind])
  exact extension.depends (ahead home (before.trans kind))

theorem Belongs.ahead {declaration : DeclId} (belongs : graph.Belongs owner declaration)
    (id : ModuleId) : graph.Ahead id declaration := fun _ kind => absurd kind (belongs.home _)

theorem Annotates.known (annotates : Annotates graph other) {source : Provider}
    (there : other.HasProvider source) : graph.HasProvider source := by
  cases source with
  | internal id => exact Nat.lt_of_lt_of_eq there annotates.modules
  | external id => exact Nat.lt_of_lt_of_eq there annotates.externals

/-! ## Origins -/

/-- The origin lies outside, or is a declaration that is ahead of the source. -/
def OriginAhead (graph : Graph) : Provider → Origin → Prop
  | .internal id, .declaration declaration => graph.Ahead id declaration
  | .external _, .declaration _ => False
  | _, .provided _ _ => True

/-- What imports of the module are known to denote is ahead of it. -/
def TargetsAhead (graph : Graph) : Prop :=
  ∀ {id source name target}, (graph.symbols.declarationAt id).kind = .imported source name (some target) →
    ∀ {owner}, (graph.symbols.declarationAt id).owner = some (.internal owner) → graph.Ahead owner target

theorem Links.ahead (sound : graph.Sound) {source : Provider} (links : graph.Links owner source) :
    graph.OriginAhead (.internal owner) (graph.symbols.namespaceOrigin source) := by
  cases source with
  | external source => trivial
  | internal source =>
      intro home kind
      have known := sound.known links
      cases (sound.modules known).namespaceDecl.2.symm.trans kind
      exact .single links

theorem OriginAhead.through {source : Provider} {origin : Origin} (links : graph.Links owner source)
    (ahead : graph.OriginAhead source origin) : graph.OriginAhead (.internal owner) origin := by
  cases origin with
  | provided => trivial
  | declaration declaration =>
      cases source with
      | external => exact ahead.elim
      | internal source => exact fun home kind => .head links (ahead home kind)

theorem OriginAhead.interned {origin : Origin} {declaration : DeclId}
    (ahead : graph.OriginAhead (.internal owner) origin) (sound : graph.Sound)
    (interned : graph.symbols.Interned origin declaration) : graph.Ahead owner declaration := by
  cases interned with
  | declaration => exact ahead
  | provided found =>
      have kind := (sound.externals (Symbols.lt_of_provided found) found).2
      exact fun home other => nomatch kind.symm.trans other

theorem Extends.originAhead (extension : Extends graph other) {source : Provider} {origin : Origin}
    (seen : graph.OriginSeen source origin) (ahead : graph.OriginAhead source origin) :
    other.OriginAhead source origin := by
  cases origin with
  | provided => cases source <;> trivial
  | declaration declaration =>
      cases source with
      | external => exact ahead.elim
      | internal id => exact extension.ahead seen.1.inside ahead

/-- What a module provides is ahead of it. -/
theorem Sound.provides_ahead (sound : graph.Sound) (targets : graph.TargetsAhead) {source : Provider}
    {name : String} {origin : Origin} (provided : graph.symbols.Provides source name origin) :
    graph.OriginAhead source origin := by
  induction provided with
  | here answer =>
      cases answer with
      | external => trivial
      | declared found =>
          exact ((sound.modules (Symbols.lt_of_export found)).own found).ahead _
      | linked found kind =>
          exact targets kind ((sound.modules (Symbols.lt_of_export found)).own found).owner
      | whole takes => exact (sound.takes takes).ahead sound
  | @beyond source _ _ _ _ passed _ ih =>
      cases source with
      | external => cases passed
      | internal id => exact ih.through (sound.passes passed)

/-! ## Programs with faithful targets -/

/-- The graph is the program as it was made, with targets for all imports that the program grants. -/
structure Understands (made graph : Graph) : Prop where
  annotates : Annotates made graph
  sound : graph.Sound
  connected : graph.Connected
  faithful : made.symbols.Faithful graph.symbols

namespace Understands

theorem develops (understands : Understands made graph) (develops : Develops graph other) :
    Understands made other where
  annotates := understands.annotates.trans develops.toAnnotates
  sound := develops.sound understands.sound
  connected := develops.connected understands.connected
  faithful := develops.faithful understands.connected understands.faithful

/-- What an import is granted in the program as it was written is ahead of the module that imports it. -/
theorem targetsAhead (understands : Understands made graph) (sound : made.Sound)
    (written : made.symbols.Written) : graph.TargetsAhead := by
  intro id source name target kind owner owned
  have annotates := understands.annotates
  obtain ⟨_, owned', links, -⟩ :=
    (understands.sound.declarations (Symbols.lt_of_imported kind)).imported kind
  rw [owned] at owned'
  cases owned'
  obtain ⟨origin, grants, interned⟩ := understands.faithful id source name target kind
  refine OriginAhead.interned ?_ understands.sound interned
  cases grants with
  | whole =>
      rw [← annotates.sameModules.namespaceOrigin]
      exact links.ahead understands.sound
  | named _ provided =>
      have untargeted : made.TargetsAhead := fun kind => absurd kind written.untargeted
      have known := annotates.known (understands.sound.known links)
      exact OriginAhead.through links (annotates.extension.originAhead (sound.provides known provided)
        (sound.provides_ahead untargeted provided))

end Understands

/-! ## Requests and names -/

section Known

variable (sound : made.Sound) (written : made.symbols.Written)

include sound written

/-- What a source answers to a request is no namespace object, or one that is ahead of the source. -/
theorem Understands.answer_ahead (understands : Understands made graph) {source : Provider}
    (known : graph.HasProvider source) {name : String} {declaration : DeclId} {after : Symbols}
    (outcome : (Symbols.resolveExport? source name).outcome graph.symbols =
      (.ok (some declaration), after)) :
    (graph.withSymbols after).OriginAhead source (.declaration declaration) ∨
      ∃ source name, (after.declarationAt declaration).kind = .provided source name := by
  have develops := (develops_resolveExport? understands.sound known name).1
  rw [outcome] at develops
  rw [Symbols.resolveExport?_outcome] at outcome
  have spec := graph.symbols.exportOrigin?_spec source name
  split at outcome
  next origin found =>
      rw [found] at spec
      cases outcome
      have seen := understands.sound.provides known spec
      cases origin with
      | declaration declaration =>
          exact .inl (understands.sound.provides_ahead (understands.targetsAhead sound written) spec)
      | provided other imported =>
          have there : graph.HasProvider (.external other) := by cases source <;> exact seen
          have made := develops_externalDeclaration understands.sound there imported
          exact .inr ⟨other, imported, made.2.2⟩
  next => cases outcome
  next => cases outcome

/-- What a name denotes in a module is ahead of it. -/
theorem Understands.lookup_ahead (understands : Understands made graph) (owner : ModuleId)
    (name : String) : ∃ declaration after, (lookup owner name).outcome graph = (.ok declaration, after) ∧
      Develops graph after ∧ after.Denotable owner declaration ∧ after.Ahead owner declaration := by
  have sound' := understands.sound
  obtain ⟨declaration, after, outcome, develops, denotable⟩ := develops_lookup sound' owner name
  refine ⟨declaration, after, outcome, develops, denotable, ?_⟩
  have outermost : (graph.scopes.scopeAt owner.scope).parent = none := sound'.scopes.parent
  rw [lookup, Step.outcome_modifyGet] at outcome
  simp only [Scopes.find, lookup?_eq outermost] at outcome
  cases bound : graph.scopes.binding? owner.scope name with
  | some declaration =>
      have belongs := sound'.scopes.binding bound
      rw [bound] at outcome
      dsimp only at outcome
      cases outcome
      rw [Symbols.denoted]
      split
      next kind => exact understands.targetsAhead sound written kind belongs.owner
      next => exact belongs.ahead owner
  | none =>
      have global := (develops_globalDeclaration sound' name).2.2
      rw [bound] at outcome
      dsimp only at outcome
      cases outcome
      intro home kind
      rw [Symbols.denoted, global] at kind
      cases global.symm.trans kind

omit sound written in
/-- What is ahead of the module whose exports are the properties of a declaration is ahead of every module
    that the declaration is ahead of. -/
theorem Ahead.namespace? {declaration next : DeclId} {exporter : Provider}
    (ahead : graph.Ahead owner declaration) (extension : Extends graph other)
    (named : (graph.symbols.declarationAt declaration).namespace? = some exporter)
    (below : other.OriginAhead exporter (.declaration next)) : other.Ahead owner next := by
  cases exporter with
  | external => exact below.elim
  | internal id =>
      have kind : (graph.symbols.declarationAt declaration).kind = .namespaceOf id := by
        rw [Declaration.namespace?] at named
        split at named
        next kind =>
            cases named
            exact kind
        next => split at named <;> cases named
        next => cases named
      exact fun home kind' => (extension.depends (ahead id kind)).trans (below home kind')

/-- Where a chain of keys can be followed to its end, it leads ahead. -/
theorem Understands.follow_ahead (understands : Understands made graph) {declaration : DeclId}
    (denotable : graph.Denotable owner declaration) (ahead : graph.Ahead owner declaration)
    (keys : List ChainKey) {last : DeclId} {after : Graph}
    (arrived : (follow declaration keys).outcome graph = (.ok (.declaration last), after)) :
    after.Ahead owner last := by
  induction keys generalizing graph declaration with
  | nil =>
      cases arrived
      exact ahead
  | cons key rest ih =>
      rw [follow, Step.outcome_bind, Step.outcome_get] at arrived
      dsimp only at arrived
      split at arrived
      next => cases arrived
      next exporter named =>
          obtain ⟨known, sees⟩ := understands.sound.namespace? denotable.1 named
          obtain ⟨first, found⟩ := develops_resolveExport? understands.sound known key.name
          rw [Step.outcome_bind, onSymbols_outcome] at arrived
          cases outcome : (Symbols.resolveExport? exporter key.name).outcome graph.symbols with
          | mk result symbols =>
              rw [outcome] at first found arrived
              cases result with
              | error fault => cases arrived
              | ok next =>
                  cases next with
                  | none => cases arrived
                  | some next =>
                      obtain ⟨visible, final⟩ := found next rfl owner sees
                      refine ih (understands.develops first) ⟨visible, fun _ => final⟩ ?_ arrived
                      rcases understands.answer_ahead sound written known outcome with below | outside
                      · exact ahead.namespace? first.extension named below
                      · obtain ⟨_, _, provided⟩ := outside
                        intro home kind
                        cases provided.symm.trans kind

end Known

/-! ## Nodes -/

/-- What the nodes of a module denote is ahead of it. -/
def NodesAhead (graph : Graph) : Prop :=
  ∀ id declaration, graph.denotation? id = some declaration →
    graph.Ahead (graph.nodeAt id).owner declaration

theorem NodesAhead.step (ahead : graph.NodesAhead) (sound : graph.Sound) (annotates : Annotates graph other)
    (denoted : ∀ {id declaration}, other.denotation? id = some declaration →
      graph.denotation? id = some declaration ∨ other.Ahead (graph.nodeAt id).owner declaration) :
    other.NodesAhead := by
  intro id declaration found
  rw [annotates.nodeAt]
  rcases denoted found with before | now
  · exact annotates.extension.ahead (sound.denoted before).inside (ahead id declaration before)
  · exact now

theorem NodesAhead.of_marks (ahead : graph.NodesAhead) (sound : graph.Sound)
    (annotates : Annotates graph other) (marks : ∀ id, other.markAt id = graph.markAt id) :
    other.NodesAhead := by
  refine ahead.step sound annotates fun found => .inl ?_
  rwa [denotation?, resolutionAt, marks] at found

/-- The step keeps it so that what nodes denote is ahead of their modules. -/
def Guides (made : Graph) {α : Type} (step : Step Graph α) : Prop :=
  ∀ graph, Understands made graph → graph.NodesAhead →
    Understands made (step.outcome graph).2 ∧ (step.outcome graph).2.NodesAhead

namespace Guides

variable {α β : Type}

theorem pure (a : α) : Guides made (pure a : Step Graph α) := fun _ understands ahead =>
  ⟨understands, ahead⟩

theorem bind {step : Step Graph α} {next : α → Step Graph β} (first : Guides made step)
    (later : ∀ a, Guides made (next a)) : Guides made (step >>= next) := by
  intro graph understands ahead
  have middle := first graph understands ahead
  apply Step.after_bind (fun graph => Understands made graph ∧ graph.NodesAhead)
  · exact fun _ _ => middle
  · exact fun a _ => later a _ middle.1 middle.2

theorem of_marks {step : Step Graph α} (develops : ∀ graph, Develops graph (step.outcome graph).2)
    (marks : ∀ graph, (step.outcome graph).2.marks = graph.marks) : Guides made step := by
  intro graph understands ahead
  have same : ∀ id, (step.outcome graph).2.markAt id = graph.markAt id := fun id => by
    rw [markAt, marks]
    rfl
  exact ⟨understands.develops (develops graph),
    ahead.of_marks understands.sound (develops graph).toAnnotates same⟩

theorem once {id : NodeId} {step : Step Graph Unit} (guides : Guides made step) :
    Guides made (once id step) := by
  intro graph understands ahead
  rw [Graph.once, Step.outcome_bind, Step.outcome_get]
  dsimp only
  split
  · exact ⟨understands, ahead⟩
  · rw [Step.outcome_bind, Step.outcome_modify]
    have looked : Develops graph (graph.modifyMark id fun mark => { mark with bound := true }) :=
      develops_look id
    refine guides _ (understands.develops looked)
      (ahead.step understands.sound looked.toAnnotates fun found => .inl ?_)
    rcases denotation?_modifyMark found with before | ⟨rfl, now⟩
    · exact before
    · rw [denotation?, resolutionAt]
      dsimp only at now
      rw [now]

theorem forM {step : α → Step Graph Unit} {items : List α}
    (each : ∀ item ∈ items, Guides made (step item)) : Guides made (items.forM step) := by
  induction items with
  | nil => exact pure ()
  | cons item rest ih =>
      rw [List.forM_eq_forM, List.forM_cons]
      exact bind (each item List.mem_cons_self) fun _ =>
        ih fun item member => each item (List.mem_cons_of_mem _ member)

theorem settle {id : NodeId} {resolution : Resolution}
    (other : ∀ declaration, resolution ≠ .declaration declaration) :
    Guides made (settle id resolution) := by
  intro graph understands ahead
  have develops : Develops graph ((Graph.settle id resolution).outcome graph).2 :=
    develops_settle id resolution fun declaration same => absurd same (other declaration)
  refine ⟨understands.develops develops,
    ahead.step understands.sound develops.toAnnotates fun found => .inl ?_⟩
  rcases denotation?_modifyMark found with before | ⟨-, now⟩
  · exact before
  · exact absurd (Option.some.inj now) (other _)

end Guides

section Steps

variable {options : Options} {nodes : Array Node}

theorem Understands.settle_ahead (understands : Understands made graph) (ahead : graph.NodesAhead)
    {id : NodeId} {fragment : Fragment} (placed : graph.nodes[id.index]? = some ⟨owner, fragment⟩)
    {declaration : DeclId} (denotable : graph.Denotable owner declaration)
    (start : graph.Ahead owner declaration) :
    Understands made ((settle id (.declaration declaration)).outcome graph).2 ∧
      ((settle id (.declaration declaration)).outcome graph).2.NodesAhead := by
  have develops : Develops graph ((settle id (.declaration declaration)).outcome graph).2 :=
    develops_settleDeclaration rfl placed denotable
  refine ⟨understands.develops develops, ahead.step understands.sound develops.toAnnotates ?_⟩
  intro node other found
  rcases denotation?_modifyMark found with before | ⟨rfl, now⟩
  · exact .inl before
  · cases now
    rw [owner_nodeAt rfl placed]
    exact .inr (develops.extension.ahead denotable.1.inside start)

/-- Noting what an access is keeps what it denotes ahead, if what its keys lead to is. -/
theorem Understands.conclude_ahead (understands : Understands made graph) (ahead : graph.NodesAhead)
    {access : Expr Label} (placed : Placed graph.nodes owner access) (root : String)
    {destination : Destination}
    (denotable : ∀ last, destination = .declaration last →
      graph.Denotable owner last ∧ graph.Ahead owner last) :
    Understands made ((conclude options owner access.id root destination).outcome graph).2 ∧
      ((conclude options owner access.id root destination).outcome graph).2.NodesAhead := by
  cases destination with
  | declaration last =>
      obtain ⟨denotable, start⟩ := denotable last rfl
      obtain ⟨understands, ahead⟩ := understands.settle_ahead ahead placed denotable start
      rw [conclude, Step.outcome_bind]
      exact Guides.of_marks (fun _ => develops_proposeFor last root)
        (fun graph => by rw [proposeFor, Step.outcome_modify]; dsimp only; split <;> rfl) _ understands ahead
  | missing exporter key =>
      have warned : Guides made (warn options owner exporter key) :=
        .of_marks (fun _ => develops_warn options exporter key) fun _ => rfl
      have noted : Guides made (settle access.id .undefined) := Guides.settle (by simp)
      exact (warned.bind fun _ => noted.bind fun _ => .pure true) graph understands ahead
  | beyond =>
      have noted : Guides made (settle access.id .fallback) := Guides.settle (by simp)
      exact (noted.bind fun _ => .pure false) graph understands ahead

theorem composes_guides (sound : made.Sound) (written : made.symbols.Written) (options : Options)
    (owner : ModuleId) : Composes options owner (Placed made.nodes owner) (Guides made) where
  child := Placed.child sound.arena
  pure := Guides.pure
  bind := Guides.bind
  once _ := Guides.once
  name {label name} placed graph understands ahead := by
    obtain ⟨declaration, after, looked, develops, denotable, start⟩ :=
      understands.lookup_ahead sound written owner name
    have middle := understands.develops develops
    have ahead : after.NodesAhead := ahead.of_marks understands.sound develops.toAnnotates fun id => by
      cases looked
      rfl
    have placed : Placed after.nodes owner (.ident label name) := middle.annotates.nodes ▸ placed
    rw [Step.outcome_bind, looked]
    exact middle.settle_ahead ahead placed denotable start
  access {access} placed := by
    by_cases named : ∃ label root keys, access.chain? = some (.ident label root, keys)
    · obtain ⟨label, root, keys, chain⟩ := named
      intro graph understands ahead
      obtain ⟨declaration, later, looked, develops, denotable, start⟩ :=
        understands.lookup_ahead sound written owner root
      have middle := understands.develops develops
      have ahead : later.NodesAhead :=
        ahead.of_marks understands.sound develops.toAnnotates fun id => by
          cases looked
          rfl
      obtain ⟨followed, reached⟩ := develops_follow middle.sound denotable keys
      have spares : Spares 0 (follow declaration keys) := Spares.follow declaration keys
      have ahead := ahead.of_marks middle.sound followed.toAnnotates fun id =>
        spares later id (Nat.zero_le _)
      have last := middle.develops followed
      rw [resolveAccess_eq chain, Step.outcome_bind, looked]
      dsimp only
      rw [Step.outcome_bind]
      cases outcome : (follow declaration keys).outcome later with
      | mk result after =>
          rw [outcome] at reached ahead last
          cases result with
          | error fault => exact ⟨last, ahead⟩
          | ok destination =>
              refine last.conclude_ahead ahead (last.annotates.nodes ▸ placed) root fun last' same => ?_
              cases same
              exact ⟨reached last' rfl, middle.follow_ahead sound written denotable start keys outcome⟩
    · rw [resolveAccess]
      split
      next chain => exact absurd ⟨_, _, _, chain⟩ named
      next => exact Guides.bind (Guides.settle (by simp)) fun _ => Guides.pure false

theorem guides_resolveModule (sound : made.Sound) (written : made.symbols.Written) (options : Options)
    (id : ModuleId) : Guides made (resolveModule options id) := by
  intro graph understands ahead
  rw [resolveModule, Step.outcome_bind, Step.outcome_get]
  refine Guides.forM (fun statement member => ?_) graph understands ahead
  have found := (understands.sound.grounded.statement member).2
  rw [understands.annotates.nodes] at found
  exact Guides.once ((composes_guides sound written options id).resolveExprs _ fun e child =>
    (sound.arena.child found e child).2)

theorem guides_resolve (sound : made.Sound) (written : made.symbols.Written) (options : Options) :
    Guides made (resolve options) := by
  intro graph understands ahead
  rw [resolve, Step.outcome_bind, Step.outcome_get]
  exact Guides.forM (fun id _ => guides_resolveModule sound written options id) graph understands ahead

end Steps

/-! ## Exports -/

/-- What a linked module exports is ahead of it. -/
theorem Understands.exported_ahead (understands : Understands made graph) (sound : made.Sound)
    (written : made.symbols.Written) (linked : graph.symbols.Linked) {id : ModuleId} {declaration : DeclId}
    (member : declaration ∈ graph.exportedDeclarations id) : graph.Ahead id declaration := by
  obtain ⟨entry, listed, rfl⟩ := List.mem_map.mp member
  have known : graph.HasProvider (.internal id) := Symbols.lt_of_mem_resolvedExports listed
  have answered := Symbols.Found.mem (linked.published known) listed
  rcases understands.answer_ahead sound written known answered with ahead | ⟨_, _, provided⟩
  · exact ahead
  · exact fun home kind => nomatch provided.symm.trans kind

end Graph

end Bundler
