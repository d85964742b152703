import Bundler.Proofs.Bundle.Reachable
import Bundler.Proofs.Draft.Written
import Bundler.Proofs.Inclusion.Accounted
import Bundler.Proofs.Naming.Distinct

/-! # Names in the scope of a bundle

The globals that a bundle uses, its external modules, what it imports by name, and what its modules
declare share one scope.  Each global and each import has one declaration only, so what has got
different names there really stands for different things.
-/

namespace Bundler

namespace Graph

variable {graph other : Graph}

/-! ## Declarations of what comes from outside -/

theorem Made.accounted (made : graph.Made) : graph.Accounted := by
  intro id source name included _
  have none : graph.selection.declarations id = (⊥ : Selection).declarations id := by
    rw [made.selection]
  exact absurd (none.symm.trans included) (by simp [Bot.bot])

theorem accounted_of_selection (selection : other.selection = graph.selection)
    (kind : ∀ {id source name}, graph.HasDeclaration id →
      (other.symbols.declarationAt id).kind = .provided source name →
      (graph.symbols.declarationAt id).kind = .provided source name)
    (accounted : graph.Accounted) : other.Accounted := by
  intro id source name included provided
  have before : graph.includesDeclaration id = true := by
    rw [← included]
    exact congrFun (congrArg Selection.declarations selection).symm id
  have used := accounted before (kind (lt_of_includesDeclaration before) provided)
  rw [← used]
  exact congrFun (congrArg Selection.externals selection) source

/-- In a reachable state everything from outside has one declaration, and the external modules of
    included declarations are used. -/
theorem Reachable.listed (reachable : graph.Reachable) :
    graph.Intact ∧ graph.symbols.Listed ∧ graph.Accounted := by
  refine reachable.induct (P := fun graph => graph.symbols.Listed ∧ graph.Accounted)
    (fun made => ⟨made.written.listed, made.accounted⟩)
    (fun intact develops both => ⟨develops.remembers.listed both.1, ?_⟩)
    (fun intact both => ⟨?_, accounted_retainAll intact.sound.grounded both.2 _⟩)
    (fun id intact both => ⟨?_, accounted_retainFragment intact.sound.grounded both.2 _⟩)
    (fun id intact both => ⟨?_, accounted_retainWithin _ intact.sound.grounded both.2 id⟩)
    (fun intact both => ⟨?_, (grows_shakeWithin _ intact.sound.grounded).accounted both.2⟩)
    (fun options intact both => ⟨?_, ?_⟩)
  · refine accounted_of_selection develops.selection (fun inside kind => ?_) both.2
    exact ((develops.kind inside).eq (by simp [kind])).trans kind
  · exact (alike_retainAll _ _).sameProgram.remembers.listed both.1
  · exact (alike_retainFragment _ _).sameProgram.remembers.listed both.1
  · exact (alike_retainWithin _ _ _).sameProgram.remembers.listed both.1
  · exact (alike_shakeWithin _ _).sameProgram.remembers.listed both.1
  · exact (sameProgram_assignNames options _).remembers.listed both.1
  · refine accounted_of_selection (selection_assignNames options _) (fun _ kind => ?_) both.2
    rwa [(sameProgram_assignNames options _).kind] at kind

/-! ## What has a name -/

/-- What has a name of its own in a bundle of the given format. -/
inductive Occupies (graph : Graph) (format : Format) : Nameable → Prop where
  | free {id} : graph.includesDeclaration id = true →
    (graph.symbols.declarationAt id).kind = .free → Occupies graph format (.declaration id)
  | external {id} : (graph.symbols.externalAt id).used = true →
    Occupies graph format (.external id)
  | binding {id source name} : format = .es → graph.includesDeclaration id = true →
    (graph.symbols.declarationAt id).kind = .provided source name → name ≠ wholeModule →
    name ≠ defaultExport → Occupies graph format (.declaration id)
  | declared {id owner statement} : owner ∈ graph.order → graph.includesDeclaration id = true →
    (graph.symbols.declarationAt id).owner = some (.internal owner) →
    (graph.symbols.declarationAt id).kind = .declared statement →
    Occupies graph format (.declaration id)
  | namespaceOf {id owner home} : owner ∈ graph.order → graph.includesDeclaration id = true →
    (graph.symbols.declarationAt id).owner = some (.internal owner) →
    (graph.symbols.declarationAt id).kind = .namespaceOf home →
    Occupies graph format (.declaration id)

/-- The text of the name. -/
def nameText (graph : Graph) (format : Format) : Nameable → String
  | .declaration id => graph.symbols.outputText format id
  | .external id => (graph.symbols.externalAt id).name

/-- A global that the bundle uses. -/
def IsFree (graph : Graph) : Nameable → Prop
  | .declaration id => (graph.symbols.declarationAt id).kind = .free
  | .external _ => False

/-- All that naming gives a name to. -/
def namedIn (graph : Graph) (format : Format) : Set Nameable :=
  {a | ∃ id ∈ graph.order.flatMap graph.symbols.contributions, a = .declaration id} ∪
    ({a | ∃ id ∈ graph.symbols.usedExternals, a ∈ Assigned.externalNames format graph.symbols id} ∪ ∅)

theorem mem_contributions {symbols : Symbols} {owner : ModuleId} {id : DeclId} :
    id ∈ symbols.contributions owner ↔ id.index < symbols.declarations.size ∧
      Symbols.isDefined (symbols.declarationAt id) = true ∧
        (symbols.declarationAt id).included = true ∧
          (symbols.declarationAt id).owner = some (.internal owner) := by
  simp only [Symbols.contributions, List.mem_filter, Symbols.mem_declarationIds, Bool.and_eq_true,
    beq_iff_eq, and_assoc]

theorem has_contribution {symbols : Symbols} {order : List ModuleId} {id : DeclId}
    (member : id ∈ order.flatMap symbols.contributions) : symbols.Has (.declaration id) := by
  obtain ⟨owner, -, among⟩ := List.mem_flatMap.mp member
  exact (mem_contributions.mp among).1

theorem has_usedExternal {symbols : Symbols} {id : ExternalId} (used : id ∈ symbols.usedExternals) :
    symbols.Has (.external id) := (Symbols.mem_usedExternals.mp used).1

theorem Sound.has_binding (sound : graph.Sound) {id : ExternalId} (used : id ∈ graph.symbols.usedExternals)
    {binding : String × DeclId} (among : binding ∈ (graph.symbols.externalAt id).declarations.toList) :
    graph.symbols.Has (.declaration binding.2) :=
  (sound.externals (has_usedExternal used) (Std.TreeMap.mem_toList_iff_getElem?_eq_some.mp among)).1

theorem Sound.assigned (sound : graph.Sound) (options : Options) :
    ∃ taken, Assigned graph.symbols (options.ownNames ++ graph.symbols.usedGlobals)
      ⟨(assignNames options graph).symbols, taken⟩ (graph.namedIn options.format) := by
  have start := Assigned.start graph.symbols
    (options.ownNames ++ graph.symbols.usedGlobals)
  have externals := start.nameExternals options.format graph.symbols.usedExternals
    (fun _ used => has_usedExternal used) fun _ used _ among => sound.has_binding used among
  exact ⟨_, externals.nameOwns _ fun _ member => has_contribution member⟩

/-! ## Texts of names -/

theorem outputText_free {symbols : Symbols} {format : Format} {id : DeclId}
    (kind : (symbols.declarationAt id).kind = .free) :
    symbols.outputText format id = (symbols.declarationAt id).name := by
  rw [Symbols.outputText]
  unfold Symbols.textWithin
  simp only [kind]

theorem outputText_contribution {symbols : Symbols} {format : Format} {id : DeclId}
    (defined : Symbols.isDefined (symbols.declarationAt id) = true) :
    symbols.outputText format id =
      (symbols.declarationAt id).outputName.getD (symbols.declarationAt id).name := by
  rw [Symbols.isDefined] at defined
  rw [Symbols.outputText]
  unfold Symbols.textWithin
  dsimp only
  split at defined
  next kind => simp only [kind]
  next kind => simp only [kind]
  next => cases defined

theorem outputText_defined {symbols : Symbols} {format : Format} {id : DeclId} {name : String}
    (defined : Symbols.isDefined (symbols.declarationAt id) = true)
    (given : symbols.nameOf? (.declaration id) = some name) : symbols.outputText format id = name := by
  rw [Symbols.nameOf?] at given
  rw [outputText_contribution defined, given, Option.getD_some]

theorem outputText_provided {symbols : Symbols} {format : Format} {id : DeclId} {source : ExternalId}
    {name : String} (kind : (symbols.declarationAt id).kind = .provided source name) :
    symbols.outputText format id =
      symbols.providedText format source name (symbols.declarationAt id).outputName := by
  rw [Symbols.outputText]
  unfold Symbols.textWithin
  simp only [kind]

theorem outputText_binding {symbols : Symbols} {id : DeclId} {source : ExternalId}
    {exported name : String} (kind : (symbols.declarationAt id).kind = .provided source exported)
    (part : exported ≠ wholeModule) (named : exported ≠ defaultExport)
    (given : symbols.nameOf? (.declaration id) = some name) : symbols.outputText .es id = name := by
  rw [Symbols.nameOf?] at given
  rw [outputText_provided kind, given, Symbols.providedText, if_neg part, if_neg named]
  rfl

theorem name_given {symbols : Symbols} {id : ExternalId} {name : String}
    (given : symbols.nameOf? (.external id) = some name) : (symbols.externalAt id).name = name := by
  rw [Symbols.nameOf?] at given
  rw [External.name, given]
  rfl

namespace Occupies

variable {format : Format} {a : Nameable}

theorem text_free (occupied : graph.Occupies format a) (free : graph.IsFree a) :
    ∃ id, a = .declaration id ∧ (graph.symbols.declarationAt id).kind = .free ∧
      graph.includesDeclaration id = true ∧
      graph.nameText format a = (graph.symbols.declarationAt id).name := by
  cases occupied with
  | @free id included kind => exact ⟨id, rfl, kind, included, outputText_free kind⟩
  | external => exact free.elim
  | binding _ _ kind => cases kind.symm.trans free
  | declared _ _ _ kind => cases kind.symm.trans free
  | namespaceOf _ _ _ kind => cases kind.symm.trans free

theorem text_given (occupied : graph.Occupies format a) (bound : ¬ graph.IsFree a) {name : String}
    (given : graph.symbols.nameOf? a = some name) : graph.nameText format a = name := by
  cases occupied with
  | free _ kind => exact absurd kind bound
  | external => exact name_given given
  | binding es _ kind part named => exact es ▸ outputText_binding kind part named given
  | declared _ _ _ kind => exact outputText_defined (by simp [Symbols.isDefined, kind]) given
  | namespaceOf _ _ _ kind => exact outputText_defined (by simp [Symbols.isDefined, kind]) given

/-- What has a name has it still when names in the output change. -/
theorem of_renames {symbols : Symbols} (renames : graph.symbols.Renames symbols)
    (occupied : (graph.withSymbols symbols).Occupies format a) : graph.Occupies format a := by
  have included : ∀ {id}, (graph.withSymbols symbols).includesDeclaration id = true →
      graph.includesDeclaration id = true := fun {id} there => (renames.included id).symm.trans there
  cases occupied with
  | free there kind => exact .free (included there) (renames.kind _ ▸ kind)
  | external used => exact .external (renames.used _ ▸ used)
  | binding es there kind part named =>
      exact .binding es (included there) (renames.kind _ ▸ kind) part named
  | declared executed there owner kind =>
      exact .declared executed (included there) (renames.owner _ ▸ owner) (renames.kind _ ▸ kind)
  | namespaceOf executed there owner kind =>
      exact .namespaceOf executed (included there) (renames.owner _ ▸ owner) (renames.kind _ ▸ kind)

theorem isFree_of_renames {symbols : Symbols} (renames : graph.symbols.Renames symbols)
    (free : graph.IsFree a) : (graph.withSymbols symbols).IsFree a := by
  cases a with
  | declaration id => exact (renames.kind id).trans free
  | external => exact free

/-- Naming reaches all that has a name and is no global. -/
theorem mem_namedIn (sound : graph.Sound) (listed : graph.symbols.Listed) (accounted : graph.Accounted)
    (occupied : graph.Occupies format a) (bound : ¬ graph.IsFree a) : a ∈ graph.namedIn format := by
  have contributed : ∀ {id owner}, owner ∈ graph.order → graph.includesDeclaration id = true →
      (graph.symbols.declarationAt id).owner = some (.internal owner) →
      Symbols.isDefined (graph.symbols.declarationAt id) = true →
      .declaration id ∈ graph.namedIn format := fun executed included owned defined =>
    .inl ⟨_, List.mem_flatMap.mpr ⟨_, executed, mem_contributions.mpr
      ⟨lt_of_includesDeclaration included, defined, included, owned⟩⟩, rfl⟩
  cases occupied with
  | free _ kind => exact absurd kind bound
  | @external id used =>
      exact .inr (.inl ⟨id, Symbols.mem_usedExternals_of_used used, .inl rfl⟩)
  | @binding id source name es included kind part named =>
      have inside := (sound.declarations (lt_of_includesDeclaration included)).provided kind
      have used := Symbols.mem_usedExternals.mpr ⟨inside, accounted included kind⟩
      refine .inr (.inl ⟨source, used, .inr ?_⟩)
      refine ⟨(name, id), ?_, ?_, included, rfl⟩
      · rw [es]
        exact Std.TreeMap.mem_toList_iff_getElem?_eq_some.mpr (listed.provided kind)
      · simp [Symbols.isNamed, part, named]
  | declared executed included owned kind =>
      exact contributed executed included owned (by simp [Symbols.isDefined, kind])
  | namespaceOf executed included owned kind =>
      exact contributed executed included owned (by simp [Symbols.isDefined, kind])

/-- The name of a global that the bundle uses is reserved. -/
theorem mem_usedGlobals {symbols : Symbols} (renames : graph.symbols.Renames symbols)
    (occupied : (graph.withSymbols symbols).Occupies format a)
    (free : (graph.withSymbols symbols).IsFree a) :
    (graph.withSymbols symbols).nameText format a ∈ graph.symbols.usedGlobals := by
  obtain ⟨id, rfl, kind, included, text⟩ := occupied.text_free free
  have before : (graph.symbols.declarationAt id).included = true :=
    (renames.included id).symm.trans included
  rw [text, withSymbols, renames.name]
  refine List.mem_map.mpr ⟨_, List.mem_filter.mpr ⟨Symbols.declarationAt_mem
    (lt_of_includesDeclaration before), ?_⟩, rfl⟩
  rw [before, (renames.kind id).symm.trans kind]
  rfl

end Occupies

/-- A graph whose symbols have been given names, and what is known about the names. -/
structure NamesGiven (graph : Graph) (options : Options) (symbols : Symbols) (taken : List String) :
    Prop where
  sound : graph.Sound
  listed : graph.symbols.Listed
  listed' : (graph.withSymbols symbols).symbols.Listed
  accounted : graph.Accounted
  renames : graph.symbols.Renames symbols
  assigned : Assigned graph.symbols (options.ownNames ++ graph.symbols.usedGlobals) ⟨symbols, taken⟩
    (graph.namedIn options.format)

theorem Reachable.named (reachable : graph.Reachable) (options : Options) :
    ∃ symbols taken, Graph.assignNames options graph = graph.withSymbols symbols ∧
      graph.NamesGiven options symbols taken := by
  obtain ⟨intact, listed, accounted⟩ := reachable.listed
  obtain ⟨-, listed', -⟩ := (reachable.assignNames options).listed
  obtain ⟨symbols, renames, same⟩ := assignNames_eq options graph
  obtain ⟨taken, assigned⟩ := intact.sound.assigned options
  rw [same] at listed' assigned
  exact ⟨symbols, taken, same, intact.sound, listed, listed', accounted, renames, assigned⟩

namespace NamesGiven

variable {options : Options} {symbols : Symbols} {taken : List String} {a b : Nameable}
  (named : graph.NamesGiven options symbols taken)

include named

/-- All but a global has been given its name, and that is not reserved. -/
theorem given (occupied : (graph.withSymbols symbols).Occupies options.format a)
    (bound : ¬ (graph.withSymbols symbols).IsFree a) :
    a ∈ graph.namedIn options.format ∧ ∃ name, symbols.nameOf? a = some name ∧
      name ∉ options.ownNames ++ graph.symbols.usedGlobals ∧
      (graph.withSymbols symbols).nameText options.format a = name := by
  have before := occupied.of_renames named.renames
  have member := before.mem_namedIn named.sound named.listed named.accounted
    fun free => bound (Occupies.isFree_of_renames named.renames free)
  obtain ⟨name, -, unreserved, given⟩ := named.assigned.given a member
  exact ⟨member, name, given, unreserved, occupied.text_given bound given⟩

/-- What has been given a name is not called like a global. -/
theorem ne_global (occupied : (graph.withSymbols symbols).Occupies options.format a)
    (bound : ¬ (graph.withSymbols symbols).IsFree a)
    (other : (graph.withSymbols symbols).Occupies options.format b)
    (free : (graph.withSymbols symbols).IsFree b) :
    (graph.withSymbols symbols).nameText options.format a ≠
      (graph.withSymbols symbols).nameText options.format b := by
  intro equal
  obtain ⟨-, name, -, unreserved, text⟩ := named.given occupied bound
  have global := other.mem_usedGlobals named.renames free
  rw [← equal, text] at global
  exact unreserved (List.mem_append_right _ global)

theorem injective (first : (graph.withSymbols symbols).Occupies options.format a)
    (second : (graph.withSymbols symbols).Occupies options.format b)
    (equal : (graph.withSymbols symbols).nameText options.format a =
      (graph.withSymbols symbols).nameText options.format b) : a = b := by
  by_cases free : (graph.withSymbols symbols).IsFree a <;>
    by_cases free' : (graph.withSymbols symbols).IsFree b
  · obtain ⟨id, rfl, kind, -, text⟩ := first.text_free free
    obtain ⟨id', rfl, kind', -, text'⟩ := second.text_free free'
    have listing := named.listed'.free kind
    rw [← text, equal, text', named.listed'.free kind'] at listing
    cases listing
    rfl
  · exact absurd equal.symm (named.ne_global second free' first free)
  · exact absurd equal (named.ne_global first free second free')
  · obtain ⟨member, name, is, -, text⟩ := named.given first free
    obtain ⟨member', name', is', -, text'⟩ := named.given second free'
    have names : name = name' := text.symm.trans (equal.trans text')
    exact named.assigned.distinct a member b member' (is.trans (names ▸ is'.symm))

theorem ne_own (occupied : (graph.withSymbols symbols).Occupies options.format a)
    (bound : ¬ (graph.withSymbols symbols).IsFree a) {name : String} (own : name ∈ options.ownNames) :
    (graph.withSymbols symbols).nameText options.format a ≠ name := by
  rintro rfl
  obtain ⟨-, name, -, unreserved, rfl⟩ := named.given occupied bound
  exact unreserved (List.mem_append_left _ own)

end NamesGiven

theorem ownNames_of_freezes {options : Options} (freezes : options.freezeNamespaces = true) :
    "Object" ∈ options.ownNames := by
  simp [Options.ownNames, freezes]

theorem ownNames_of_cjs {options : Options} (format : options.format = .cjs) {name : String}
    (member : name ∈ ["exports", "module", "require"]) : name ∈ options.ownNames := by
  refine List.mem_append_right _ ?_
  have names : (if options.format.isEs then [] else ["exports", "module", "require"]) =
      ["exports", "module", "require"] := by
    rw [format]
    rfl
  rwa [names]

/-- Naming gives different names to all globals that the bundle uses, to its external modules, to what
    a standard module imports by name, and to the declarations that the modules contribute.  No
    name that is given is one of those that the output itself refers to. -/
theorem nameText_assignNames (reachable : graph.Reachable) (options : Options) :
    (∀ a b, (assignNames options graph).Occupies options.format a →
      (assignNames options graph).Occupies options.format b → a ≠ b →
      (assignNames options graph).nameText options.format a ≠
        (assignNames options graph).nameText options.format b) ∧
    ∀ a, (assignNames options graph).Occupies options.format a →
      ¬ (assignNames options graph).IsFree a →
      (options.freezeNamespaces = true →
        (assignNames options graph).nameText options.format a ≠ "Object") ∧
      (options.format = .cjs →
        (assignNames options graph).nameText options.format a ∉ ["exports", "module", "require"]) := by
  obtain ⟨symbols, taken, same, named⟩ := reachable.named options
  rw [same]
  refine ⟨fun a b first second different equal => different (named.injective first second equal),
    fun a occupied bound => ⟨fun freezes => ?_, fun format member => ?_⟩⟩
  · exact named.ne_own occupied bound (ownNames_of_freezes freezes)
  · exact named.ne_own occupied bound (ownNames_of_cjs format member) rfl

/-! ## A program with namesakes -/

end Graph

/-- Two modules declare the same name, and one of them uses a global with a numbered one. -/
def Draft.namesakes : Draft :=
  let draft := (Draft.addModule {} "lib").2
  let draft := (draft.addModule "main").2
  let draft := ((declare ⟨0⟩ .constant "name" (some (.literal () (.string "world"))) true).outcome
    draft).2
  let draft := ((importFrom ⟨1⟩ (.internal ⟨0⟩) "name" "other").outcome draft).2
  let draft := ((declare ⟨1⟩ .constant "name" (some (.literal () .null)) false).outcome draft).2
  (draft.addExpression ⟨1⟩ (.call () (.ident () "name$1") [.ident () "name", .ident () "other"])).2

/-- The program with the module that uses the names as its entry. -/
def Graph.namesakes : Graph := { Draft.namesakes.graph with entry := ⟨1⟩ }

theorem Draft.built_namesakes : Draft.namesakes.Built := by
  refine .addExpression (.declare (.importFrom (.declare
    (.addModule (.addModule .empty "lib") "main") ?_ _ _ _ _) ?_ ?_ _ _) ?_ _ _ _ _) ?_ _
  all_goals decide

theorem Graph.made_namesakes : Graph.namesakes.Made :=
  .finish Draft.built_namesakes (by decide) rfl

namespace Graph

/-- Naming the bundled namesakes once more keeps them apart. -/
theorem assignNames_namesakes :
    let named := assignNames {} ((bundle {}).outcome namesakes).2
    named.nameText .es (.declaration ⟨4⟩) = "name$2" ∧
      named.nameText .es (.declaration ⟨2⟩) ≠ named.nameText .es (.declaration ⟨4⟩) := by
  intro named
  obtain ⟨distinct, -⟩ := nameText_assignNames (.bundle {} (.made made_namesakes)) {}
  have entries : named.order = [⟨0⟩, ⟨1⟩] ∧
      named.nameText .es (.declaration ⟨4⟩) = "name$2" ∧
      (named.symbols.declarationAt ⟨2⟩).included = true ∧
      (named.symbols.declarationAt ⟨2⟩).owner = some (.internal ⟨0⟩) ∧
      (named.symbols.declarationAt ⟨2⟩).kind = .declared ⟨2⟩ ∧
      (named.symbols.declarationAt ⟨4⟩).included = true ∧
      (named.symbols.declarationAt ⟨4⟩).owner = some (.internal ⟨1⟩) ∧
      (named.symbols.declarationAt ⟨4⟩).kind = .declared ⟨6⟩ := by decide +kernel
  obtain ⟨order, text, included, owner, kind, included', owner', kind'⟩ := entries
  refine ⟨text, distinct _ _ (.declared ?_ included owner kind) (.declared ?_ included' owner' kind')
    (by decide)⟩
  · exact order ▸ List.mem_cons_self
  · exact order ▸ List.mem_cons_of_mem _ List.mem_cons_self

end Graph

end Bundler
