import Bundler.Proofs.Bundle.Names
import Bundler.Proofs.Naming.Again

/-! # Aliases of default exports

Where an external module cannot share its name with its default export, the export is called by an
alias, which is taken right after the module has got its name.  What is named later avoids it.  The
alias itself does not avoid what was named before: it may be that of a global, of an earlier external
module, or of what is imported from one.
-/

namespace Bundler

namespace Symbols

variable {symbols after : Symbols}

theorem ne_defaultAlias (name : String) : name ≠ defaultAlias name := by
  intro same
  have length := congrArg String.length same
  rw [defaultAlias, String.length_append] at length
  exact absurd length (Nat.ne_of_lt (Nat.lt_add_of_pos_right (by decide)))

theorem defaultAlias_injective : Function.Injective defaultAlias := by
  intro first second same
  have characters := congrArg String.toList same
  simp only [defaultAlias, String.toList_append] at characters
  exact String.toList_inj.mp (List.append_cancel_right characters)

/-- A default export is referred to by its alias exactly if it needs one. -/
theorem outputText_default {format : Format} {id : DeclId} {source : ExternalId}
    (kind : (symbols.declarationAt id).kind = .provided source defaultExport) :
    symbols.outputText format id =
      if symbols.aliasesDefault source format then defaultAlias (symbols.externalAt source).name
      else (symbols.externalAt source).name := by
  rw [Graph.outputText_provided kind, providedText, if_neg (by decide), if_pos rfl]

theorem outputText_alias {format : Format} {id : DeclId} {source : ExternalId}
    (kind : (symbols.declarationAt id).kind = .provided source defaultExport)
    (aliased : symbols.aliasesDefault source format = true) :
    symbols.outputText format id = defaultAlias (symbols.externalAt source).name :=
  (outputText_default kind).trans (if_pos aliased)

theorem sorted_usedExternals (symbols : Symbols) :
    symbols.usedExternals.Pairwise fun a b => a.index < b.index :=
  List.Pairwise.filter _ (List.pairwise_map.mpr List.pairwise_lt_range)

theorem Renames.bindingNames (renames : Renames symbols after) (binding : String × DeclId) :
    Assigned.bindingNames after binding = Assigned.bindingNames symbols binding := by
  simp only [Assigned.bindingNames, renames.included]

theorem Renames.bindings (renames : Renames symbols after) (format : Format) (id : ExternalId) :
    Naming.bindings format after id = Naming.bindings format symbols id := by
  rw [Naming.bindings, Naming.bindings, renames.exported]

theorem Renames.externalNames (renames : Renames symbols after) (format : Format) (id : ExternalId) :
    Assigned.externalNames format after id = Assigned.externalNames format symbols id := by
  simp only [Assigned.externalNames, renames.bindings, renames.bindingNames]

end Symbols

namespace Graph

variable {graph : Graph} {options : Options} {id : ExternalId} {earlier later : List ExternalId}

/-- The names when the given external modules have theirs. -/
def namedUpTo (graph : Graph) (options : Options) (earlier : List ExternalId) : Naming :=
  earlier.foldl (Naming.nameExternal options.format)
    ⟨graph.symbols, options.ownNames ++ graph.symbols.usedGlobals⟩

/-- The name that an external module gets behind the given ones. -/
def nameBehind (graph : Graph) (options : Options) (earlier : List ExternalId) (id : ExternalId) :
    String :=
  freshName (graph.namedUpTo options earlier).taken
    ((graph.namedUpTo options earlier).symbols.externalAt id).name

/-- The names when the alias of an external module has just been taken. -/
def aliasTaken (graph : Graph) (options : Options) (earlier : List ExternalId) (id : ExternalId) :
    Naming :=
  ((graph.namedUpTo options earlier).nameModule id).reserveAlias options.format id
    (graph.nameBehind options earlier id)

/-- What is named after the alias of an external module: its bindings, the external modules behind it,
    and all that the modules contribute. -/
def namedAfter (graph : Graph) (format : Format) (id : ExternalId) (later : List ExternalId) :
    Set Nameable :=
  {a | ∃ own ∈ graph.order.flatMap graph.symbols.contributions, a = .declaration own} ∪
    ({a | ∃ other ∈ later, a ∈ Assigned.externalNames format graph.symbols other} ∪
      ({a | ∃ binding ∈ Naming.bindings format graph.symbols id,
        a ∈ Assigned.bindingNames graph.symbols binding} ∪ ∅))

theorem renames_namedUpTo (graph : Graph) (options : Options) (earlier : List ExternalId) :
    graph.symbols.Renames (graph.namedUpTo options earlier).symbols :=
  Naming.renames_foldl (Naming.renames_nameExternal options.format) earlier ⟨graph.symbols, _⟩

theorem renames_aliasTaken (graph : Graph) (options : Options) (earlier : List ExternalId)
    (id : ExternalId) : graph.symbols.Renames (graph.aliasTaken options earlier id).symbols := by
  rw [aliasTaken, Naming.symbols_reserveAlias]
  exact (graph.renames_namedUpTo options earlier).trans (Naming.renames_nameModule _ id)

theorem mem_taken_aliasTaken (options : Options) (earlier : List ExternalId)
    (aliased : graph.symbols.aliasesDefault id options.format = true) :
    Symbols.defaultAlias (graph.nameBehind options earlier id) ∈
      (graph.aliasTaken options earlier id).taken := by
  have renames := (graph.renames_namedUpTo options earlier).trans (Naming.renames_nameModule _ id)
  rw [aliasTaken, Naming.reserveAlias, if_pos ((renames.aliasesDefault id options.format).trans aliased)]
  exact List.mem_cons_self

section Split

variable (split : graph.symbols.usedExternals = earlier ++ id :: later)

include split

theorem mem_usedExternals_split {other : ExternalId} (behind : other = id ∨ other ∈ later) :
    other ∈ graph.symbols.usedExternals := by
  rw [split]
  exact List.mem_append_right _ (List.mem_cons.mpr behind)

/-- Naming goes on behind the alias with the bindings of the module, the later modules, and what the
    modules of the program contribute. -/
theorem symbols_assignNames_split :
    (assignNames options graph).symbols =
      ((graph.order.flatMap graph.symbols.contributions).foldl Naming.nameOwn
        (later.foldl (Naming.nameExternal options.format)
          ((Naming.bindings options.format graph.symbols id).foldl Naming.nameBinding
            (graph.aliasTaken options earlier id)))).symbols := by
  have first : (Naming.bindings options.format graph.symbols id).foldl Naming.nameBinding
      (graph.aliasTaken options earlier id) =
        (graph.namedUpTo options earlier).nameExternal options.format id := by
    have renames := (graph.renames_namedUpTo options earlier).trans (Naming.renames_nameModule _ id)
    rw [Naming.nameExternal_eq, renames.bindings, aliasTaken, nameBehind]
  rw [first, namedUpTo, assignNames]
  simp only [split, List.foldl_append, List.foldl_cons]

/-- The name of an external module is settled when it has been named. -/
theorem name_assignNames :
    ((assignNames options graph).symbols.externalAt id).name = graph.nameBehind options earlier id := by
  have distinct : ∀ other ∈ later, id ≠ other := by
    have nodup := split ▸ graph.symbols.usedExternals_nodup
    exact fun other member same =>
      (List.nodup_cons.mp (List.nodup_append.mp nodup).2.1).1 (same ▸ member)
  have there := has_usedExternal (mem_usedExternals_split split (.inl rfl))
  apply name_given
  rw [symbols_assignNames_split split, Naming.nameOf?_foldl fun _ _ _ => Naming.nameOf?_nameOwn _,
    Naming.nameOf?_foldl fun _ other member =>
      Naming.nameOf?_nameExternal_of_ne options.format (distinct other member),
    Naming.nameOf?_foldl fun _ _ _ => Naming.nameOf?_nameBinding _, aliasTaken,
    Naming.symbols_reserveAlias, Naming.nameOf?_nameModule, if_pos, nameBehind]
  exact ⟨rfl, ((graph.renames_namedUpTo options earlier).has _).mpr there⟩

/-- From the alias of an external module on, naming is like naming from the start with all names
    reserved that are taken by then. -/
theorem Sound.assigned_after (sound : graph.Sound) (options : Options) :
    ∃ taken, Assigned (graph.aliasTaken options earlier id).symbols
      (graph.aliasTaken options earlier id).taken ⟨(assignNames options graph).symbols, taken⟩
      (graph.namedAfter options.format id later) := by
  have renames := graph.renames_aliasTaken options earlier id
  have bindings := Assigned.foldl Naming.nameBinding
    (Assigned.bindingNames (graph.aliasTaken options earlier id).symbols)
    (Naming.bindings options.format graph.symbols id) (fun naming named binding member assigned => by
      refine assigned.nameBinding ((renames.has _).mpr
        (sound.has_binding (mem_usedExternals_split split (.inl rfl)) ?_))
      rw [Naming.bindings] at member
      split at member
      · exact member
      · exact absurd member List.not_mem_nil)
    (Assigned.start _ (graph.aliasTaken options earlier id).taken)
  have externals := bindings.nameExternals options.format later
    (fun other member =>
      (renames.has _).mpr (has_usedExternal (mem_usedExternals_split split (.inr member))))
    fun other member binding among => (renames.has _).mpr
      (sound.has_binding (mem_usedExternals_split split (.inr member)) (renames.exported other ▸ among))
  have own := externals.nameOwns (graph.order.flatMap graph.symbols.contributions)
    fun _ member => (renames.has _).mpr (has_contribution member)
  simp only [renames.externalNames, renames.bindingNames] at own
  rw [namedAfter, symbols_assignNames_split split]
  exact ⟨_, own⟩

/-- What is named after the alias is not called like it. -/
theorem Sound.ne_alias (sound : graph.Sound) (options : Options)
    (aliased : graph.symbols.aliasesDefault id options.format = true) {a : Nameable} {name : String}
    (after : a ∈ graph.namedAfter options.format id later)
    (given : (assignNames options graph).symbols.nameOf? a = some name) :
    name ≠ Symbols.defaultAlias ((assignNames options graph).symbols.externalAt id).name := by
  rintro rfl
  obtain ⟨taken, assigned⟩ := sound.assigned_after split options
  obtain ⟨_, -, unreserved, is⟩ := assigned.given a after
  cases given.symm.trans is
  rw [name_assignNames split] at unreserved
  exact unreserved (mem_taken_aliasTaken options earlier aliased)

end Split

/-- What comes before an external module in the order of naming: an external module with a smaller id,
    or what is imported by name from one. -/
inductive NamedBefore (graph : Graph) (id : ExternalId) : Nameable → Prop where
  | external {other : ExternalId} : other.index < id.index → NamedBefore graph id (.external other)
  | binding {declaration : DeclId} {other : ExternalId} {name : String} : other.index < id.index →
    (graph.symbols.declarationAt declaration).kind = .provided other name →
    NamedBefore graph id (.declaration declaration)

/-- All that has a name is named before an external module, with it, or after its alias. -/
theorem namedIn_split (sound : graph.Sound) (split : graph.symbols.usedExternals = earlier ++ id :: later)
    {format : Format} {a : Nameable} (member : a ∈ graph.namedIn format) :
    a ∈ graph.namedAfter format id later ∨ a = .external id ∨ graph.NamedBefore id a := by
  have before : ∀ other ∈ earlier, other.index < id.index := fun other member =>
    (List.pairwise_append.mp (split ▸ graph.symbols.sorted_usedExternals)).2.2 other member id
      List.mem_cons_self
  rcases member with own | ⟨other, used, among⟩ | none
  · exact .inl (.inl own)
  · rw [split] at used
    rcases List.mem_append.mp used with early | late
    · right
      right
      rcases among with rfl | ⟨binding, listed, -, -, rfl⟩
      · exact .external (before other early)
      · rw [Naming.bindings] at listed
        split at listed
        · have used : other ∈ graph.symbols.usedExternals := split ▸ List.mem_append_left _ early
          have kind := (sound.externals (has_usedExternal used)
            (Std.TreeMap.mem_toList_iff_getElem?_eq_some.mp listed)).2
          exact .binding (before other early) kind
        · exact absurd listed List.not_mem_nil
    · rcases List.mem_cons.mp late with rfl | later
      · rcases among with rfl | binding
        · exact .inr (.inl rfl)
        · exact .inl (.inr (.inr (.inl binding)))
      · exact .inl (.inr (.inl ⟨other, later, among⟩))
  · exact none.elim

/-- Only a global, or what has been named before an external module, can be called like its alias. -/
theorem before_of_alias (reachable : graph.Reachable) (options : Options)
    (used : ((assignNames options graph).symbols.externalAt id).used = true)
    (aliased : (assignNames options graph).symbols.aliasesDefault id options.format = true) {a : Nameable}
    (occupied : (assignNames options graph).Occupies options.format a)
    (equal : (assignNames options graph).nameText options.format a =
      Symbols.defaultAlias ((assignNames options graph).symbols.externalAt id).name) :
    (assignNames options graph).IsFree a ∨ (assignNames options graph).NamedBefore id a := by
  obtain ⟨symbols, taken, same, named⟩ := reachable.named options
  rw [same] at used aliased occupied equal ⊢
  by_cases free : (graph.withSymbols symbols).IsFree a
  · exact .inl free
  right
  obtain ⟨member, name, given, -, text⟩ := named.given occupied free
  have used' : id ∈ graph.symbols.usedExternals :=
    Symbols.mem_usedExternals_of_used ((named.renames.used id).symm.trans used)
  obtain ⟨earlier, later, split⟩ := List.append_of_mem used'
  rcases namedIn_split named.sound split member with after | rfl | before
  · have different := named.sound.ne_alias split options
      ((named.renames.aliasesDefault id options.format).symm.trans aliased) after
      (by rw [same]; exact given)
    rw [same] at different
    exact absurd (text.symm.trans equal) different
  · exact absurd equal (Symbols.ne_defaultAlias _)
  · cases before with
    | external less => exact .external less
    | binding less before => exact .binding less ((named.renames.kind _).trans before)

/-- The default export of an external module that needs an alias is called by it.  No two aliases are
    the same, and nothing else is called like an alias but a global, or what has been named before the
    external module. -/
theorem outputText_assignNames_alias (reachable : graph.Reachable) (options : Options)
    {declaration : DeclId} (used : ((assignNames options graph).symbols.externalAt id).used = true)
    (aliased : (assignNames options graph).symbols.aliasesDefault id options.format = true)
    (kind : ((assignNames options graph).symbols.declarationAt declaration).kind =
      .provided id defaultExport) :
    (assignNames options graph).symbols.outputText options.format declaration =
        Symbols.defaultAlias ((assignNames options graph).symbols.externalAt id).name ∧
      (∀ other default, other ≠ id → ((assignNames options graph).symbols.externalAt other).used = true →
        (assignNames options graph).symbols.aliasesDefault other options.format = true →
        ((assignNames options graph).symbols.declarationAt default).kind =
          .provided other defaultExport →
        (assignNames options graph).symbols.outputText options.format default ≠
          (assignNames options graph).symbols.outputText options.format declaration) ∧
      ∀ a, (assignNames options graph).Occupies options.format a →
        (assignNames options graph).nameText options.format a =
          (assignNames options graph).symbols.outputText options.format declaration →
        (assignNames options graph).IsFree a ∨ (assignNames options graph).NamedBefore id a := by
  have text := Symbols.outputText_alias kind aliased
  refine ⟨text, fun other default different used' aliased' kind' equal => ?_, fun a occupied equal => ?_⟩
  · rw [text, Symbols.outputText_alias kind' aliased'] at equal
    have names := Symbols.defaultAlias_injective equal
    obtain ⟨symbols, taken, same, named⟩ := reachable.named options
    rw [same] at used used' names
    cases named.injective (.external used') (.external used) names
    exact different rfl
  · exact before_of_alias reachable options used aliased occupied (equal.trans text)

end Graph

/-! ## A global that is called like an alias -/

/-- A module imports an external module as a whole and by its default, and uses a global that has the name
    of the alias. -/
def Draft.nicknamed : Draft :=
  let draft := (Draft.addModule {} "main").2
  let draft := (draft.addExternal "fs").2
  let draft := ((importFrom ⟨0⟩ (.external ⟨0⟩) "default" "fs").outcome draft).2
  let draft := ((importFrom ⟨0⟩ (.external ⟨0⟩) "*" "ns").outcome draft).2
  (draft.addExpression ⟨0⟩
    (.call () (.ident () "use") [.ident () "fs", .ident () "ns", .ident () "fs__default"])).2

/-- The program with its only module as its entry. -/
def Graph.nicknamed : Graph := { Draft.nicknamed.graph with entry := ⟨0⟩ }

theorem Draft.built_nicknamed : Draft.nicknamed.Built := by
  refine .addExpression (.importFrom (.importFrom (.addExternal (.addModule .empty "main") "fs")
    ?_ ?_ _ _) ?_ ?_ _ _) ?_ _
  all_goals decide

theorem Graph.made_nicknamed : Graph.nicknamed.Made :=
  .finish Draft.built_nicknamed (by decide) rfl

namespace Graph

/-- Of what has a name there, only a global can be called like the alias, since no external module is named
    before the one that has it. -/
theorem outputText_nicknamed :
    let named := assignNames {} ((bundle {}).outcome nicknamed).2
    named.symbols.outputText .es ⟨3⟩ = "fs__default" ∧
      ∀ a, named.Occupies .es a → named.nameText .es a = "fs__default" → named.IsFree a := by
  intro named
  have entries : (named.symbols.externalAt ⟨0⟩).used = true ∧
      named.symbols.aliasesDefault ⟨0⟩ .es = true ∧
      (named.symbols.declarationAt ⟨3⟩).kind = .provided ⟨0⟩ defaultExport ∧
      (named.symbols.externalAt ⟨0⟩).name = "fs" := by decide +kernel
  obtain ⟨used, aliased, kind, name⟩ := entries
  obtain ⟨text, -, others⟩ :=
    outputText_assignNames_alias (.bundle {} (.made made_nicknamed)) {} used aliased kind
  rw [name] at text
  refine ⟨text, fun a occupied same => ?_⟩
  rcases others a occupied (same.trans text.symm) with free | before
  · exact free
  · cases before with
    | external less => exact absurd less (Nat.not_lt_zero _)
    | binding less => exact absurd less (Nat.not_lt_zero _)

/-- The alias is not fresh: the bundle refers to the global by the same name. -/
theorem bundle_nicknamed :
    let named := assignNames {} ((bundle {}).outcome nicknamed).2
    nicknamed.Made ∧ (named.symbols.externalAt ⟨0⟩).used = true ∧
      named.symbols.aliasesDefault ⟨0⟩ .es = true ∧
      (named.symbols.declarationAt ⟨3⟩).kind = .provided ⟨0⟩ defaultExport ∧
      (named.symbols.declarationAt ⟨6⟩).kind = .free ∧ named.includesDeclaration ⟨6⟩ = true ∧
      named.symbols.outputText .es ⟨3⟩ = named.symbols.outputText .es ⟨6⟩ ∧
      ((bundle {}).outcome nicknamed).1.toOption.map (·.code) =
        some ("import * as fs from \"fs\";\nimport fs__default from \"fs\";\n\n" ++
          "use(fs__default, fs, fs__default);\n") := by
  refine ⟨made_nicknamed, ?_⟩
  decide +kernel

end Graph

end Bundler
