import Bundler.Proofs.Naming.Given

/-! # Naming again

Names that have been given are given again.  The name of an external module starts out from the one that
it has, which differs the second time; but that one was fresh when the same names were taken, so it is
chosen again, and every later choice is the same as before.
-/

namespace Bundler

namespace Symbols

variable {symbols other : Symbols}

theorem declarations_toList (symbols : Symbols) :
    symbols.declarations.toList = symbols.declarationIds.map symbols.declarationAt := by
  refine List.ext_getElem (by simp [declarationIds]) fun i inside inside' => ?_
  simp [declarationIds, declarationAt, Array.length_toList ▸ inside]

theorem Renames.symm (renames : Renames symbols other) : Renames other symbols where
  modules := renames.modules.symm
  globals := renames.globals.symm
  declarations := renames.declarations.symm
  declarationAt id := by
    obtain ⟨_, entry⟩ := renames.declarationAt id
    exact ⟨(symbols.declarationAt id).outputName, by rw [entry]⟩
  externals := renames.externals.symm
  externalAt id := by
    obtain ⟨_, entry⟩ := renames.externalAt id
    exact ⟨(symbols.externalAt id).outputName, by rw [entry]⟩

section Used

variable (renames : Renames symbols other)

include renames

theorem Renames.usedExternals : other.usedExternals = symbols.usedExternals := by
  simp only [Symbols.usedExternals, externalIds, renames.externals, renames.used]

theorem Renames.contributions : other.contributions = symbols.contributions := by
  funext id
  simp only [Symbols.contributions, declarationIds, renames.declarations, renames.included,
    renames.owner, isDefined, renames.kind]

theorem Renames.usedGlobals : other.usedGlobals = symbols.usedGlobals := by
  simp only [Symbols.usedGlobals, declarations_toList, declarationIds, renames.declarations,
    List.filter_map, List.map_map, Function.comp_def, renames.kind, renames.included, renames.name]

end Used

/-- Symbols that differ in no more than names, and have the same names, are the same. -/
theorem Renames.eq_of_names (renames : Renames symbols other)
    (names : ∀ a, other.nameOf? a = symbols.nameOf? a) : other = symbols := by
  have declarations : other.declarations = symbols.declarations := by
    refine Array.ext renames.declarations fun i inside inside' => ?_
    obtain ⟨outputName, entry⟩ := renames.declarationAt ⟨i⟩
    have name := names (.declaration ⟨i⟩)
    rw [nameOf?, nameOf?, entry] at name
    dsimp only at name
    subst name
    change other.declarationAt ⟨i⟩ = symbols.declarationAt ⟨i⟩ at entry
    simpa [Symbols.declarationAt, inside, inside'] using entry
  have externals : other.externals = symbols.externals := by
    refine Array.ext renames.externals fun i inside inside' => ?_
    obtain ⟨outputName, entry⟩ := renames.externalAt ⟨i⟩
    have name := names (.external ⟨i⟩)
    rw [nameOf?, nameOf?, entry] at name
    dsimp only at name
    subst name
    change other.externalAt ⟨i⟩ = symbols.externalAt ⟨i⟩ at entry
    simpa [Symbols.externalAt, inside, inside'] using entry
  obtain ⟨modules, _, _, globals⟩ := symbols
  obtain ⟨_, _, _, _⟩ := other
  obtain rfl := renames.modules
  obtain rfl := renames.globals
  obtain rfl := declarations
  obtain rfl := externals
  rfl

theorem usedExternals_nodup (symbols : Symbols) : symbols.usedExternals.Nodup := by
  refine List.Nodup.filter _ (List.Nodup.map (fun i j same => ?_) List.nodup_range)
  cases same
  rfl

end Symbols

namespace Naming

/-! ## What leaves the name of an external module alone -/

variable {naming : Naming} {id : ExternalId}

theorem nameOf?_nameBinding (binding : String × DeclId) :
    (naming.nameBinding binding).symbols.nameOf? (.external id) =
      naming.symbols.nameOf? (.external id) := by
  rw [nameBinding]
  split
  · exact (nameOf?_nameDeclaration ..).trans (if_neg (by simp))
  · rfl

theorem nameOf?_foldl {α : Type} {step : Naming → α → Naming} {items : List α} {a : Nameable}
    (each : ∀ naming, ∀ item ∈ items,
      (step naming item).symbols.nameOf? a = naming.symbols.nameOf? a) :
    (items.foldl step naming).symbols.nameOf? a = naming.symbols.nameOf? a := by
  induction items generalizing naming with
  | nil => rfl
  | cons item rest ih =>
      exact (ih fun naming item member => each naming item (List.mem_cons_of_mem _ member)).trans
        (each naming item List.mem_cons_self)

/-- Naming an external module settles its name: what is named with it are declarations. -/
theorem nameOf?_nameExternal (format : Format) (other : ExternalId) :
    (naming.nameExternal format other).symbols.nameOf? (.external id) =
      (naming.nameModule other).symbols.nameOf? (.external id) := by
  rw [nameExternal_eq, nameOf?_foldl fun _ _ _ => nameOf?_nameBinding _, symbols_reserveAlias]

theorem nameOf?_nameExternal_of_ne (format : Format) {other : ExternalId} (different : id ≠ other) :
    (naming.nameExternal format other).symbols.nameOf? (.external id) =
      naming.symbols.nameOf? (.external id) := by
  rw [nameOf?_nameExternal, nameOf?_nameModule, if_neg (by simp [different])]

theorem nameOf?_nameOwn (own : DeclId) :
    (naming.nameOwn own).symbols.nameOf? (.external id) = naming.symbols.nameOf? (.external id) :=
  (nameOf?_nameDeclaration ..).trans (if_neg (by simp))

/-! ## Two runs -/

/-- The second run has come as far as the first.  What it has not named yet has the name that the first
    run gave it in the end. -/
structure Repeats (last : Symbols) (first second : Naming) : Prop where
  taken : second.taken = first.taken
  renames : first.symbols.Renames second.symbols
  names : ∀ a, second.symbols.nameOf? a = first.symbols.nameOf? a ∨
    second.symbols.nameOf? a = last.nameOf? a

namespace Repeats

variable {last : Symbols} {first second : Naming}

theorem reserve (repeats : Repeats last first second) (name : String) :
    Repeats last (first.reserve name) (second.reserve name) :=
  ⟨congrArg (name :: ·) repeats.taken, repeats.renames, repeats.names⟩

/-- Both runs give the same name to the same thing. -/
theorem give (repeats : Repeats last first second) {after again : Symbols} {a : Nameable}
    {name : String} (renames : first.symbols.Renames after) (renames' : second.symbols.Renames again)
    (names : ∀ b, after.nameOf? b =
      if b = a ∧ first.symbols.Has a then some name else first.symbols.nameOf? b)
    (names' : ∀ b, again.nameOf? b =
      if b = a ∧ second.symbols.Has a then some name else second.symbols.nameOf? b) :
    Repeats last ⟨after, name :: first.taken⟩ ⟨again, name :: second.taken⟩ where
  taken := congrArg (name :: ·) repeats.taken
  renames := (renames.symm.trans repeats.renames).trans renames'
  names b := by
    rw [names, names']
    simp only [repeats.renames.has]
    split
    · exact .inl rfl
    · exact repeats.names b

theorem nameDeclaration (repeats : Repeats last first second) (id : DeclId) (base : String) :
    Repeats last (first.nameDeclaration id base) (second.nameDeclaration id base) := by
  have given := second.nameOf?_nameDeclaration id base
  rw [repeats.taken] at given
  have both := repeats.give (first.renames_nameDeclaration id base)
    (second.renames_nameDeclaration id base) (first.nameOf?_nameDeclaration id base) given
  rw [repeats.taken] at both
  simpa only [Naming.nameDeclaration, repeats.taken] using both

theorem foldl {α : Type} {step : Naming → α → Naming}
    (each : ∀ {first second}, Repeats last first second → ∀ item,
      Repeats last (step first item) (step second item))
    (repeats : Repeats last first second) (items : List α) :
    Repeats last (items.foldl step first) (items.foldl step second) := by
  induction items generalizing first second with
  | nil => exact repeats
  | cons item rest ih => exact ih (each repeats item)

theorem nameBinding (repeats : Repeats last first second) (binding : String × DeclId) :
    Repeats last (first.nameBinding binding) (second.nameBinding binding) := by
  rw [Naming.nameBinding, Naming.nameBinding, repeats.renames.included]
  split
  · exact repeats.nameDeclaration _ _
  · exact repeats

theorem nameOwn (repeats : Repeats last first second) (id : DeclId) :
    Repeats last (first.nameOwn id) (second.nameOwn id) := by
  rw [Naming.nameOwn, Naming.nameOwn, repeats.renames.name]
  exact repeats.nameDeclaration _ _

/-- The name that an external module was given last is fresh where it was given. -/
theorem freshName_eq (repeats : Repeats last first second)
    (given : last.nameOf? (.external id) =
      some (freshName first.taken (first.symbols.externalAt id).name)) :
    freshName second.taken (second.symbols.externalAt id).name =
      freshName first.taken (first.symbols.externalAt id).name := by
  obtain ⟨outputName, entry⟩ := repeats.renames.externalAt id
  rw [repeats.taken]
  rcases repeats.names (.external id) with same | final
  · rw [Symbols.nameOf?, Symbols.nameOf?] at same
    rw [External.name, External.name, same, entry]
  · rw [given, Symbols.nameOf?] at final
    rw [External.name, final]
    exact freshName_of_not_mem freshName_not_mem

theorem nameModule (repeats : Repeats last first second)
    (given : last.nameOf? (.external id) =
      some (freshName first.taken (first.symbols.externalAt id).name)) :
    Repeats last (first.nameModule id) (second.nameModule id) := by
  have names := second.nameOf?_nameModule id
  rw [repeats.freshName_eq given] at names
  have both := repeats.give (first.renames_nameModule id) (second.renames_nameModule id)
    (first.nameOf?_nameModule id) names
  simpa only [Naming.nameModule, repeats.freshName_eq given] using both

theorem reserveAlias (repeats : Repeats last first second) (format : Format) (id : ExternalId)
    (name : String) :
    Repeats last (first.reserveAlias format id name) (second.reserveAlias format id name) := by
  rw [Naming.reserveAlias, Naming.reserveAlias, repeats.renames.aliasesDefault]
  split
  · exact repeats.reserve _
  · exact repeats

theorem nameExternal (repeats : Repeats last first second) (format : Format)
    (there : first.symbols.Has (.external id))
    (given : last.nameOf? (.external id) =
      (first.nameExternal format id).symbols.nameOf? (.external id)) :
    Repeats last (first.nameExternal format id) (second.nameExternal format id) := by
  rw [nameOf?_nameExternal, nameOf?_nameModule, if_pos ⟨rfl, there⟩] at given
  have named := repeats.nameModule given
  have same : bindings format (second.nameModule id).symbols id =
      bindings format (first.nameModule id).symbols id := by
    rw [bindings, bindings, named.renames.exported]
  rw [nameExternal_eq, nameExternal_eq, same, repeats.freshName_eq given]
  exact (named.reserveAlias format id _).foldl nameBinding _

/-- No external module is named twice, so the name that each is given is the one that it has last. -/
theorem nameExternals (repeats : Repeats last first second) (format : Format) {ids : List ExternalId}
    (distinct : ids.Nodup) (there : ∀ id ∈ ids, first.symbols.Has (.external id))
    (given : ∀ id ∈ ids, last.nameOf? (.external id) =
      (ids.foldl (Naming.nameExternal format) first).symbols.nameOf? (.external id)) :
    Repeats last (ids.foldl (Naming.nameExternal format) first)
      (ids.foldl (Naming.nameExternal format) second) := by
  induction ids generalizing first second with
  | nil => exact repeats
  | cons id rest ih =>
      obtain ⟨new, distinct⟩ := List.nodup_cons.mp distinct
      have here := repeats.nameExternal format (there id List.mem_cons_self) <| by
        rw [given id List.mem_cons_self, List.foldl_cons]
        refine nameOf?_foldl fun naming other member => nameOf?_nameExternal_of_ne format ?_
        exact fun same => new (same ▸ member)
      refine ih here distinct (fun other member => ?_) fun other member => ?_
      · exact ((renames_nameExternal format first id).has _).mpr
          (there other (List.mem_cons_of_mem _ member))
      · exact given other (List.mem_cons_of_mem _ member)

end Repeats

end Naming

namespace Graph

/-- Naming again changes nothing. -/
theorem assignNames_assignNames (options : Options) (graph : Graph) :
    assignNames options (assignNames options graph) = assignNames options graph := by
  obtain ⟨last, renames, named⟩ := assignNames_eq options graph
  let externals := graph.symbols.usedExternals
  let own := graph.order.flatMap graph.symbols.contributions
  let naming := externals.foldl (Naming.nameExternal options.format)
    ⟨graph.symbols, options.ownNames ++ graph.symbols.usedGlobals⟩
  have final : (own.foldl Naming.nameOwn naming).symbols = last := congrArg Graph.symbols named
  have start : Naming.Repeats last ⟨graph.symbols, options.ownNames ++ graph.symbols.usedGlobals⟩
      ⟨last, options.ownNames ++ graph.symbols.usedGlobals⟩ :=
    ⟨rfl, renames, fun _ => .inr rfl⟩
  have middle := start.nameExternals options.format graph.symbols.usedExternals_nodup
    (fun id member => (Symbols.mem_usedExternals.mp member).1) fun id _ => by
      rw [← final]
      exact Naming.nameOf?_foldl fun _ _ _ => Naming.nameOf?_nameOwn _
  have both := middle.foldl Naming.Repeats.nameOwn own
  rw [named, assignNames]
  dsimp only
  rw [renames.usedGlobals, renames.usedExternals, renames.contributions]
  congr 1
  refine Symbols.Renames.eq_of_names (final ▸ both.renames) fun a => ?_
  exact (both.names a).elim (·.trans (by rw [final])) id

end Graph

end Bundler
