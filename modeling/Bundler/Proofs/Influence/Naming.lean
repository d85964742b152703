import Bundler.Proofs.Bundle.Names
import Bundler.Proofs.Influence.Twins
import Bundler.Proofs.Naming.Again

/-! # Naming twins

Naming takes the same names in both programs, in the same order, so twins get the same names, and the
text that refers to them is the same.
-/

namespace Bundler

open Symbols (Renames)

/-- Things that are to get the same name: twins, and external modules of the smaller program. -/
inductive NameTwins (bound : Nat) (twin : DeclId → DeclId → Prop) : Nameable → Nameable → Prop where
  | declaration {a b} : twin a b → NameTwins bound twin (.declaration a) (.declaration b)
  | external {id : ExternalId} : id.index < bound → NameTwins bound twin (.external id) (.external id)

namespace Symbols

variable {symbols : Symbols} {id : ExternalId}

/-- What the bundle imports by name from an external module. -/
def includedBindings (symbols : Symbols) (id : ExternalId) : List (String × DeclId) :=
  (symbols.externalAt id).declarations.toList.filter fun (name, declaration) =>
    isNamed name && (symbols.declarationAt declaration).included

theorem includesExport_eq (name : String) :
    symbols.includesExport id name = (symbols.includedExport? id name).isSome := by
  rw [includesExport, includedExport?]
  cases (symbols.externalAt id).declarations[name]? with
  | none => rfl
  | some declaration =>
      dsimp only
      cases included : (symbols.declarationAt declaration).included <;> simp [included]

theorem mem_includedBindings {name : String} {declaration : DeclId} :
    (name, declaration) ∈ symbols.includedBindings id ↔
      isNamed name = true ∧ symbols.includedExport? id name = some declaration := by
  rw [includedBindings, List.mem_filter, Std.TreeMap.mem_toList_iff_getElem?_eq_some, includedExport?]
  simp only [Bool.and_eq_true, Option.filter_eq_some_iff]
  tauto

/-- The bindings are listed in the order of their names, which are all different. -/
theorem sorted_includedBindings :
    ((symbols.includedBindings id).map (·.1)).Pairwise fun a b => compare a b = .lt :=
  List.pairwise_map.mpr (List.Pairwise.filter _ Std.TreeMap.ordered_keys_toList)

theorem ne_of_compare_lt {a b : String} (less : compare a b = .lt) : a ≠ b := by
  rintro rfl
  have equal : compare a a = .eq := Std.ReflCmp.compare_self
  cases less.symm.trans equal

theorem eq_of_sorted {names others : List String} (sorted : names.Pairwise fun a b => compare a b = .lt)
    (sorted' : others.Pairwise fun a b => compare a b = .lt) (same : ∀ name, name ∈ names ↔ name ∈ others) :
    names = others := by
  refine List.Perm.eq_of_pairwise (fun a b _ _ less less' => ?_) sorted sorted'
    ((List.perm_ext_iff_of_nodup (sorted.imp ne_of_compare_lt) (sorted'.imp ne_of_compare_lt)).mpr same)
  exact absurd rfl (ne_of_compare_lt (Std.TransCmp.lt_trans less less'))

/-- If the same is included of an external module in both programs, then for the same names. -/
theorem includedBindings_twins {core whole : Symbols} {twin : DeclId → DeclId → Prop}
    (same : ∀ name, Option.Rel twin (core.includedExport? id name) (whole.includedExport? id name)) :
    ExportTwins twin (core.includedBindings id) (whole.includedBindings id) := by
  have some : ∀ name,
      (∃ a, core.includedExport? id name = some a) ↔ ∃ b, whole.includedExport? id name = some b := by
    intro name
    have here := same name
    generalize core.includedExport? id name = found, whole.includedExport? id name = found' at here
    cases here <;> simp
  have keys : (core.includedBindings id).map (·.1) = (whole.includedBindings id).map (·.1) := by
    refine eq_of_sorted sorted_includedBindings sorted_includedBindings fun name => ?_
    simp only [List.mem_map, Prod.exists, mem_includedBindings, exists_and_right, exists_eq_right,
      exists_and_left, some]
  rw [← List.forall₂_eq_eq_eq, List.forall₂_map_left_iff, List.forall₂_map_right_iff,
    List.forall₂_iff_zip] at keys
  refine List.forall₂_iff_zip.mpr ⟨keys.1, fun {a b} pair => ?_⟩
  have name : a.1 = b.1 := keys.2 pair
  obtain ⟨here, there⟩ := List.of_mem_zip pair
  have found := (mem_includedBindings.mp here).2
  have found' := (mem_includedBindings.mp there).2
  have twins := same a.1
  rw [found, name, found'] at twins
  cases twins with
  | some twins => exact ⟨name.symm, twins⟩

/-- The names of the globals in the bundle are those of the declarations that are. -/
theorem mem_usedGlobals {name : String} : name ∈ symbols.usedGlobals ↔
    ∃ id, (symbols.declarationAt id).kind = .free ∧ (symbols.declarationAt id).included = true ∧
      (symbols.declarationAt id).name = name := by
  have free : ∀ kind : DeclarationKind, kind.isFree = true ↔ kind = .free := by
    intro kind
    cases kind <;> simp [DeclarationKind.isFree]
  rw [usedGlobals, declarations_toList]
  simp only [List.mem_map, List.mem_filter, Bool.and_eq_true, free]
  constructor
  · rintro ⟨_, ⟨⟨id, -, rfl⟩, kind, included⟩, named⟩
    exact ⟨id, kind, included, named⟩
  · rintro ⟨id, kind, included, named⟩
    refine ⟨_, ⟨⟨id, mem_declarationIds.mpr ?_, rfl⟩, kind, included⟩, named⟩
    by_contra outside
    rw [declarationAt_of_le (Nat.not_lt.mp outside)] at included
    cases included

theorem filter_range_of_le {α : Type} {mk : Nat → α} {p : α → Bool} {less more : Nat} (le : less ≤ more)
    (none : ∀ i, less ≤ i → p (mk i) = false) :
    ((List.range more).map mk).filter p = ((List.range less).map mk).filter p := by
  obtain ⟨further, rfl⟩ := Nat.exists_eq_add_of_le le
  have rest : (((List.range further).map (less + ·)).map mk).filter p = [] := by
    simp only [List.filter_eq_nil_iff, List.mem_map, Bool.not_eq_true]
    rintro _ ⟨_, ⟨i, -, rfl⟩, rfl⟩
    exact none _ (Nat.le_add_right less i)
  rw [List.range_add, List.map_append, List.filter_append, rest, List.append_nil]

theorem aliasesDefault_congr {core whole : Symbols} {format : Format}
    (same : ∀ name, whole.includesExport id name = core.includesExport id name) :
    whole.aliasesDefault id format = core.aliasesDefault id format := by
  have listed : ∀ (symbols : Symbols) name, symbols.includesExport id name = true →
      name ∈ (symbols.externalAt id).declarations.keys := by
    intro symbols name included
    rw [includesExport] at included
    split at included
    next found =>
        exact Std.TreeMap.mem_keys.mpr (Std.TreeMap.mem_iff_isSome_getElem?.mpr (by rw [found]; rfl))
    next => cases included
  have further : ((whole.externalAt id).declarations.keys.any fun name =>
        isNamed name && whole.includesExport id name) =
      ((core.externalAt id).declarations.keys.any fun name =>
        isNamed name && core.includesExport id name) := by
    rw [Bool.eq_iff_iff, List.any_eq_true, List.any_eq_true]
    simp only [Bool.and_eq_true]
    constructor
    · rintro ⟨name, -, named, included⟩
      rw [same] at included
      exact ⟨name, listed core name included, named, included⟩
    · rintro ⟨name, -, named, included⟩
      rw [← same] at included
      exact ⟨name, listed whole name included, named, included⟩
  rw [aliasesDefault, aliasesDefault, same, same, further]

/-- What names depend on is the same of twins, and of the external modules up to the bound. -/
structure Resembles (bound : Nat) (twin : DeclId → DeclId → Prop) (core whole : Symbols) : Prop where
  has : ∀ {a b}, NameTwins bound twin a b → core.Has a ∧ whole.Has b
  left : ∀ {a b c}, twin a b → twin a c → b = c
  right : ∀ {a b c}, twin a c → twin b c → a = b
  /-- What comes from an external module goes by the name of its export, or of the module. -/
  name : ∀ {a b}, twin a b → (core.declarationAt a).kind.isProvided = false →
    (whole.declarationAt b).name = (core.declarationAt a).name
  included : ∀ {a b}, twin a b → (whole.declarationAt b).included = (core.declarationAt a).included
  outputName : ∀ {a b}, twin a b → (whole.declarationAt b).outputName = (core.declarationAt a).outputName
  external : ∀ {id : ExternalId}, id.index < bound → (core.externalAt id).Twins (whole.externalAt id)
  provided : ∀ {id : ExternalId}, id.index < bound → ∀ name,
    Option.Rel twin (core.includedExport? id name) (whole.includedExport? id name)

namespace Resembles

variable {bound : Nat} {twin : DeclId → DeclId → Prop} {core whole : Symbols}
  (resembles : Resembles bound twin core whole)

include resembles

theorem includesExport {id : ExternalId} (inside : id.index < bound) (name : String) :
    whole.includesExport id name = core.includesExport id name := by
  have here := resembles.provided inside name
  rw [includesExport_eq, includesExport_eq]
  generalize core.includedExport? id name = found, whole.includedExport? id name = found' at here
  cases here <;> rfl

theorem nameOf?_eq {a b : Nameable} (twins : NameTwins bound twin a b) :
    whole.nameOf? b = core.nameOf? a := by
  cases twins with
  | declaration twins => exact resembles.outputName twins
  | external inside =>
      obtain ⟨_, _, entry⟩ := resembles.external inside
      rw [nameOf?, nameOf?, entry]

theorem eq_iff {a b c d : Nameable} (first : NameTwins bound twin a b) (second : NameTwins bound twin c d) :
    d = b ↔ c = a := by
  cases first with
  | declaration twins =>
      cases second with
      | declaration twins' =>
          simp only [Nameable.declaration.injEq]
          exact ⟨fun same => resembles.right twins' (same ▸ twins),
            fun same => resembles.left twins' (same ▸ twins)⟩
      | external => simp
  | external =>
      cases second with
      | declaration => simp
      | external => rfl

end Resembles

end Symbols

namespace Naming

open Symbols (Resembles)

theorem foldl_nameBinding {symbols : Symbols} {naming : Naming} (renames : symbols.Renames naming.symbols)
    (bindings : List (String × DeclId)) :
    bindings.foldl nameBinding naming =
      (bindings.filter fun (name, declaration) =>
        Symbols.isNamed name && (symbols.declarationAt declaration).included).foldl nameBinding naming := by
  induction bindings generalizing naming with
  | nil => rfl
  | cons binding rest ih =>
      obtain ⟨name, declaration⟩ := binding
      rw [List.foldl_cons, List.filter_cons]
      dsimp only
      split
      next => exact ih (renames.trans (renames_nameBinding naming _))
      next excluded =>
          have skipped : naming.nameBinding (name, declaration) = naming := by
            rw [nameBinding, renames.included, if_neg excluded]
          rw [skipped]
          exact ih renames

/-- The same names are taken in both programs, and twins have the same names. -/
structure Echoes (bound : Nat) (twin : DeclId → DeclId → Prop) (core whole : Symbols)
    (first second : Naming) : Prop where
  taken : ∀ name, name ∈ second.taken ↔ name ∈ first.taken
  renames : core.Renames first.symbols
  renames' : whole.Renames second.symbols
  names : ∀ {a b}, NameTwins bound twin a b → second.symbols.nameOf? b = first.symbols.nameOf? a

namespace Echoes

variable {bound : Nat} {twin : DeclId → DeclId → Prop} {core whole : Symbols} {first second : Naming}
  (echoes : Echoes bound twin core whole first second)

include echoes

theorem reserve (name : String) :
    Echoes bound twin core whole (first.reserve name) (second.reserve name) :=
  { echoes with taken := fun other => by simp only [Naming.reserve, List.mem_cons, echoes.taken] }

variable (resembles : Resembles bound twin core whole)

include resembles

/-- Twins get the same name. -/
theorem give {a b : Nameable} (twins : NameTwins bound twin a b) {after after' : Symbols} {name : String}
    (renames : first.symbols.Renames after) (renames' : second.symbols.Renames after')
    (names : ∀ c, after.nameOf? c =
      if c = a ∧ first.symbols.Has a then some name else first.symbols.nameOf? c)
    (names' : ∀ c, after'.nameOf? c =
      if c = b ∧ second.symbols.Has b then some name else second.symbols.nameOf? c) :
    Echoes bound twin core whole ⟨after, name :: first.taken⟩ ⟨after', name :: second.taken⟩ where
  taken other := by simp only [List.mem_cons, echoes.taken]
  renames := echoes.renames.trans renames
  renames' := echoes.renames'.trans renames'
  names {c d} twins' := by
    have here := (echoes.renames.has a).mpr (resembles.has twins).1
    have there := (echoes.renames'.has b).mpr (resembles.has twins).2
    rw [names, names']
    simp only [here, there, and_true, resembles.eq_iff twins twins', echoes.names twins']

theorem nameDeclaration {a b : DeclId} (twins : twin a b) (base : String) :
    Echoes bound twin core whole (first.nameDeclaration a base) (second.nameDeclaration b base) := by
  have fresh : freshName second.taken base = freshName first.taken base := freshName_congr echoes.taken
  have given := second.nameOf?_nameDeclaration b base
  rw [fresh] at given
  have both := echoes.give resembles (.declaration twins) (first.renames_nameDeclaration a base)
    (second.renames_nameDeclaration b base) (first.nameOf?_nameDeclaration a base) given
  simpa only [Naming.nameDeclaration, fresh] using both

theorem nameBinding {a b : String × DeclId} (name : b.1 = a.1) (twins : twin a.2 b.2) :
    Echoes bound twin core whole (first.nameBinding a) (second.nameBinding b) := by
  rw [Naming.nameBinding, Naming.nameBinding, echoes.renames.included, echoes.renames'.included,
    resembles.included twins, name]
  split
  · exact echoes.nameDeclaration resembles twins a.1
  · exact echoes

theorem nameOwn {a b : DeclId} (twins : twin a b) (own : (core.declarationAt a).kind.isProvided = false) :
    Echoes bound twin core whole (first.nameOwn a) (second.nameOwn b) := by
  rw [Naming.nameOwn, Naming.nameOwn, echoes.renames.name, echoes.renames'.name, resembles.name twins own]
  exact echoes.nameDeclaration resembles twins _

theorem nameModule {id : ExternalId} (inside : id.index < bound) :
    freshName second.taken (second.symbols.externalAt id).name =
        freshName first.taken (first.symbols.externalAt id).name ∧
      Echoes bound twin core whole (first.nameModule id) (second.nameModule id) := by
  have twins : NameTwins bound twin (.external id) (.external id) := .external inside
  have same : (second.symbols.externalAt id).name = (first.symbols.externalAt id).name := by
    obtain ⟨_, entry⟩ := echoes.renames.externalAt id
    obtain ⟨_, entry'⟩ := echoes.renames'.externalAt id
    obtain ⟨_, _, external⟩ := resembles.external inside
    have name := echoes.names twins
    rw [Symbols.nameOf?, Symbols.nameOf?] at name
    rw [External.name, External.name, name, entry, entry', external]
  have fresh : freshName second.taken (second.symbols.externalAt id).name =
      freshName first.taken (first.symbols.externalAt id).name := by
    rw [same]
    exact freshName_congr echoes.taken
  have given := second.nameOf?_nameModule id
  rw [fresh] at given
  have both := echoes.give resembles twins (first.renames_nameModule id) (second.renames_nameModule id)
    (first.nameOf?_nameModule id) given
  exact ⟨fresh, by simpa only [Naming.nameModule, fresh] using both⟩

theorem reserveAlias (format : Format) {id : ExternalId} (inside : id.index < bound) (name : String) :
    Echoes bound twin core whole (first.reserveAlias format id name)
      (second.reserveAlias format id name) := by
  rw [Naming.reserveAlias, Naming.reserveAlias, echoes.renames.aliasesDefault,
    echoes.renames'.aliasesDefault, Symbols.aliasesDefault_congr (resembles.includesExport inside)]
  split
  · exact echoes.reserve _
  · exact echoes

omit echoes in
theorem nameBindings {bindings bindings' : List (String × DeclId)}
    (twins : ExportTwins twin bindings bindings') (echoes : Echoes bound twin core whole first second) :
    Echoes bound twin core whole (bindings.foldl Naming.nameBinding first)
      (bindings'.foldl Naming.nameBinding second) := by
  induction twins generalizing first second with
  | nil => exact echoes
  | cons here _ ih => exact ih (echoes.nameBinding resembles here.1 here.2)

theorem nameExternal (format : Format) {id : ExternalId} (inside : id.index < bound) :
    Echoes bound twin core whole (first.nameExternal format id) (second.nameExternal format id) := by
  obtain ⟨fresh, named⟩ := echoes.nameModule resembles inside
  have reserved := named.reserveAlias resembles format inside
    (freshName first.taken (first.symbols.externalAt id).name)
  rw [nameExternal_eq, nameExternal_eq, fresh]
  rw [foldl_nameBinding reserved.renames, foldl_nameBinding reserved.renames']
  refine reserved.nameBindings resembles ?_
  rw [bindings, bindings]
  split
  · rw [named.renames.exported, named.renames'.exported]
    exact Symbols.includedBindings_twins (resembles.provided inside)
  · exact .nil

omit echoes resembles in
theorem foldl {α : Type} {step : Naming → α → Naming} {items : List α}
    (echoes : Echoes bound twin core whole first second)
    (each : ∀ {first second}, Echoes bound twin core whole first second → ∀ item ∈ items,
      Echoes bound twin core whole (step first item) (step second item)) :
    Echoes bound twin core whole (items.foldl step first) (items.foldl step second) := by
  induction items generalizing first second with
  | nil => exact echoes
  | cons item rest ih =>
      exact ih (each echoes item List.mem_cons_self) fun echoes item member =>
        each echoes item (List.mem_cons_of_mem _ member)

theorem resembles_named : Resembles bound twin first.symbols second.symbols where
  has twins :=
    ⟨(echoes.renames.has _).mpr (resembles.has twins).1, (echoes.renames'.has _).mpr (resembles.has twins).2⟩
  left := resembles.left
  right := resembles.right
  name twins own := by
    rw [echoes.renames.kind] at own
    rw [echoes.renames.name, echoes.renames'.name, resembles.name twins own]
  included twins := by rw [echoes.renames.included, echoes.renames'.included, resembles.included twins]
  outputName twins := echoes.names (.declaration twins)
  external {id} inside := by
    obtain ⟨_, entry⟩ := echoes.renames.externalAt id
    obtain ⟨_, entry'⟩ := echoes.renames'.externalAt id
    obtain ⟨_, _, external⟩ := resembles.external inside
    have twins : NameTwins bound twin (.external id) (.external id) := .external inside
    have name := echoes.names twins
    rw [Symbols.nameOf?, Symbols.nameOf?, entry, entry'] at name
    dsimp only at name
    subst name
    exact ⟨_, _, by rw [entry, entry', external]⟩
  provided {id} inside name := by
    have same : ∀ {symbols after : Symbols}, symbols.Renames after →
        after.includedExport? id name = symbols.includedExport? id name := by
      intro symbols after renames
      simp only [Symbols.includedExport?, renames.exported, renames.included]
    rw [same echoes.renames, same echoes.renames']
    exact resembles.provided inside name

end Echoes

end Naming

theorem Symbols.not_provided_of_contributed {symbols : Symbols} {order : List ModuleId} {id : DeclId}
    (member : id ∈ order.flatMap symbols.contributions) :
    (symbols.declarationAt id).kind.isProvided = false := by
  obtain ⟨owner, -, contributed⟩ := List.mem_flatMap.mp member
  have defined := (Graph.mem_contributions.mp contributed).2.1
  rw [isDefined] at defined
  generalize (symbols.declarationAt id).kind = kind at defined ⊢
  cases kind with
  | provided => cases defined
  | declared | imported | namespaceOf | free => rfl

namespace Graph

/-- Naming keeps what names depend on the same, and gives twins the same names. -/
theorem resembles_assignNames {bound : Nat} {twin : DeclId → DeclId → Prop} {core whole : Graph}
    (resembles : Symbols.Resembles bound twin core.symbols whole.symbols)
    (globals : ∀ name, name ∈ whole.symbols.usedGlobals ↔ name ∈ core.symbols.usedGlobals)
    (externals : whole.symbols.usedExternals = core.symbols.usedExternals)
    (bounded : ∀ id ∈ core.symbols.usedExternals, id.index < bound)
    (own : whole.order.flatMap whole.symbols.contributions = core.order.flatMap core.symbols.contributions)
    (written : ∀ id ∈ core.order.flatMap core.symbols.contributions, twin id id) (options : Options) :
    Symbols.Resembles bound twin (assignNames options core).symbols (assignNames options whole).symbols := by
  have start : Naming.Echoes bound twin core.symbols whole.symbols
      ⟨core.symbols, options.ownNames ++ core.symbols.usedGlobals⟩
      ⟨whole.symbols, options.ownNames ++ whole.symbols.usedGlobals⟩ :=
    ⟨fun name => by simp only [List.mem_append, globals], .refl _, .refl _, resembles.nameOf?_eq⟩
  have middle : Naming.Echoes bound twin core.symbols whole.symbols
      (core.symbols.usedExternals.foldl (Naming.nameExternal options.format) _)
      (core.symbols.usedExternals.foldl (Naming.nameExternal options.format) _) :=
    start.foldl fun echoes id member => echoes.nameExternal resembles options.format (bounded id member)
  have last : Naming.Echoes bound twin core.symbols whole.symbols
      ((core.order.flatMap core.symbols.contributions).foldl Naming.nameOwn _)
      ((core.order.flatMap core.symbols.contributions).foldl Naming.nameOwn _) :=
    middle.foldl fun echoes id member =>
      echoes.nameOwn resembles (written id member) (Symbols.not_provided_of_contributed member)
  rw [assignNames, assignNames, externals, own]
  exact last.resembles_named resembles

end Graph

end Bundler
