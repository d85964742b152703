import Bundler.Proofs.Bundle.Aliases
import Bundler.Proofs.Bundle.Derivation
import Bundler.Proofs.Influence.Naming

/-! # The header of a bundle

The header of a bundle is written from the tables of the external modules, while what refers to something
from outside is written from its declaration.  Both agree: a standard module imports what is included and
nothing else, each under the name that it is referred to by, and a CommonJS module requires every external
module that it uses once, with at most one alias.
-/

namespace Bundler

/-! ## Statements of the header -/

/-- What a standard module imports: the name that an external module provides it under, and the name that
    the bundle calls it by. -/
structure Specifier where
  source : ExternalId
  name : String
  binding : String
  deriving DecidableEq

/-- A statement by which a standard module imports from an external one: the module as a whole, or its
    default export and some others by name. -/
inductive Import where
  | whole (source : ExternalId) (binding : String)
  | parts (source : ExternalId) (byDefault : Option String) (named : List (String × String))

/-- A statement by which a CommonJS module gets something from an external one: the module itself, or its
    default export from the object that stands for it. -/
inductive Requirement where
  | module (source : ExternalId) (binding : String)
  | byDefault (source : ExternalId) (binding object : String)
  deriving DecidableEq

namespace Import

/-- What the statement imports. -/
def specifiers : Import → List Specifier
  | whole source binding => [⟨source, wholeModule, binding⟩]
  | parts source byDefault named =>
    byDefault.toList.map (⟨source, defaultExport, ·⟩) ++
      named.map fun (name, binding) => ⟨source, name, binding⟩

/-- The text of the statement. -/
def print (symbols : Symbols) : Import → String
  | whole source binding =>
    "import * as " ++ binding ++ (" from " ++ Text.quote (symbols.externalAt source).id ++ ";")
  | parts source byDefault named =>
    let specifiers := named.map fun (name, binding) => printAs name binding
    let clauses := byDefault.toList ++
      (if named.isEmpty then [] else ["\x7b " ++ ", ".intercalate specifiers ++ " \x7d"])
    "import " ++ ", ".intercalate clauses ++ (" from " ++ Text.quote (symbols.externalAt source).id ++ ";")

end Import

namespace Requirement

/-- The external module that the statement is about. -/
def source : Requirement → ExternalId
  | module source _ => source
  | byDefault source _ _ => source

/-- The name that the statement declares. -/
def binding : Requirement → String
  | module _ binding => binding
  | byDefault _ binding _ => binding

/-- The text of the statement. -/
def print (symbols : Symbols) : Requirement → String
  | module source binding =>
    "var " ++ binding ++ " = require(" ++ Text.quote (symbols.externalAt source).id ++ ");"
  | byDefault _ binding object =>
    "var " ++ binding ++ " = 'default' in " ++ object ++ " ? " ++ object ++ "['default'] : " ++ object ++ ";"

end Requirement

/-! ## Lists -/

section Lists

variable {α β : Type} {items : List α} {f : α → List β} {a : α}

/-- If only one of different items contributes to a list, the list is what it contributes. -/
theorem flatMap_eq_of_mem (nodup : items.Nodup) (member : a ∈ items)
    (only : ∀ b ∈ items, b ≠ a → f b = []) : items.flatMap f = f a := by
  obtain ⟨before, after, rfl⟩ := List.append_of_mem member
  obtain ⟨-, nodup, apart⟩ := List.nodup_append.mp nodup
  have first : before.flatMap f = [] := List.flatMap_eq_nil_iff.mpr fun b among =>
    only b (List.mem_append_left _ among) (apart b among a List.mem_cons_self)
  have last : after.flatMap f = [] := List.flatMap_eq_nil_iff.mpr fun b among =>
    only b (List.mem_append_right _ (List.mem_cons_of_mem _ among)) fun same =>
      (List.nodup_cons.mp nodup).1 (same ▸ among)
  rw [List.flatMap_append, List.flatMap_cons, first, last, List.append_nil, List.nil_append]

/-- Of entries under different names, those under one name are the one that is found under it. -/
theorem filter_eq_of_mem_iff {entries : List (String × α)} (nodup : (entries.map (·.1)).Nodup) {name : String}
    {found : Option α} (found_iff : ∀ entry, (name, entry) ∈ entries ↔ found = some entry) :
    (entries.filter fun entry => entry.1 = name) = found.toList.map (name, ·) := by
  rw [← List.filterMap_eq_filter, List.filterMap_eq_flatMap_toList]
  have other : ∀ entry : String × α, entry.1 ≠ name →
      (Option.guard (fun entry : String × α => decide (entry.1 = name)) entry).toList = [] := by
    intro entry different
    rw [Option.guard_eq_ite, if_neg (by simpa using different), Option.toList_none]
  cases found with
  | none =>
      refine List.flatMap_eq_nil_iff.mpr fun entry member => other entry ?_
      rintro rfl
      cases (found_iff entry.2).mp member
  | some a =>
      rw [flatMap_eq_of_mem (List.Nodup.of_map _ nodup) ((found_iff a).mpr rfl), Option.guard_eq_ite,
        if_pos (by simp)]
      · rfl
      · rintro ⟨key, entry⟩ among different
        refine other _ fun same => different ?_
        obtain rfl : key = name := same
        rw [Option.some.inj ((found_iff entry).mp among)]

end Lists

namespace Symbols

variable {symbols : Symbols} {id : ExternalId} {name : String}

/-! ## What is imported from an external module -/

/-- What is included of an external module, under the names that it has there. -/
def includedExports (symbols : Symbols) (id : ExternalId) : List (String × DeclId) :=
  (symbols.includedExport? id wholeModule).toList.map (wholeModule, ·) ++
    ((symbols.includedExport? id defaultExport).toList.map (defaultExport, ·) ++ symbols.includedBindings id)

/-- The statements by which a standard module imports from an external one. -/
def importsFrom (symbols : Symbols) (id : ExternalId) : List Import :=
  let byDefault := (symbols.includedExport? id defaultExport).map (symbols.outputText .es)
  let named := (symbols.includedBindings id).map fun (name, declaration) =>
    (name, symbols.outputText .es declaration)
  ((symbols.includedExport? id wholeModule).toList.map fun declaration =>
      .whole id (symbols.outputText .es declaration)) ++
    if byDefault.isNone && named.isEmpty then [] else [.parts id byDefault named]

/-- All statements by which a standard module imports. -/
def imports (symbols : Symbols) : List Import := symbols.usedExternals.flatMap symbols.importsFrom

/-- The statements by which a CommonJS module requires an external one. -/
def requirementsOf (symbols : Symbols) (id : ExternalId) : List Requirement :=
  let name := (symbols.externalAt id).name
  let alias? := (symbols.includedExport? id defaultExport).filter fun declaration =>
    symbols.outputText .cjs declaration ≠ name
  .module id name ::
    alias?.toList.map fun declaration => .byDefault id (symbols.outputText .cjs declaration) name

/-- All statements by which a CommonJS module requires external ones. -/
def requirements (symbols : Symbols) : List Requirement :=
  symbols.usedExternals.flatMap symbols.requirementsOf

theorem esImports_eq (symbols : Symbols) (id : ExternalId) :
    symbols.esImports id = (symbols.importsFrom id).map (Import.print symbols) := by
  have named : symbols.namedImports id = (symbols.includedBindings id).map fun (name, declaration) =>
      printAs name (symbols.outputText .es declaration) := rfl
  rw [esImports, importsFrom, named]
  cases symbols.includedExport? id defaultExport <;> cases symbols.includedBindings id <;>
    simp [Import.print, Function.comp_def]

theorem cjsImports_eq (symbols : Symbols) (id : ExternalId) :
    symbols.cjsImports id = (symbols.requirementsOf id).map (Requirement.print symbols) := by
  rw [cjsImports, requirementsOf]
  cases symbols.includedExport? id defaultExport with
  | none => rfl
  | some declaration =>
      by_cases same : symbols.outputText .cjs declaration = (symbols.externalAt id).name <;>
        simp [same, Option.filter_some, Requirement.print]

/-- The header of a standard module is the text of these statements. -/
theorem header_es (symbols : Symbols) :
    symbols.header .es = Text.trimRight ("\n".intercalate (symbols.imports.map (Import.print symbols))) := by
  rw [header, imports, List.map_flatMap, List.flatMap_congr fun id _ => esImports_eq symbols id]

/-- The header of a CommonJS module is the text of these statements, after the one that makes it strict. -/
theorem header_cjs (symbols : Symbols) :
    symbols.header .cjs = Text.trimRight
      ("\n".intercalate ("'use strict';\n" :: symbols.requirements.map (Requirement.print symbols))) := by
  rw [header, requirements, List.map_flatMap, List.flatMap_congr fun id _ => cjsImports_eq symbols id]

/-! ## What the statements bind -/

theorem mem_includedExports {declaration : DeclId} :
    (name, declaration) ∈ symbols.includedExports id ↔
      symbols.includedExport? id name = some declaration := by
  simp only [includedExports, List.mem_append, List.mem_map, Option.mem_toList,
    mem_includedBindings, Prod.mk.injEq]
  constructor
  · rintro (⟨_, found, rfl, rfl⟩ | ⟨_, found, rfl, rfl⟩ | ⟨-, found⟩) <;> exact found
  · intro found
    by_cases whole : name = wholeModule
    · exact .inl ⟨declaration, whole ▸ found, whole.symm, rfl⟩
    · by_cases first : name = defaultExport
      · exact .inr (.inl ⟨declaration, first ▸ found, first.symm, rfl⟩)
      · exact .inr (.inr ⟨by simp [isNamed, whole, first], found⟩)

/-- What is included of an external module is listed under different names. -/
theorem nodup_includedExports (symbols : Symbols) (id : ExternalId) :
    ((symbols.includedExports id).map (·.1)).Nodup := by
  have bindings : ((symbols.includedBindings id).map (·.1)).Nodup :=
    sorted_includedBindings.imp ne_of_compare_lt
  have apart : ∀ name ∈ (symbols.includedBindings id).map (·.1), name ≠ wholeModule ∧ name ≠ defaultExport := by
    intro name member
    obtain ⟨⟨_, declaration⟩, among, rfl⟩ := List.mem_map.mp member
    simpa [isNamed] using (mem_includedBindings.mp among).1
  have single : ∀ (name : String) (found : Option DeclId),
      ((found.toList.map (name, ·)).map (·.1)).Nodup ∧
        ∀ other ∈ (found.toList.map (name, ·)).map (·.1), other = name := by
    intro name found
    cases found <;> simp
  simp only [includedExports, List.map_append]
  refine List.nodup_append.mpr ⟨(single _ _).1, List.nodup_append.mpr ⟨(single _ _).1, bindings, ?_⟩, ?_⟩
  · rintro _ first other among rfl
    exact (apart _ among).2 ((single _ _).2 _ first)
  · rintro _ first other among rfl
    have whole := (single _ _).2 _ first
    rcases List.mem_append.mp among with second | among
    · exact absurd (whole.symm.trans ((single _ _).2 _ second)) (by decide)
    · exact (apart _ among).1 whole

theorem specifiers_importsFrom (symbols : Symbols) (id : ExternalId) :
    (symbols.importsFrom id).flatMap Import.specifiers = (symbols.includedExports id).map
      fun entry => ⟨id, entry.1, symbols.outputText .es entry.2⟩ := by
  rw [importsFrom, includedExports]
  cases symbols.includedExport? id wholeModule <;> cases symbols.includedExport? id defaultExport <;>
    cases symbols.includedBindings id <;> simp [Import.specifiers, Function.comp_def]

/-- What is imported is included of an external module that is used. -/
theorem mem_specifiers {s : Specifier} (member : s ∈ symbols.imports.flatMap Import.specifiers) :
    s.source ∈ symbols.usedExternals ∧
      ∃ declaration, symbols.includedExport? s.source s.name = some declaration := by
  rw [imports, List.flatMap_assoc] at member
  obtain ⟨source, used, member⟩ := List.mem_flatMap.mp member
  rw [specifiers_importsFrom] at member
  obtain ⟨⟨name, declaration⟩, listed, rfl⟩ := List.mem_map.mp member
  exact ⟨used, declaration, mem_includedExports.mp listed⟩

/-- An external module that is used is imported from by its own statements only. -/
theorem filter_specifiers (used : id ∈ symbols.usedExternals) (name : String) :
    ((symbols.imports.flatMap Import.specifiers).filter fun s => s.source = id ∧ s.name = name) =
      (symbols.includedExport? id name).toList.map fun declaration =>
        ⟨id, name, symbols.outputText .es declaration⟩ := by
  rw [imports, List.flatMap_assoc, List.filter_flatMap, flatMap_eq_of_mem symbols.usedExternals_nodup used]
  · rw [specifiers_importsFrom, List.filter_map]
    have same := filter_eq_of_mem_iff (symbols.nodup_includedExports id)
      fun entry : DeclId => (mem_includedExports : (name, entry) ∈ _ ↔ _)
    simpa [Function.comp_def] using congrArg
      (List.map fun entry => (⟨id, entry.1, symbols.outputText .es entry.2⟩ : Specifier)) same
  · intro other _ different
    rw [specifiers_importsFrom]
    refine List.filter_eq_nil_iff.mpr fun s member => ?_
    obtain ⟨entry, -, rfl⟩ := List.mem_map.mp member
    simp [different]

theorem filter_requirements (used : id ∈ symbols.usedExternals) :
    (symbols.requirements.filter fun r => r.source = id) = symbols.requirementsOf id := by
  have source : ∀ other, ∀ r ∈ symbols.requirementsOf other, r.source = other := by
    intro other r member
    rw [requirementsOf] at member
    rcases List.mem_cons.mp member with rfl | member
    · rfl
    · obtain ⟨_, -, rfl⟩ := List.mem_map.mp member
      rfl
  rw [requirements, List.filter_flatMap, flatMap_eq_of_mem symbols.usedExternals_nodup used]
  · exact List.filter_eq_self.mpr fun r member => by simpa using source id r member
  · exact fun other _ different => List.filter_eq_nil_iff.mpr fun r member => by
      simpa [source other r member] using different

/-- Every requirement is that of a used module itself, or of its default export under another name. -/
theorem mem_requirements {r : Requirement} (member : r ∈ symbols.requirements) :
    ∃ source ∈ symbols.usedExternals, r = .module source (symbols.externalAt source).name ∨
      ∃ declaration, symbols.includedExport? source defaultExport = some declaration ∧
        symbols.outputText .cjs declaration ≠ (symbols.externalAt source).name ∧
        r = .byDefault source (symbols.outputText .cjs declaration) (symbols.externalAt source).name := by
  obtain ⟨source, used, member⟩ := List.mem_flatMap.mp member
  refine ⟨source, used, ?_⟩
  rw [requirementsOf] at member
  rcases List.mem_cons.mp member with rfl | member
  · exact .inl rfl
  · obtain ⟨declaration, among, rfl⟩ := List.mem_map.mp member
    obtain ⟨found, different⟩ := Option.filter_eq_some_iff.mp (Option.mem_toList.mp among)
    exact .inr ⟨declaration, found, by simpa using different, rfl⟩

end Symbols

namespace Graph

variable {graph after : Graph} {options : Options}

/-- The imports of a standard module bind what it takes from outside: each included declaration is imported
    once, under the name that refers to it, and nothing else is. -/
structure ImportsBind (graph : Graph) : Prop where
  once : ∀ {id source name}, (graph.symbols.declarationAt id).kind = .provided source name →
    ((graph.symbols.imports.flatMap Import.specifiers).filter fun s => s.source = source ∧ s.name = name) =
      if graph.includesDeclaration id = true then [⟨source, name, graph.symbols.outputText .es id⟩] else []
  included : ∀ s ∈ graph.symbols.imports.flatMap Import.specifiers, ∃ id,
    graph.includesDeclaration id = true ∧
      (graph.symbols.declarationAt id).kind = .provided s.source s.name

/-- The requirements of a CommonJS module bind what it takes from outside: each used external module is
    required once, and aliased once if its default export needs another name; all else is read from it. -/
structure RequirementsBind (graph : Graph) : Prop where
  once : ∀ {source}, (graph.symbols.externalAt source).used = true → ∃ aliases,
    (graph.symbols.requirements.filter fun r => r.source = source) =
      .module source (graph.symbols.externalAt source).name :: aliases ∧
    (∀ id, graph.includesDeclaration id = true →
      (graph.symbols.declarationAt id).kind = .provided source defaultExport →
      aliases = if graph.symbols.outputText .cjs id = (graph.symbols.externalAt source).name then []
        else [.byDefault source (graph.symbols.outputText .cjs id) (graph.symbols.externalAt source).name]) ∧
    (aliases ≠ [] → ∃ id, graph.includesDeclaration id = true ∧
      (graph.symbols.declarationAt id).kind = .provided source defaultExport)
  /-- Only the alias of a module that is named later can declare the name of another one again. -/
  again : ∀ {source}, (graph.symbols.externalAt source).used = true → ∀ r ∈ graph.symbols.requirements,
    r.binding = (graph.symbols.externalAt source).name →
      r = .module source (graph.symbols.externalAt source).name ∨
        ∃ later object, source.index < later.index ∧ r = .byDefault later r.binding object
  read : ∀ {id source name}, graph.includesDeclaration id = true →
    (graph.symbols.declarationAt id).kind = .provided source name →
      (graph.symbols.externalAt source).used = true ∧
      (name = wholeModule →
        graph.symbols.outputText .cjs id = (graph.symbols.externalAt source).name) ∧
      (Symbols.isNamed name = true →
        graph.symbols.outputText .cjs id = (graph.symbols.externalAt source).name ++ "." ++ name)

/-- The table of an external module leads to a declaration of it if that is included. -/
theorem includedExport?_eq (listed : graph.symbols.Listed) {id : DeclId} {source : ExternalId} {name : String}
    (kind : (graph.symbols.declarationAt id).kind = .provided source name) :
    graph.symbols.includedExport? source name =
      if graph.includesDeclaration id = true then some id else none := by
  rw [Symbols.includedExport?, listed.provided kind, Option.filter_some]
  rfl

/-- What is found in the table of an external module is a declaration of it that is included. -/
theorem Sound.includedExport? (sound : graph.Sound) {id : DeclId} {source : ExternalId} {name : String}
    (found : graph.symbols.includedExport? source name = some id) :
    graph.includesDeclaration id = true ∧
      (graph.symbols.declarationAt id).kind = .provided source name := by
  obtain ⟨listed, included⟩ := Option.filter_eq_some_iff.mp found
  exact ⟨included, (sound.externals (Symbols.lt_of_provided listed) listed).2⟩

theorem Reachable.importsBind (reachable : graph.Reachable) : graph.ImportsBind where
  once {id source name} kind := by
    obtain ⟨-, listed, accounted⟩ := reachable.listed
    have found := includedExport?_eq listed kind
    by_cases used : source ∈ graph.symbols.usedExternals
    · rw [Symbols.filter_specifiers used, found]
      split <;> rfl
    · rw [if_neg fun included => used (Symbols.mem_usedExternals_of_used (accounted included kind))]
      refine List.filter_eq_nil_iff.mpr fun s member same => ?_
      simp only [decide_eq_true_eq] at same
      exact used (same.1 ▸ (Symbols.mem_specifiers member).1)
  included s member := by
    obtain ⟨-, id, found⟩ := Symbols.mem_specifiers member
    exact ⟨id, reachable.intact.sound.includedExport? found⟩

/-- Used external modules have different names when names have just been given. -/
theorem Reachable.external_injective (reachable : graph.Reachable) (options : Options) {id other : ExternalId}
    (used : ((Graph.assignNames options graph).symbols.externalAt id).used = true)
    (used' : ((Graph.assignNames options graph).symbols.externalAt other).used = true)
    (same : ((Graph.assignNames options graph).symbols.externalAt id).name =
      ((Graph.assignNames options graph).symbols.externalAt other).name) : id = other := by
  obtain ⟨symbols, taken, renamed, named⟩ := reachable.named options
  rw [renamed] at used used' same
  cases named.injective (.external used) (.external used') same
  rfl

/-- A default export can be called like an external module only if its own module is named later. -/
theorem Reachable.lt_of_alias (reachable : graph.Reachable) {options : Options} (cjs : options.format = .cjs)
    {id : DeclId} {source other : ExternalId}
    (kind : ((Graph.assignNames options graph).symbols.declarationAt id).kind = .provided other defaultExport)
    (different : (Graph.assignNames options graph).symbols.outputText .cjs id ≠
      ((Graph.assignNames options graph).symbols.externalAt other).name)
    (used : ((Graph.assignNames options graph).symbols.externalAt source).used = true)
    (used' : ((Graph.assignNames options graph).symbols.externalAt other).used = true)
    (same : (Graph.assignNames options graph).symbols.outputText .cjs id =
      ((Graph.assignNames options graph).symbols.externalAt source).name) :
    source.index < other.index := by
  have text : (Graph.assignNames options graph).symbols.outputText .cjs id = _ :=
    Symbols.outputText_default kind
  cases aliased : (Graph.assignNames options graph).symbols.aliasesDefault other .cjs with
  | false =>
      rw [aliased, if_neg Bool.false_ne_true] at text
      exact absurd text different
  | true =>
      rw [aliased, if_pos rfl] at text
      have before := before_of_alias reachable options used' (cjs ▸ aliased) (.external used)
        (same.symm.trans text)
      rcases before with free | before
      · exact free.elim
      · cases before with
        | external less => exact less

theorem Reachable.requirementsBind (reachable : graph.Reachable) {options : Options}
    (cjs : options.format = .cjs) : (Graph.assignNames options graph).RequirementsBind := by
  obtain ⟨⟨sound, -⟩, listed, accounted⟩ := (reachable.assignNames options).listed
  refine ⟨fun {source} used => ?_, fun {source} used r member same => ?_,
    fun {id source name} included kind => ⟨accounted included kind, ?_, Symbols.outputText_property kind⟩⟩
  · rw [Symbols.filter_requirements (Symbols.mem_usedExternals_of_used used), Symbols.requirementsOf]
    refine ⟨_, rfl, fun id included kind => ?_, fun some => ?_⟩
    · rw [includedExport?_eq listed kind, if_pos included, Option.filter_some]
      by_cases same : (Graph.assignNames options graph).symbols.outputText .cjs id =
          ((Graph.assignNames options graph).symbols.externalAt source).name <;> simp [same]
    · cases found : (Graph.assignNames options graph).symbols.includedExport? source defaultExport with
      | none => exact absurd (by rw [found]; rfl) some
      | some id => exact ⟨id, sound.includedExport? found⟩
  · obtain ⟨other, among, rfl | ⟨id, found, different, rfl⟩⟩ := Symbols.mem_requirements member
    · left
      rw [reachable.external_injective options used (Symbols.mem_usedExternals.mp among).2 same.symm]
    · obtain ⟨-, kind⟩ := sound.includedExport? found
      exact .inr ⟨other, _, reachable.lt_of_alias cjs kind different used
        (Symbols.mem_usedExternals.mp among).2 same, rfl⟩
  · rintro rfl
    rw [outputText_provided kind, Symbols.providedText, if_pos rfl]

/-- A bundle starts with its header. -/
theorem bundleText_header (graph : Graph) (format : Format) (modules : List EmittedModule) :
    ∃ rest, graph.bundleText format modules = graph.symbols.header format ++ rest := by
  rw [bundleText]
  generalize graph.symbols.header format = header
  rw [List.cons_append, List.filter_cons]
  split
  · generalize List.filter _ _ = kept
    cases kept with
    | nil => exact ⟨"\n", by simp⟩
    | cons first rest => exact ⟨_, by rw [String.intercalate_cons_cons, String.append_assoc, String.append_assoc]⟩
  next empty =>
      obtain rfl : header = "" := by simpa using empty
      exact ⟨_, (String.empty_append).symm⟩

/-- The header of a bundle binds what the bundle takes from outside.  A standard module imports every included
    declaration once, under the name that refers to it, and nothing else.  A CommonJS module requires every
    external module that it uses once by its name, and has one alias for its default export if that has
    another name; what else it takes from it is the module or a property of it.  The name of a module is
    declared again only if it is the alias of one that is named later. -/
theorem header_bundle (reachable : graph.Reachable) {bundle : Bundle}
    (succeeded : (Graph.bundle options).outcome graph = (.ok bundle, after)) :
    (options.format = .es → after.ImportsBind ∧ ∃ rest, bundle.code =
      Text.trimRight ("\n".intercalate (after.symbols.imports.map (Import.print after.symbols))) ++ rest) ∧
    (options.format = .cjs → after.RequirementsBind ∧ ∃ rest, bundle.code =
      Text.trimRight ("\n".intercalate ("'use strict';\n" ::
        after.symbols.requirements.map (Requirement.print after.symbols))) ++ rest) := by
  obtain ⟨reached, ⟨shaken, before, same⟩, emitted⟩ := reachable.bundled succeeded
  obtain ⟨modules, code⟩ := emit_code emitted
  obtain ⟨rest, starts⟩ := after.bundleText_header options.format modules
  rw [← code] at starts
  refine ⟨fun es => ⟨reached.importsBind, rest, ?_⟩, fun cjs => ⟨?_, rest, ?_⟩⟩
  · rw [starts, es, Symbols.header_es]
  · exact same ▸ before.requirementsBind cjs
  · rw [starts, cjs, Symbols.header_cjs]

end Graph

/-! ## A name that is declared twice -/

/-- A module imports an external module as a whole that is called like the alias of another one, from which it
    imports by default and by name. -/
def Draft.redeclared : Draft :=
  let draft := (Draft.addModule {} "main").2
  let draft := (draft.addExternal "a__default").2
  let draft := (draft.addExternal "a").2
  let draft := ((importFrom ⟨0⟩ (.external ⟨0⟩) "*" "a__default").outcome draft).2
  let draft := ((importFrom ⟨0⟩ (.external ⟨1⟩) "default" "a").outcome draft).2
  let draft := ((importFrom ⟨0⟩ (.external ⟨1⟩) "b" "b").outcome draft).2
  (draft.addExpression ⟨0⟩
    (.call () (.ident () "use") [.ident () "a__default", .ident () "a", .ident () "b"])).2

/-- The program with its only module as its entry. -/
def Graph.redeclared : Graph := { Draft.redeclared.graph with entry := ⟨0⟩ }

theorem Draft.built_redeclared : Draft.redeclared.Built := by
  refine .addExpression (.importFrom (.importFrom (.importFrom (.addExternal (.addExternal
    (.addModule .empty "main") "a__default") "a") ?_ ?_ _ _) ?_ ?_ _ _) ?_ ?_ _ _) ?_ _
  all_goals decide

theorem Graph.made_redeclared : Graph.redeclared.Made :=
  .finish Draft.built_redeclared (by decide) rfl

namespace Graph

/-- The program as a CommonJS module, the names of the modules and of the default export in it, and what
    declares the first of these names. -/
theorem outcome_redeclared : ∃ bundle after,
    (Graph.bundle { format := .cjs }).outcome redeclared = (.ok bundle, after) ∧
    bundle.code = "'use strict';\n\nvar a__default = require(\"a__default\");\nvar a = require(\"a\");\n" ++
      "var a__default = 'default' in a ? a['default'] : a;\n\nuse(a__default, a__default, a.b);\n" ∧
    after.symbols.usedExternals = [⟨0⟩, ⟨1⟩] ∧
    ((after.symbols.externalAt ⟨0⟩).name = "a__default" ∧ (after.symbols.externalAt ⟨1⟩).name = "a") ∧
    (after.includesDeclaration ⟨5⟩ = true ∧
      (after.symbols.declarationAt ⟨5⟩).kind = .provided ⟨1⟩ defaultExport) ∧
    after.symbols.outputText .cjs ⟨5⟩ = "a__default" ∧
    (after.symbols.requirements.filter fun r => r.binding = "a__default") =
      [.module ⟨0⟩ "a__default", .byDefault ⟨1⟩ "a__default" "a"] := by
  have facts : ((Graph.bundle { format := .cjs }).outcome redeclared).1.toOption.map (·.code) =
        some ("'use strict';\n\nvar a__default = require(\"a__default\");\nvar a = require(\"a\");\n" ++
          "var a__default = 'default' in a ? a['default'] : a;\n\nuse(a__default, a__default, a.b);\n") ∧
      ((Graph.bundle { format := .cjs }).outcome redeclared).2.symbols.usedExternals = [⟨0⟩, ⟨1⟩] ∧
      ((((Graph.bundle { format := .cjs }).outcome redeclared).2.symbols.externalAt ⟨0⟩).name =
          "a__default" ∧
        (((Graph.bundle { format := .cjs }).outcome redeclared).2.symbols.externalAt ⟨1⟩).name = "a") ∧
      (((Graph.bundle { format := .cjs }).outcome redeclared).2.includesDeclaration ⟨5⟩ = true ∧
        (((Graph.bundle { format := .cjs }).outcome redeclared).2.symbols.declarationAt ⟨5⟩).kind =
          .provided ⟨1⟩ defaultExport) ∧
      ((Graph.bundle { format := .cjs }).outcome redeclared).2.symbols.outputText .cjs ⟨5⟩ =
        "a__default" ∧
      (((Graph.bundle { format := .cjs }).outcome redeclared).2.symbols.requirements.filter
        fun r => r.binding = "a__default") =
          [.module ⟨0⟩ "a__default", .byDefault ⟨1⟩ "a__default" "a"] := by
    decide +kernel
  obtain ⟨written, facts⟩ := facts
  obtain ⟨bundle, result, code⟩ := bundle_of_code written
  exact ⟨bundle, _, result, code, facts⟩

/-- The module with the default export is required once, and has one alias for it. -/
theorem header_redeclared : ∃ bundle after,
    (Graph.bundle { format := .cjs }).outcome redeclared = (.ok bundle, after) ∧
    (after.symbols.requirements.filter fun r => r.source = ⟨1⟩) =
      [.module ⟨1⟩ "a", .byDefault ⟨1⟩ "a__default" "a"] := by
  obtain ⟨bundle, after, result, -, used, ⟨-, name⟩, ⟨included, kind⟩, text, -⟩ := outcome_redeclared
  obtain ⟨-, cjs⟩ := header_bundle (.made made_redeclared) result
  obtain ⟨binds, -⟩ := cjs rfl
  have among : ⟨1⟩ ∈ after.symbols.usedExternals := by
    rw [used]
    exact List.mem_cons_of_mem _ List.mem_cons_self
  obtain ⟨aliases, lines, alias_, -⟩ := binds.once (Symbols.mem_usedExternals.mp among).2
  refine ⟨bundle, after, result, ?_⟩
  rw [lines, alias_ ⟨5⟩ included kind, text, name, if_neg (by decide)]

/-- The name of the other module is not declared once: the alias declares it again. -/
theorem bundle_redeclared : redeclared.Made ∧ ∃ bundle after,
    (Graph.bundle { format := .cjs }).outcome redeclared = (.ok bundle, after) ∧
    (after.symbols.externalAt ⟨0⟩).used = true ∧ (after.symbols.externalAt ⟨0⟩).name = "a__default" ∧
    (after.symbols.requirements.filter fun r => r.binding = "a__default") =
      [.module ⟨0⟩ "a__default", .byDefault ⟨1⟩ "a__default" "a"] ∧
    bundle.code = "'use strict';\n\nvar a__default = require(\"a__default\");\nvar a = require(\"a\");\n" ++
      "var a__default = 'default' in a ? a['default'] : a;\n\nuse(a__default, a__default, a.b);\n" := by
  refine ⟨made_redeclared, ?_⟩
  obtain ⟨bundle, after, result, code, used, ⟨name, -⟩, -, -, lines⟩ := outcome_redeclared
  have among : ⟨0⟩ ∈ after.symbols.usedExternals := by
    rw [used]
    exact List.mem_cons_self
  exact ⟨bundle, after, result, (Symbols.mem_usedExternals.mp among).2, name, lines, code⟩

end Graph

end Bundler
