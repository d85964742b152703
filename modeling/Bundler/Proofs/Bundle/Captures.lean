import Bundler.Proofs.Bundle.Derivation
import Bundler.Proofs.Bundle.Homes

/-! # Names that the output itself refers to

The text of a bundle refers to `Object` where it freezes the namespace object of a module, to `exports` and
`require` in a CommonJS module, and to `undefined` where a member of a namespace is missing.  The first ones
are reserved before anything is named.  Nothing reserves `undefined`, so the bundle may introduce it itself
if the program calls something by that name.
-/

namespace Bundler

namespace Symbols

variable {name : String}

/-- The name has no character that would come from making it of another one. -/
structure Unmarked (name : String) : Prop where
  unnumbered : '$' ∉ name.toList
  undotted : '.' ∉ name.toList
  unscored : '_' ∉ name.toList

instance (name : String) : Decidable (Unmarked name) :=
  decidable_of_iff ('$' ∉ name.toList ∧ '.' ∉ name.toList ∧ '_' ∉ name.toList)
    ⟨fun ⟨unnumbered, undotted, unscored⟩ => ⟨unnumbered, undotted, unscored⟩,
      fun unmarked => ⟨unmarked.1, unmarked.2, unmarked.3⟩⟩

theorem Unmarked.ne_property (unmarked : Unmarked name) (object key : String) : object ++ "." ++ key ≠ name := by
  rintro rfl
  exact unmarked.undotted (by simp [String.toList_append])

theorem Unmarked.ne_defaultAlias (unmarked : Unmarked name) (base : String) : defaultAlias base ≠ name := by
  rintro rfl
  exact unmarked.unscored (by simp [defaultAlias, String.toList_append])

theorem Unmarked.eq_base (unmarked : Unmarked name) {base : String} (variant : Variant base name) :
    name = base :=
  variant.eq_base unmarked.unnumbered

end Symbols

namespace Graph

open Symbols (Unmarked isDefined isNamed)

variable {graph after : Graph} {options : Options} {format : Format} {a : Nameable} {name : String}

/-- What a bundle introduces: the external modules that it uses, what it takes from them, and what its
    modules contribute. -/
inductive Introduces (graph : Graph) : Nameable → Prop where
  | external {id} : (graph.symbols.externalAt id).used = true → Introduces graph (.external id)
  | provided {id source name} : graph.includesDeclaration id = true →
    (graph.symbols.declarationAt id).kind = .provided source name → Introduces graph (.declaration id)
  | contributed {id owner} : owner ∈ graph.order → graph.includesDeclaration id = true →
    (graph.symbols.declarationAt id).owner = some (.internal owner) →
    isDefined (graph.symbols.declarationAt id) = true → Introduces graph (.declaration id)

/-- The program itself calls it by the name: it is declared or provided under it, or the name is that of the
    external module that it stands for, or one that is proposed for it. -/
def Calls (graph : Graph) : Nameable → String → Prop
  | .external id, name => (graph.symbols.externalAt id).Suggests name
  | .declaration id, name =>
    match (graph.symbols.declarationAt id).kind with
    | .provided source exported =>
      if isNamed exported then exported = name else (graph.symbols.externalAt source).Suggests name
    | _ => (graph.symbols.declarationAt id).name = name

theorem calls_provided {id : DeclId} {source : ExternalId} {exported : String}
    (kind : (graph.symbols.declarationAt id).kind = .provided source exported) :
    graph.Calls (.declaration id) name ↔
      if isNamed exported then exported = name else (graph.symbols.externalAt source).Suggests name := by
  rw [Calls, kind]

theorem calls_defined {id : DeclId} (defined : isDefined (graph.symbols.declarationAt id) = true) :
    graph.Calls (.declaration id) name ↔ (graph.symbols.declarationAt id).name = name := by
  rw [Calls]
  split
  next kind => rw [isDefined, kind] at defined; cases defined
  next => rfl

/-! ## Unmarked names -/

/-- What has an unmarked name of its own is called by it in the program. -/
theorem Occupies.calls (derived : graph.symbols.Derived) (occupied : graph.Occupies format a)
    (bound : ¬ graph.IsFree a) (text : graph.nameText format a = name) (unmarked : Unmarked name) :
    graph.Calls a name := by
  have contributed : ∀ {id : DeclId}, isDefined (graph.symbols.declarationAt id) = true →
      graph.nameText format (.declaration id) = name → graph.Calls (.declaration id) name :=
    fun defined text => (calls_defined defined).mpr
      (unmarked.eq_base (text ▸ derived.outputText_defined defined)).symm
  cases occupied with
  | free _ kind => exact absurd kind bound
  | @external id used =>
      have inside := (Symbols.mem_usedExternals.mp (Symbols.mem_usedExternals_of_used used)).1
      obtain ⟨base, suggested, variant⟩ := derived.external inside
      rw [nameText] at text
      rw [text] at variant
      exact unmarked.eq_base variant ▸ suggested
  | @binding id source exported es included kind part named =>
      have named : isNamed exported = true := by simp [isNamed, part, named]
      rw [calls_provided kind, if_pos named]
      refine (unmarked.eq_base ?_).symm
      rw [← text, es]
      exact derived.outputText_binding kind named
  | declared _ _ _ kind => exact contributed (by rw [isDefined, kind]) text
  | namespaceOf _ _ _ kind => exact contributed (by rw [isDefined, kind]) text

/-- What an executed module contributes has a name of its own. -/
theorem Occupies.contributed {id : DeclId} {owner : ModuleId} (executed : owner ∈ graph.order)
    (included : graph.includesDeclaration id = true)
    (owned : (graph.symbols.declarationAt id).owner = some (.internal owner))
    (defined : isDefined (graph.symbols.declarationAt id) = true) :
    graph.Occupies format (.declaration id) ∧ ¬ graph.IsFree (.declaration id) := by
  cases kind : (graph.symbols.declarationAt id).kind with
  | declared => exact ⟨.declared executed included owned kind, fun free => by cases kind.symm.trans free⟩
  | namespaceOf =>
      exact ⟨.namespaceOf executed included owned kind, fun free => by cases kind.symm.trans free⟩
  | imported | provided | free =>
      rw [isDefined, kind] at defined
      cases defined

/-- What is introduced under an unmarked name has it for its own, or shares it with the external module that
    it comes from. -/
theorem Introduces.occupies (accounted : graph.Accounted) (introduced : graph.Introduces a)
    (text : graph.nameText format a = name) (unmarked : Unmarked name) :
    ∃ b, graph.Occupies format b ∧ ¬ graph.IsFree b ∧ graph.nameText format b = name ∧
      (graph.Calls b name → graph.Calls a name) := by
  cases introduced with
  | external used => exact ⟨_, .external used, not_false, text, fun calls => calls⟩
  | contributed executed included owned defined =>
      obtain ⟨occupied, bound⟩ := Occupies.contributed executed included owned defined
      exact ⟨_, occupied, bound, text, fun calls => calls⟩
  | @provided id source exported included kind =>
      cases named : isNamed exported with
      | false =>
          have same : graph.nameText format (.external source) = name := by
            have either : graph.symbols.outputText format id = (graph.symbols.externalAt source).name ∨ _ :=
              Symbols.outputText_module kind named
            rcases either with same | same
            · exact same.symm.trans text
            · exact absurd (same.symm.trans text) (unmarked.ne_defaultAlias _)
          refine ⟨_, .external (accounted included kind), not_false, same, fun calls => ?_⟩
          rw [calls_provided kind, named]
          exact calls
      | true =>
          cases format with
          | cjs =>
              have same := (Symbols.outputText_property kind named).symm.trans text
              exact absurd same (unmarked.ne_property _ _)
          | es =>
              simp only [isNamed, Bool.and_eq_true, bne_iff_ne, ne_eq] at named
              have bound : ¬ graph.IsFree (.declaration id) := fun free => by cases kind.symm.trans free
              exact ⟨_, .binding rfl included kind named.1 named.2, bound, text, fun calls => calls⟩

section Named

variable {symbols : Symbols} {taken : List String} (named : graph.NamesGiven options symbols taken)
  (accounted : (graph.withSymbols symbols).Accounted)
  (introduced : (graph.withSymbols symbols).Introduces a) (unmarked : Unmarked name)

include named accounted introduced unmarked

/-- What is introduced is not called by a name that the output itself refers to. -/
theorem Introduces.ne_own (own : name ∈ options.ownNames) :
    (graph.withSymbols symbols).nameText options.format a ≠ name := by
  intro text
  obtain ⟨b, occupied, bound, text, -⟩ := introduced.occupies accounted text unmarked
  exact named.ne_own occupied bound own text

/-- What is introduced under an unmarked name is called by it in the program, and no global is. -/
theorem Introduces.calls (derived : symbols.Derived)
    (text : (graph.withSymbols symbols).nameText options.format a = name) :
    (graph.withSymbols symbols).Calls a name ∧
      ∀ id, (graph.withSymbols symbols).includesDeclaration id = true →
        ((graph.withSymbols symbols).symbols.declarationAt id).kind = .free →
          ((graph.withSymbols symbols).symbols.declarationAt id).name ≠ name := by
  obtain ⟨b, occupied, bound, text, calls⟩ := introduced.occupies accounted text unmarked
  refine ⟨calls (occupied.calls derived bound text unmarked), fun id included kind global => ?_⟩
  have free : (graph.withSymbols symbols).nameText options.format (.declaration id) = name :=
    (outputText_free kind).trans global
  exact named.ne_global occupied bound (.free included kind) kind (text.trans free.symm)

end Named

/-! ## Bundles -/

/-- What a bundle of a finished program includes is introduced by it, unless it is a global or stands for
    something else. -/
theorem Made.introduces (made : graph.Made) {bundle : Bundle}
    (succeeded : (Graph.bundle options).outcome graph = (.ok bundle, after)) {id : DeclId}
    (included : after.includesDeclaration id = true)
    (bound : isDefined (after.symbols.declarationAt id) = true ∨
      (after.symbols.declarationAt id).kind.isProvided = true) : after.Introduces (.declaration id) := by
  rcases bound with defined | provided
  · obtain ⟨home, executed, owned⟩ := made.home_of_included succeeded included defined
    exact .contributed executed included owned defined
  · cases kind : (after.symbols.declarationAt id).kind with
    | provided => exact .provided included kind
    | declared | imported | namespaceOf | free =>
        rw [kind] at provided
        cases provided

/-- What a bundle introduces is not called by a name that the output refers to when it freezes namespace
    objects or is a CommonJS module.  It is called `undefined` only if the program calls it so, and no part of
    the bundle refers to a global of that name.  In a bundle of a finished program all that is included is
    introduced, unless it is a global or stands for something else. -/
theorem introduced_bundle (reachable : graph.Reachable) {bundle : Bundle}
    (succeeded : (Graph.bundle options).outcome graph = (.ok bundle, after)) :
    (∀ a, after.Introduces a →
      (options.freezeNamespaces = true → after.nameText options.format a ≠ "Object") ∧
      (options.format = .cjs → after.nameText options.format a ∉ ["exports", "module", "require"]) ∧
      (after.nameText options.format a = "undefined" → after.Calls a "undefined" ∧
        ∀ id, after.includesDeclaration id = true → (after.symbols.declarationAt id).kind = .free →
          (after.symbols.declarationAt id).name ≠ "undefined")) ∧
    (graph.Made → ∀ id, after.includesDeclaration id = true →
      isDefined (after.symbols.declarationAt id) = true ∨
        (after.symbols.declarationAt id).kind.isProvided = true → after.Introduces (.declaration id)) := by
  obtain ⟨reached, ⟨shaken, before, same⟩, -⟩ := reachable.bundled succeeded
  obtain ⟨-, -, accounted⟩ := reached.listed
  have derived := reached.derived
  obtain ⟨symbols, taken, renamed, named⟩ := before.named options
  obtain rfl : after = shaken.withSymbols symbols := same.trans renamed
  refine ⟨fun a introduced => ⟨fun freezes => ?_, fun cjs member => ?_, fun text => ?_⟩,
    fun made id => made.introduces succeeded⟩
  · exact introduced.ne_own named accounted (by decide) (ownNames_of_freezes freezes)
  · have unmarked : ∀ name ∈ ["exports", "module", "require"], Unmarked name := by decide
    exact introduced.ne_own named accounted (unmarked _ member) (ownNames_of_cjs cjs member) rfl
  · exact introduced.calls named accounted (by decide) derived text

end Graph

/-! ## A module whose name is captured -/

/-- A module asks one module for something that it lacks, and takes another one as a whole that is called
    like what stands for it then. -/
def Draft.eclipsed : Draft :=
  let draft := (Draft.addModule {} "b").2
  let draft := (draft.addModule "undefined").2
  let draft := (draft.addModule "main").2
  let draft := ((importFrom ⟨2⟩ (.internal ⟨0⟩) "*" "ns").outcome draft).2
  let draft := ((importFrom ⟨2⟩ (.internal ⟨1⟩) "*" "u").outcome draft).2
  let draft := ((declare ⟨2⟩ .constant "Object" (some (.literal () .null)) false).outcome draft).2
  (draft.addExpression ⟨2⟩
    (.call () (.ident () "use") [.ident () "u", .member () (.ident () "ns") "y", .ident () "Object"])).2

/-- The program with the module that asks for them as its entry. -/
def Graph.eclipsed : Graph := { Draft.eclipsed.graph with entry := ⟨2⟩ }

theorem Draft.built_eclipsed : Draft.eclipsed.Built := by
  refine .addExpression (.declare (.importFrom (.importFrom
    (.addModule (.addModule (.addModule .empty "b") "undefined") "main") ?_ ?_ _ _) ?_ ?_ _ _)
    ?_ _ _ _ _) ?_ _
  all_goals decide

theorem Graph.made_eclipsed : Graph.eclipsed.Made :=
  .finish Draft.built_eclipsed (by decide) rfl

namespace Graph

/-- The bundle of the program, and what is known about the things that it names. -/
theorem outcome_eclipsed : ∃ bundle after, (Graph.bundle {}).outcome eclipsed = (.ok bundle, after) ∧
    bundle.code = "const undefined = Object.freeze(\x7b\x7d);\n\nconst Object$1 = null;\n" ++
      "use(undefined, undefined, Object$1);\n" ∧
    (after.includesDeclaration ⟨5⟩ = true ∧
      Symbols.isDefined (after.symbols.declarationAt ⟨5⟩) = true) ∧
    (after.includesNode ⟨8⟩ = true ∧ after.resolutionAt ⟨8⟩ = some .undefined) ∧
    after.includesDeclaration ⟨1⟩ = true ∧
      (after.symbols.declarationAt ⟨1⟩).kind = .namespaceOf ⟨1⟩ ∧
      after.symbols.outputText .es ⟨1⟩ = "undefined" := by
  have facts : ((Graph.bundle {}).outcome eclipsed).1.toOption.map (·.code) =
        some ("const undefined = Object.freeze(\x7b\x7d);\n\nconst Object$1 = null;\n" ++
          "use(undefined, undefined, Object$1);\n") ∧
      (((Graph.bundle {}).outcome eclipsed).2.includesDeclaration ⟨5⟩ = true ∧
        Symbols.isDefined (((Graph.bundle {}).outcome eclipsed).2.symbols.declarationAt ⟨5⟩) = true) ∧
      (((Graph.bundle {}).outcome eclipsed).2.includesNode ⟨8⟩ = true ∧
        ((Graph.bundle {}).outcome eclipsed).2.resolutionAt ⟨8⟩ = some .undefined) ∧
      ((Graph.bundle {}).outcome eclipsed).2.includesDeclaration ⟨1⟩ = true ∧
      (((Graph.bundle {}).outcome eclipsed).2.symbols.declarationAt ⟨1⟩).kind = .namespaceOf ⟨1⟩ ∧
      ((Graph.bundle {}).outcome eclipsed).2.symbols.outputText .es ⟨1⟩ = "undefined" := by
    decide +kernel
  obtain ⟨written, facts⟩ := facts
  obtain ⟨bundle, result, code⟩ := bundle_of_code written
  exact ⟨bundle, _, result, code, facts⟩

/-- What the module declares gives way to the global that freezes namespace objects. -/
theorem introduced_eclipsed : ∃ bundle after, (Graph.bundle {}).outcome eclipsed = (.ok bundle, after) ∧
    after.Introduces (.declaration ⟨5⟩) ∧ after.nameText .es (.declaration ⟨5⟩) ≠ "Object" := by
  obtain ⟨bundle, after, result, -, ⟨included, defined⟩, -⟩ := outcome_eclipsed
  obtain ⟨uncaptured, introduces⟩ := introduced_bundle (.made made_eclipsed) result
  have introduced := introduces made_eclipsed _ included (.inl defined)
  obtain ⟨freezing, -⟩ := uncaptured _ introduced
  exact ⟨bundle, after, result, introduced, freezing rfl⟩

/-- The namespace object of the other module does not give way to the global that stands for what is
    missing: it is called `undefined`, so what is missing evaluates to that object. -/
theorem bundle_eclipsed : eclipsed.Made ∧
    ∃ bundle after, (Graph.bundle {}).outcome eclipsed = (.ok bundle, after) ∧
      after.includesNode ⟨8⟩ = true ∧ after.replacement? .es ⟨8⟩ = some "undefined" ∧
      after.includesDeclaration ⟨1⟩ = true ∧
      (after.symbols.declarationAt ⟨1⟩).kind = .namespaceOf ⟨1⟩ ∧
      after.symbols.outputText .es ⟨1⟩ = "undefined" ∧
      bundle.code = "const undefined = Object.freeze(\x7b\x7d);\n\nconst Object$1 = null;\n" ++
        "use(undefined, undefined, Object$1);\n" := by
  obtain ⟨bundle, after, result, code, -, ⟨node, missing⟩, included, kind, name⟩ := outcome_eclipsed
  refine ⟨made_eclipsed, bundle, after, result, node, ?_, included, kind, name, code⟩
  rw [replacement?, missing]

end Graph

end Bundler
