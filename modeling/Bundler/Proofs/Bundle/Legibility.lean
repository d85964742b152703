import Bundler.Proofs.Bundle.Derivation

/-! # Legal names in a bundle

A program is legible if all names that it binds or proposes can name a binding, and all names that it asks
modules for are plain.  The names of declarations in a bundle of it can name bindings then.  There is one
exception: what is imported by name keeps the name that it has outside, and this may be a reserved word, or
no plain name if the program itself exports something under it.
-/

namespace Bundler

open Identifier (Legal isPlain isReserved)

/-! ## Legible programs -/

/-- The name can be asked for in a program: it is plain, or asks for the module as a whole. -/
def Importable (name : String) : Prop := name = wholeModule ∨ isPlain name = true

instance (name : String) : Decidable (Importable name) :=
  inferInstanceAs (Decidable (name = wholeModule ∨ isPlain name = true))

/-- The name that the expression consists of is legal, and the key that it reads is plain. -/
def Expr.Legible {α : Type} : Expr α → Prop
  | .ident _ name => Legal name
  | .member _ _ key => isPlain key = true
  | _ => True

instance {α : Type} : (e : Expr α) → Decidable e.Legible
  | .ident _ name => inferInstanceAs (Decidable (Legal name))
  | .member _ _ key => inferInstanceAs (Decidable (isPlain key = true))
  | .literal _ _ | .index _ _ _ | .call _ _ _ | .assign _ _ _ => isTrue trivial

/-- The name that the statement binds is legal, and the one that it asks another module for can be asked
    for. -/
def Statement.Legible {α : Type} : Statement α → Prop
  | .declare _ _ _ _ name _ => Legal name
  | .importFrom _ _ _ imported binding => Importable imported ∧ Legal binding
  | .exportFrom _ _ _ (.single imported _) => Importable imported
  | _ => True

instance {α : Type} : (statement : Statement α) → Decidable statement.Legible
  | .declare _ _ _ _ name _ => inferInstanceAs (Decidable (Legal name))
  | .importFrom _ _ _ imported binding =>
    inferInstanceAs (Decidable (Importable imported ∧ Legal binding))
  | .exportFrom _ _ _ (.single imported _) => inferInstanceAs (Decidable (Importable imported))
  | .exportFrom _ _ _ (.whole _) | .exportFrom _ _ _ .all | .expression _ _ | .exportList _ _ _ =>
    isTrue trivial

/-- What a node consists of is legible. -/
def Fragment.Legible : Fragment → Prop
  | .statement body => body.Legible
  | .expr body => body.Legible

instance : (fragment : Fragment) → Decidable fragment.Legible
  | .statement body => inferInstanceAs (Decidable body.Legible)
  | .expr body => inferInstanceAs (Decidable body.Legible)

namespace Graph

variable {graph after : Graph} {options : Options}

/-- Every node of the program is legible. -/
def Legible (graph : Graph) : Prop := ∀ node ∈ graph.nodes.toList, node.fragment.Legible

instance (graph : Graph) : Decidable graph.Legible :=
  inferInstanceAs (Decidable (∀ node ∈ graph.nodes.toList, node.fragment.Legible))

/-- Some statement of the program exports something under the name. -/
def ExportsAs (graph : Graph) (name : String) : Prop :=
  ∃ node ∈ graph.nodes.toList, ∃ statement,
    node.fragment = .statement statement ∧ statement.exportedName? = some name

end Graph

/-! ## Symbols of legible programs -/

/-- The name is importable, or one that something is exported under. -/
def Askable (exported : String → Prop) (name : String) : Prop := Importable name ∨ exported name

namespace Symbols

variable {symbols : Symbols} {exported : String → Prop}

/-- The symbols of a legible program that exports things under some names: what can be asked for from
    outside is importable, or one of these names. -/
structure Legible (exported : String → Prop) (symbols : Symbols) : Prop where
  defined : ∀ {id : DeclId}, id.index < symbols.declarations.size →
    isDefined (symbols.declarationAt id) = true → Legal (symbols.declarationAt id).name
  provided : ∀ {id source name}, (symbols.declarationAt id).kind = .provided source name →
    Askable exported name
  imported : ∀ {id source name target}, (symbols.declarationAt id).kind = .imported source name target →
    Askable exported name
  exports : ∀ {id : ModuleId} {name : String} {entry : Export},
    (symbols.moduleAt id).exports[name]? = some entry →
      exported name ∧ ∀ source imported, entry.again? = some (source, imported) → Askable exported imported
  hints : ∀ {id : ExternalId} {hint}, hint ∈ (symbols.externalAt id).hints → Legal hint

namespace Legible

theorem addDeclaration (legible : symbols.Legible exported) {name : String} {owner : Option Provider}
    {kind : DeclarationKind} (defined : isDefined { name, owner, kind } = true → Legal name)
    (provided : ∀ source name, kind = .provided source name → Askable exported name)
    (imported : ∀ source name target, kind = .imported source name target → Askable exported name) :
    (symbols.addDeclaration name owner kind).2.Legible exported where
  defined {id} inside is := by
    rw [declarationAt_addDeclaration] at is ⊢
    split at is
    next here =>
        rw [if_pos here]
        exact defined is
    next other =>
        rw [if_neg other]
        refine legible.defined ?_ is
        obtain ⟨i⟩ := id
        simp only [Symbols.addDeclaration, Array.size_push, DeclId.mk.injEq] at inside other
        dsimp only
        omega
  provided {id source name} is := by
    rw [declarationAt_addDeclaration] at is
    split at is
    · exact provided source name is
    · exact legible.provided is
  imported {id source name target} is := by
    rw [declarationAt_addDeclaration] at is
    split at is
    · exact imported source name target is
    · exact legible.imported is
  exports := legible.exports
  hints := legible.hints

theorem modifyExternal (legible : symbols.Legible exported) {id : ExternalId}
    {change : External → External}
    (keeps : ∀ hint ∈ (change (symbols.externalAt id)).hints,
      Legal hint ∨ hint ∈ (symbols.externalAt id).hints) :
    (symbols.modifyExternal id change).Legible exported where
  defined := legible.defined
  provided := legible.provided
  imported := legible.imported
  exports := legible.exports
  hints {other hint} member := by
    rw [externalAt_modifyExternal] at member
    split at member
    next same =>
        obtain ⟨rfl, -⟩ := same
        exact (keeps hint member).elim id legible.hints
    next => exact legible.hints member

theorem modifyModule (legible : symbols.Legible exported) {id : ModuleId} {change : Module → Module}
    (keeps : ∀ (name : String) entry, (change (symbols.moduleAt id)).exports[name]? = some entry →
      (symbols.moduleAt id).exports[name]? = some entry ∨
        exported name ∧
          ∀ source imported, entry.again? = some (source, imported) → Askable exported imported) :
    (symbols.modifyModule id change).Legible exported where
  defined := legible.defined
  provided := legible.provided
  imported := legible.imported
  exports {other name entry} found := by
    rw [moduleAt_modifyModule] at found
    split at found
    next same =>
        obtain ⟨rfl, -⟩ := same
        exact (keeps name entry found).elim legible.exports id
    next => exact legible.exports found
  hints := legible.hints

theorem setTarget (legible : symbols.Legible exported) (id target : DeclId) :
    (symbols.setTarget id target).Legible exported := by
  have entry := symbols.setTarget_cases id target
  refine ⟨fun {other} inside is => ?_, fun {other source name} is => ?_,
    fun {other source name _} is => ?_, legible.exports, legible.hints⟩
  · have before : other.index < symbols.declarations.size := by
      simpa [Symbols.setTarget, Symbols.modifyDeclaration] using inside
    rcases entry other with same | ⟨_, _, _, -, same⟩
    · rw [same] at is ⊢
      exact legible.defined before is
    · rw [same] at is
      cases is
  · rcases entry other with same | ⟨_, _, _, -, same⟩
    · exact legible.provided (same ▸ is)
    · rw [same] at is
      cases is
  · rcases entry other with same | ⟨_, _, _, kind, same⟩
    · exact legible.imported (same ▸ is)
    · rw [same] at is
      cases is
      exact legible.imported kind

/-- Proposing a legal name leaves all proposed names legal. -/
theorem proposeName (legible : symbols.Legible exported) (id : ExternalId) {hint : String}
    (legal : Legal hint) : (symbols.proposeName id hint).Legible exported := by
  refine legible.modifyExternal fun other member => ?_
  rcases External.mem_hints_propose.mp member with rfl | before
  · exact .inl legal
  · exact .inr before

theorem asks (legible : symbols.Legible exported) : symbols.Asks (Askable exported) where
  whole := .inl (.inl rfl)
  plain plain := .inl (.inr plain)
  imported := legible.imported
  exported found := .inr (legible.exports found).1
  again found := (legible.exports found).2 _ _ rfl

theorem lasting : Lasting (Askable exported) Legal (Legible exported) where
  asks := asks
  external source name asked legible := by
    rw [externalDeclaration]
    split
    · exact legible
    · refine (legible.addDeclaration (fun is => by cases is) (fun _ _ same => ?_)
        fun _ _ _ same => by cases same).modifyExternal fun _ member => .inr member
      cases same
      exact asked
  global {symbols name} _ legible := by
    rw [globalDeclaration]
    split
    · exact legible
    · have added : (symbols.addDeclaration name none .free).2.Legible exported :=
        legible.addDeclaration (fun is => by cases is) (fun _ _ same => by cases same)
          fun _ _ _ same => by cases same
      exact ⟨added.defined, added.provided, added.imported, added.exports, added.hints⟩
  target id target legible := legible.setTarget id target
  exports _ _ legible := legible.modifyModule fun _ _ found => .inl found
  propose id hint legal legible := legible.proposeName id legal

/-- The statement is legible, and exports something under one of the names if it exports something. -/
def Fits (exported : String → Prop) (statement : Statement Label) : Prop :=
  statement.Legible ∧ ∀ name, statement.exportedName? = some name → exported name

theorem addModule (legible : symbols.Legible exported) (id : String) :
    (symbols.addModule id).2.Legible exported := by
  have added : (symbols.addDeclaration (Identifier.ofModuleId id)
      (some (.internal ⟨symbols.modules.size⟩)) (.namespaceOf ⟨symbols.modules.size⟩)).2.Legible exported :=
    legible.addDeclaration (fun _ => Identifier.legal_ofModuleId id) (fun _ _ same => by cases same)
      fun _ _ _ same => by cases same
  refine ⟨added.defined, added.provided, added.imported, fun {other name entry} found => ?_, added.hints⟩
  rw [moduleAt_addModule] at found
  split at found
  · exact absurd found getElem?_empty_ne
  · exact legible.exports found

theorem addExternal (legible : symbols.Legible exported) (id : String) :
    (symbols.addExternal id).2.Legible exported := by
  refine ⟨legible.defined, legible.provided, legible.imported, legible.exports, fun {other hint} member => ?_⟩
  rw [externalAt_addExternal] at member
  split at member
  · exact absurd member Std.TreeMap.not_mem_emptyc
  · exact legible.hints member

theorem growing : Draft.Growing (Fits exported) (Legible exported) where
  empty := by
    constructor
    case defined => exact fun inside => absurd inside (Nat.not_lt_zero _)
    case provided => exact fun {_ _ _} is => by cases is
    case imported => exact fun {_ _ _ _} is => by cases is
    case exports => exact fun found => absurd found getElem?_empty_ne
    case hints => exact fun member => absurd member Std.TreeMap.not_mem_emptyc
  addModule id legible := legible.addModule id
  addExternal id legible := legible.addExternal id
  lengthen _ _ _ legible := legible.modifyModule fun _ _ found => .inl found
  declare fits _ _ legible := legible.addDeclaration (fun _ => fits.1) (fun _ _ same => by cases same)
    fun _ _ _ same => by cases same
  importFrom fits _ legible := by
    refine legible.addDeclaration (fun is => by cases is) (fun _ _ same => by cases same)
      fun _ _ _ same => ?_
    cases same
    exact .inl fits.1.1
  propose fits legible := legible.proposeName _ fits.1.2
  exports {symbols statement name entry} fits named again owner legible := by
    refine legible.modifyModule fun key other found => ?_
    rw [Std.TreeMap.getElem?_insert] at found
    split at found
    next here =>
        cases found
        refine .inr ⟨Std.LawfulEqCmp.eq_of_compare here ▸ fits.2 name named, fun source imported is => ?_⟩
        rw [again] at is
        cases statement with
        | exportFrom tag from_ specifier clause =>
            cases clause with
            | single =>
                cases is
                exact .inl fits.1
            | whole =>
                cases is
                exact .inl (.inl rfl)
            | all => cases is
        | expression | declare | importFrom | exportList => cases is
    next => exact .inl found
  star _ _ legible := legible.modifyModule fun _ _ found => .inl found

end Legible

end Symbols

namespace Graph

variable {graph after : Graph} {options : Options}

open Symbols (Lasting)

theorem endures_legible (exported : String → Prop) : Endures (Symbols.Legible exported) := by
  refine .of_sameProgram fun same legible => ?_
  refine ⟨fun {id} inside is => ?_, fun {id source name} is => legible.provided (same.kind id ▸ is),
    fun {id source name target} is => legible.imported (same.kind id ▸ is),
    fun {id name entry} found => legible.exports (same.moduleAt id ▸ found), fun {id hint} member => ?_⟩
  · obtain ⟨_, _, entry⟩ := same.declarationAt id
    rw [entry] at is ⊢
    exact legible.defined (Nat.lt_of_lt_of_eq inside same.declarations) is
  · obtain ⟨_, _, entry⟩ := same.externalAt id
    rw [entry] at member
    exact legible.hints member

theorem Legible.mentions (legible : graph.Legible) :
    Mentions (Askable graph.ExportsAs) Legal graph.nodes := by
  intro i owner e found
  have here := legible _ (Array.mem_toList_iff.mpr (Array.mem_of_getElem? found))
  cases e with
  | ident => exact here
  | member => exact .inl (.inr here)
  | literal | index | call | assign => trivial

theorem Legible.fit (legible : graph.Legible) :
    Draft.Fit (Symbols.Legible.Fits graph.ExportsAs) graph.nodes := by
  intro i owner statement found
  have member := Array.mem_toList_iff.mpr (Array.mem_of_getElem? found)
  exact ⟨legible _ member, fun name named => ⟨_, member, statement, rfl, named⟩⟩

/-- In every state that a legible program can come to, its symbols are legible. -/
theorem Reachable.legible (reachable : graph.Reachable) (legible : graph.Legible) :
    graph.symbols.Legible graph.ExportsAs :=
  reachable.lasts Symbols.Legible.lasting (endures_legible _) legible.mentions fun made same =>
    made.grown Symbols.Legible.growing (same.symm ▸ legible.fit)

/-- The name of an external module is legal. -/
theorem legal_external (derived : graph.symbols.Derived) (legible : graph.symbols.Legible graph.ExportsAs)
    {id : ExternalId} (inside : id.index < graph.symbols.externals.size) :
    Legal (graph.symbols.externalAt id).name := by
  obtain ⟨base, suggested, variant⟩ := derived.external inside
  refine variant.legal ?_
  rcases suggested with same | proposed
  · rw [same]
    exact Identifier.legal_ofModuleId _
  · exact legible.hints proposed

/-- What is imported by name is called by a legal name, or by the reserved word that it is called outside, or
    it has no plain name there and the program exports something under that. -/
theorem legal_binding (derived : graph.symbols.Derived) (legible : graph.symbols.Legible graph.ExportsAs)
    {id : DeclId} {source : ExternalId} {name : String}
    (kind : (graph.symbols.declarationAt id).kind = .provided source name)
    (named : Symbols.isNamed name = true) :
    Legal (graph.symbols.outputText .es id) ∨
      (isReserved name = true ∧ graph.symbols.outputText .es id = name ∨
        isPlain name = false ∧ graph.ExportsAs name) := by
  cases plain : isPlain name with
  | true =>
      rcases (derived.outputText_binding kind named).eq_or_legal plain with same | legal
      · cases reserved : isReserved name with
        | true => exact .inr (.inl ⟨rfl, same⟩)
        | false => exact .inl (same ▸ ⟨plain, reserved⟩)
      · exact .inl legal
  | false =>
      refine .inr (.inr ⟨rfl, ?_⟩)
      rcases legible.provided kind with (whole | plain') | exported
      · rw [whole] at named
        cases named
      · cases plain.symm.trans plain'
      · exact exported

/-- What a standard module refers to by a name of its own is called by a legal name, with one exception:
    what is imported by name is called by a reserved word if that is its name outside and nothing else has
    taken it; or its name outside is not plain, and the program exports something under it. -/
theorem legal_outputText (reachable : graph.Reachable) (legible : graph.Legible) {id : DeclId}
    (inside : graph.HasDeclaration id)
    (bound : Symbols.isDefined (graph.symbols.declarationAt id) = true ∨
      (graph.symbols.declarationAt id).kind.isProvided = true) :
    Legal (graph.symbols.outputText .es id) ∨
      ∃ source name, (graph.symbols.declarationAt id).kind = .provided source name ∧
        Symbols.isNamed name = true ∧
        (isReserved name = true ∧ graph.symbols.outputText .es id = name ∨
          isPlain name = false ∧ graph.ExportsAs name) := by
  have derived := reachable.derived
  have legible := reachable.legible legible
  rcases bound with defined | provided
  · exact .inl ((derived.outputText_defined defined).legal (legible.defined inside defined))
  · cases kind : (graph.symbols.declarationAt id).kind with
    | declared | imported | namespaceOf | free =>
        rw [kind] at provided
        cases provided
    | provided source name =>
        cases named : Symbols.isNamed name with
        | false =>
            left
            have there := (reachable.intact.sound.declarations inside).provided kind
            have legal := legal_external derived legible there
            rcases Symbols.outputText_module kind named with same | same
            · exact same ▸ legal
            · exact same ▸ Identifier.legal_defaultAlias legal.1
        | true =>
            exact (legal_binding derived legible kind named).imp_right fun exception =>
              ⟨source, name, rfl, named, exception⟩

/-- In a bundle that is a standard module, the text that refers to a declaration of a legible program, or
    to what is imported from outside, can name a binding.  The only exception is what is imported by name: it
    is called by a reserved word if that is its name outside and nothing else has taken it, and its name
    outside need not be plain if the program exports something under it. -/
theorem legal_bundle (reachable : graph.Reachable) (legible : graph.Legible) (es : options.format = .es)
    {bundle : Bundle} (succeeded : (Graph.bundle options).outcome graph = (.ok bundle, after)) {id : DeclId}
    (included : after.includesDeclaration id = true)
    (bound : Symbols.isDefined (after.symbols.declarationAt id) = true ∨
      (after.symbols.declarationAt id).kind.isProvided = true) :
    Legal (after.symbols.outputText options.format id) ∨
      ∃ source name, (after.symbols.declarationAt id).kind = .provided source name ∧
        Symbols.isNamed name = true ∧
        (isReserved name = true ∧ after.symbols.outputText options.format id = name ∨
          isPlain name = false ∧ graph.ExportsAs name) := by
  obtain ⟨reached, -⟩ := reachable.bundled succeeded
  have nodes : after.nodes = graph.nodes := by
    have nodes := reachable.intact.nodes_bundle options
    rwa [succeeded] at nodes
  have legible' : after.Legible := by rwa [Legible, nodes]
  have exported : after.ExportsAs = graph.ExportsAs := by
    funext name
    rw [ExportsAs, ExportsAs, nodes]
  rw [es, ← exported]
  exact legal_outputText reached legible' (lt_of_includesDeclaration included) bound

end Graph

/-! ## A name that no binding can have -/

/-- A module calls what it imports under a reserved word. -/
def Draft.removing : Draft :=
  let draft := (Draft.addModule {} "main").2
  let draft := (draft.addExternal "ext").2
  let draft := ((importFrom ⟨0⟩ (.external ⟨0⟩) "delete" "remove").outcome draft).2
  ((declare ⟨0⟩ .constant "done" (some (.call () (.ident () "remove") [])) false).outcome draft).2

/-- The program with its only module as its entry. -/
def Graph.removing : Graph := { Draft.removing.graph with entry := ⟨0⟩ }

theorem Draft.built_removing : Draft.removing.Built := by
  refine .declare (.importFrom (.addExternal (.addModule .empty "main") "ext") ?_ ?_ _ _) ?_ _ _ _ _
  all_goals decide

theorem Graph.made_removing : Graph.removing.Made :=
  .finish Draft.built_removing (by decide) rfl

/-- A module with a reserved word as its id hands itself to what it imports. -/
def Draft.reading : Draft :=
  let draft := (Draft.addModule {} "new").2
  let draft := (draft.addExternal "ext").2
  let draft := ((importFrom ⟨0⟩ (.external ⟨0⟩) "read" "get").outcome draft).2
  let draft := ((importFrom ⟨0⟩ (.internal ⟨0⟩) "*" "self").outcome draft).2
  (draft.addExpression ⟨0⟩ (.call () (.ident () "get") [.ident () "self"])).2

/-- The program that consists of this module. -/
def Graph.reading : Graph := Draft.reading.graph

theorem Draft.built_reading : Draft.reading.Built := by
  refine .addExpression (.importFrom (.importFrom (.addExternal (.addModule .empty "new") "ext")
    ?_ ?_ _ _) ?_ ?_ _ _) ?_ _
  all_goals decide

theorem Graph.made_reading : Graph.reading.Made :=
  .finish Draft.built_reading (by decide) rfl

namespace Graph

theorem legible_removing : removing.Legible := by
  decide

theorem legible_reading : reading.Legible := by
  decide

/-- The bundle of the program, and what it declares and imports. -/
theorem outcome_removing : ∃ bundle after, (Graph.bundle {}).outcome removing = (.ok bundle, after) ∧
    bundle.code = "import \x7b delete \x7d from \"ext\";\n\nconst done = delete();\n" ∧
    (after.includesDeclaration ⟨2⟩ = true ∧
      (after.symbols.declarationAt ⟨2⟩).kind = .declared ⟨4⟩) ∧
    after.includesDeclaration ⟨3⟩ = true ∧
      (after.symbols.declarationAt ⟨3⟩).kind = .provided ⟨0⟩ "delete" ∧
      after.symbols.outputText .es ⟨3⟩ = "delete" := by
  have facts : ((Graph.bundle {}).outcome removing).1.toOption.map (·.code) =
        some "import \x7b delete \x7d from \"ext\";\n\nconst done = delete();\n" ∧
      (((Graph.bundle {}).outcome removing).2.includesDeclaration ⟨2⟩ = true ∧
        (((Graph.bundle {}).outcome removing).2.symbols.declarationAt ⟨2⟩).kind = .declared ⟨4⟩) ∧
      ((Graph.bundle {}).outcome removing).2.includesDeclaration ⟨3⟩ = true ∧
      (((Graph.bundle {}).outcome removing).2.symbols.declarationAt ⟨3⟩).kind =
        .provided ⟨0⟩ "delete" ∧
      ((Graph.bundle {}).outcome removing).2.symbols.outputText .es ⟨3⟩ = "delete" := by
    decide +kernel
  obtain ⟨written, facts⟩ := facts
  obtain ⟨bundle, result, code⟩ := bundle_of_code written
  exact ⟨bundle, _, result, code, facts⟩

/-- The bundle of the other program, and what it defines and imports. -/
theorem outcome_reading : ∃ bundle after, (Graph.bundle {}).outcome reading = (.ok bundle, after) ∧
    bundle.code =
      "import \x7b read \x7d from \"ext\";\n\nread(_new);\n\nconst _new = Object.freeze(\x7b\x7d);\n" ∧
    (after.includesDeclaration ⟨0⟩ = true ∧
      (after.symbols.declarationAt ⟨0⟩).kind = .namespaceOf ⟨0⟩) ∧
    after.includesDeclaration ⟨3⟩ = true ∧
      (after.symbols.declarationAt ⟨3⟩).kind = .provided ⟨0⟩ "read" := by
  have facts : ((Graph.bundle {}).outcome reading).1.toOption.map (·.code) = some
        "import \x7b read \x7d from \"ext\";\n\nread(_new);\n\nconst _new = Object.freeze(\x7b\x7d);\n" ∧
      (((Graph.bundle {}).outcome reading).2.includesDeclaration ⟨0⟩ = true ∧
        (((Graph.bundle {}).outcome reading).2.symbols.declarationAt ⟨0⟩).kind = .namespaceOf ⟨0⟩) ∧
      ((Graph.bundle {}).outcome reading).2.includesDeclaration ⟨3⟩ = true ∧
      (((Graph.bundle {}).outcome reading).2.symbols.declarationAt ⟨3⟩).kind = .provided ⟨0⟩ "read" := by
    decide +kernel
  obtain ⟨written, facts⟩ := facts
  obtain ⟨bundle, result, code⟩ := bundle_of_code written
  exact ⟨bundle, _, result, code, facts⟩

/-- What the module declares itself is called by a legal name.  In the other program the module is called by
    one that is not its id, and what it imports by the name that it has outside. -/
theorem legal_removing :
    (∃ bundle after, (Graph.bundle {}).outcome removing = (.ok bundle, after) ∧
      after.includesDeclaration ⟨2⟩ = true ∧ Legal (after.symbols.outputText .es ⟨2⟩)) ∧
    ∃ bundle after, (Graph.bundle {}).outcome reading = (.ok bundle, after) ∧
      (after.includesDeclaration ⟨0⟩ = true ∧ Legal (after.symbols.outputText .es ⟨0⟩)) ∧
      after.includesDeclaration ⟨3⟩ = true ∧ Legal (after.symbols.outputText .es ⟨3⟩) := by
  constructor
  · obtain ⟨bundle, after, result, -, ⟨included, kind⟩, -⟩ := outcome_removing
    have defined : Symbols.isDefined (after.symbols.declarationAt ⟨2⟩) = true := by
      rw [Symbols.isDefined, kind]
    have named := legal_bundle (.made made_removing) legible_removing rfl result included (.inl defined)
    rcases named with legal | ⟨source, name, provided, -⟩
    · exact ⟨bundle, after, result, included, legal⟩
    · cases kind.symm.trans provided
  · obtain ⟨bundle, after, result, -, ⟨whole, kind⟩, imported, kind'⟩ := outcome_reading
    have defined : Symbols.isDefined (after.symbols.declarationAt ⟨0⟩) = true := by
      rw [Symbols.isDefined, kind]
    have provided : (after.symbols.declarationAt ⟨3⟩).kind.isProvided = true := by
      rw [kind', DeclarationKind.isProvided]
    have first := legal_bundle (.made made_reading) legible_reading rfl result whole (.inl defined)
    have second := legal_bundle (.made made_reading) legible_reading rfl result imported (.inr provided)
    refine ⟨bundle, after, result, ⟨whole, ?_⟩, imported, ?_⟩
    · rcases first with legal | ⟨source, name, same, -⟩
      · exact legal
      · cases kind.symm.trans same
    · rcases second with legal | ⟨source, name, same, -, ⟨reserved, -⟩ | ⟨plain, -⟩⟩
      · exact legal
      · cases kind'.symm.trans same
        exact absurd reserved (by decide)
      · cases kind'.symm.trans same
        exact absurd plain (by decide)

/-- What the first module imports is not: the bundle introduces it as a local binding under the reserved word. -/
theorem bundle_removing : removing.Made ∧ removing.Legible ∧
    ∃ bundle after, (Graph.bundle {}).outcome removing = (.ok bundle, after) ∧
      after.includesDeclaration ⟨3⟩ = true ∧
      (after.symbols.declarationAt ⟨3⟩).kind = .provided ⟨0⟩ "delete" ∧
      after.symbols.outputText .es ⟨3⟩ = "delete" ∧ isReserved "delete" = true ∧
      bundle.code = "import \x7b delete \x7d from \"ext\";\n\nconst done = delete();\n" := by
  obtain ⟨bundle, after, result, code, -, included, kind, text⟩ := outcome_removing
  refine ⟨made_removing, legible_removing, bundle, after, result, included, kind, text, ?_, code⟩
  decide

end Graph

end Bundler
