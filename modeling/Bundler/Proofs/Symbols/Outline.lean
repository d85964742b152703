import Bundler.Proofs.Exports.Publication
import Bundler.Scope

/-! # Outlines of symbols

The outline of symbols leaves out the texts of the modules and which nodes are statements.  Nothing that
builds or links a program reads these, so it does to the outline what it does to the symbols.
-/

namespace Bundler

/-- The kind of a declaration, whatever statement it is declared by. -/
def DeclarationKind.outline : DeclarationKind → DeclarationKind
  | .declared _ => .declared default
  | kind => kind

/-- A declaration, whatever statement it is declared by. -/
def Declaration.outline (declaration : Declaration) : Declaration :=
  { declaration with kind := declaration.kind.outline }

/-- A module without its text and its statements. -/
def Module.outline (m : Module) : Module := { m with source := "", body := #[] }

/-- The symbols without the texts and the statements. -/
def Symbols.outline (symbols : Symbols) : Symbols :=
  { symbols with
    modules := symbols.modules.map Module.outline
    declarations := symbols.declarations.map Declaration.outline }

/-- Kinds with the same outline are the same, except that different statements may declare something. -/
theorem DeclarationKind.eq_of_outline {kind other : DeclarationKind} (same : other.outline = kind.outline) :
    other = kind ∨ ∃ statement statement', kind = .declared statement ∧ other = .declared statement' := by
  cases kind with
  | declared statement =>
      cases other with
      | declared statement' => exact .inr ⟨statement, statement', rfl, rfl⟩
      | imported | namespaceOf | provided | free => cases same
  | imported | namespaceOf | provided | free =>
      left
      cases other with
      | declared => cases same
      | imported | namespaceOf | provided | free => exact same

theorem Declaration.namespace?_outline (declaration : Declaration) :
    declaration.outline.namespace? = declaration.namespace? := by
  obtain ⟨_, _, kind, _, _⟩ := declaration
  cases kind <;> rfl

namespace Symbols

variable {symbols : Symbols}

/-! ## Entries -/

theorem moduleAt_outline (id : ModuleId) : symbols.outline.moduleAt id = (symbols.moduleAt id).outline := by
  simp only [moduleAt, outline, Array.getD_eq_getD_getElem?, Array.getElem?_map]
  cases symbols.modules[id.index]? <;> rfl

theorem declarationAt_outline (id : DeclId) :
    symbols.outline.declarationAt id = (symbols.declarationAt id).outline := by
  simp only [declarationAt, outline, Array.getD_eq_getD_getElem?, Array.getElem?_map]
  cases symbols.declarations[id.index]? <;> rfl

theorem externalAt_outline (id : ExternalId) : symbols.outline.externalAt id = symbols.externalAt id := rfl

theorem specifier_outline (source : Provider) :
    symbols.outline.specifier source = symbols.specifier source := by
  cases source with
  | internal id => rw [specifier, moduleAt_outline]; rfl
  | external => rfl

theorem moduleIds_outline : symbols.outline.moduleIds = symbols.moduleIds := by
  rw [moduleIds, outline, Array.size_map]
  rfl

theorem declarationIds_outline : symbols.outline.declarationIds = symbols.declarationIds := by
  rw [declarationIds, outline, Array.size_map]
  rfl

/-! ## Changed entries -/

theorem map_modify {α β : Type} {entries : Array α} {i : Nat} {view : α → β} {change : α → α}
    {change' : β → β} (same : ∀ entry, view (change entry) = change' (view entry)) :
    (entries.modify i change).map view = (entries.map view).modify i change' := by
  apply Array.ext_getElem?
  intro j
  simp only [Array.getElem?_map, Array.getElem?_modify]
  split <;> simp [Function.comp_def, same]

theorem modifyModule_outline (id : ModuleId) {change : Module → Module}
    (same : ∀ m, (change m).outline = change m.outline) :
    symbols.outline.modifyModule id change = (symbols.modifyModule id change).outline := by
  rw [outline, outline, modifyModule, modifyModule, map_modify same]

theorem modifyDeclaration_outline (id : DeclId) {change : Declaration → Declaration}
    (same : ∀ declaration, (change declaration).outline = change declaration.outline) :
    symbols.outline.modifyDeclaration id change = (symbols.modifyDeclaration id change).outline := by
  rw [outline, outline, modifyDeclaration, modifyDeclaration, map_modify same]

/-- A change of texts and statements only does not show in the outline. -/
theorem outline_modifyModule (id : ModuleId) {change : Module → Module}
    (same : ∀ m, (change m).outline = m.outline) :
    (symbols.modifyModule id change).outline = symbols.outline := by
  have idle : (symbols.modules.modify id.index change).map Module.outline =
      symbols.modules.map Module.outline := by
    apply Array.ext_getElem?
    intro i
    simp only [Array.getElem?_map, Array.getElem?_modify]
    split <;> simp [Function.comp_def, same]
  rw [outline, modifyModule, idle]
  rfl

theorem addDeclaration_outline (name : String) (owner : Option Provider) (kind : DeclarationKind) :
    symbols.outline.addDeclaration name owner kind.outline =
      ((symbols.addDeclaration name owner kind).1, (symbols.addDeclaration name owner kind).2.outline) := by
  simp only [outline, addDeclaration, Array.map_push, Declaration.outline, Array.size_map]

/-! ## Searching -/

theorem namespaceOrigin_outline (source : Provider) :
    symbols.outline.namespaceOrigin source = symbols.namespaceOrigin source := by
  cases source with
  | internal id =>
      rw [namespaceOrigin, moduleAt_outline]
      rfl
  | external => rfl

theorem requestOrigin?_outline (search : Provider → String → Except Fault (Option Origin))
    (source : Provider) (name : String) :
    symbols.outline.requestOrigin? search source name = symbols.requestOrigin? search source name := by
  rw [requestOrigin?, requestOrigin?, namespaceOrigin_outline]

theorem bindingOrigin?_outline (search : Provider → String → Except Fault (Option Origin)) (id : DeclId) :
    symbols.outline.bindingOrigin? search id = symbols.bindingOrigin? search id := by
  rw [bindingOrigin?, bindingOrigin?, declarationAt_outline, Declaration.outline]
  cases (symbols.declarationAt id).kind with
  | imported source name target =>
      cases target with
      | none => exact requestOrigin?_outline search source name
      | some => rfl
  | declared | namespaceOf | provided | free => rfl

theorem search?_outline (depth : Nat) : symbols.outline.search? depth = symbols.search? depth := by
  induction depth with
  | zero =>
      funext trail star source name
      cases source <;> rfl
  | succ depth ih =>
      funext trail star source name
      cases source with
      | external => rfl
      | internal id =>
          simp only [search?, ih, moduleAt_outline, Module.outline, bindingOrigin?_outline,
            requestOrigin?_outline]

theorem trailBound_outline : symbols.outline.trailBound = symbols.trailBound := by
  simp only [trailBound, outline, Array.size_map, Array.toList_map, List.flatMap_map, Module.outline]

theorem exportOrigin?_outline (source : Provider) (name : String) :
    symbols.outline.exportOrigin? source name = symbols.exportOrigin? source name := by
  rw [exportOrigin?, exportOrigin?, search?_outline, trailBound_outline]

theorem declarationOrigin?_outline (id : DeclId) :
    symbols.outline.declarationOrigin? id = symbols.declarationOrigin? id := by
  rw [declarationOrigin?, declarationOrigin?, search?_outline, trailBound_outline, bindingOrigin?_outline]

theorem exportedNames_outline (id : ModuleId) :
    symbols.outline.exportedNames id = symbols.exportedNames id := by
  have star : symbols.outline.starModules = symbols.starModules := by
    funext id
    rw [starModules, starModules, moduleAt_outline]
    rfl
  have exports : ∀ id, (symbols.outline.moduleAt id).exports = (symbols.moduleAt id).exports := by
    intro id
    rw [moduleAt_outline]
    rfl
  have size : symbols.outline.modules.size = symbols.modules.size := Array.size_map
  simp only [exportedNames, star, exports, size]

/-- What a declaration denotes is part of the outline. -/
theorem denoted_outline (id : DeclId) : symbols.outline.denoted id = symbols.denoted id := by
  rw [denoted, denoted, declarationAt_outline, Declaration.outline]
  cases (symbols.declarationAt id).kind <;> rfl

/-! ## Declarations for what comes from outside -/

theorem globalDeclaration_outline (name : String) : symbols.outline.globalDeclaration name =
    ((symbols.globalDeclaration name).1, (symbols.globalDeclaration name).2.outline) := by
  have globals : symbols.outline.globals = symbols.globals := rfl
  have added : symbols.outline.addDeclaration name none .free = _ :=
    symbols.addDeclaration_outline name none .free
  rw [globalDeclaration, globalDeclaration, globals]
  split
  · rfl
  · rw [added]
    rfl

theorem externalDeclaration_outline (source : ExternalId) (name : String) :
    symbols.outline.externalDeclaration source name =
      ((symbols.externalDeclaration source name).1, (symbols.externalDeclaration source name).2.outline) := by
  have provided : symbols.outline.providedName source name = symbols.providedName source name := rfl
  have added : symbols.outline.addDeclaration (symbols.providedName source name) (some (.external source))
      (.provided source name) = _ := symbols.addDeclaration_outline _ _ (.provided source name)
  rw [externalDeclaration, externalDeclaration, externalAt_outline, provided]
  split
  · rfl
  · rw [added]
    rfl

theorem intern_outline (origin : Origin) :
    symbols.outline.intern origin = ((symbols.intern origin).1, (symbols.intern origin).2.outline) := by
  cases origin with
  | declaration => rfl
  | provided source name => exact externalDeclaration_outline source name

theorem setTarget_outline (id target : DeclId) :
    symbols.outline.setTarget id target = (symbols.setTarget id target).outline := by
  refine modifyDeclaration_outline id fun declaration => ?_
  obtain ⟨_, _, kind, _, _⟩ := declaration
  cases kind <;> rfl

/-! ## Building -/

theorem addModule_outline (id : String) :
    symbols.outline.addModule id = ((symbols.addModule id).1, (symbols.addModule id).2.outline) := by
  simp only [addModule, addDeclaration, outline, Array.map_push, Array.size_map, Declaration.outline,
    DeclarationKind.outline, Module.outline]

theorem addExport_outline (id : ModuleId) (name : String) (entry : Export) :
    symbols.outline.addExport id name entry = (symbols.addExport id name entry).map outline := by
  rw [addExport, addExport, moduleAt_outline, Module.outline]
  split
  · rfl
  · exact congrArg Except.ok (modifyModule_outline id fun _ => rfl)

theorem addStarExport_outline (id : ModuleId) (source : Provider) :
    symbols.outline.addStarExport id source = (symbols.addStarExport id source).outline :=
  modifyModule_outline id fun _ => rfl

/-! ## Linking -/

/-- The step does to the outline what it does to the symbols. -/
def Outlines {α : Type} (step : Step Symbols α) : Prop := ∀ symbols : Symbols,
  step.outcome symbols.outline = ((step.outcome symbols).1, (step.outcome symbols).2.outline)

namespace Outlines

variable {α β : Type}

theorem pure (a : α) : Outlines (Pure.pure a) := fun _ => rfl

theorem bind {step : Step Symbols α} {next : α → Step Symbols β} (first : Outlines step)
    (later : ∀ a, Outlines (next a)) : Outlines (step >>= next) := by
  intro symbols
  rw [Step.outcome_bind, Step.outcome_bind, first]
  generalize step.outcome symbols = result
  obtain ⟨a | fault, after⟩ := result
  · rfl
  · exact later _ after

theorem forM {step : α → Step Symbols Unit} {items : List α} (each : ∀ item, Outlines (step item)) :
    Outlines (items.forM step) := by
  induction items with
  | nil => exact pure ()
  | cons item rest ih =>
      rw [List.forM_eq_forM, List.forM_cons]
      exact bind (each item) fun _ => ih

/-- With the same outline, the step has the same result and leaves the same outline. -/
theorem of_eq {step : Step Symbols α} (outlines : Outlines step) {other : Symbols}
    (same : other.outline = symbols.outline) :
    (step.outcome other).1 = (step.outcome symbols).1 ∧
      (step.outcome other).2.outline = (step.outcome symbols).2.outline := by
  have here := outlines symbols
  rw [← same, outlines other] at here
  exact Prod.mk.inj here

end Outlines

theorem outlines_resolveExport? (source : Provider) (name : String) :
    Outlines (resolveExport? source name) := by
  intro symbols
  rw [resolveExport?_outcome, resolveExport?_outcome, exportOrigin?_outline]
  split
  · rw [intern_outline]
  · rfl
  · rfl

theorem outlines_resolveExports (id : ModuleId) (names : List String) :
    Outlines (resolveExports id names) := by
  induction names with
  | nil => exact .pure _
  | cons name rest ih =>
      rw [resolveExports]
      exact (outlines_resolveExport? _ name).bind fun _ => ih.bind fun _ => .pure _

theorem outlines_linkExports (id : ModuleId) : Outlines (linkExports id) := by
  intro symbols
  rw [linkExports_outcome, linkExports_outcome, exportedNames_outline, outlines_resolveExports]
  generalize (resolveExports id (symbols.exportedNames id)).outcome symbols = result
  obtain ⟨fault | resolvedExports, after⟩ := result
  · rfl
  · refine congrArg (Prod.mk (Except.ok ())) (modifyModule_outline id ?_)
    exact fun _ => rfl

theorem outlines_linkImport (id : DeclId) : Outlines (linkImport id) := by
  intro symbols
  have entry := symbols.declarationAt_outline id
  simp only [linkImport, Step.outcome_bind, Step.outcome_get, declarationOrigin?_outline]
  rw [entry]
  generalize symbols.declarationAt id = declaration
  obtain ⟨_, owner, kind, _, _⟩ := declaration
  cases kind with
  | imported source name target =>
      cases target with
      | some => rfl
      | none =>
          have specifiers : symbols.outline.specifier = symbols.specifier := funext specifier_outline
          simp only [Declaration.outline, DeclarationKind.outline, Step.outcome_bind, Step.outcome_ofExcept]
          cases symbols.declarationOrigin? id with
          | error fault => rfl
          | ok found =>
              cases found with
              | none =>
                  simp only [Step.outcome_throw, specifiers]
              | some origin =>
                  simp only [Step.outcome_set, intern_outline, setTarget_outline]
  | declared | namespaceOf | provided | free => rfl

theorem outlines_link : Outlines link := by
  intro symbols
  rw [link_outcome, link_outcome, declarationIds_outline, Outlines.forM outlines_linkImport]
  generalize (symbols.declarationIds.forM linkImport).outcome symbols = result
  obtain ⟨fault | _, middle⟩ := result
  · rfl
  · dsimp only
    rw [moduleIds_outline, Outlines.forM outlines_linkExports]

end Symbols

end Bundler
