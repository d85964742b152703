import Bundler.Proofs.Bundle.Closed
import Bundler.Proofs.Influence.Correspondence
import Bundler.Proofs.Influence.Naming

/-! # Writing corresponding programs

When the names of twins are the same, so are the texts that refer to them.  The text of a module, and what
stands before and behind all modules, are made of such texts and of what both programs have in common.
-/

namespace Bundler

namespace Symbols

variable {bound : Nat} {twin : DeclId → DeclId → Prop} {core whole : Symbols} {format : Format}

namespace Resembles

variable (resembles : Resembles bound twin core whole)

include resembles

theorem moduleName {id : ExternalId} (inside : id.index < bound) :
    (whole.externalAt id).name = (core.externalAt id).name := by
  obtain ⟨_, _, entry⟩ := resembles.external inside
  rw [External.name, External.name, entry]

theorem specifier {id : ExternalId} (inside : id.index < bound) :
    (whole.externalAt id).id = (core.externalAt id).id := by
  obtain ⟨_, _, entry⟩ := resembles.external inside
  rw [entry]

theorem providedText {id : ExternalId} (inside : id.index < bound) (name : String)
    (outputName : Option String) :
    whole.providedText format id name outputName = core.providedText format id name outputName := by
  simp only [Symbols.providedText, resembles.moduleName inside,
    aliasesDefault_congr (resembles.includesExport inside)]

/-- The same text refers to twins that stand for themselves. -/
theorem outputText {a b : DeclId} (twins : twin a b)
    (kinds : (core.declarationAt a).kind.Twins twin (whole.declarationAt b).kind)
    (final : ∀ source name target, (core.declarationAt a).kind ≠ .imported source name target)
    (known : ∀ source name, (core.declarationAt a).kind = .provided source name → source.index < bound) :
    whole.outputText format b = core.outputText format a := by
  have name := resembles.name twins
  rw [Symbols.outputText, Symbols.outputText, textWithin, textWithin]
  simp only [resembles.outputName twins]
  generalize (core.declarationAt a).kind = kind, (whole.declarationAt b).kind = kind'
    at kinds final known name
  cases kinds with
  | declared | namespaceOf => exact congrArg ((core.declarationAt a).outputName.getD ·) (name rfl)
  | free => exact name rfl
  | @provided source exported => exact resembles.providedText (known source exported rfl) exported _
  | unlinked | linked => exact absurd rfl (final _ _ _)

end Resembles

end Symbols

namespace Graph

/-! ## Expressions -/

mutual

/-- An expression is written alike if its parts are replaced alike. -/
theorem emitExpr_congr {base graph other : Graph} {owner : ModuleId} {format : Format}
    (arena : Arena base.nodes)
    (same : ∀ id : NodeId, id.index < base.nodes.size →
      other.replacement? format id = graph.replacement? format id) :
    ∀ e : Expr Label, Placed base.nodes owner e → other.emitExpr format e = graph.emitExpr format e
  | .ident label name, placed | .literal label value, placed => by
    rw [emitExpr, emitExpr, same label.id (Array.getElem?_eq_some_iff.mp placed).1]
  | .member label object key, placed => by
    have below := placed.child arena object List.mem_cons_self
    rw [emitExpr, emitExpr, same label.id (Array.getElem?_eq_some_iff.mp placed).1,
      emitExpr_congr arena same object below]
  | .index label object key, placed => by
    have first := placed.child arena object List.mem_cons_self
    have second := placed.child arena key (List.mem_cons_of_mem _ List.mem_cons_self)
    rw [emitExpr, emitExpr, same label.id (Array.getElem?_eq_some_iff.mp placed).1,
      emitExpr_congr arena same object first, emitExpr_congr arena same key second]
  | .call label callee arguments, placed => by
    have first := placed.child arena callee List.mem_cons_self
    have rest := emitExprs_congr arena same arguments fun e member =>
      placed.child arena e (List.mem_cons_of_mem _ member)
    rw [emitExpr, emitExpr, same label.id (Array.getElem?_eq_some_iff.mp placed).1,
      emitExpr_congr arena same callee first, rest]
  | .assign label target value, placed => by
    have first := placed.child arena target List.mem_cons_self
    have second := placed.child arena value (List.mem_cons_of_mem _ List.mem_cons_self)
    rw [emitExpr, emitExpr, same label.id (Array.getElem?_eq_some_iff.mp placed).1,
      emitExpr_congr arena same target first, emitExpr_congr arena same value second]

theorem emitExprs_congr {base graph other : Graph} {owner : ModuleId} {format : Format}
    (arena : Arena base.nodes)
    (same : ∀ id : NodeId, id.index < base.nodes.size →
      other.replacement? format id = graph.replacement? format id) :
    ∀ es : List (Expr Label), (∀ e ∈ es, Placed base.nodes owner e) →
      other.emitExprs format es = graph.emitExprs format es
  | [], _ => by rw [emitExprs, emitExprs]
  | e :: rest, placed => by
    rw [emitExprs, emitExprs, emitExpr_congr arena same e (placed e List.mem_cons_self),
      emitExprs_congr arena same rest fun e member => placed e (List.mem_cons_of_mem _ member)]

end

/-- Both programs are named, and what is to be written of them is the same. -/
structure Transcribes (base : Graph) (twin : DeclId → DeclId → Prop) (graph other : Graph) : Prop
    extends Corresponds base twin graph other where
  sound : graph.Sound
  final : graph.Bound
  modules : graph.symbols.modules.size = base.symbols.modules.size
  resembles : Symbols.Resembles base.symbols.externals.size twin graph.symbols other.symbols
  module : ∀ {owner : ModuleId}, base.HasProvider (.internal owner) → ∃ resolvedExports,
    other.symbols.moduleAt owner = { graph.symbols.moduleAt owner with resolvedExports }
  object : ∀ {owner : ModuleId}, base.HasProvider (.internal owner) →
    twin (graph.symbols.moduleAt owner).namespaceDecl (graph.symbols.moduleAt owner).namespaceDecl
  includesNode : ∀ {id : NodeId}, id.index < base.nodes.size → other.includesNode id = graph.includesNode id
  usedExternals : other.symbols.usedExternals = graph.symbols.usedExternals
  used : ∀ id ∈ graph.symbols.usedExternals, id.index < base.symbols.externals.size
  warnings : other.warnings = graph.warnings

namespace Transcribes

variable {base graph other : Graph} {twin : DeclId → DeclId → Prop} {format : Format} {owner : ModuleId}
  (transcribes : Transcribes base twin graph other)

include transcribes

theorem outputText {a b : DeclId} (twins : twin a b) (final : graph.Final a) :
    other.symbols.outputText format b = graph.symbols.outputText format a :=
  transcribes.resembles.outputText twins (transcribes.kind twins) final fun source name kind => by
    have known := transcribes.known twins
    rwa [kind] at known

theorem replacement?_eq {id : NodeId} (inside : id.index < base.nodes.size) :
    other.replacement? format id = graph.replacement? format id := by
  have twins := transcribes.resolution inside
  have final : ∀ a, graph.resolutionAt id = some (.declaration a) → graph.Final a := by
    intro a found
    have denoted : graph.denotation? id = some a := by rw [denotation?, found]
    exact transcribes.final.final denoted
  rw [replacement?, replacement?]
  generalize graph.resolutionAt id = resolution, other.resolutionAt id = resolution' at twins final
  cases twins with
  | declaration same => exact congrArg some (transcribes.outputText same (final _ rfl))
  | unknown | undefined | fallback => rfl

/-! ## Modules -/

theorem emitStatement_eq (arena : Arena base.nodes) {statement : Statement Label}
    (found : base.nodes[statement.id.index]? = some ⟨owner, .statement statement⟩) :
    other.emitStatement format statement = graph.emitStatement format statement := by
  have included : (other.markAt statement.id).included = (graph.markAt statement.id).included :=
    transcribes.includesNode (Array.getElem?_eq_some_iff.mp found).1
  have below : other.emitExprs format statement.children = graph.emitExprs format statement.children :=
    emitExprs_congr arena (fun _ => transcribes.replacement?_eq) _
      fun e child => (arena.child found e child).2
  rw [emitStatement, emitStatement, included, below]

theorem statements_eq (sound : base.Sound) (there : base.HasProvider (.internal owner)) :
    graph.statements owner = base.statements owner ∧ other.statements owner = base.statements owner := by
  obtain ⟨body, body'⟩ := transcribes.body there
  have inside : ∀ id ∈ (base.symbols.moduleAt owner).body, id.index < base.nodes.size := by
    intro id member
    obtain ⟨statement, found⟩ := sound.grounded.body member
    exact (Array.getElem?_eq_some_iff.mp found).1
  exact ⟨statements_congr body fun id member => (transcribes.nodeAt (inside id member)).1,
    statements_congr body' fun id member => (transcribes.nodeAt (inside id member)).2⟩

theorem map_eq {α : Type} {exports exports' : List (String × DeclId)}
    (twins : ExportTwins twin exports exports')
    (final : ∀ entry ∈ exports, graph.Final entry.2) (write : String → String → α) :
    (exports'.map fun entry => write entry.1 (other.symbols.outputText format entry.2)) =
      exports.map fun entry => write entry.1 (graph.symbols.outputText format entry.2) := by
  induction twins with
  | nil => rfl
  | @cons entry entry' rest rest' here _ ih =>
      rw [List.map_cons, List.map_cons, ih fun entry member => final entry (List.mem_cons_of_mem _ member),
        here.1, transcribes.outputText here.2 (final entry List.mem_cons_self)]

/-- The exports of a module are written alike. -/
theorem exports_map {α : Type} (format : Format) (there : base.HasProvider (.internal owner))
    (write : String → String → α) :
    ((other.symbols.moduleAt owner).resolvedExports.map fun entry =>
        write entry.1 (other.symbols.outputText format entry.2)) =
      (graph.symbols.moduleAt owner).resolvedExports.map fun entry =>
        write entry.1 (graph.symbols.outputText format entry.2) :=
  transcribes.map_eq (transcribes.exports there)
    (fun _ member => (transcribes.sound.exported (List.mem_map_of_mem member)).2) write

theorem exports_isEmpty (there : base.HasProvider (.internal owner)) :
    (other.symbols.moduleAt owner).resolvedExports.isEmpty =
      (graph.symbols.moduleAt owner).resolvedExports.isEmpty := by
  have twins := transcribes.exports there
  generalize (graph.symbols.moduleAt owner).resolvedExports = exports,
    (other.symbols.moduleAt owner).resolvedExports = exports' at twins
  cases twins <;> rfl

theorem namespaceText_eq (there : base.HasProvider (.internal owner)) (options : Options) :
    other.namespaceText options owner = graph.namespaceText options owner := by
  have there' : graph.HasProvider (.internal owner) := Nat.lt_of_lt_of_eq there transcribes.modules.symm
  have kind := (transcribes.sound.modules there').namespaceDecl.2
  have name : other.symbols.outputText options.format (graph.symbols.moduleAt owner).namespaceDecl =
      graph.symbols.outputText options.format (graph.symbols.moduleAt owner).namespaceDecl :=
    transcribes.outputText (transcribes.object there) fun _ _ _ imported => by
      cases kind.symm.trans imported
  obtain ⟨resolvedExports, entry⟩ := transcribes.module there
  have members := transcribes.exports_map options.format there fun name text =>
    "  " ++ objectKey name ++ ": " ++ text
  have empty := transcribes.exports_isEmpty there
  rw [entry] at members empty
  dsimp only at members empty
  simp only [namespaceText, objectText, entry, name, members, empty]

/-- A module of the smaller program is written alike. -/
theorem emitModule_same (sound : base.Sound) (there : base.HasProvider (.internal owner))
    (options : Options) :
    other.emitModule options owner = graph.emitModule options owner := by
  obtain ⟨statements, statements'⟩ := transcribes.statements_eq sound there
  obtain ⟨resolvedExports, entry⟩ := transcribes.module there
  have included := transcribes.resembles.included (transcribes.object there)
  have each : (base.statements owner).forM (other.emitStatement options.format) =
      (base.statements owner).forM (graph.emitStatement options.format) := by
    have same : ∀ statement ∈ base.statements owner,
        other.emitStatement options.format statement = graph.emitStatement options.format statement :=
      fun statement member =>
        transcribes.emitStatement_eq sound.arena (sound.grounded.statement member).2
    generalize base.statements owner = list at same
    induction list with
    | nil => rfl
    | cons statement rest ih =>
        rw [List.forM_eq_forM, List.forM_cons, List.forM_cons, same statement List.mem_cons_self]
        exact congrArg _ (funext fun _ => ih fun statement member =>
          same statement (List.mem_cons_of_mem _ member))
  have patch : other.patchModule options owner = graph.patchModule options owner := by
    rw [patchModule, patchModule, statements, statements', each, entry]
    dsimp only
    rw [included, transcribes.namespaceText_eq there]
  rw [emitModule, emitModule, patch, entry]

/-! ## External modules -/

section Externals

variable {id : ExternalId} (inside : id.index < base.symbols.externals.size)

theorem final_of_included {name : String} {a : DeclId}
    (found : graph.symbols.includedExport? id name = some a) : graph.Final a := by
  have kind := transcribes.sound.provided (Option.filter_eq_some_iff.mp found).1
  intro source imported target other
  cases kind.symm.trans other

include inside

theorem includedExport?_map (format : Format) (name : String) :
    (other.symbols.includedExport? id name).map (other.symbols.outputText format) =
      (graph.symbols.includedExport? id name).map (graph.symbols.outputText format) := by
  have twins := transcribes.resembles.provided inside name
  have final : ∀ a, graph.symbols.includedExport? id name = some a → graph.Final a := fun a =>
    transcribes.final_of_included
  generalize graph.symbols.includedExport? id name = found, other.symbols.includedExport? id name = found'
    at twins final
  cases twins with
  | none => rfl
  | some same => exact congrArg some (transcribes.outputText same (final _ rfl))

theorem namedImports_eq : other.symbols.namedImports id = graph.symbols.namedImports id :=
  transcribes.map_eq (Symbols.includedBindings_twins (transcribes.resembles.provided inside))
    (fun _ member => transcribes.final_of_included (Symbols.mem_includedBindings.mp member).2) printAs

theorem esImports_eq : other.symbols.esImports id = graph.symbols.esImports id := by
  have split : ∀ (symbols : Symbols) name (write : String → String),
      ((symbols.includedExport? id name).toList.map fun declaration =>
          write (symbols.outputText .es declaration)) =
        ((symbols.includedExport? id name).map (symbols.outputText .es)).toList.map write := by
    intro symbols name write
    cases symbols.includedExport? id name <;> rfl
  have each : ∀ name (write : String → String),
      ((other.symbols.includedExport? id name).toList.map fun declaration =>
          write (other.symbols.outputText .es declaration)) =
        (graph.symbols.includedExport? id name).toList.map fun declaration =>
          write (graph.symbols.outputText .es declaration) := by
    intro name write
    rw [split, split, transcribes.includedExport?_map inside .es]
  have whole := each wholeModule fun text =>
    "import * as " ++ text ++ (" from " ++ Text.quote (graph.symbols.externalAt id).id ++ ";")
  have byDefault := each defaultExport fun text => text
  simp only [Symbols.esImports, transcribes.resembles.specifier inside, transcribes.namedImports_eq inside,
    whole, byDefault]

theorem cjsImports_eq : other.symbols.cjsImports id = graph.symbols.cjsImports id := by
  have byDefault := transcribes.includedExport?_map inside .cjs defaultExport
  rw [Symbols.cjsImports, Symbols.cjsImports, transcribes.resembles.moduleName inside,
    transcribes.resembles.specifier inside]
  dsimp only
  generalize graph.symbols.includedExport? id defaultExport = found,
    other.symbols.includedExport? id defaultExport = found' at byDefault ⊢
  cases found with
  | none =>
      cases found' with
      | none => rfl
      | some => cases byDefault
  | some a =>
      cases found' with
      | none => cases byDefault
      | some b =>
          dsimp only
          rw [Option.some.inj byDefault]

end Externals

/-! ## The whole text -/

theorem header_eq : other.symbols.header format = graph.symbols.header format := by
  have es : graph.symbols.usedExternals.flatMap other.symbols.esImports =
      graph.symbols.usedExternals.flatMap graph.symbols.esImports :=
    List.flatMap_congr fun id member => transcribes.esImports_eq (transcribes.used id member)
  have cjs : graph.symbols.usedExternals.flatMap other.symbols.cjsImports =
      graph.symbols.usedExternals.flatMap graph.symbols.cjsImports :=
    List.flatMap_congr fun id member => transcribes.cjsImports_eq (transcribes.used id member)
  cases format with
  | es => rw [Symbols.header, Symbols.header, transcribes.usedExternals, es]
  | cjs => rw [Symbols.header, Symbols.header, transcribes.usedExternals, cjs]

theorem footer_eq (there : base.HasProvider (.internal owner)) :
    other.symbols.footer (other.symbols.moduleAt owner).resolvedExports format =
      graph.symbols.footer (graph.symbols.moduleAt owner).resolvedExports format := by
  cases format with
  | es =>
      have specifiers := transcribes.exports_map .es there fun name text => printAs text name
      simp only [Symbols.footer, transcribes.exports_isEmpty there, specifiers]
  | cjs =>
      have lines := transcribes.exports_map .cjs there fun name text =>
        "exports." ++ name ++ " = " ++ text ++ ";"
      simp only [Symbols.footer, lines]

/-- Both programs are written alike. -/
theorem emit_eq (sound : base.Sound) (options : Options) : other.emit options = graph.emit options := by
  have modules : other.order.mapM (other.emitModule options) =
      graph.order.mapM (graph.emitModule options) := by
    have same : ∀ owner ∈ graph.order, other.emitModule options owner = graph.emitModule options owner :=
      fun owner member => transcribes.emitModule_same sound (transcribes.ordered owner member) options
    rw [transcribes.order]
    generalize graph.order = order at same
    induction order with
    | nil => rfl
    | cons owner rest ih =>
        rw [List.mapM_cons, List.mapM_cons, same owner List.mem_cons_self,
          ih fun owner member => same owner (List.mem_cons_of_mem _ member)]
  have text : ∀ modules, other.bundleText options.format modules =
      graph.bundleText options.format modules := by
    intro modules
    rw [bundleText, bundleText, transcribes.header_eq, transcribes.entry,
      transcribes.footer_eq transcribes.start]
  rw [emit, emit, modules, transcribes.warnings]
  simp only [text]

end Transcribes

end Graph

end Bundler
