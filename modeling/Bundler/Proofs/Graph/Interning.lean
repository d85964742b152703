import Bundler.Proofs.Exports.Resolution
import Bundler.Proofs.Graph.Annotation
import Bundler.Scope

/-! # Interning

A declaration for something from outside is made when it is first asked for, and shared from then on.
Wherever a search through the exports of a sound program ends, there is a declaration which the module
that asked can see.
-/

namespace Bundler.Graph

variable {graph other : Graph}

/-! ## Changes of symbols -/

section Added

variable {name : String} {owner : Option Provider} {kind : DeclarationKind}

theorem annotates_addDeclaration : Annotates graph (graph.addDeclaration name owner kind) :=
  Annotates.ofSymbols extends_addDeclaration rfl (fun _ => ⟨_, rfl⟩) rfl

theorem enriches_addDeclaration (final : ∀ source name target, kind ≠ .imported source name target)
    (new : (graph.addDeclaration name owner kind).DeclarationSound
      ⟨graph.symbols.declarations.size⟩ { name, owner, kind }) :
    Enriches graph (graph.addDeclaration name owner kind) := by
  refine Enriches.ofSymbols annotates_addDeclaration includesDeclaration_addDeclaration
    (fun _ => rfl) (fun {id} inside => ?_) fun sound => sound.addDeclaration new
  refine (hasDeclaration_addDeclaration.mp inside).imp_right fun added => ?_
  subst added
  have entry : (graph.addDeclaration name owner kind).symbols.declarationAt
      ⟨graph.symbols.declarations.size⟩ = { name, owner, kind } := declarationAt_addDeclaration_new
  intro source imported target
  rw [← addDeclaration, entry]
  exact final source imported target

end Added

theorem enriches_modifyExternal {id : ExternalId} {change : External → External}
    (used : ∀ external, (change external).used = external.used)
    (changed : graph.HasProvider (.external id) →
      (change (graph.symbols.externalAt id)).declarations =
          (graph.symbols.externalAt id).declarations ∨
        (graph.modifyExternal id change).ExternalSound id (change (graph.symbols.externalAt id))) :
    Enriches graph (graph.modifyExternal id change) := by
  refine Enriches.ofSymbols ?_ (fun _ => rfl) (fun other => ?_) .inl
    fun sound => sound.modifyExternal changed
  · exact Annotates.ofSymbols extends_modifyExternal rfl (fun _ => ⟨_, rfl⟩)
      (by simp [Symbols.modifyExternal])
  · rw [Symbols.externalAt_modifyExternal]
    split
    · exact used _
    · rfl

theorem develops_proposeName (id : ExternalId) (hint : String) :
    Develops graph (graph.withSymbols (graph.symbols.proposeName id hint)) := by
  refine ⟨enriches_modifyExternal (fun external => ?_) fun _ => .inl ?_,
    Symbols.remembers_proposeName id hint⟩
  · rw [External.propose]
    split <;> rfl
  · exact Symbols.declarations_propose _ hint

theorem develops_setExports {id : ModuleId} {resolvedExports : List (String × DeclId)}
    (visible : ∀ entry ∈ resolvedExports, graph.Visible id entry.2 ∧ graph.Final entry.2) :
    Develops graph (graph.modifyModule id fun m => { m with resolvedExports }) := by
  have extension : Extends graph (graph.modifyModule id fun m => { m with resolvedExports }) :=
    extends_modifyModule fun _ => ⟨rfl, rfl⟩
  refine ⟨Enriches.ofSymbols ?_ (fun _ => rfl) (fun _ => rfl) .inl fun sound => ?_,
    Symbols.remembers_modifyModule id _⟩
  · refine Annotates.ofSymbols extension (by simp [Symbols.modifyModule]) (fun other => ?_) rfl
    rw [Symbols.moduleAt_modifyModule]
    split <;> exact ⟨_, rfl⟩
  · refine sound.modifyModule extension fun there => ?_
    exact { extension.moduleSound (sound.modules there) with
      resolved := fun entry member =>
        have before := visible entry member
        ⟨extension.visible before.1, extension.final before.1.inside before.2⟩ }

section Target

variable {id : DeclId} {source : Provider} {name : String}

theorem declarationAt_setTarget {symbols : Symbols}
    (kind : (symbols.declarationAt id).kind = .imported source name none)
    (target declaration : DeclId) : (symbols.setTarget id target).declarationAt declaration =
      if declaration = id then
        { symbols.declarationAt id with kind := .imported source name (some target) }
      else symbols.declarationAt declaration := by
  rw [Symbols.setTarget, Symbols.declarationAt_modifyDeclaration]
  have inside := Symbols.lt_of_imported kind
  by_cases same : declaration = id
  · subst same
    simp only [inside, and_true, if_true, kind]
  · simp only [same, false_and, if_false]

theorem develops_setTarget {owner : ModuleId} {target : DeclId}
    (kind : (graph.symbols.declarationAt id).kind = .imported source name none)
    (owned : (graph.symbols.declarationAt id).owner = some (.internal owner))
    (visible : graph.Visible owner target) (final : graph.Final target) :
    Develops graph (graph.withSymbols (graph.symbols.setTarget id target)) := by
  have entry := declarationAt_setTarget kind target
  have size : (graph.symbols.setTarget id target).declarations.size =
      graph.symbols.declarations.size := by
    simp [Symbols.setTarget, Symbols.modifyDeclaration]
  have extension : Extends graph (graph.withSymbols (graph.symbols.setTarget id target)) :=
    { Extends.refl graph with
      declarations := Nat.le_of_eq size.symm
      owner := fun {other} _ => by
        rw [withSymbols, entry]
        split
        next same => rw [same]
        next => rfl
      kind := fun {other} _ => by
        rw [withSymbols, entry]
        split
        next same =>
            rw [same, kind]
            exact .linked
        next => exact .same }
  have annotates := Annotates.ofSymbols extension rfl (fun _ => ⟨_, rfl⟩) rfl
  refine ⟨Enriches.ofSymbols annotates (fun other => ?_) (fun _ => rfl)
    (fun inside => .inl (Nat.lt_of_lt_of_eq inside size)) fun sound => ?_,
    Symbols.remembers_setTarget id target⟩
  · rw [includesDeclaration, withSymbols, entry]
    split
    next same =>
        rw [same]
        rfl
    next => rfl
  · refine sound.step extension sound.arena sound.marks (fun there => .inl ⟨there, rfl⟩) ?_
      (fun there => .inl ⟨there, rfl⟩) .inl sound.scopeCount (fun _ => .inl rfl)
      fun found => .inl ⟨found, rfl⟩
    intro other inside
    have before : graph.HasDeclaration other := Nat.lt_of_lt_of_eq inside size
    rw [withSymbols, entry]
    split
    next same =>
        subst same
        obtain ⟨home, at_home, links, -⟩ := (sound.declarations before).imported kind
        obtain rfl : home = owner := by
          rw [owned] at at_home
          cases at_home
          rfl
        refine .inr ⟨by simp, fun {_ _ found} linked => ?_, by simp, by simp⟩
        cases linked
        refine ⟨home, owned, extension.links links, fun found is => ?_⟩
        cases is
        exact ⟨extension.visible visible, extension.final visible.inside final⟩
    next => exact .inl ⟨before, rfl⟩

end Target

theorem visible_of_kind {kind : DeclarationKind} {declaration : DeclId}
    (there : graph.HasDeclaration declaration ∧
      (graph.symbols.declarationAt declaration).kind = kind)
    (outside : kind = .free ∨ ∃ source name, kind = .provided source name) (id : ModuleId) :
    graph.Visible id declaration ∧ graph.Final declaration := by
  obtain ⟨inside, same⟩ := there
  rcases outside with rfl | ⟨source, name, rfl⟩
  all_goals
    exact ⟨⟨inside, fun other => absurd (same.symm.trans other) (by simp),
        fun other => absurd (same.symm.trans other) (by simp),
        fun other => absurd (same.symm.trans other) (by simp)⟩,
      fun _ _ _ other => absurd (same.symm.trans other) (by simp)⟩

theorem enriches_insertGlobal {name : String} {id : DeclId}
    (new : graph.HasDeclaration id ∧ (graph.symbols.declarationAt id).kind = .free) :
    Enriches graph (graph.withSymbols
      { graph.symbols with globals := graph.symbols.globals.insert name id }) := by
  have extension : Extends graph (graph.withSymbols
      { graph.symbols with globals := graph.symbols.globals.insert name id }) :=
    { Extends.refl graph with }
  refine Enriches.ofSymbols { Annotates.refl graph with } (fun _ => rfl) (fun _ => rfl) .inl
    fun sound => ?_
  refine sound.step extension sound.arena sound.marks (fun there => .inl ⟨there, rfl⟩)
    (fun inside => .inl ⟨inside, rfl⟩) (fun there => .inl ⟨there, rfl⟩)
    (fun {key declaration} found => ?_) sound.scopeCount (fun _ => .inl rfl)
    fun found => .inl ⟨found, rfl⟩
  rw [withSymbols, Std.TreeMap.getElem?_insert] at found
  split at found
  · cases found
    exact .inr new
  · exact .inl found

/-! ## What is shared -/

theorem enriches_externalDeclaration (sound : graph.Sound) {id : ExternalId}
    (known : graph.HasProvider (.external id)) (name : String) :
    Enriches graph (graph.withSymbols (graph.symbols.externalDeclaration id name).2) ∧
      (graph.withSymbols (graph.symbols.externalDeclaration id name).2).HasDeclaration
        (graph.symbols.externalDeclaration id name).1 ∧
      ((graph.symbols.externalDeclaration id name).2.declarationAt
        (graph.symbols.externalDeclaration id name).1).kind = .provided id name := by
  rw [Symbols.externalDeclaration]
  split
  next declaration found => exact ⟨Enriches.refl graph, sound.externals known found⟩
  next =>
      have added : Enriches graph (graph.addDeclaration (graph.symbols.providedName id name)
          (some (.external id)) (.provided id name)) :=
        enriches_addDeclaration (by simp) ⟨by simp, by simp, by simp, fun kind => by cases kind; exact known⟩
      have new : (graph.addDeclaration (graph.symbols.providedName id name) (some (.external id))
          (.provided id name)).HasDeclaration ⟨graph.symbols.declarations.size⟩ ∧
          ((graph.addDeclaration (graph.symbols.providedName id name) (some (.external id))
            (.provided id name)).symbols.declarationAt ⟨graph.symbols.declarations.size⟩).kind =
              .provided id name :=
        ⟨hasDeclaration_addDeclaration.mpr (.inr rfl),
          congrArg Declaration.kind declarationAt_addDeclaration_new⟩
      refine ⟨added.trans (enriches_modifyExternal (fun _ => rfl) fun there => .inr ?_), new⟩
      intro key declaration found
      rw [Std.TreeMap.getElem?_insert] at found
      split at found
      next same =>
          cases found
          rw [← Std.LawfulEqCmp.eq_of_compare same]
          exact new
      next =>
          exact extends_modifyExternal.kind_eq (added.sound sound |>.externals there found) (by simp)

theorem develops_externalDeclaration (sound : graph.Sound) {id : ExternalId}
    (known : graph.HasProvider (.external id)) (name : String) :
    Develops graph (graph.withSymbols (graph.symbols.externalDeclaration id name).2) ∧
      (graph.withSymbols (graph.symbols.externalDeclaration id name).2).HasDeclaration
        (graph.symbols.externalDeclaration id name).1 ∧
      ((graph.symbols.externalDeclaration id name).2.declarationAt
        (graph.symbols.externalDeclaration id name).1).kind = .provided id name := by
  obtain ⟨enriches, there⟩ := enriches_externalDeclaration sound known name
  exact ⟨⟨enriches, Symbols.remembers_externalDeclaration known name⟩, there⟩

theorem enriches_globalDeclaration (sound : graph.Sound) (name : String) :
    Enriches graph (graph.withSymbols (graph.symbols.globalDeclaration name).2) ∧
      (graph.withSymbols (graph.symbols.globalDeclaration name).2).HasDeclaration
        (graph.symbols.globalDeclaration name).1 ∧
      ((graph.symbols.globalDeclaration name).2.declarationAt
        (graph.symbols.globalDeclaration name).1).kind = .free := by
  rw [Symbols.globalDeclaration]
  split
  next declaration found => exact ⟨Enriches.refl graph, sound.globals found⟩
  next =>
      have added : Enriches graph (graph.addDeclaration name none .free) :=
        enriches_addDeclaration (by simp) ⟨by simp, by simp, by simp, by simp⟩
      have new : (graph.addDeclaration name none .free).HasDeclaration
          ⟨graph.symbols.declarations.size⟩ ∧
          ((graph.addDeclaration name none .free).symbols.declarationAt
            ⟨graph.symbols.declarations.size⟩).kind = .free :=
        ⟨hasDeclaration_addDeclaration.mpr (.inr rfl),
          congrArg Declaration.kind declarationAt_addDeclaration_new⟩
      exact ⟨added.trans (enriches_insertGlobal new), new⟩

theorem develops_globalDeclaration (sound : graph.Sound) (name : String) :
    Develops graph (graph.withSymbols (graph.symbols.globalDeclaration name).2) ∧
      (graph.withSymbols (graph.symbols.globalDeclaration name).2).HasDeclaration
        (graph.symbols.globalDeclaration name).1 ∧
      ((graph.symbols.globalDeclaration name).2.declarationAt
        (graph.symbols.globalDeclaration name).1).kind = .free := by
  obtain ⟨enriches, there⟩ := enriches_globalDeclaration sound name
  exact ⟨⟨enriches, graph.symbols.remembers_globalDeclaration name⟩, there⟩

/-! ## Origins -/

/-- The origin is one that the module can see, or lies outside. -/
def OriginVisible (graph : Graph) (id : ModuleId) : Origin → Prop
  | .declaration declaration => graph.Visible id declaration ∧ graph.Final declaration
  | .provided source _ => graph.HasProvider (.external source)

theorem OriginVisible.through {id middle : ModuleId} {origin : Origin}
    (reaches : graph.Reaches id middle) (visible : graph.OriginVisible middle origin) :
    graph.OriginVisible id origin := by
  cases origin with
  | declaration declaration => exact ⟨visible.1.through reaches, visible.2⟩
  | provided source name => exact visible

theorem Sound.takes (sound : graph.Sound) {id : ModuleId} {name : String} {source : Provider}
    {imported : String} (takes : graph.symbols.Takes id name source imported) :
    graph.Links id source := by
  cases takes with
  | again found => exact (sound.modules (Symbols.lt_of_export found)).again found
  | imported found kind =>
      have belongs := (sound.modules (Symbols.lt_of_export found)).own found
      obtain ⟨owner, owned, links, -⟩ := (sound.declarations belongs.inside).imported kind
      rw [belongs.owner] at owned
      cases owned
      exact links

theorem Sound.passes (sound : graph.Sound) {id : ModuleId} {name : String} {source : Provider}
    {imported : String} (passed : graph.symbols.Passes (.internal id) name source imported) :
    graph.Links id source := by
  cases passed with
  | explicitly taken => exact sound.takes taken.1
  | byStar starred =>
      exact (sound.modules (Symbols.lt_of_mem_starSources starred.2.2)).star source starred.2.2

theorem Sound.namespaceOrigin (sound : graph.Sound) {id : ModuleId} {source : Provider}
    (links : graph.Links id source) :
    graph.OriginVisible id (graph.symbols.namespaceOrigin source) := by
  have known := sound.known links
  cases source with
  | external source => exact known
  | internal source =>
      obtain ⟨inside, kind⟩ := (sound.modules known).namespaceDecl
      refine ⟨⟨inside, ?_, ?_, ?_⟩, ?_⟩
      · exact fun other => absurd (kind.symm.trans other) (by simp)
      · exact fun other => absurd (kind.symm.trans other) (by simp)
      · intro home other
        cases kind.symm.trans other
        exact .single links
      · exact fun _ _ _ other => absurd (kind.symm.trans other) (by simp)

/-- The origin is visible from the source itself, which is a module or lies outside. -/
def OriginSeen (graph : Graph) : Provider → Origin → Prop
  | .internal id, origin => graph.OriginVisible id origin
  | .external _, .declaration _ => False
  | .external _, .provided source _ => graph.HasProvider (.external source)

/-- The source lies outside or is a module that the given one reaches. -/
def Sees (graph : Graph) (id : ModuleId) : Provider → Prop
  | .internal source => graph.Reaches id source
  | .external _ => True

theorem Links.sees {id : ModuleId} {source : Provider} (links : graph.Links id source) :
    graph.Sees id source := by
  cases source with
  | internal source => exact .single links
  | external source => trivial

theorem OriginSeen.visible {id : ModuleId} {source : Provider} {origin : Origin}
    (sees : graph.Sees id source) (seen : graph.OriginSeen source origin) :
    graph.OriginVisible id origin := by
  cases source with
  | internal source => exact seen.through sees
  | external source =>
      cases origin with
      | declaration declaration => exact seen.elim
      | provided other name => exact seen

theorem Sound.answers (sound : graph.Sound) {source : Provider} {name : String} {origin : Origin}
    (known : graph.HasProvider source) (answer : graph.symbols.Answers source name origin) :
    graph.OriginSeen source origin := by
  cases answer with
  | external => exact known
  | declared found final =>
      exact ⟨((sound.modules known).own found).visible, final⟩
  | linked found kind =>
      have belongs := (sound.modules known).own found
      obtain ⟨owner, owned, -, visible⟩ := (sound.declarations belongs.inside).imported kind
      rw [belongs.owner] at owned
      cases owned
      exact visible _ rfl
  | whole takes => exact sound.namespaceOrigin (sound.takes takes)

/-- What a module provides is visible from it. -/
theorem Sound.provides (sound : graph.Sound) {source : Provider} {name : String} {origin : Origin}
    (known : graph.HasProvider source) (provided : graph.symbols.Provides source name origin) :
    graph.OriginSeen source origin := by
  induction provided with
  | here answer => exact sound.answers known answer
  | @beyond source name next imported origin passed _ ih =>
      cases source with
      | external => cases passed
      | internal id =>
          have links := sound.passes passed
          exact (ih (sound.known links)).visible links.sees

/-- The declaration of an origin that a module can see is one that it can see. -/
theorem develops_intern (sound : graph.Sound) {id : ModuleId} {origin : Origin}
    (visible : graph.OriginVisible id origin) :
    Develops graph (graph.withSymbols (graph.symbols.intern origin).2) ∧
      (graph.withSymbols (graph.symbols.intern origin).2).Visible id
        (graph.symbols.intern origin).1 ∧
      (graph.withSymbols (graph.symbols.intern origin).2).Final
        (graph.symbols.intern origin).1 := by
  cases origin with
  | declaration declaration => exact ⟨Develops.refl graph, visible⟩
  | provided source name =>
      obtain ⟨develops, there⟩ := develops_externalDeclaration sound visible name
      exact ⟨develops, visible_of_kind there (.inr ⟨source, name, rfl⟩) id⟩

/-- Asking a source that a module sees for an export finds nothing or something that the module can
    see. -/
theorem develops_resolveExport? (sound : graph.Sound) {source : Provider}
    (known : graph.HasProvider source) (name : String) :
    Develops graph (graph.withSymbols ((Symbols.resolveExport? source name).outcome graph.symbols).2) ∧
      ∀ declaration, ((Symbols.resolveExport? source name).outcome graph.symbols).1 =
          .ok (some declaration) → ∀ id, graph.Sees id source →
        (graph.withSymbols ((Symbols.resolveExport? source name).outcome graph.symbols).2).Visible id
            declaration ∧
          (graph.withSymbols ((Symbols.resolveExport? source name).outcome graph.symbols).2).Final
            declaration := by
  rw [Symbols.resolveExport?_outcome]
  have spec := graph.symbols.exportOrigin?_spec source name
  split
  next origin found =>
      rw [found] at spec
      have seen := sound.provides known spec
      refine ⟨?_, fun declaration same id sees => ?_⟩
      · cases origin with
        | declaration declaration => exact Develops.refl graph
        | provided other imported =>
            have there : graph.HasProvider (.external other) := by cases source <;> exact seen
            exact (develops_externalDeclaration sound there imported).1
      · cases same
        exact (develops_intern sound (seen.visible sees)).2
  next => exact ⟨Develops.refl graph, by simp⟩
  next => exact ⟨Develops.refl graph, by simp⟩

end Bundler.Graph
