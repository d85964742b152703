import Bundler.Proofs.Exports.Publication
import Bundler.Proofs.Exports.Termination
import Bundler.Proofs.Graph.Answers
import Bundler.Proofs.Graph.Linking

/-! # Linking comes to an end

`Symbols.link` goes through the declarations that are there when it starts.  A loop that goes on as long as
there are declarations behind it, those included that it adds itself, comes to an end too, and does the
same: what it adds stands for something of an external module, and is no import.
-/

namespace Bundler.Symbols

/-- Finding the target of an import that has none comes to an end. -/
inductive LinksImport (symbols : Symbols) (id : DeclId) : Except Fault Unit × Symbols → Prop where
  | settled :
    (∀ source name, (symbols.declarationAt id).kind ≠ .imported source name none) →
    LinksImport symbols id (.ok (), symbols)
  | whole {source} :
    (symbols.declarationAt id).kind = .imported source wholeModule none →
    LinksImport symbols id
      (.ok (), (symbols.namespaceDeclaration source).2.setTarget id (symbols.namespaceDeclaration source).1)
  | found {source name depth target after} :
    (symbols.declarationAt id).kind = .imported source name none → name ≠ wholeModule →
    Traces symbols depth source name (.ok (some target), after) →
    LinksImport symbols id (.ok (), after.setTarget id target)
  | missing {source name depth after} :
    (symbols.declarationAt id).kind = .imported source name none → name ≠ wholeModule →
    Traces symbols depth source name (.ok none, after) →
    LinksImport symbols id
      (.error (.missingImport (((symbols.declarationAt id).owner.map symbols.specifier).getD "")
        (symbols.specifier source) name), after)
  | failed {source name depth fault after} :
    (symbols.declarationAt id).kind = .imported source name none → name ≠ wholeModule →
    Traces symbols depth source name (.error fault, after) →
    LinksImport symbols id (.error fault, after)

/-- Linking with a loop over the declarations that are there by the time the loop gets to them, from the
    given one on, comes to an end. -/
inductive LinksFrom : (index : Nat) → Symbols → Except Fault Unit × Symbols → Prop where
  | exports {index symbols} :
    symbols.declarations.size ≤ index →
    LinksFrom index symbols ((symbols.moduleIds.forM linkExports).outcome symbols)
  | failed {index symbols fault after} :
    index < symbols.declarations.size → LinksImport symbols ⟨index⟩ (.error fault, after) →
    LinksFrom index symbols (.error fault, after)
  | next {index symbols after outcome} :
    index < symbols.declarations.size → LinksImport symbols ⟨index⟩ (.ok (), after) →
    LinksFrom (index + 1) after outcome → LinksFrom index symbols outcome

variable {symbols after : Symbols} {index : Nat}

/-! ## One import -/

section Import

variable {id : DeclId} {source : Provider} {name : String}

theorem intern_namespaceOrigin (symbols : Symbols) (source : Provider) :
    symbols.intern (symbols.namespaceOrigin source) = symbols.namespaceDeclaration source := by
  cases source <;> rfl

/-- Finding the target of one import comes to an end, and in only one way. -/
theorem linksImport_iff {outcome : Except Fault Unit × Symbols} :
    LinksImport symbols id outcome ↔ outcome = (linkImport id).outcome symbols := by
  have traced : ∀ {source name}, (symbols.declarationAt id).kind = .imported source name none →
      name ≠ wholeModule → symbols.declarationOrigin? id = symbols.exportOrigin? source name :=
    fun kind named => (declarationOrigin?_of_kind kind).trans (if_neg named)
  constructor
  · intro links
    cases links with
    | settled targeted => exact (linkImport_of_targeted targeted).symm
    | whole kind =>
        rw [linkImport_of_kind kind, declarationOrigin?_of_kind kind, requestOrigin?, if_pos rfl,
          ← intern_namespaceOrigin]
    | found kind named traces | missing kind named traces | failed kind named traces =>
        rw [linkImport_of_kind kind, traced kind named]
        cases traces with
        | _ searches => rw [← (symbols.searches_exportOrigin? _ _).2 searches]
  · rintro rfl
    by_cases untargeted : ∃ source name, (symbols.declarationAt id).kind = .imported source name none
    · obtain ⟨source, name, kind⟩ := untargeted
      rw [linkImport_of_kind kind]
      by_cases named : name = wholeModule
      · subst named
        rw [declarationOrigin?_of_kind kind, requestOrigin?, if_pos rfl]
        dsimp only
        rw [intern_namespaceOrigin]
        exact .whole kind
      have ends := (symbols.searches_exportOrigin? source name).1
      rw [traced kind named]
      cases search : symbols.exportOrigin? source name with
      | error fault => exact .failed kind named (.failed (search ▸ ends))
      | ok found =>
          cases found with
          | none => exact .missing kind named (.missing (search ▸ ends))
          | some origin => exact .found kind named (.found (search ▸ ends))
    · have targeted : ∀ source name, (symbols.declarationAt id).kind ≠ .imported source name none :=
        fun source name kind => untargeted ⟨source, name, kind⟩
      rw [linkImport_of_targeted targeted]
      exact .settled targeted

end Import

theorem LinksFrom.unique {outcome other : Except Fault Unit × Symbols}
    (links : LinksFrom index symbols outcome) (again : LinksFrom index symbols other) :
    other = outcome := by
  induction links generalizing other with
  | exports behind =>
      cases again with
      | exports => rfl
      | failed inside => exact absurd behind (Nat.not_le.mpr inside)
      | next inside => exact absurd behind (Nat.not_le.mpr inside)
  | failed inside fails =>
      have fails := linksImport_iff.mp fails
      cases again with
      | exports behind => exact absurd behind (Nat.not_le.mpr inside)
      | failed _ fails' => exact (linksImport_iff.mp fails').trans fails.symm
      | next _ succeeds => cases fails.trans (linksImport_iff.mp succeeds).symm
  | next inside succeeds _ ih =>
      have succeeds := linksImport_iff.mp succeeds
      cases again with
      | exports behind => exact absurd behind (Nat.not_le.mpr inside)
      | failed _ fails => cases succeeds.trans (linksImport_iff.mp fails).symm
      | next _ succeeds' later =>
          cases succeeds.trans (linksImport_iff.mp succeeds').symm
          exact ih later

/-! ## What linking adds -/

/-- No declaration from the given one on is an import without a target. -/
def TargetedFrom (symbols : Symbols) (index : Nat) : Prop :=
  ∀ id : DeclId, index ≤ id.index → ∀ source name,
    (symbols.declarationAt id).kind ≠ .imported source name none

theorem TargetedFrom.outside (symbols : Symbols) : symbols.TargetedFrom symbols.declarations.size :=
  fun _ outside _ _ kind => absurd (lt_of_imported kind) (Nat.not_lt.mpr outside)

theorem TargetedFrom.intern (targeted : symbols.TargetedFrom index) (origin : Origin) :
    (symbols.intern origin).2.TargetedFrom index := by
  cases origin with
  | declaration => exact targeted
  | provided source name =>
      rw [Symbols.intern, externalDeclaration]
      split
      next => exact targeted
      next =>
          intro id behind imported from' kind
          dsimp only at kind
          change ((symbols.addDeclaration _ _ _).2.declarationAt id).kind = _ at kind
          rw [declarationAt_addDeclaration] at kind
          split at kind
          next => cases kind
          next => exact targeted id behind imported from' kind

theorem TargetedFrom.setTarget (targeted : symbols.TargetedFrom index) (id target : DeclId) :
    (symbols.setTarget id target).TargetedFrom index := by
  intro other behind source name
  rw [Symbols.setTarget, declarationAt_modifyDeclaration]
  split
  · split
    · simp
    · exact targeted other behind source name
  · exact targeted other behind source name

theorem size_intern (symbols : Symbols) (origin : Origin) :
    symbols.declarations.size ≤ (symbols.intern origin).2.declarations.size := by
  cases origin with
  | declaration => exact Nat.le_refl _
  | provided source name =>
      rw [intern, externalDeclaration]
      split
      · exact Nat.le_refl _
      · simp [addDeclaration, modifyExternal]

/-- The step of the loop adds no import, and takes no declaration away. -/
theorem linkImport_targetedFrom {id : DeclId} {result : Except Fault Unit}
    (outcome : (linkImport id).outcome symbols = (result, after)) (targeted : symbols.TargetedFrom index) :
    after.TargetedFrom index ∧ symbols.declarations.size ≤ after.declarations.size := by
  rcases Graph.linkImport_outcome symbols id with
    ⟨same, -⟩ | ⟨fault, same⟩ | ⟨source, name, origin, kind, -, linked⟩
  · cases same.symm.trans outcome
    exact ⟨targeted, Nat.le_refl _⟩
  · cases same.symm.trans outcome
    exact ⟨targeted, Nat.le_refl _⟩
  · cases linked.symm.trans outcome
    refine ⟨(targeted.intern origin).setTarget id _, ?_⟩
    simpa [setTarget, modifyDeclaration] using size_intern symbols origin

/-! ## The loops agree -/

/-- Over declarations that have their targets the loop runs without doing anything. -/
theorem TargetedFrom.linksFrom (targeted : symbols.TargetedFrom index) :
    LinksFrom index symbols ((symbols.moduleIds.forM linkExports).outcome symbols) := by
  induction remaining : symbols.declarations.size - index generalizing index with
  | zero => exact .exports (Nat.le_of_sub_eq_zero remaining)
  | succ count ih =>
      have later : symbols.TargetedFrom (index + 1) := fun id behind =>
        targeted id (Nat.le_of_succ_le behind)
      have inside : index < symbols.declarations.size := by omega
      exact .next inside (.settled (targeted ⟨index⟩ (Nat.le_refl index))) (ih later (by omega))

/-- The loop does what linking some declarations and then the exports does, if the declarations behind those
    have their targets. -/
theorem linksFrom_forM {count : Nat} (targeted : symbols.TargetedFrom (index + count))
    (inside : index + count ≤ symbols.declarations.size) :
    LinksFrom index symbols
      (match (((List.range' index count).map DeclId.mk).forM linkImport).outcome symbols with
      | (.ok _, middle) => (middle.moduleIds.forM linkExports).outcome middle
      | (.error fault, middle) => (.error fault, middle)) := by
  induction count generalizing index symbols with
  | zero => exact targeted.linksFrom
  | succ count ih =>
      have here : index < symbols.declarations.size := by omega
      rw [List.range'_succ, List.map_cons, List.forM_eq_forM, List.forM_cons, Step.outcome_bind]
      cases outcome : (linkImport ⟨index⟩).outcome symbols with
      | mk result after =>
          obtain ⟨still, more⟩ := linkImport_targetedFrom outcome targeted
          cases result with
          | error fault => exact .failed here (linksImport_iff.mpr outcome.symm)
          | ok done =>
              refine .next here (linksImport_iff.mpr outcome.symm) (ih ?_ ?_)
              · rwa [Nat.add_right_comm, Nat.add_assoc]
              · omega

/-- The loop ends as linking does, since at first all imports are before the end. -/
theorem linksFrom_link (symbols : Symbols) : LinksFrom 0 symbols (link.outcome symbols) := by
  have targeted : symbols.TargetedFrom (0 + symbols.declarations.size) := by
    rw [Nat.zero_add]
    exact .outside symbols
  have linked := linksFrom_forM targeted (Nat.le_of_eq (Nat.zero_add _))
  rw [← List.range_eq_range'] at linked
  rw [link_outcome]
  exact linked

/-- Tracing and linking come to an end, in only one way, for whatever modules export and import.  Asking
    for an export never has more requests inside of each other than `Symbols.trailBound` says; collecting
    the names that a module exports enters each module once; and linking gets to the end of the
    declarations although it adds to them. -/
theorem tracing_linking_terminate (symbols : Symbols) :
    (∀ source name,
      symbols.Traces symbols.trailBound source name ((resolveExport? source name).outcome symbols) ∧
        ∀ depth outcome, symbols.Traces depth source name outcome →
          outcome = (resolveExport? source name).outcome symbols) ∧
    (∀ id walked, (∃ depth, DepthFirst.Visits symbols.starModules depth {} [id] walked) ↔
      walked = DepthFirst.walk symbols.starModules (symbols.modules.size + 1) id) ∧
    ∀ outcome, LinksFrom 0 symbols outcome ↔ outcome = link.outcome symbols := by
  refine ⟨?_, ?_, ?_⟩
  · intro source name
    obtain ⟨ends, only⟩ := symbols.traces_resolveExport? source name
    exact ⟨ends, fun _ _ => only⟩
  · intro id walked
    have only : ∀ vertex, symbols.starModules vertex ≠ [] → vertex ∈ symbols.moduleIds.toFinset := by
      intro vertex some
      obtain ⟨source, member⟩ := List.exists_mem_of_ne_nil _ some
      exact List.mem_toFinset.mpr (mem_moduleIds.mpr (lt_of_mem_starSources (mem_starModules.mp member)))
    exact DepthFirst.visits_iff_walk only symbols.card_moduleIds
  · intro outcome
    constructor
    · exact fun links => (linksFrom_link symbols).unique links
    · rintro rfl
      exact linksFrom_link symbols

end Bundler.Symbols
