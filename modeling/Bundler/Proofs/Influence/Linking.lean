import Bundler.Proofs.Graph.Answers
import Bundler.Proofs.Influence.Requests
import Bundler.Proofs.Postorder

/-! # Linking a larger program

Linking goes through the imports of the smaller program first, in step with linking that program alone.
What the further modules import comes after that, and leaves alone what has been found; so it is with
exports.
-/

namespace Bundler

open Symbols (Twins Encloses Leaves)

/-! ## One-sided steps -/

namespace Symbols

variable {count old : Nat} {symbols core whole : Symbols}

theorem leaves_intern (bound : count ≤ symbols.declarations.size) {origin : Origin}
    (inside : ∀ source name, origin = .provided source name → source.index < symbols.externals.size) :
    Leaves old count symbols (symbols.intern origin).2 := by
  cases origin with
  | declaration => exact .refl symbols
  | provided source name => exact leaves_externalDeclaration bound (inside source name rfl) name

theorem leaves_setTarget {id target : DeclId} (large : count ≤ id.index) :
    Leaves old count symbols (symbols.setTarget id target) where
  remembers := symbols.remembers_setTarget id target
  modules := rfl
  externals := rfl
  declarations := Nat.le_of_eq Array.size_modify.symm
  moduleAt _ := rfl
  externalAt _ := .refl _
  declarationAt {other} small := by
    rw [setTarget, declarationAt_modifyDeclaration, if_neg]
    rintro ⟨rfl, -⟩
    exact Nat.lt_irrefl _ (Nat.lt_of_lt_of_le small large)

theorem leaves_setExports {id : ModuleId} {resolvedExports : List (String × DeclId)}
    (large : old ≤ id.index) :
    Leaves old count symbols (symbols.modifyModule id fun m => { m with resolvedExports }) where
  remembers := symbols.remembers_modifyModule id _
  modules := Array.size_modify.symm
  externals := rfl
  declarations := Nat.le_refl _
  moduleAt {other} small := by
    rw [moduleAt_modifyModule, if_neg]
    rintro ⟨rfl, -⟩
    exact Nat.lt_irrefl _ (Nat.lt_of_lt_of_le small large)
  externalAt _ := .refl _
  declarationAt _ := rfl

/-! ## Steps on both sides -/

namespace Encloses

variable (encloses : Encloses count core whole)

include encloses

/-- An import gets its twin targets in both programs. -/
theorem setTarget {id target target' : DeclId} (small : id.index < count) {source : Provider}
    {name : String} (kind : (core.declarationAt id).kind = .imported source name none)
    (kind' : (whole.declarationAt id).kind = .imported source name none)
    (twins : Twins count core whole target target') :
    Encloses count (core.setTarget id target) (whole.setTarget id target') := by
  have mono : ∀ {a b}, Twins count core whole a b →
      Twins count (core.setTarget id target) (whole.setTarget id target') a b :=
    (·.mono (core.remembers_setTarget id target) (whole.remembers_setTarget id target'))
  refine { encloses with inside := ?_, inside' := ?_, moduleAt := ?_, declarationAt := ?_ }
  · exact encloses.inside.trans_eq Array.size_modify.symm
  · exact encloses.inside'.trans_eq Array.size_modify.symm
  · intro owner there
    obtain ⟨resolvedExports, exports, entry⟩ := encloses.moduleAt there
    exact ⟨resolvedExports, exports.mono mono, entry⟩
  · intro other small
    have both := encloses.declarationAt small
    rw [Graph.declarationAt_setTarget kind, Graph.declarationAt_setTarget kind']
    split
    next same =>
        subst same
        exact ⟨both.name, both.owner, .linked (mono twins)⟩
    next => exact { both with kind := both.kind.mono mono }

/-- The exports of a module are listed as twins in both programs. -/
theorem setExports {id : ModuleId} (there : id.index < core.modules.size)
    {resolvedExports resolvedExports' : List (String × DeclId)}
    (twins : ExportTwins (Twins count core whole) resolvedExports resolvedExports') :
    Encloses count (core.modifyModule id fun m => { m with resolvedExports })
      (whole.modifyModule id fun m => { m with resolvedExports := resolvedExports' }) := by
  have mono : ∀ {a b}, Twins count core whole a b →
      Twins count (core.modifyModule id fun m => { m with resolvedExports })
        (whole.modifyModule id fun m => { m with resolvedExports := resolvedExports' }) a b :=
    (·.mono (core.remembers_modifyModule id _) (whole.remembers_modifyModule id _))
  have size : (core.modifyModule id fun m => { m with resolvedExports }).modules.size =
      core.modules.size := Array.size_modify
  have same : ∀ other, ((core.modifyModule id fun m => { m with resolvedExports }).moduleAt other).exports =
        (core.moduleAt other).exports ∧
      ((core.modifyModule id fun m => { m with resolvedExports }).moduleAt other).namespaceDecl =
        (core.moduleAt other).namespaceDecl := by
    intro other
    rw [moduleAt_modifyModule]
    split <;> exact ⟨rfl, rfl⟩
  refine { encloses with
    modules := ?_, moduleAt := ?_, own := ?_, home := ?_, declarationAt := ?_ }
  · exact size.trans_le (encloses.modules.trans_eq Array.size_modify.symm)
  · intro other inside
    obtain ⟨listed, exports, entry⟩ := encloses.moduleAt (Nat.lt_of_lt_of_eq inside size)
    rw [moduleAt_modifyModule, moduleAt_modifyModule]
    by_cases here : other = id
    · have there' := Nat.lt_of_lt_of_le there encloses.modules
      rw [if_pos ⟨here, there⟩, if_pos ⟨here, there'⟩]
      exact ⟨resolvedExports', twins.mono mono, by rw [entry]⟩
    · rw [if_neg fun both => here both.1, if_neg fun both => here both.1]
      exact ⟨listed, exports.mono mono, entry⟩
  · intro other name declaration found
    exact encloses.own ((same other).1 ▸ found)
  · intro other inside
    rw [(same other).2]
    exact encloses.home (Nat.lt_of_lt_of_eq inside size)
  · intro other small
    have both := encloses.declarationAt small
    exact { both with kind := both.kind.mono mono }

end Encloses

/-! ## Lists of ids -/

theorem declarationIds_split (bound : count ≤ symbols.declarations.size) :
    ∃ rest, symbols.declarationIds = (List.range count).map DeclId.mk ++ rest ∧
      ∀ id ∈ rest, count ≤ id.index := by
  obtain ⟨more, same⟩ := Nat.exists_eq_add_of_le bound
  refine ⟨_, by rw [declarationIds, same, List.range_add, List.map_append], fun id member => ?_⟩
  obtain ⟨i, among, rfl⟩ := List.mem_map.mp member
  obtain ⟨j, -, rfl⟩ := List.mem_map.mp among
  exact Nat.le_add_right count j

theorem moduleIds_split (bound : old ≤ symbols.modules.size) :
    ∃ rest, symbols.moduleIds = (List.range old).map ModuleId.mk ++ rest ∧
      ∀ id ∈ rest, old ≤ id.index ∧ id.index < symbols.modules.size := by
  obtain ⟨more, same⟩ := Nat.exists_eq_add_of_le bound
  refine ⟨_, by rw [moduleIds, same, List.range_add, List.map_append], fun id member => ?_⟩
  obtain ⟨i, among, rfl⟩ := List.mem_map.mp member
  obtain ⟨j, small, rfl⟩ := List.mem_map.mp among
  exact ⟨Nat.le_add_right old j, same ▸ Nat.add_lt_add_left (List.mem_range.mp small) old⟩

end Symbols

namespace Graph

variable {count : Nat} {core whole : Graph} {after after' : Symbols}

/-! ## Imports -/

theorem OriginVisible.external {graph : Graph} {id : ModuleId} {origin : Origin}
    (visible : graph.OriginVisible id origin) (source : ExternalId) (name : String)
    (same : origin = .provided source name) : graph.HasProvider (.external source) := by
  subst same
  exact visible

theorem declarationOrigin?_twins (encloses : Encloses count core.symbols whole.symbols) (sound : core.Sound)
    {id : DeclId} {source : Provider} {name : String}
    (kind : (core.symbols.declarationAt id).kind = .imported source name none)
    (kind' : (whole.symbols.declarationAt id).kind = .imported source name none) :
    AnswerTwins (Twins count core.symbols whole.symbols) (core.symbols.declarationOrigin? id)
      (whole.symbols.declarationOrigin? id) := by
  obtain ⟨owner, -, links, -⟩ := (sound.declarations (Symbols.lt_of_imported kind)).imported kind
  have known := sound.known links
  rw [Symbols.declarationOrigin?, Symbols.declarationOrigin?, Symbols.bindingOrigin?,
    Symbols.bindingOrigin?, kind, kind']
  dsimp only
  rw [Symbols.requestOrigin?, Symbols.requestOrigin?]
  split
  next => exact .found (namespaceOrigin_twins encloses known)
  next => exact exportOrigin?_twins encloses sound known name

/-- An import of the smaller program is linked in both programs. -/
theorem linkImport_twins (encloses : Encloses count core.symbols whole.symbols) (sound : core.Sound)
    {id : DeclId} (small : id.index < count)
    (linked : (Symbols.linkImport id).outcome core.symbols = (.ok (), after))
    (linked' : (Symbols.linkImport id).outcome whole.symbols = (.ok (), after')) :
    Encloses count after after' := by
  have kinds := encloses.kind small
  rcases linkImport_outcome core.symbols id with
    ⟨same, targeted⟩ | ⟨fault, same⟩ | ⟨source, name, origin, kind, found, same⟩
  · rcases linkImport_outcome whole.symbols id with
      ⟨same', -⟩ | ⟨fault, same'⟩ | ⟨source, name, origin', kind', -, same'⟩
    · cases same.symm.trans linked
      cases same'.symm.trans linked'
      exact encloses
    · cases same'.symm.trans linked'
    · rw [kind'] at kinds
      generalize kind : (core.symbols.declarationAt id).kind = here at kinds
      cases kinds
      exact absurd kind (targeted _ _)
  · cases same.symm.trans linked
  · have kind' : (whole.symbols.declarationAt id).kind = .imported source name none := by
      rw [kind] at kinds
      generalize (whole.symbols.declarationAt id).kind = there at kinds ⊢
      cases kinds
      rfl
    have answers := declarationOrigin?_twins encloses sound kind kind'
    obtain ⟨owner, -, visible⟩ := sound.declarationOrigin kind found
    have inside := Nat.lt_of_lt_of_le small encloses.inside
    have inside' := Nat.lt_of_lt_of_le small encloses.inside'
    rcases linkImport_outcome whole.symbols id with
      ⟨-, targeted⟩ | ⟨fault, same'⟩ | ⟨_, _, origin', -, found', same'⟩
    · exact absurd kind' (targeted _ _)
    · cases same'.symm.trans linked'
    · cases same.symm.trans linked
      cases same'.symm.trans linked'
      rw [found, found'] at answers
      cases answers with
      | found twins =>
          obtain ⟨interned, target⟩ := encloses.intern twins visible.external
          exact interned.setTarget small
            ((congrArg Declaration.kind (Symbols.declarationAt_intern inside origin)).trans kind)
            ((congrArg Declaration.kind (Symbols.declarationAt_intern inside' origin')).trans kind') target

theorem linkImports_twins (encloses : Encloses count core.symbols whole.symbols) (sound : core.Sound)
    {ids : List DeclId} (small : ∀ id ∈ ids, id.index < count)
    (linked : (ids.forM Symbols.linkImport).outcome core.symbols = (.ok (), after))
    (linked' : (ids.forM Symbols.linkImport).outcome whole.symbols = (.ok (), after')) :
    Encloses count after after' := by
  induction ids generalizing core whole with
  | nil =>
      cases linked
      cases linked'
      exact encloses
  | cons id rest ih =>
      rw [List.forM_eq_forM, List.forM_cons] at linked linked'
      obtain ⟨_, middle, first, linked⟩ := Step.ok_of_bind linked
      obtain ⟨_, middle', first', linked'⟩ := Step.ok_of_bind linked'
      have develops := (develops_linkImport sound id).1
      rw [first] at develops
      have between : Encloses count (core.withSymbols middle).symbols (whole.withSymbols middle').symbols :=
        linkImport_twins encloses sound (small id List.mem_cons_self) first first'
      exact ih between (develops.sound sound) (fun id member => small id (List.mem_cons_of_mem _ member))
        linked linked'

/-- An import of a further module leaves what the smaller program has found. -/
theorem leaves_linkImport {old : Nat} (sound : whole.Sound)
    (bound : count ≤ whole.symbols.declarations.size)
    {id : DeclId} (large : count ≤ id.index) :
    Leaves old count whole.symbols ((Symbols.linkImport id).outcome whole.symbols).2 := by
  rcases linkImport_outcome whole.symbols id with
    ⟨same, -⟩ | ⟨fault, same⟩ | ⟨source, name, origin, kind, found, same⟩
  · rw [same]
    exact .refl _
  · rw [same]
    exact .refl _
  · obtain ⟨owner, -, visible⟩ := sound.declarationOrigin kind found
    rw [same]
    exact (Symbols.leaves_intern bound visible.external).trans (Symbols.leaves_setTarget large)

theorem leaves_linkImports {old : Nat} (sound : whole.Sound)
    (bound : count ≤ whole.symbols.declarations.size)
    {ids : List DeclId} (large : ∀ id ∈ ids, count ≤ id.index) :
    Leaves old count whole.symbols ((ids.forM Symbols.linkImport).outcome whole.symbols).2 := by
  induction ids generalizing whole with
  | nil => exact .refl _
  | cons id rest ih =>
      have here : Leaves old count whole.symbols ((Symbols.linkImport id).outcome whole.symbols).2 :=
        leaves_linkImport sound bound (large id List.mem_cons_self)
      have develops := (develops_linkImport sound id).1
      rw [List.forM_eq_forM, List.forM_cons]
      apply Step.after_bind (Leaves old count whole.symbols) (fun _ _ => here)
      intro _ _
      exact here.trans (ih (develops.sound sound) (Nat.le_trans bound here.declarations)
        fun id member => large id (List.mem_cons_of_mem _ member))

/-! ## Exports -/

/-- A module of the smaller program exports the same names in the larger one. -/
theorem exportedNames_whole (encloses : Encloses count core.symbols whole.symbols) (sound : core.Sound)
    {id : ModuleId} (there : core.HasProvider (.internal id)) :
    whole.symbols.exportedNames id = core.symbols.exportedNames id := by
  have closed : ∀ v ∈ core.symbols.moduleIds.toFinset, ∀ source ∈ core.symbols.starModules v,
      source ∈ core.symbols.moduleIds.toFinset := fun v member source star =>
    List.mem_toFinset.mpr (Symbols.mem_moduleIds.mpr
      (sound.starModules_known (Symbols.mem_moduleIds.mp (List.mem_toFinset.mp member)) source star))
  have same : ∀ v ∈ core.symbols.moduleIds.toFinset,
      whole.symbols.starModules v = core.symbols.starModules v := fun v member => by
    rw [Symbols.starModules, Symbols.starModules,
      encloses.starSources (Symbols.mem_moduleIds.mp (List.mem_toFinset.mp member))]
  have walk := DepthFirst.walk_congr closed same core.symbols.card_moduleIds
    (Nat.lt_of_lt_of_le core.symbols.card_moduleIds (Nat.succ_le_succ encloses.modules))
    (List.mem_toFinset.mpr (Symbols.mem_moduleIds.mpr there))
  have inside : ∀ v ∈ core.symbols.starReached id, v.index < core.symbols.modules.size := by
    intro v member
    have way := DepthFirst.leads_walk member
    clear member
    induction way with
    | refl => exact there
    | tail _ star known => exact sound.starModules_known known _ star
  rw [Symbols.exportedNames, Symbols.exportedNames, walk]
  refine congrArg (fun names => (Std.TreeSet.ofList names compare).toList) ?_
  refine List.flatMap_congr fun v member => ?_
  rw [encloses.exports (inside v member)]

theorem resolveExports_twins (encloses : Encloses count core.symbols whole.symbols) (sound : core.Sound)
    (sound' : whole.Sound) {id : ModuleId} (there : core.HasProvider (.internal id)) {names : List String}
    {resolved resolved' : List (String × DeclId)}
    (listed : (Symbols.resolveExports id names).outcome core.symbols = (.ok resolved, after))
    (listed' : (Symbols.resolveExports id names).outcome whole.symbols = (.ok resolved', after')) :
    Encloses count after after' ∧ ExportTwins (Twins count after after') resolved resolved' := by
  have there' : whole.HasProvider (.internal id) := Nat.lt_of_lt_of_le there encloses.modules
  induction names generalizing core whole resolved resolved' with
  | nil =>
      cases listed
      cases listed'
      exact ⟨encloses, .nil⟩
  | cons name rest ih =>
      rw [Symbols.resolveExports] at listed listed'
      obtain ⟨found, middle, first, listed⟩ := Step.ok_of_bind listed
      obtain ⟨found', middle', first', listed'⟩ := Step.ok_of_bind listed'
      obtain ⟨others, last, later, listed⟩ := Step.ok_of_bind listed
      obtain ⟨others', last', later', listed'⟩ := Step.ok_of_bind listed'
      cases listed
      cases listed'
      rcases resolveExport?_twins encloses sound there name with
        ⟨fault, failed, -⟩ | ⟨_, _, _, _, same, same', between, twins⟩
      · cases failed.symm.trans first
      · cases same.symm.trans first
        cases same'.symm.trans first'
        have develops := (develops_resolveExport? sound there name).1
        have develops' := (develops_resolveExport? sound' there' name).1
        rw [first] at develops
        rw [first'] at develops'
        have known := develops.extension.hasProvider there
        have known' := develops'.extension.hasProvider there'
        have remembers := (develops_resolveExports (develops.sound sound) known rest).1.remembers
        have remembers' := (develops_resolveExports (develops'.sound sound') known' rest).1.remembers
        have between : Encloses count (core.withSymbols middle).symbols (whole.withSymbols middle').symbols :=
          between
        obtain ⟨final, all⟩ : Encloses count after after' ∧
            ExportTwins (Twins count after after') others others' :=
          ih between (develops.sound sound) (develops'.sound sound') known later later' known'
        rw [withSymbols, later] at remembers
        rw [withSymbols, later'] at remembers'
        refine ⟨final, ?_⟩
        cases twins with
        | none => exact all
        | some twin => exact .cons ⟨rfl, twin.mono remembers remembers'⟩ all

/-- The exports of a module of the smaller program are linked in both programs. -/
theorem linkExports_twins (encloses : Encloses count core.symbols whole.symbols) (sound : core.Sound)
    (sound' : whole.Sound) {id : ModuleId} (there : core.HasProvider (.internal id))
    (linked : (Symbols.linkExports id).outcome core.symbols = (.ok (), after))
    (linked' : (Symbols.linkExports id).outcome whole.symbols = (.ok (), after')) :
    Encloses count after after' := by
  have modules := core.symbols.modules_resolveExports id (core.symbols.exportedNames id)
  rw [Symbols.linkExports] at linked linked'
  obtain ⟨_, _, ⟨⟩, linked⟩ := Step.ok_of_bind linked
  obtain ⟨_, _, ⟨⟩, linked'⟩ := Step.ok_of_bind linked'
  obtain ⟨resolved, middle, listed, linked⟩ := Step.ok_of_bind linked
  obtain ⟨resolved', middle', listed', linked'⟩ := Step.ok_of_bind linked'
  cases linked
  cases linked'
  rw [exportedNames_whole encloses sound there] at listed'
  rw [listed] at modules
  obtain ⟨between, twins⟩ := resolveExports_twins encloses sound sound' there listed listed'
  exact between.setExports (Nat.lt_of_lt_of_eq there (congrArg Array.size modules).symm) twins

theorem linkModules_twins (encloses : Encloses count core.symbols whole.symbols) (sound : core.Sound)
    (sound' : whole.Sound) {ids : List ModuleId} (there : ∀ id ∈ ids, core.HasProvider (.internal id))
    (linked : (ids.forM Symbols.linkExports).outcome core.symbols = (.ok (), after))
    (linked' : (ids.forM Symbols.linkExports).outcome whole.symbols = (.ok (), after')) :
    Encloses count after after' := by
  induction ids generalizing core whole with
  | nil =>
      cases linked
      cases linked'
      exact encloses
  | cons id rest ih =>
      rw [List.forM_eq_forM, List.forM_cons] at linked linked'
      obtain ⟨_, middle, first, linked⟩ := Step.ok_of_bind linked
      obtain ⟨_, middle', first', linked'⟩ := Step.ok_of_bind linked'
      have here := there id List.mem_cons_self
      have develops := develops_linkExports sound here
      have develops' := develops_linkExports sound' (Nat.lt_of_lt_of_le here encloses.modules)
      rw [first] at develops
      rw [first'] at develops'
      have between : Encloses count (core.withSymbols middle).symbols (whole.withSymbols middle').symbols :=
        linkExports_twins encloses sound sound' here first first'
      refine ih between (develops.sound sound) (develops'.sound sound') (fun id member => ?_) linked linked'
      exact develops.extension.hasProvider (there id (List.mem_cons_of_mem _ member))

/-- What a further module exports leaves what the smaller program has found. -/
theorem leaves_resolveExports {old : Nat} (sound : whole.Sound)
    (bound : count ≤ whole.symbols.declarations.size) {id : ModuleId}
    (there : whole.HasProvider (.internal id)) (names : List String) :
    Leaves old count whole.symbols ((Symbols.resolveExports id names).outcome whole.symbols).2 := by
  induction names generalizing whole with
  | nil => exact .refl _
  | cons name rest ih =>
      have here : Leaves old count whole.symbols
          ((Symbols.resolveExport? (.internal id) name).outcome whole.symbols).2 := by
        have spec := whole.symbols.exportOrigin?_spec (.internal id) name
        rw [Symbols.resolveExport?_outcome]
        generalize whole.symbols.exportOrigin? (.internal id) name = answer at spec ⊢
        split
        next origin =>
            refine Symbols.leaves_intern bound ?_
            rintro source imported rfl
            exact sound.provides there spec
        next => exact .refl _
        next => exact .refl _
      have develops := (develops_resolveExport? sound there name).1
      have rest := ih (develops.sound sound) (Nat.le_trans bound here.declarations)
        (develops.extension.hasProvider there)
      rw [Symbols.resolveExports]
      apply Step.after_bind (Leaves old count whole.symbols) (fun _ _ => here)
      intro _ _
      exact Step.after_bind (Leaves old count whole.symbols) (fun _ _ => here.trans rest)
        fun _ _ => here.trans rest

theorem leaves_linkExports {old : Nat} (sound : whole.Sound)
    (bound : count ≤ whole.symbols.declarations.size) {id : ModuleId}
    (there : whole.HasProvider (.internal id)) (large : old ≤ id.index) :
    Leaves old count whole.symbols ((Symbols.linkExports id).outcome whole.symbols).2 := by
  have leaves : Leaves old count whole.symbols _ :=
    leaves_resolveExports sound bound there (whole.symbols.exportedNames id)
  rw [Symbols.linkExports_outcome]
  generalize (Symbols.resolveExports id (whole.symbols.exportedNames id)).outcome whole.symbols = result
    at leaves
  obtain ⟨resolved | fault, middle⟩ := result
  · exact leaves
  · exact leaves.trans (Symbols.leaves_setExports large)

theorem leaves_linkModules {old : Nat} (sound : whole.Sound)
    (bound : count ≤ whole.symbols.declarations.size) {ids : List ModuleId}
    (further : ∀ id ∈ ids, old ≤ id.index ∧ whole.HasProvider (.internal id)) :
    Leaves old count whole.symbols ((ids.forM Symbols.linkExports).outcome whole.symbols).2 := by
  induction ids generalizing whole with
  | nil => exact .refl _
  | cons id rest ih =>
      obtain ⟨large, there⟩ := further id List.mem_cons_self
      have here : Leaves old count whole.symbols ((Symbols.linkExports id).outcome whole.symbols).2 :=
        leaves_linkExports sound bound there large
      have develops := develops_linkExports sound there
      rw [List.forM_eq_forM, List.forM_cons]
      apply Step.after_bind (Leaves old count whole.symbols) (fun _ _ => here)
      intro _ _
      refine here.trans (ih (develops.sound sound) (Nat.le_trans bound here.declarations) fun id member => ?_)
      obtain ⟨large, there⟩ := further id (List.mem_cons_of_mem _ member)
      exact ⟨large, develops.extension.hasProvider there⟩

/-! ## All together -/

theorem allImports_twins (encloses : Encloses count core.symbols whole.symbols) (sound : core.Sound)
    (sound' : whole.Sound) (all : core.symbols.declarations.size = count)
    (linked : (core.symbols.declarationIds.forM Symbols.linkImport).outcome core.symbols = (.ok (), after))
    (linked' : (whole.symbols.declarationIds.forM Symbols.linkImport).outcome whole.symbols =
      (.ok (), after')) : Encloses count after after' := by
  subst all
  obtain ⟨ids, split, large⟩ := Symbols.declarationIds_split encloses.inside'
  rw [split] at linked'
  obtain ⟨middle, first, later⟩ := Step.ok_of_forM_append linked'
  -- The imports of the smaller program come first in both; the further ones are one-sided.
  have between := linkImports_twins encloses sound
    (fun id member => Symbols.mem_declarationIds.mp member) linked first
  have develops := (develops_linkImports sound' core.symbols.declarationIds).1
  rw [Symbols.declarationIds, first] at develops
  have soundMiddle : (whole.withSymbols middle).Sound := develops.sound sound'
  have leaves : Leaves after.modules.size core.symbols.declarations.size middle _ :=
    leaves_linkImports soundMiddle between.inside' large
  rw [withSymbols, later] at leaves
  exact between.extend_whole leaves

theorem allExports_twins (encloses : Encloses count core.symbols whole.symbols) (sound : core.Sound)
    (sound' : whole.Sound)
    (linked : (core.symbols.moduleIds.forM Symbols.linkExports).outcome core.symbols = (.ok (), after))
    (linked' : (whole.symbols.moduleIds.forM Symbols.linkExports).outcome whole.symbols =
      (.ok (), after')) : Encloses count after after' := by
  obtain ⟨ids, split, further⟩ := Symbols.moduleIds_split encloses.modules
  have there : ∀ id ∈ core.symbols.moduleIds, core.HasProvider (.internal id) := fun id member =>
    Symbols.mem_moduleIds.mp member
  have there' : ∀ id ∈ core.symbols.moduleIds, whole.HasProvider (.internal id) := fun id member =>
    Nat.lt_of_lt_of_le (there id member) encloses.modules
  have develops := develops_linkModules sound there
  have develops' := develops_linkModules sound' there'
  rw [split] at linked'
  obtain ⟨middle, first, later⟩ := Step.ok_of_forM_append linked'
  have between := linkModules_twins encloses sound sound' there linked first
  rw [linked] at develops
  rw [Symbols.moduleIds, first] at develops'
  have soundMiddle : (whole.withSymbols middle).Sound := develops'.sound sound'
  have leaves : Leaves core.symbols.modules.size count middle _ :=
    leaves_linkModules soundMiddle between.inside'
      fun id member =>
        ⟨(further id member).1, Nat.lt_of_lt_of_eq (further id member).2 develops'.modules.symm⟩
  rw [withSymbols, later] at leaves
  exact between.extend_whole (develops.modules.symm ▸ leaves)

/-- Linking both programs links the smaller one alike. -/
theorem linkSymbols_twins (encloses : Encloses count core.symbols whole.symbols) (sound : core.Sound)
    (sound' : whole.Sound) (all : core.symbols.declarations.size = count)
    (linked : Symbols.link.outcome core.symbols = (.ok (), after))
    (linked' : Symbols.link.outcome whole.symbols = (.ok (), after')) : Encloses count after after' := by
  have develops := (develops_linkImports sound core.symbols.declarationIds).1
  have develops' := (develops_linkImports sound' whole.symbols.declarationIds).1
  rw [Symbols.link] at linked linked'
  obtain ⟨_, _, ⟨⟩, linked⟩ := Step.ok_of_bind linked
  obtain ⟨_, _, ⟨⟩, linked'⟩ := Step.ok_of_bind linked'
  obtain ⟨_, middle, first, linked⟩ := Step.ok_of_bind linked
  obtain ⟨_, middle', first', linked'⟩ := Step.ok_of_bind linked'
  obtain ⟨_, _, ⟨⟩, linked⟩ := Step.ok_of_bind linked
  obtain ⟨_, _, ⟨⟩, linked'⟩ := Step.ok_of_bind linked'
  rw [first] at develops
  rw [first'] at develops'
  have between : Encloses count (core.withSymbols middle).symbols (whole.withSymbols middle').symbols :=
    allImports_twins encloses sound sound' all first first'
  exact allExports_twins between (develops.sound sound) (develops'.sound sound') linked linked'

/-! ## The order of execution -/

section Order

variable (encloses : Encloses count core.symbols whole.symbols) (sound : core.Sound)
  (node : ∀ {id : NodeId} {node}, core.nodes[id.index]? = some node → whole.nodes[id.index]? = some node)

include encloses sound node

theorem statements_whole {owner : ModuleId} (there : core.HasProvider (.internal owner)) :
    whole.statements owner = core.statements owner := by
  obtain ⟨_, -, entry⟩ := encloses.moduleAt there
  refine statements_congr (by rw [entry]) fun id member => ?_
  obtain ⟨statement, found⟩ := sound.grounded.body member
  rw [nodeAt_of_getElem? found, nodeAt_of_getElem? (node found)]

/-- The entry needs the same modules in both programs, and executes them in the same order. -/
theorem executionOrder_whole (entry : whole.entry = core.entry)
    (there : core.HasProvider (.internal core.entry)) : whole.executionOrder = core.executionOrder := by
  have same : ∀ id ∈ core.symbols.moduleIds.toFinset, whole.dependencies id = core.dependencies id := by
    intro id member
    have known := Symbols.mem_moduleIds.mp (List.mem_toFinset.mp member)
    rw [dependencies, dependencies, statements_whole encloses sound node known]
  rw [Graph.executionOrder, Graph.executionOrder, entry,
    DepthFirst.walk_congr sound.dependencies_known same core.symbols.card_moduleIds
      (Nat.lt_of_lt_of_le core.symbols.card_moduleIds (Nat.succ_le_succ encloses.modules))
      (List.mem_toFinset.mpr (Symbols.mem_moduleIds.mpr there))]

end Order

end Graph

end Bundler
