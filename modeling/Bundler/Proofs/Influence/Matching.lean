import Bundler.Proofs.Bundle.Prepared
import Bundler.Proofs.Influence.Plain
import Bundler.Proofs.Influence.Resolving
import Bundler.Proofs.Influence.Writing
import Bundler.Proofs.Postorder

/-! # Matching programs

When two programs are linked and resolved and the larger one covers the smaller one, their twins are
determined by each other, and the programs correspond.  What is included of them is the same, and so is all
that the names in the output depend on.
-/

namespace Bundler.Graph

open Symbols (Twins Encloses filter_range_of_le)

variable {count : Nat} {core whole : Graph}

theorem Sound.executed_known (sound : core.Sound) (entry : core.HasProvider (.internal core.entry))
    {id : ModuleId} (executed : id ∈ core.executionOrder) : core.HasProvider (.internal id) := by
  rw [Graph.executionOrder, List.mem_reverse] at executed
  have way := DepthFirst.leads_walk executed
  clear executed
  induction way with
  | refl => exact entry
  | tail _ needed _ => exact sound.known (sound.mem_dependencies.mp needed)

theorem Sound.hasKind (sound : core.Sound) {id : DeclId} (inside : core.HasDeclaration id) :
    core.HasKind (core.symbols.declarationAt id).kind := by
  cases kind : (core.symbols.declarationAt id).kind with
  | declared => exact sound.grounded.declared inside kind
  | namespaceOf => exact ((sound.declarations inside).namespaceOf kind).1
  | provided => exact (sound.declarations inside).provided kind
  | imported | free => trivial

/-- A declaration has one twin, since tables list a declaration under one name. -/
theorem Sound.twins_unique (sound : core.Sound) (plain : core.Plain)
    (written : ∀ {id : DeclId}, id.index < count →
      (core.symbols.declarationAt id).kind.isProvided = false ∧
        (core.symbols.declarationAt id).kind.isFree = false)
    {other : Symbols} {a b c : DeclId} (first : Twins count core.symbols other a b)
    (second : Twins count core.symbols other a c) : b = c := by
  cases first with
  | written small =>
      obtain ⟨own, own'⟩ := written small
      cases second with
      | written => rfl
      | provided found => rw [sound.provided found] at own; cases own
      | free found => rw [(sound.globals found).2] at own'; cases own'
  | provided found found' =>
      have kind := sound.provided found
      cases second with
      | written small =>
          have own := (written small).1
          rw [kind] at own
          cases own
      | provided other other' =>
          cases kind.symm.trans (sound.provided other)
          exact Option.some.inj (found'.symm.trans other')
      | free other => cases kind.symm.trans (sound.globals other).2
  | free found found' =>
      obtain ⟨-, kind⟩ := sound.globals found
      have name := (plain.globals found).2
      cases second with
      | written small =>
          have own := (written small).2
          rw [kind] at own
          cases own
      | provided other => cases kind.symm.trans (sound.provided other)
      | free other other' =>
          rw [← name, (plain.globals other).2] at found'
          exact Option.some.inj (found'.symm.trans other')

/-- Both programs are linked and resolved, and the larger one knows the same of the smaller one. -/
structure Matched (count : Nat) (core whole : Graph) : Prop where
  prepared : core.Prepared
  prepared' : whole.Prepared
  encloses : Encloses count core.symbols whole.symbols
  node : ∀ {id : NodeId} {node}, core.nodes[id.index]? = some node → whole.nodes[id.index]? = some node
  resolution : ∀ {id : NodeId}, id.index < core.nodes.size →
    Resolution.Twins (Twins count core.symbols whole.symbols) (core.resolutionAt id) (whole.resolutionAt id)
  entry : whole.entry = core.entry
  written : ∀ {id : DeclId}, id.index < count →
    (core.symbols.declarationAt id).kind.isProvided = false ∧
      (core.symbols.declarationAt id).kind.isFree = false
  plain : core.Plain
  plain' : whole.Plain
  listed : core.symbols.Listed
  warnings : whole.warnings = core.warnings

namespace Matched

variable (matched : Matched count core whole)

include matched

/-! ## Twins determine each other -/

theorem kind {a b : DeclId} (twins : Twins count core.symbols whole.symbols a b) :
    (core.symbols.declarationAt a).kind.Twins (Twins count core.symbols whole.symbols)
      (whole.symbols.declarationAt b).kind :=
  kind_twins matched.encloses matched.prepared.sound matched.prepared'.sound twins

theorem name {a b : DeclId} (twins : Twins count core.symbols whole.symbols a b)
    (own : (core.symbols.declarationAt a).kind.isProvided = false) :
    (whole.symbols.declarationAt b).name = (core.symbols.declarationAt a).name := by
  cases twins with
  | written small => exact (matched.encloses.declarationAt small).name
  | free found found' => rw [(matched.plain.globals found).2, (matched.plain'.globals found').2]
  | provided found _ =>
      rw [matched.prepared.sound.provided found] at own
      cases own

theorem left {a b c : DeclId} (first : Twins count core.symbols whole.symbols a b)
    (second : Twins count core.symbols whole.symbols a c) : b = c :=
  matched.prepared.sound.twins_unique matched.plain matched.written first second

theorem right {a b c : DeclId} (first : Twins count core.symbols whole.symbols a c)
    (second : Twins count core.symbols whole.symbols b c) : a = b := by
  refine matched.prepared'.sound.twins_unique matched.plain' (fun small => ?_) first.symm second.symm
  have kinds := matched.encloses.kind small
  have own := matched.written small
  generalize (whole.symbols.declarationAt _).kind = kind at kinds ⊢
  generalize (core.symbols.declarationAt _).kind = kind' at kinds own
  cases kinds <;> exact own

theorem inside {a b : DeclId} (twins : Twins count core.symbols whole.symbols a b) :
    core.HasDeclaration a ∧ whole.HasDeclaration b := by
  have sound := matched.prepared.sound
  have sound' := matched.prepared'.sound
  cases twins with
  | written small =>
      exact ⟨Nat.lt_of_lt_of_le small matched.encloses.inside,
        Nat.lt_of_lt_of_le small matched.encloses.inside'⟩
  | provided found found' =>
      exact ⟨(sound.externals (Symbols.lt_of_provided found) found).1,
        (sound'.externals (Symbols.lt_of_provided found') found').1⟩
  | free found found' => exact ⟨(sound.globals found).1, (sound'.globals found').1⟩

theorem isDefined_eq {a b : DeclId} (twins : Twins count core.symbols whole.symbols a b) :
    Symbols.isDefined (whole.symbols.declarationAt b) =
      Symbols.isDefined (core.symbols.declarationAt a) := by
  have kinds := matched.kind twins
  rw [Symbols.isDefined, Symbols.isDefined]
  generalize (core.symbols.declarationAt a).kind = kind, (whole.symbols.declarationAt b).kind = kind'
    at kinds
  cases kinds <;> rfl

/-- What is defined is written in both programs, since tables list nothing that is. -/
theorem written_of_defined {a b : DeclId} (twins : Twins count core.symbols whole.symbols a b)
    (defined : Symbols.isDefined (core.symbols.declarationAt a) = true) : a = b ∧ a.index < count := by
  rw [Symbols.isDefined] at defined
  cases twins with
  | written small => exact ⟨rfl, small⟩
  | provided found =>
      rw [matched.prepared.sound.provided found] at defined
      cases defined
  | free found =>
      rw [(matched.prepared.sound.globals found).2] at defined
      cases defined

/-! ## What belongs to the bundles -/

theorem order : whole.order = core.order := by
  rw [matched.prepared.order, matched.prepared'.order]
  exact executionOrder_whole matched.encloses matched.prepared.sound matched.node matched.entry
    matched.prepared.entry

theorem ordered {owner : ModuleId} (executed : owner ∈ core.order) :
    core.HasProvider (.internal owner) := by
  rw [matched.prepared.order] at executed
  exact matched.prepared.sound.executed_known matched.prepared.entry executed

theorem corresponds : Corresponds core (Twins count core.symbols whole.symbols) core whole where
  node found := ⟨found, matched.node found⟩
  resolution := matched.resolution
  inside := matched.inside
  kind := matched.kind
  known twins := matched.prepared.sound.hasKind (matched.inside twins).1
  left := matched.left
  right := matched.right
  exports there := by
    obtain ⟨_, exports, entry⟩ := matched.encloses.moduleAt there
    rw [entry]
    exact exports
  body there := by
    obtain ⟨_, -, entry⟩ := matched.encloses.moduleAt there
    exact ⟨rfl, by rw [entry]⟩
  order := matched.order
  ordered _ := matched.ordered
  entry := matched.entry
  start := matched.prepared.entry

section Balanced

variable {s t : Selection} (balanced : Balanced core (Twins count core.symbols whole.symbols) s t)

include balanced

theorem included {a b : DeclId} (twins : Twins count core.symbols whole.symbols a b) :
    (whole.select t).includesDeclaration b = (core.select s).includesDeclaration a := by
  obtain ⟨inside, inside'⟩ := matched.inside twins
  rw [HasDeclaration] at inside inside'
  rw [includesDeclaration_select, includesDeclaration_select, balanced.declaration twins,
    decide_eq_true inside, decide_eq_true inside']

omit matched balanced in
theorem isDefined_select {graph : Graph} (s : Selection) (id : DeclId) :
    Symbols.isDefined ((graph.select s).symbols.declarationAt id) =
      Symbols.isDefined (graph.symbols.declarationAt id) := by
  rw [declarationAt_select]
  rfl

omit matched balanced in
theorem selected_of_includes {graph : Graph} {s : Selection} {id : DeclId}
    (included : (graph.select s).includesDeclaration id = true) : s.declarations id = true :=
  (Bool.and_eq_true _ _ ▸ (includesDeclaration_select s id).symm.trans included).2

/-- The same is included of an external module. -/
theorem includedExport (id : ExternalId) (name : String) :
    Option.Rel (Twins count core.symbols whole.symbols) ((core.select s).symbols.includedExport? id name)
      ((whole.select t).symbols.includedExport? id name) := by
  have declarations : ∀ (graph : Graph) (s : Selection),
      ((graph.select s).symbols.externalAt id).declarations =
        (graph.symbols.externalAt id).declarations := by
    intro graph s
    rw [externalAt_select]
  rw [Symbols.includedExport?, Symbols.includedExport?, declarations, declarations]
  cases found : (core.symbols.externalAt id).declarations[name]? with
  | some a =>
      obtain ⟨b, found'⟩ := matched.encloses.provided found
      have twins : Twins count core.symbols whole.symbols a b := .provided found found'
      have included := matched.included balanced twins
      rw [includesDeclaration, includesDeclaration] at included
      rw [found', Option.filter_some, Option.filter_some, included]
      split
      · exact .some twins
      · exact .none
  | none =>
      cases found' : (whole.symbols.externalAt id).declarations[name]? with
      | none => exact .none
      | some b =>
          -- What is included in the larger program only is no export of the module in the smaller one.
          rw [Option.filter_some, if_neg]
          · exact .none
          · intro included
            obtain ⟨a, twins⟩ := balanced.right (selected_of_includes included)
            have kinds := matched.kind twins
            rw [matched.prepared'.sound.provided found'] at kinds
            generalize kind : (core.symbols.declarationAt a).kind = here at kinds
            cases kinds
            cases found.symm.trans (matched.listed.provided kind)

theorem resembles : Symbols.Resembles core.symbols.externals.size (Twins count core.symbols whole.symbols)
    (core.select s).symbols (whole.select t).symbols where
  has twins := by
    cases twins with
    | declaration twins => simpa [Symbols.Has, select, HasDeclaration] using matched.inside twins
    | external inside =>
        have inside' := Nat.lt_of_lt_of_le inside matched.encloses.externals
        simpa [Symbols.Has, select] using And.intro inside inside'
  left := matched.left
  right := matched.right
  name twins own := by
    rw [kind_select] at own
    rw [declarationAt_select, declarationAt_select]
    exact matched.name twins own
  included twins := matched.included balanced twins
  outputName {a b} twins := by
    rw [declarationAt_select, declarationAt_select]
    exact (matched.plain'.unnamed b).trans (matched.plain.unnamed a).symm
  external {id} inside := by
    obtain ⟨_, _, entry⟩ := matched.encloses.externalAt inside
    exact ⟨_, _, by rw [externalAt_select, externalAt_select, entry]⟩
  provided _ name := matched.includedExport balanced _ name

theorem mem_usedGlobals {name : String} : name ∈ (whole.select t).symbols.usedGlobals ↔
    name ∈ (core.select s).symbols.usedGlobals := by
  have resembles := matched.resembles balanced
  rw [Symbols.mem_usedGlobals, Symbols.mem_usedGlobals]
  constructor
  · rintro ⟨b, kind, included, rfl⟩
    obtain ⟨a, twins⟩ := balanced.right (selected_of_includes included)
    have kinds := matched.kind twins
    rw [kind_select] at kind
    rw [kind] at kinds
    generalize kind' : (core.symbols.declarationAt a).kind = here at kinds
    cases kinds
    refine ⟨a, (kind_select s a).trans kind', ?_, (resembles.name twins ?_).symm⟩
    · exact (resembles.included twins).symm.trans included
    · rw [kind_select, kind']
      rfl
  · rintro ⟨a, kind, included, rfl⟩
    obtain ⟨b, twins⟩ := balanced.left (selected_of_includes included)
    have kinds := matched.kind twins
    rw [kind_select] at kind
    rw [kind] at kinds
    generalize kind' : (whole.symbols.declarationAt b).kind = there at kinds
    cases kinds
    refine ⟨b, (kind_select t b).trans kind', ?_, resembles.name twins ?_⟩
    · exact (resembles.included twins).trans included
    · rw [kind_select, kind]
      rfl

theorem usedExternals : (whole.select t).symbols.usedExternals = (core.select s).symbols.usedExternals := by
  have size : (core.select s).symbols.externals.size = core.symbols.externals.size := by simp [select]
  have size' : (whole.select t).symbols.externals.size = whole.symbols.externals.size := by simp [select]
  rw [Symbols.usedExternals, Symbols.usedExternals, Symbols.externalIds, Symbols.externalIds, size, size',
    filter_range_of_le matched.encloses.externals]
  · refine List.filter_congr fun id member => ?_
    obtain ⟨i, small, rfl⟩ := List.mem_map.mp member
    have inside := List.mem_range.mp small
    have inside' := Nat.lt_of_lt_of_le inside matched.encloses.externals
    rw [externalAt_select, externalAt_select, balanced.external inside, decide_eq_true inside,
      decide_eq_true inside']
  · intro i large
    rw [externalAt_select]
    dsimp only
    by_contra used
    have used := (Bool.and_eq_true _ _ ▸ (Bool.not_eq_false _).mp used).2
    exact Nat.lt_irrefl _ (Nat.lt_of_lt_of_le (balanced.used used) large)

theorem contributions (owner : ModuleId) : (whole.select t).symbols.contributions owner =
    (core.select s).symbols.contributions owner := by
  have size : (core.select s).symbols.declarations.size = core.symbols.declarations.size := by simp [select]
  have size' : (whole.select t).symbols.declarations.size = whole.symbols.declarations.size := by
    simp [select]
  rw [Symbols.contributions, Symbols.contributions, Symbols.declarationIds, Symbols.declarationIds, size,
    size', filter_range_of_le matched.encloses.inside, filter_range_of_le matched.encloses.inside']
  · refine List.filter_congr fun id member => ?_
    obtain ⟨i, small, rfl⟩ := List.mem_map.mp member
    have small : (DeclId.mk i).index < count := List.mem_range.mp small
    have twins : Twins count core.symbols whole.symbols ⟨i⟩ ⟨i⟩ := .written small
    have included := matched.included balanced twins
    rw [includesDeclaration, includesDeclaration] at included
    dsimp only
    rw [included, isDefined_select, isDefined_select, matched.isDefined_eq twins, declarationAt_select,
      declarationAt_select, (matched.encloses.declarationAt small).owner]
  · intro i large
    dsimp only
    rw [isDefined_select, ← Bool.not_eq_true]
    simp only [Bool.and_eq_true]
    rintro ⟨⟨defined, included⟩, -⟩
    obtain ⟨a, twins⟩ := balanced.right (selected_of_includes included)
    obtain ⟨rfl, small⟩ :=
      matched.written_of_defined twins ((matched.isDefined_eq twins).symm.trans defined)
    exact absurd small (Nat.not_lt.mpr large)
  · intro i large
    dsimp only
    rw [isDefined_select, ← Bool.not_eq_true]
    simp only [Bool.and_eq_true]
    rintro ⟨⟨defined, included⟩, -⟩
    obtain ⟨b, twins⟩ := balanced.left (selected_of_includes included)
    exact absurd (matched.written_of_defined twins defined).2 (Nat.not_lt.mpr large)

theorem contributed {id : DeclId} (member : id ∈ core.order.flatMap (core.select s).symbols.contributions) :
    Twins count core.symbols whole.symbols id id := by
  obtain ⟨owner, -, contributed⟩ := List.mem_flatMap.mp member
  obtain ⟨-, defined, included, -⟩ := mem_contributions.mp contributed
  obtain ⟨b, twins⟩ := balanced.left (selected_of_includes included)
  exact .written (matched.written_of_defined twins ((isDefined_select s id).symm.trans defined)).2

omit matched balanced in
theorem used_inside {id : ExternalId} (used : id ∈ (core.select s).symbols.usedExternals) :
    id.index < core.symbols.externals.size := by
  have there := (Symbols.mem_usedExternals.mp used).1
  simpa [Symbols.Has, select] using there

theorem includesNode {id : NodeId} (inside : id.index < core.nodes.size) :
    (whole.select t).includesNode id = (core.select s).includesNode id := by
  have here := Nat.lt_of_lt_of_eq inside matched.prepared.sound.marks.symm
  have there : id.index < whole.marks.size := by
    rw [matched.prepared'.sound.marks]
    exact (Array.getElem?_eq_some_iff.mp (matched.node (Array.getElem?_eq_getElem inside))).1
  rw [Graph.includesNode, Graph.includesNode, markAt_select, markAt_select, balanced.node inside,
    decide_eq_true here, decide_eq_true there]

/-- After naming, both programs are ready to be written alike. -/
theorem transcribes (options : Options) : Transcribes core (Twins count core.symbols whole.symbols)
    (assignNames options (core.select s)) (assignNames options (whole.select t)) := by
  have named := sameProgram_assignNames options (core.select s)
  have named' := sameProgram_assignNames options (whole.select t)
  have prepared := named.prepared (SameProgram.prepared (Alike.sameProgram ⟨s, rfl⟩) matched.prepared)
  obtain ⟨symbols, renames, same⟩ := assignNames_eq options (core.select s)
  obtain ⟨symbols', renames', same'⟩ := assignNames_eq options (whole.select t)
  have order : (whole.select t).order.flatMap (whole.select t).symbols.contributions =
      (core.select s).order.flatMap (core.select s).symbols.contributions := by
    rw [funext (matched.contributions balanced), order_select, order_select, matched.order]
  have resembles := resembles_assignNames (matched.resembles balanced)
    (fun _ => matched.mem_usedGlobals balanced) (matched.usedExternals balanced)
    (fun _ => used_inside) order (fun _ => matched.contributed balanced) options
  refine { (matched.corresponds.select s t).sameProgram named named' with
    sound := prepared.sound
    final := prepared.bound
    modules := congrArg Array.size named.modules
    resembles := resembles
    module := fun there => ?_
    object := fun there => ?_
    includesNode := fun inside => ?_
    usedExternals := ?_
    used := fun id used => ?_
    warnings := ?_ }
  · obtain ⟨resolvedExports, -, entry⟩ := matched.encloses.moduleAt there
    refine ⟨resolvedExports, ?_⟩
    rw [named.moduleAt, named'.moduleAt, moduleAt_select, moduleAt_select, entry]
  · rw [named.moduleAt]
    exact .written (matched.encloses.home there)
  · have selection := selection_assignNames options (core.select s)
    have selection' := selection_assignNames options (whole.select t)
    exact (congrFun (congrArg Selection.nodes selection') _).trans
      ((matched.includesNode balanced inside).trans (congrFun (congrArg Selection.nodes selection) _).symm)
  · rw [same, same']
    exact renames'.usedExternals.trans ((matched.usedExternals balanced).trans renames.usedExternals.symm)
  · rw [same] at used
    exact used_inside (renames.usedExternals ▸ used)
  · rw [same, same']
    exact matched.warnings

end Balanced

end Matched

end Bundler.Graph
