import Bundler.Proofs.Graph.Exploration
import Bundler.Proofs.Influence.Linking

/-! # Resolving a larger program

Resolving the modules of the smaller program goes on in both programs alike: every chain of keys leads to
twins, or lacks the same key of the same module, so the same is noted about every node and the same
warnings are given.
-/

namespace Bundler

open Symbols (Twins Encloses)

/-- The chains lead to twins, or end for the same reason. -/
inductive Destination.Twins (twin : DeclId → DeclId → Prop) : Destination → Destination → Prop where
  | declaration {id other} : twin id other → Twins twin (.declaration id) (.declaration other)
  | missing {exporter key} : Twins twin (.missing exporter key) (.missing exporter key)
  | beyond : Twins twin .beyond .beyond

theorem DeclarationKind.Twins.namespace? {twin : DeclId → DeclId → Prop} {declaration other : Declaration}
    (twins : declaration.kind.Twins twin other.kind) : other.namespace? = declaration.namespace? := by
  rw [Declaration.namespace?, Declaration.namespace?]
  generalize declaration.kind = kind, other.kind = kind' at twins
  cases twins <;> rfl

/-- A name is proposed for an external module in both programs. -/
theorem Symbols.Encloses.proposeName {count : Nat} {core whole : Symbols}
    (encloses : Encloses count core whole) (id : ExternalId) (hint : String) :
    Encloses count (core.proposeName id hint) (whole.proposeName id hint) := by
  have mono : ∀ {a b}, Twins count core whole a b →
      Twins count (core.proposeName id hint) (whole.proposeName id hint) a b :=
    (·.mono (core.remembers_proposeName id hint) (whole.remembers_proposeName id hint))
  have declarations : ∀ (symbols : Symbols) other,
      ((symbols.proposeName id hint).externalAt other).declarations =
        (symbols.externalAt other).declarations := by
    intro symbols other
    rw [Symbols.proposeName, externalAt_modifyExternal]
    split
    · exact declarations_propose _ _
    · rfl
  refine { encloses with
    externals := ?_, moduleAt := ?_, externalAt := ?_, provided := ?_, declarationAt := ?_ }
  · exact (Nat.le_of_eq Array.size_modify).trans (encloses.externals.trans_eq Array.size_modify.symm)
  · intro owner there
    obtain ⟨resolvedExports, exports, entry⟩ := encloses.moduleAt there
    exact ⟨resolvedExports, exports.mono mono, entry⟩
  · intro other there
    have inside : other.index < core.externals.size := Nat.lt_of_lt_of_eq there Array.size_modify
    have twins := encloses.externalAt inside
    rw [Symbols.proposeName, Symbols.proposeName, externalAt_modifyExternal, externalAt_modifyExternal]
    by_cases here : other = id
    · subst here
      rw [if_pos ⟨rfl, inside⟩, if_pos ⟨rfl, Nat.lt_of_lt_of_le inside encloses.externals⟩]
      exact twins.propose hint
    · rwa [if_neg fun both => here both.1, if_neg fun both => here both.1]
  · intro source name declaration found
    rw [declarations] at found ⊢
    exact encloses.provided found
  · intro other small
    have both := encloses.declarationAt small
    exact { both with kind := both.kind.mono mono }

namespace Graph

variable {count : Nat} {start core whole after after' : Graph} {owner : ModuleId} {options : Options}

/-- Twins are of the same kind. -/
theorem kind_twins (encloses : Encloses count core.symbols whole.symbols) (sound : core.Sound)
    (sound' : whole.Sound) {id other : DeclId} (twins : Twins count core.symbols whole.symbols id other) :
    (core.symbols.declarationAt id).kind.Twins (Twins count core.symbols whole.symbols)
      (whole.symbols.declarationAt other).kind := by
  cases twins with
  | written small => exact encloses.kind small
  | provided found found' =>
      rw [sound.provided found, sound'.provided found']
      exact .provided
  | free found found' =>
      rw [(sound.globals found).2, (sound'.globals found').2]
      exact .free

/-- What a written name denotes are twins. -/
theorem denoted_twins (encloses : Encloses count core.symbols whole.symbols) {id : DeclId}
    (small : id.index < count) :
    Twins count core.symbols whole.symbols (core.symbols.denoted id) (whole.symbols.denoted id) := by
  have kinds := encloses.kind small
  rw [Symbols.denoted, Symbols.denoted]
  generalize (core.symbols.declarationAt id).kind = kind, (whole.symbols.declarationAt id).kind = kind'
    at kinds
  cases kinds with
  | linked target => exact target
  | declared | unlinked | namespaceOf | provided | free => exact .written small

/-- Of what has been found out since the smaller program was linked, the larger one knows the same. -/
structure Alongside (count : Nat) (start core whole : Graph) : Prop where
  develops : Develops start core
  navigable : core.Navigable
  sound : whole.Sound
  encloses : Encloses count core.symbols whole.symbols
  node : ∀ {id : NodeId} {node}, start.nodes[id.index]? = some node → whole.nodes[id.index]? = some node
  bound : ∀ {id : NodeId}, id.index < start.nodes.size → (whole.markAt id).bound = (core.markAt id).bound
  resolution : ∀ {id : NodeId}, id.index < start.nodes.size →
    Resolution.Twins (Twins count core.symbols whole.symbols) (core.resolutionAt id) (whole.resolutionAt id)
  binding : ∀ {owner : ModuleId}, start.HasProvider (.internal owner) → ∀ name,
    whole.scopes.binding? owner.scope name = start.scopes.binding? owner.scope name
  written : ∀ {owner : ModuleId} {name id}, start.scopes.binding? owner.scope name = some id →
    id.index < count
  warnings : whole.warnings = core.warnings

namespace Alongside

variable (alongside : Alongside count start core whole)

include alongside

theorem inside {id : NodeId} (there : id.index < start.nodes.size) : id.index < whole.nodes.size := by
  have found := alongside.node (Array.getElem?_eq_getElem there)
  exact (Array.getElem?_eq_some_iff.mp found).1

theorem moduleInside (known : start.HasProvider (.internal owner)) :
    owner.index < core.symbols.modules.size :=
  Nat.lt_of_lt_of_eq known alongside.develops.modules.symm

theorem specifier {source : Provider} (known : core.HasProvider source) :
    whole.symbols.specifier source = core.symbols.specifier source := by
  cases source with
  | internal id => exact alongside.encloses.moduleName known
  | external id =>
      obtain ⟨_, _, same⟩ := alongside.encloses.externalAt known
      rw [Symbols.specifier, Symbols.specifier, same]

/-! ## Changes on both sides -/

/-- Both programs go on alongside when marks and symbols do. -/
theorem advance (develops : Develops core after) (develops' : Develops whole after')
    (encloses : Encloses count after.symbols after'.symbols)
    (bound : ∀ {id : NodeId}, id.index < start.nodes.size →
      (after'.markAt id).bound = (after.markAt id).bound)
    (resolution : ∀ {id : NodeId}, id.index < start.nodes.size →
      Resolution.Twins (Twins count after.symbols after'.symbols) (after.resolutionAt id)
        (after'.resolutionAt id))
    (warnings : after'.warnings = after.warnings) : Alongside count start after after' where
  develops := alongside.develops.trans develops
  navigable := alongside.navigable.develops develops
  sound := develops'.sound alongside.sound
  encloses := encloses
  node found := develops'.nodes ▸ alongside.node found
  bound := bound
  resolution := resolution
  binding known name := develops'.scopes ▸ alongside.binding known name
  written := alongside.written
  warnings := warnings

theorem withSymbols {symbols symbols' : Symbols} (develops : Develops core (core.withSymbols symbols))
    (develops' : Develops whole (whole.withSymbols symbols')) (encloses : Encloses count symbols symbols') :
    Alongside count start (core.withSymbols symbols) (whole.withSymbols symbols') :=
  alongside.advance develops develops' encloses alongside.bound
    (fun there => (alongside.resolution there).mono (·.mono develops.remembers develops'.remembers))
    alongside.warnings

theorem modifyMark {id : NodeId} {change change' : Mark → Mark}
    (develops : Develops core (core.modifyMark id change))
    (develops' : Develops whole (whole.modifyMark id change'))
    (bound : ∀ {mark mark' : Mark}, mark'.bound = mark.bound → (change' mark').bound = (change mark).bound)
    (resolution : ∀ {mark mark' : Mark},
      Resolution.Twins (Twins count core.symbols whole.symbols) mark.resolution mark'.resolution →
      Resolution.Twins (Twins count core.symbols whole.symbols) (change mark).resolution
        (change' mark').resolution) :
    Alongside count start (core.modifyMark id change) (whole.modifyMark id change') := by
  have size : core.marks.size = start.nodes.size :=
    alongside.navigable.sound.marks.trans (congrArg Array.size alongside.develops.nodes)
  have here : ∀ {other : NodeId}, other.index < start.nodes.size →
      ((core.modifyMark id change).markAt other = change (core.markAt other) ∧
        (whole.modifyMark id change').markAt other = change' (whole.markAt other)) ∨
      ((core.modifyMark id change).markAt other = core.markAt other ∧
        (whole.modifyMark id change').markAt other = whole.markAt other) := by
    intro other there
    by_cases same : other = id
    · subst same
      exact .inl ⟨markAt_modifyMark_self (Nat.lt_of_lt_of_eq there size.symm) _,
        markAt_modifyMark_self (Nat.lt_of_lt_of_eq (alongside.inside there) alongside.sound.marks.symm) _⟩
    · exact .inr ⟨markAt_modifyMark_of_ne same _, markAt_modifyMark_of_ne same _⟩
  refine alongside.advance develops develops' alongside.encloses (fun there => ?_) (fun there => ?_)
    alongside.warnings
  · rcases here there with ⟨same, same'⟩ | ⟨same, same'⟩
    · rw [same, same']
      exact bound (alongside.bound there)
    · rw [same, same']
      exact alongside.bound there
  · rw [resolutionAt, resolutionAt]
    rcases here there with ⟨same, same'⟩ | ⟨same, same'⟩
    · rw [same, same']
      exact resolution (alongside.resolution there)
    · rw [same, same']
      exact alongside.resolution there

/-- The same is settled about a node in both programs. -/
theorem settle {id : NodeId} {resolution resolution' : Resolution}
    (develops : Develops core ((Graph.settle id resolution).outcome core).2)
    (develops' : Develops whole ((Graph.settle id resolution').outcome whole).2)
    (twins : Resolution.Twins (Twins count core.symbols whole.symbols) (some resolution)
      (some resolution')) :
    Alongside count start ((Graph.settle id resolution).outcome core).2
      ((Graph.settle id resolution').outcome whole).2 :=
  alongside.modifyMark develops develops' (fun same => same) fun _ => twins

/-! ## Names and chains of keys -/

/-- A name of a module denotes twins. -/
theorem lookup (known : start.HasProvider (.internal owner)) (name : String) :
    ∃ id id' after after', (Graph.lookup owner name).outcome core = (.ok id, after) ∧
      (Graph.lookup owner name).outcome whole = (.ok id', after') ∧
      Alongside count start after after' ∧ Twins count after.symbols after'.symbols id id' ∧
      after.Denotable owner id ∧ after'.Denotable owner id' := by
  have sound := alongside.navigable.sound
  obtain ⟨id, after, looked, -, denotable⟩ := develops_lookup sound owner name
  obtain ⟨id', after', looked', -, denotable'⟩ := develops_lookup alongside.sound owner name
  have same := alongside.binding known name
  rw [← alongside.develops.scopes] at same
  suffices both : Alongside count start after after' ∧ Twins count after.symbols after'.symbols id id' from
    ⟨id, id', after, after', looked, looked', both.1, both.2, denotable, denotable'⟩
  cases bound : core.scopes.binding? owner.scope name with
  | some declaration =>
      cases (sound.lookup_bound bound).symm.trans looked
      cases (alongside.sound.lookup_bound (same.trans bound)).symm.trans looked'
      rw [alongside.develops.scopes] at bound
      exact ⟨alongside, denoted_twins alongside.encloses (alongside.written bound)⟩
  | none =>
      cases (sound.lookup_global bound).symm.trans looked
      cases (alongside.sound.lookup_global (same.trans bound)).symm.trans looked'
      obtain ⟨encloses, twins⟩ := alongside.encloses.globalDeclaration name
      exact ⟨alongside.withSymbols (develops_globalDeclaration sound name).1
        (develops_globalDeclaration alongside.sound name).1 encloses, twins⟩

/-- Chains of keys that start at twins lead to twins, or lack the same key. -/
theorem follow {id id' : DeclId} (twins : Twins count core.symbols whole.symbols id id')
    (denotable : core.Denotable owner id) (denotable' : whole.Denotable owner id') (keys : List ChainKey) :
    ∃ destination destination' after after',
      (Graph.follow id keys).outcome core = (.ok destination, after) ∧
      (Graph.follow id' keys).outcome whole = (.ok destination', after') ∧
      Alongside count start after after' ∧
      destination.Twins (Twins count after.symbols after'.symbols) destination' ∧
      ∀ exporter key, destination = .missing exporter key → after.HasProvider exporter := by
  induction keys generalizing core whole id id' with
  | nil => exact ⟨_, _, core, whole, rfl, rfl, alongside, .declaration twins, by simp⟩
  | cons key rest ih =>
      have sound := alongside.navigable.sound
      have kinds := kind_twins alongside.encloses sound alongside.sound twins
      rw [Graph.follow, Graph.follow]
      simp only [Step.outcome_bind, Step.outcome_get, kinds.namespace?]
      split
      next => exact ⟨_, _, core, whole, rfl, rfl, alongside, .beyond, by simp⟩
      next exporter named =>
          obtain ⟨known, sees⟩ := sound.namespace? denotable.1 named
          obtain ⟨known', sees'⟩ := alongside.sound.namespace? denotable'.1 (kinds.namespace?.trans named)
          obtain ⟨first, visible⟩ := develops_resolveExport? sound known key.name
          obtain ⟨first', visible'⟩ := develops_resolveExport? alongside.sound known' key.name
          obtain ⟨_, _, answered⟩ := alongside.navigable.resolveExport? known key.name
          rcases resolveExport?_twins alongside.encloses sound known key.name with
            ⟨fault, failed, -⟩ | ⟨found, found', middle, middle', outcome, outcome', encloses, twins⟩
          · cases failed.symm.trans answered
          · rw [outcome] at first visible
            rw [outcome'] at first' visible'
            have onward := alongside.withSymbols first first' encloses
            simp only [Step.outcome_bind, onSymbols_outcome, outcome, outcome']
            cases twins with
            | none =>
                refine ⟨_, _, _, _, rfl, rfl, onward, .missing, fun other key' same => ?_⟩
                cases same
                exact first.extension.hasProvider known
            | some twins =>
                obtain ⟨seen, final⟩ := visible _ rfl owner sees
                obtain ⟨seen', final'⟩ := visible' _ rfl owner sees'
                exact ih onward twins ⟨seen, fun _ => final⟩ ⟨seen', fun _ => final'⟩

/-! ## Accesses -/

theorem settle_plain {id : NodeId} {resolution : Resolution}
    (other : ∀ declaration, resolution ≠ .declaration declaration)
    (twins : Resolution.Twins (Twins count core.symbols whole.symbols) (some resolution)
      (some resolution)) :
    Alongside count start ((Graph.settle id resolution).outcome core).2
      ((Graph.settle id resolution).outcome whole).2 :=
  alongside.settle
    (develops_settle id resolution fun declaration same => absurd same (other declaration))
    (develops_settle id resolution fun declaration same => absurd same (other declaration)) twins

theorem settleDeclaration {id : NodeId} {fragment : Fragment} {last last' : DeclId}
    (found : start.nodes[id.index]? = some ⟨owner, fragment⟩)
    (twins : Twins count core.symbols whole.symbols last last') (denotable : core.Denotable owner last)
    (denotable' : whole.Denotable owner last') :
    Alongside count start ((Graph.settle id (.declaration last)).outcome core).2
      ((Graph.settle id (.declaration last')).outcome whole).2 :=
  alongside.settle (develops_settleDeclaration alongside.develops.nodes found denotable)
    (develops_settleDeclaration rfl (alongside.node found) denotable') (.declaration twins)

theorem warn (known : start.HasProvider (.internal owner)) {exporter : Provider}
    (known' : core.HasProvider exporter) (key : ChainKey) :
    Alongside count start ((Graph.warn options owner exporter key).outcome core).2
      ((Graph.warn options owner exporter key).outcome whole).2 := by
  have same : missingExportWarning whole.symbols options owner exporter key =
      missingExportWarning core.symbols options owner exporter key := by
    rw [missingExportWarning, missingExportWarning, alongside.specifier known',
      alongside.encloses.moduleName (alongside.moduleInside known)]
  refine alongside.advance (develops_warn options exporter key) (develops_warn options exporter key)
    alongside.encloses alongside.bound alongside.resolution ?_
  rw [Graph.warn, Step.outcome_modify, Step.outcome_modify]
  dsimp only
  rw [same, alongside.warnings]

theorem proposeFor {id id' : DeclId} (twins : Twins count core.symbols whole.symbols id id')
    (hint : String) : Alongside count start ((Graph.proposeFor id hint).outcome core).2
      ((Graph.proposeFor id' hint).outcome whole).2 := by
  have kinds := kind_twins alongside.encloses alongside.navigable.sound alongside.sound twins
  rw [Graph.proposeFor, Graph.proposeFor, Step.outcome_modify, Step.outcome_modify]
  dsimp only
  generalize (core.symbols.declarationAt id).kind = kind, (whole.symbols.declarationAt id').kind = kind'
    at kinds
  cases kinds with
  | @provided source =>
      exact alongside.withSymbols (develops_proposeName source hint) (develops_proposeName source hint)
        (alongside.encloses.proposeName source hint)
  | declared | unlinked | linked | namespaceOf | free => exact alongside

/-- The same is noted about an access in both programs. -/
theorem conclude {id : NodeId} {fragment : Fragment}
    (found : start.nodes[id.index]? = some ⟨owner, fragment⟩) (known : start.HasProvider (.internal owner))
    (root : String) {destination destination' : Destination}
    (twins : destination.Twins (Twins count core.symbols whole.symbols) destination')
    (denotable : ∀ last, destination = .declaration last → core.Denotable owner last)
    (denotable' : ∀ last, destination' = .declaration last → whole.Denotable owner last)
    (missing : ∀ exporter key, destination = .missing exporter key → core.HasProvider exporter) :
    Alongside count start ((Graph.conclude options owner id root destination).outcome core).2
      ((Graph.conclude options owner id root destination').outcome whole).2 := by
  cases twins with
  | declaration same =>
      have settled := alongside.settleDeclaration found same (denotable _ rfl) (denotable' _ rfl)
      exact settled.proposeFor (same.mono (.refl _) (.refl _)) root
  | @missing exporter key =>
      have warned : Alongside count start ((Graph.warn options owner exporter key).outcome core).2 _ :=
        alongside.warn known (missing exporter key rfl) key
      exact warned.settle_plain (by simp) .undefined
  | beyond => exact alongside.settle_plain (by simp) .fallback

end Alongside

/-! ## All modules -/

/-- In both programs the step succeeds with the same result, and finds out the same. -/
def Mirrors (count : Nat) (start : Graph) {α : Type} (step : Step Graph α) : Prop :=
  ∀ core whole, Alongside count start core whole → ∃ a after after',
    step.outcome core = (.ok a, after) ∧ step.outcome whole = (.ok a, after') ∧
      Alongside count start after after'

namespace Mirrors

variable {α β : Type}

theorem pure (a : α) : Mirrors count start (pure a : Step Graph α) := fun core whole alongside =>
  ⟨a, core, whole, rfl, rfl, alongside⟩

theorem bind {step : Step Graph α} {next : α → Step Graph β} (first : Mirrors count start step)
    (later : ∀ a, Mirrors count start (next a)) : Mirrors count start (step >>= next) := by
  intro core whole alongside
  obtain ⟨a, middle, middle', outcome, outcome', between⟩ := first core whole alongside
  obtain ⟨b, after, after', last, last', final⟩ := later a middle middle' between
  refine ⟨b, after, after', ?_, ?_, final⟩
  · rwa [Step.outcome_bind, outcome]
  · rwa [Step.outcome_bind, outcome']

theorem once {id : NodeId} {step : Step Graph Unit} (inside : id.index < start.nodes.size)
    (mirrors : Mirrors count start step) : Mirrors count start (once id step) := by
  intro core whole alongside
  rw [Graph.once]
  simp only [Step.outcome_bind, Step.outcome_get, alongside.bound inside]
  split
  · exact pure () core whole alongside
  · simp only [Step.outcome_bind, Step.outcome_modify]
    exact mirrors _ _
      (alongside.modifyMark (develops_look id) (develops_look id) (fun _ => rfl) fun same => same)

theorem forM {step : α → Step Graph Unit} {items : List α}
    (each : ∀ item ∈ items, Mirrors count start (step item)) : Mirrors count start (items.forM step) := by
  induction items with
  | nil => exact pure ()
  | cons item rest ih =>
      rw [List.forM_eq_forM, List.forM_cons]
      exact bind (each item List.mem_cons_self) fun _ =>
        ih fun item member => each item (List.mem_cons_of_mem _ member)

end Mirrors

theorem composes_mirrors (arena : Arena start.nodes) (known : start.HasProvider (.internal owner)) :
    Composes options owner (Placed start.nodes owner) (Mirrors count start) where
  child := Placed.child arena
  pure := Mirrors.pure
  bind := Mirrors.bind
  once {e step} placed mirrors := Mirrors.once (Array.getElem?_eq_some_iff.mp placed).1 mirrors
  name {label name} placed core whole alongside := by
    obtain ⟨id, id', after, after', looked, looked', onward, twins, denotable, denotable'⟩ :=
      alongside.lookup known name
    simp only [Step.outcome_bind, looked, looked']
    exact ⟨_, _, _, rfl, rfl, onward.settleDeclaration placed twins denotable denotable'⟩
  access {access} placed core whole alongside := by
    by_cases named : ∃ label root keys, access.chain? = some (.ident label root, keys)
    · obtain ⟨label, root, keys, chain⟩ := named
      obtain ⟨id, id', middle, middle', looked, looked', between, twins, denotable, denotable'⟩ :=
        alongside.lookup known root
      obtain ⟨destination, destination', after, after', outcome, outcome', onward, leads, missing⟩ :=
        between.follow twins denotable denotable' keys
      have reached := (develops_follow between.navigable.sound denotable keys).2
      have reached' := (develops_follow between.sound denotable' keys).2
      rw [outcome] at reached
      rw [outcome'] at reached'
      have concluded : Alongside count start
          ((Graph.conclude options owner access.id root destination).outcome after).2 _ :=
        onward.conclude placed known root leads
          (fun last same => reached last (congrArg Except.ok same))
          (fun last same => reached' last (congrArg Except.ok same)) missing
      obtain ⟨_, -, -, result⟩ := conclude_outcome after options owner access.id root destination
      obtain ⟨_, -, -, result'⟩ := conclude_outcome after' options owner access.id root destination'
      have same : settles destination' = settles destination := by cases leads <;> rfl
      rw [resolveAccess_eq chain]
      simp only [Step.outcome_bind, looked, looked', outcome, outcome']
      exact ⟨_, _, _, Step.outcome_eq (congrArg Prod.fst result),
        Step.outcome_eq ((congrArg Prod.fst result').trans (congrArg Except.ok same)), concluded⟩
    · rw [resolveAccess]
      split
      next chain => exact absurd ⟨_, _, _, chain⟩ named
      next =>
          refine Mirrors.bind (fun core whole alongside => ?_) (fun _ => Mirrors.pure false) core whole
            alongside
          exact ⟨(), _, _, rfl, rfl, alongside.settle_plain (by simp) .fallback⟩

/-- The modules of the smaller program are resolved alike in both programs. -/
theorem mirrors_resolveModule (sound : start.Sound) (known : start.HasProvider (.internal owner)) :
    Mirrors count start (resolveModule options owner) := by
  intro core whole alongside
  have same : whole.statements owner = start.statements owner :=
    (statements_whole alongside.encloses alongside.navigable.sound
      (fun found => alongside.node (alongside.develops.nodes ▸ found)) (alongside.moduleInside known)).trans
      (alongside.develops.statements owner)
  rw [resolveModule]
  simp only [Step.outcome_bind, Step.outcome_get, same, alongside.develops.statements owner]
  refine Mirrors.forM (fun statement member => ?_) core whole alongside
  have found := (sound.grounded.statement member).2
  exact Mirrors.once (Array.getElem?_eq_some_iff.mp found).1
    ((composes_mirrors sound.arena known).resolveExprs _ fun e child => (sound.arena.child found e child).2)

/-- Resolving both programs in the same order ends alike. -/
theorem Alongside.resolve (alongside : Alongside count start core whole) (options : Options)
    (sound : start.Sound) (order : whole.order = core.order)
    (known : ∀ owner ∈ core.order, start.HasProvider (.internal owner)) :
    ∃ after after', (Graph.resolve options).outcome core = (.ok (), after) ∧
      (Graph.resolve options).outcome whole = (.ok (), after') ∧ Alongside count start after after' := by
  have mirrors : Mirrors count start (core.order.forM (resolveModule options)) :=
    Mirrors.forM fun owner member => mirrors_resolveModule sound (known owner member)
  obtain ⟨_, after, after', outcome, outcome', onward⟩ := mirrors core whole alongside
  rw [Graph.resolve]
  simp only [Step.outcome_bind, Step.outcome_get, order]
  exact ⟨after, after', outcome, outcome', onward⟩

end Graph

end Bundler
