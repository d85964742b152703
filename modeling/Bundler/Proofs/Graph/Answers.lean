import Bundler.Proofs.Graph.Order
import Bundler.Proofs.Graph.Relinking

/-! # Every request is answered

A request can only fail in a circle that goes through an explicit export.  Linking asks every module for
all names that it or a module of its star exports lists, so what is left are names for which the search
goes through star exports alone, and these run into no circle.
-/

namespace Bundler.Symbols

variable {symbols : Symbols} {id : ModuleId} {name : String}

/-- The modules that a module reaches through star exports. -/
def starReached (symbols : Symbols) (id : ModuleId) : List ModuleId :=
  (DepthFirst.walk symbols.starModules (symbols.modules.size + 1) id).left

theorem mem_starModules {source : ModuleId} :
    source ∈ symbols.starModules id ↔ .internal source ∈ (symbols.moduleAt id).starSources := by
  rw [starModules, List.mem_filterMap]
  constructor
  · rintro ⟨other, member, same⟩
    cases other with
    | internal other =>
        cases same
        exact Array.mem_toList_iff.mp member
    | external other => cases same
  · intro member
    exact ⟨_, Array.mem_toList_iff.mpr member, rfl⟩

/-- A module lists the names that it exports itself, and those but the default that a module of its
    star exports does. -/
theorem mem_exportedNames :
    name ∈ symbols.exportedNames id ↔
      ∃ source ∈ symbols.starReached id, name ∈ (symbols.moduleAt source).exports ∧
        (source = id ∨ name ≠ defaultExport) := by
  rw [exportedNames, Std.TreeSet.mem_toList, Std.TreeSet.mem_ofList, List.contains_iff_mem,
    List.mem_flatMap]
  refine exists_congr fun source => and_congr_right fun _ => ?_
  split
  next same => simp [same]
  next different => simp [different]

/-- A request for a name that is not listed goes through star exports only. -/
theorem leadsTo_unlisted (known : ∀ {id : ModuleId}, id.index < symbols.modules.size →
      ∀ source ∈ symbols.starModules id, source.index < symbols.modules.size)
    (inside : id.index < symbols.modules.size) (unlisted : name ∉ symbols.exportedNames id)
    {r : ModuleId × String} (way : Relation.ReflTransGen symbols.LeadsTo (id, name) r) :
    r.2 = name ∧ (symbols.moduleAt r.1).exports[name]? = none := by
  have closed : ∀ v ∈ symbols.moduleIds.toFinset, ∀ source ∈ symbols.starModules v,
      source ∈ symbols.moduleIds.toFinset := fun v member source star =>
    List.mem_toFinset.mpr
      (mem_moduleIds.mpr (known (mem_moduleIds.mp (List.mem_toFinset.mp member)) source star))
  obtain ⟨start, onward⟩ := DepthFirst.closed_walk closed symbols.card_moduleIds
    (List.mem_toFinset.mpr (mem_moduleIds.mpr inside))
  have absent : ∀ source ∈ symbols.starReached id, (source = id ∨ name ≠ defaultExport) →
      (symbols.moduleAt source).exports[name]? = none := by
    intro source reached other
    exact Std.TreeMap.getElem?_eq_none fun listed =>
      unlisted (mem_exportedNames.mpr ⟨source, reached, listed, other⟩)
  have all : r.2 = name ∧ r.1 ∈ symbols.starReached id ∧ (r.1 = id ∨ name ≠ defaultExport) := by
    induction way with
    | refl => exact ⟨rfl, start, .inl rfl⟩
    | @tail before after _ step ih =>
        obtain ⟨same, reached, other⟩ := ih
        have passed : symbols.Passes (.internal before.1) name (.internal after.1) after.2 :=
          same ▸ step
        obtain ⟨same', -, named, star⟩ := passed.byStar_of_absent (absent _ reached other)
        exact ⟨same', onward _ reached _ (mem_starModules.mpr star), .inr named⟩
  exact ⟨all.1, absent _ all.2.1 all.2.2⟩

end Bundler.Symbols

namespace Bundler.Graph

variable {graph other : Graph}

theorem Sound.starModules_known (sound : graph.Sound) {id : ModuleId}
    (inside : id.index < graph.symbols.modules.size) :
    ∀ source ∈ graph.symbols.starModules id, source.index < graph.symbols.modules.size :=
  fun _ star => sound.known ((sound.modules inside).star _ (Symbols.mem_starModules.mp star))

/-- A request to whatever is there never fails. -/
def Answering (graph : Graph) : Prop :=
  ∀ source, graph.HasProvider source → ∀ name,
    ∃ found, graph.symbols.exportOrigin? source name = .ok found

theorem Sound.answering (sound : graph.Sound) (linked : graph.symbols.Linked) : graph.Answering := by
  intro source known name
  have spec := graph.symbols.exportOrigin?_spec source name
  cases result : graph.symbols.exportOrigin? source name with
  | ok found => exact ⟨found, rfl⟩
  | error fault =>
      rw [result] at spec
      -- A circle ends in an explicit step, and a request for an unlisted name never takes one.
      obtain ⟨id, r, rfl, way, -, last, further, explicit⟩ := spec
      by_cases listed : name ∈ graph.symbols.exportedNames id
      · obtain ⟨declaration, answered⟩ := Symbols.Found.answered (linked.published known) listed
        rw [Symbols.Answered, Symbols.resolveExport?_outcome, result] at answered
        cases answered
      · obtain ⟨same, absent⟩ :=
          Symbols.leadsTo_unlisted sound.starModules_known known listed (way.trans further)
        obtain ⟨entry, found⟩ := explicit.1.exports
        rw [same, absent] at found
        cases found

/-- Chains of keys can be followed: every import has its target, and every request an answer, which is
    the same whenever it is asked. -/
structure Navigable (graph : Graph) : Prop where
  sound : graph.Sound
  connected : graph.Connected
  answering : graph.Answering

theorem Sound.navigable (sound : graph.Sound) (linked : graph.symbols.Linked) : graph.Navigable :=
  ⟨sound, fun id _ => linked.targeted id, sound.answering linked⟩

namespace Navigable

theorem of_sameExports (navigable : graph.Navigable) (sound : other.Sound)
    (connected : other.Connected) (same : graph.symbols.SameExports other.symbols)
    (known : ∀ source, other.HasProvider source → graph.HasProvider source) : other.Navigable where
  sound := sound
  connected := connected
  answering source there name := by
    rw [same.exportOrigin?_eq]
    exact navigable.answering source (known source there) name

theorem develops (navigable : graph.Navigable) (develops : Develops graph other) : other.Navigable := by
  refine navigable.of_sameExports (develops.sound navigable.sound)
    (develops.connected navigable.connected)
    (develops.sameExports navigable.sound navigable.connected) fun source there => ?_
  cases source with
  | internal id => exact Nat.lt_of_lt_of_eq there develops.modules
  | external id => exact Nat.lt_of_lt_of_eq there develops.externals

theorem resolveExport? (navigable : graph.Navigable) {source : Provider}
    (known : graph.HasProvider source) (name : String) :
    ∃ found after, (Symbols.resolveExport? source name).outcome graph.symbols = (.ok found, after) := by
  obtain ⟨origin, search⟩ := navigable.answering source known name
  rw [Symbols.resolveExport?_outcome, search]
  cases origin <;> exact ⟨_, _, rfl⟩

end Navigable

end Bundler.Graph
