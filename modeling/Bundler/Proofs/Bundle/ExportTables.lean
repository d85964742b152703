import Bundler.Proofs.Bundle.OnceLinked
import Bundler.Proofs.Bundle.Understood
import Bundler.Proofs.Postorder

/-! # Tables of exports

Linking writes down what every module exports.  The names are collected by one walk along star exports, and
each of them is then searched for by another, so a name that the first one leaves out is one that the
second one cannot find, unless an external module answers: what names these have is not known.
-/

namespace Bundler

namespace Symbols

variable {symbols : Symbols} {id : ModuleId} {name : String}

/-- No star export of an external module is reached through star exports. -/
def Enclosed (symbols : Symbols) (id : ModuleId) : Prop :=
  ∀ home, DepthFirst.Leads symbols.starModules id home →
    ∀ source, .external source ∉ (symbols.moduleAt home).starSources

/-- A name that is not listed is not provided by the module, nor by any that it is looked for in. -/
theorem Enclosed.not_provides (enclosed : symbols.Enclosed id)
    (known : ∀ {id : ModuleId}, id.index < symbols.modules.size →
      ∀ source ∈ symbols.starModules id, source.index < symbols.modules.size)
    (inside : id.index < symbols.modules.size) (unlisted : name ∉ symbols.exportedNames id)
    {source : Provider} {imported : String} {origin : Origin}
    (provided : symbols.Provides source imported origin) {home : ModuleId} (same : source = .internal home)
    (way : Relation.ReflTransGen symbols.LeadsTo (id, name) (home, imported))
    (stars : DepthFirst.Leads symbols.starModules id home) : False := by
  induction provided generalizing home with
  | here answer =>
      subst same
      obtain ⟨rfl, absent⟩ := leadsTo_unlisted known inside unlisted way
      exact not_answers_of_absent absent answer
  | @beyond _ _ next _ _ passed _ ih =>
      subst same
      obtain ⟨rfl, absent⟩ := leadsTo_unlisted known inside unlisted way
      obtain ⟨-, -, -, star⟩ := passed.byStar_of_absent absent
      cases next with
      | external other => exact enclosed home stars other star
      | internal other => exact ih rfl (way.tail passed) (stars.tail (mem_starModules.mpr star))

/-- A module lists every name that it provides. -/
theorem Enclosed.listed (enclosed : symbols.Enclosed id)
    (known : ∀ {id : ModuleId}, id.index < symbols.modules.size →
      ∀ source ∈ symbols.starModules id, source.index < symbols.modules.size)
    (inside : id.index < symbols.modules.size) {origin : Origin}
    (provided : symbols.Provides (.internal id) name origin) : name ∈ symbols.exportedNames id := by
  by_contra unlisted
  exact enclosed.not_provides known inside unlisted provided rfl .refl .refl

/-- What is published under a name is what answers a request for it, if no name is left out. -/
theorem Published.answered (published : symbols.Published id)
    (missed : name ∉ symbols.exportedNames id → symbols.Answered (.internal id) name none) :
    ∃ found, symbols.Answered (.internal id) name found ∧
      ∀ declaration, (name, declaration) ∈ (symbols.moduleAt id).resolvedExports ↔
        found = some declaration := by
  by_cases listed : name ∈ symbols.exportedNames id
  · obtain ⟨found, answered⟩ := Found.answered published listed
    refine ⟨found, answered, fun declaration => ⟨fun member => ?_, ?_⟩⟩
    · have there := published.mem member
      exact answered.unique there
    · rintro rfl
      exact published.mem_of_answered listed answered
  · refine ⟨none, missed listed, fun declaration => ⟨fun member => ?_, nofun⟩⟩
    have there := published.mem member
    exact (missed listed).unique there

end Symbols

namespace Graph

variable {graph linked : Graph} {id : ModuleId}

/-- Following one key from the namespace object of a module is asking the module for it. -/
theorem follow_key {space : DeclId} {key : ChainKey} {found : Option DeclId}
    (kind : (graph.symbols.declarationAt space).kind = .namespaceOf id)
    (answered : graph.symbols.Answered (.internal id) key.name found) :
    (follow space [key]).outcome graph =
      (.ok (found.elim (.missing (.internal id) key) .declaration), graph) := by
  have exporter : (graph.symbols.declarationAt space).namespace? = some (.internal id) := by
    rw [Declaration.namespace?, kind]
  rw [follow, Step.outcome_bind, Step.outcome_get]
  dsimp only
  rw [exporter]
  dsimp only
  rw [Step.outcome_bind, onSymbols_outcome, answered]
  cases found <;> rfl

/-- After a successful link, the table of a module tells exactly what the module answers to a request for a
    name, and what the name is as a property of the namespace object: the declaration in the table, or
    that there is none.  This needs that no star export of an external module is reached, since whatever is
    asked of an external module is answered. -/
theorem resolvedExports_iff (reachable : graph.Reachable) (linking : link.outcome graph = (.ok (), linked))
    (inside : linked.HasProvider (.internal id)) (enclosed : linked.symbols.Enclosed id) (name : String) :
    ∃ found, (Symbols.resolveExport? (.internal id) name).outcome linked.symbols =
        (.ok found, linked.symbols) ∧
      (∀ declaration, (name, declaration) ∈ (linked.symbols.moduleAt id).resolvedExports ↔
        found = some declaration) ∧
      ∀ space key, (linked.symbols.declarationAt space).kind = .namespaceOf id → key.name = name →
        (follow space [key]).outcome linked =
          (.ok (found.elim (.missing (.internal id) key) .declaration), linked) := by
  have sound := reachable.intact.sound
  have published := (linked_of_link sound linking).published inside
  have navigable := (OnceLinked.link reachable linking).navigable
  have missed : name ∉ linked.symbols.exportedNames id →
      linked.symbols.Answered (.internal id) name none := fun unlisted => by
    obtain ⟨origin, search⟩ := navigable.answering (.internal id) inside name
    cases origin with
    | none => exact Symbols.answered_none search
    | some origin =>
        have provided := Symbols.provides_of_search? search
        exact absurd (enclosed.listed navigable.sound.starModules_known inside provided) unlisted
  obtain ⟨found, answered, table⟩ := published.answered missed
  refine ⟨found, answered, table, fun space key kind same => ?_⟩
  subst same
  exact follow_key kind answered

end Graph

/-- Three modules export each other's names, each has one of its own, and the last has a default. -/
def Draft.shared : Draft :=
  let draft := (((Draft.addModule {} "a").2.addModule "b").2.addModule "c").2
  let draft := (draft.exportAll ⟨0⟩ (.internal ⟨1⟩)).exportAll ⟨0⟩ (.internal ⟨2⟩)
  let draft := (draft.exportAll ⟨1⟩ (.internal ⟨0⟩)).exportAll ⟨2⟩ (.internal ⟨1⟩)
  let draft := ((declare ⟨0⟩ .constant "x" (some (.literal () .null)) true).outcome draft).2
  let draft := ((declare ⟨1⟩ .constant "y" (some (.literal () .null)) true).outcome draft).2
  let draft := ((declare ⟨2⟩ .constant "z" (some (.literal () .null)) true).outcome draft).2
  ((exportFrom ⟨2⟩ (.internal ⟨1⟩) "y" defaultExport).outcome draft).2

/-- The program with the first of them as its entry. -/
def Graph.shared : Graph := Draft.shared.graph

theorem Draft.built_shared : Draft.shared.Built := by
  refine .exportFrom (.declare (.declare (.declare (.exportAll (.exportAll (.exportAll (.exportAll
    (.addModule (.addModule (.addModule .empty "a") "b") "c") ?_ ?_) ?_ ?_) ?_ ?_) ?_ ?_)
    ?_ _ _ _ _) ?_ _ _ _ _) ?_ _ _ _ _) ?_ ?_ _ _
  all_goals decide

theorem Graph.made_shared : Graph.shared.Made :=
  .finish Draft.built_shared (by decide) rfl

namespace Graph

/-- The name of the last module is in the table of the first, and its default is not. -/
theorem resolvedExports_shared : ∃ linked declaration, link.outcome shared = (.ok (), linked) ∧
    ("z", declaration) ∈ (linked.symbols.moduleAt ⟨0⟩).resolvedExports ∧
    (∀ declaration, (defaultExport, declaration) ∉ (linked.symbols.moduleAt ⟨0⟩).resolvedExports) := by
  have linking : link.outcome shared = (.ok (), (link.outcome shared).2) :=
    Step.outcome_eq (by decide +kernel)
  have inside : (link.outcome shared).2.HasProvider (.internal ⟨0⟩) := by decide +kernel
  have closed : (link.outcome shared).2.symbols.externals.size = 0 := by decide +kernel
  have asked : ((Symbols.resolveExport? (.internal ⟨0⟩) "z").outcome (link.outcome shared).2.symbols).1 =
      .ok (some ⟨5⟩) := by decide +kernel
  have missed : ((Symbols.resolveExport? (.internal ⟨0⟩) defaultExport).outcome
      (link.outcome shared).2.symbols).1 = .ok none := by decide +kernel
  have sound := (OnceLinked.link (.made made_shared) linking).navigable.sound
  have enclosed : (link.outcome shared).2.symbols.Enclosed ⟨0⟩ := fun home _ source star => by
    have known : source.index < (link.outcome shared).2.symbols.externals.size :=
      sound.known ((sound.modules (Symbols.lt_of_mem_starSources star)).star _ star)
    exact Nat.not_lt_zero _ (Nat.lt_of_lt_of_eq known closed)
  obtain ⟨found, outcome, table, -⟩ :=
    resolvedExports_iff (.made made_shared) linking inside enclosed "z"
  obtain ⟨absent, outcome', table', -⟩ :=
    resolvedExports_iff (.made made_shared) linking inside enclosed defaultExport
  rw [outcome] at asked
  rw [outcome'] at missed
  have present : found = some ⟨5⟩ := Except.ok.inj asked
  have missing : absent = none := Except.ok.inj missed
  rw [present] at table
  rw [missing] at table'
  exact ⟨_, _, linking, (table _).mpr rfl, fun declaration listed => nomatch (table' _).mp listed⟩

end Graph

end Bundler
