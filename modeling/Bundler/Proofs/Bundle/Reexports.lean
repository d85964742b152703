import Bundler.Proofs.Bundle.OnceLinked
import Bundler.Proofs.Graph.Rerouting

/-! # Names that are exported again

Once a program is linked, a name that a module exports again is what it is where it comes from, however
often it is handed on.  The success of linking is needed for that: from where the name comes from, a search
may lead back to the module that exports it again, and complain about the circle that a search from there
does not see.
-/

namespace Bundler

namespace Symbols

variable {symbols other after : Symbols} {r last : Provider × String} {id : DeclId}

/-- A module exports again, under a name, what another one has under a name. -/
def HandsOn (symbols : Symbols) (r next : Provider × String) : Prop :=
  next.2 ≠ wholeModule ∧
    ∃ id, r.1 = .internal id ∧ (symbols.moduleAt id).exports[r.2]? = some (.again next.1 next.2)

theorem SameModules.handsOn (same : SameModules symbols other) {r next : Provider × String}
    (hands : other.HandsOn r next) : symbols.HandsOn r next := by
  obtain ⟨named, id, home, again⟩ := hands
  exact ⟨named, id, home, same.exports id ▸ again⟩

theorem HandsOn.link_reroute {next : Provider × String} (hands : symbols.HandsOn r next)
    (named : r.2 ≠ wholeModule)
    (kind : ∃ target, (symbols.declarationAt id).kind = .imported next.1 next.2 target)
    (linking : link.outcome symbols = (.ok (), after)) :
    link.outcome (symbols.reroute id r.1 r.2) = (.ok (), after.reroute id r.1 r.2) := by
  obtain ⟨source, name⟩ := r
  obtain ⟨named', home, rfl, again⟩ := hands
  have shortcut : Shortcut (home, name) next.1 next.2 id symbols := ⟨again, named', kind⟩
  exact shortcut.link_reroute named linking

/-- An import may be written by way of all modules that hand on what it imports. -/
theorem link_reroute_chain (chain : Relation.TransGen symbols.HandsOn r last) (named : r.2 ≠ wholeModule)
    (kind : ∃ target, (symbols.declarationAt id).kind = .imported last.1 last.2 target)
    (linking : link.outcome symbols = (.ok (), after)) :
    link.outcome (symbols.reroute id r.1 r.2) = (.ok (), after.reroute id r.1 r.2) := by
  -- From the end of the chain to its start, the import is written by way of one more module each time.
  induction chain using Relation.TransGen.head_induction_on with
  | single hands => exact hands.link_reroute named kind linking
  | @head r next hands _ ih =>
      obtain ⟨target, kind⟩ := kind
      have hands' : (symbols.reroute id next.1 next.2).HandsOn r next := hands
      have rerouted := hands'.link_reroute named ⟨target, kind_reroute kind⟩ (ih hands.1)
      rwa [reroute_reroute, reroute_reroute] at rerouted

end Symbols

namespace Graph

variable {graph linked : Graph} {r last : Provider × String}

theorem Navigable.handsOn (navigable : graph.Navigable) (hands : graph.symbols.HandsOn r last) :
    graph.HasProvider r.1 ∧ graph.HasProvider last.1 ∧
      ∃ found, graph.symbols.exportOrigin? r.1 r.2 = .ok found ∧
        graph.symbols.exportOrigin? last.1 last.2 = .ok found := by
  obtain ⟨source, name⟩ := r
  obtain ⟨named, home, rfl, again⟩ := hands
  have passed : graph.symbols.Passes (.internal home) name last.1 last.2 :=
    .explicitly ⟨.again again, named⟩
  have known := navigable.sound.known (navigable.sound.passes passed)
  obtain ⟨found, answered⟩ := navigable.answering last.1 known last.2
  have detours : graph.symbols.Detours graph.symbols (home, name) last.1 last.2 := .refl again named
  exact ⟨Symbols.lt_of_export again, known, found, detours.exportOrigin?_detour answered, answered⟩

/-- What is handed on is the same all along the chain. -/
theorem Navigable.handsOn_chain (navigable : graph.Navigable)
    (chain : Relation.TransGen graph.symbols.HandsOn r last) :
    graph.HasProvider r.1 ∧ graph.HasProvider last.1 ∧
      ∃ found, graph.symbols.exportOrigin? r.1 r.2 = .ok found ∧
        graph.symbols.exportOrigin? last.1 last.2 = .ok found := by
  induction chain with
  | single hands => exact navigable.handsOn hands
  | tail _ hands ih =>
      obtain ⟨start, -, found, first, here⟩ := ih
      obtain ⟨-, known, found', here', later⟩ := navigable.handsOn hands
      cases here.symm.trans here'
      exact ⟨start, known, found, first, later⟩

/-- Whoever asks for it gets the same answer, and gets it again. -/
theorem Navigable.resolveExport?_chain (navigable : graph.Navigable)
    (chain : Relation.TransGen graph.symbols.HandsOn r last) :
    ∃ found after, (Symbols.resolveExport? r.1 r.2).outcome graph.symbols = (.ok found, after) ∧
      (Symbols.resolveExport? last.1 last.2).outcome graph.symbols = (.ok found, after) ∧
      after.Answered r.1 r.2 found ∧ after.Answered last.1 last.2 found := by
  obtain ⟨start, known, origin, first, second⟩ := navigable.handsOn_chain chain
  have connected := navigable.connected
  obtain ⟨found, after, outcome⟩ := navigable.resolveExport? known last.2
  have outcome' : (Symbols.resolveExport? r.1 r.2).outcome graph.symbols = (.ok found, after) := by
    rw [← outcome, Symbols.resolveExport?_outcome, Symbols.resolveExport?_outcome, first, second]
  have answered := navigable.sound.answered connected start (congrArg Prod.fst outcome')
  have answered' := navigable.sound.answered connected known (congrArg Prod.fst outcome)
  rw [outcome'] at answered
  rw [outcome] at answered'
  exact ⟨found, after, outcome', outcome, answered, answered'⟩

theorem Develops.imported {other : Graph} (develops : Develops graph other) {id : DeclId} {source : Provider}
    {name : String} {target : Option DeclId}
    (kind : (other.symbols.declarationAt id).kind = .imported source name target) :
    ∃ earlier, (graph.symbols.declarationAt id).kind = .imported source name earlier := by
  rcases develops.added (Symbols.lt_of_imported kind) with before | final
  · have becomes := develops.kind before
    rw [kind] at becomes
    exact becomes.imported
  · exact absurd kind (final _ _ _)

/-- After a successful link, asking for a name that a module exports again finds the same as asking for it
    where it comes from, the same declaration or that there is none, and whoever asks again finds the same
    again.  This holds for chains of any length.

    So it does not matter by way of which of the modules on a chain an import is written.  The program can
    also be linked when the import goes by way of further modules of the chain, and all names of the program
    denote what they denoted.  They do so as well if some are left out, as long as the program can be linked
    then. -/
theorem reexports_agree (reachable : graph.Reachable) (linking : link.outcome graph = (.ok (), linked))
    {source source' : Provider} {name name' : String}
    (chain : Relation.TransGen linked.symbols.HandsOn (source, name) (source', name')) :
    (∃ found after, (Symbols.resolveExport? source name).outcome linked.symbols = (.ok found, after) ∧
        (Symbols.resolveExport? source' name').outcome linked.symbols = (.ok found, after) ∧
        after.Answered source name found ∧ after.Answered source' name' found) ∧
      (name ≠ wholeModule → ∀ id target,
        ((linked.symbols.declarationAt id).kind = .imported source' name' target →
          ∃ longer, Symbols.link.outcome (graph.symbols.reroute id source name) = (.ok (), longer) ∧
            ∀ other, longer.denoted other = linked.symbols.denoted other) ∧
        ((linked.symbols.declarationAt id).kind = .imported source name target →
          ∀ shorter, Symbols.link.outcome (graph.symbols.reroute id source' name') = (.ok (), shorter) →
            ∀ other, shorter.denoted other = linked.symbols.denoted other)) := by
  have sound := reachable.intact.sound
  have develops := develops_of_link sound linking
  have symbols := link_symbols linking
  have before : Relation.TransGen graph.symbols.HandsOn (source, name) (source', name') :=
    Relation.TransGen.mono (fun _ _ => develops.sameModules.handsOn) _ _ chain
  refine ⟨?_, fun named id target => ⟨fun kind => ?_, fun kind shorter short => ?_⟩⟩
  · exact (OnceLinked.link reachable linking).navigable.resolveExport?_chain chain
  · have long := Symbols.link_reroute_chain before named (develops.imported kind) symbols
    exact ⟨_, long, Symbols.denoted_reroute⟩
  · obtain ⟨earlier, kind⟩ := develops.imported kind
    have rerouted : Relation.TransGen (graph.symbols.reroute id source' name').HandsOn (source, name)
      (source', name') := before
    have long := Symbols.link_reroute_chain rerouted named ⟨earlier, Symbols.kind_reroute kind⟩ short
    rw [Symbols.reroute_reroute, Symbols.reroute_self kind, symbols] at long
    obtain ⟨-, same⟩ := Prod.mk.inj long
    exact fun other => same ▸ (Symbols.denoted_reroute other).symm

end Graph

/-- A name is handed on from `lib` to `middle` and from there to `outer`, each time under another name.  The
    entry imports it from `lib`. -/
def Draft.relayed : Draft :=
  let draft := (((Draft.addModule {} "lib").2.addModule "middle").2.addModule "outer").2
  let draft := (draft.addModule "main").2
  let draft := ((declare ⟨0⟩ .constant "x" (some (.literal () .null)) true).outcome draft).2
  let draft := ((exportFrom ⟨1⟩ (.internal ⟨0⟩) "x" "y").outcome draft).2
  let draft := ((exportFrom ⟨2⟩ (.internal ⟨1⟩) "y" "z").outcome draft).2
  ((importFrom ⟨3⟩ (.internal ⟨0⟩) "x" "x").outcome draft).2

/-- The program with the module that imports the name as its entry. -/
def Graph.relayed : Graph := { Draft.relayed.graph with entry := ⟨3⟩ }

theorem Draft.built_relayed : Draft.relayed.Built := by
  refine .importFrom (.exportFrom (.exportFrom (.declare (.addModule (.addModule (.addModule (.addModule
    .empty "lib") "middle") "outer") "main") ?_ _ _ _ _) ?_ ?_ _ _) ?_ ?_ _ _) ?_ ?_ _ _
  all_goals decide

theorem Graph.made_relayed : Graph.relayed.Made :=
  .finish Draft.built_relayed (by decide) rfl

namespace Graph

/-- The import may take the name from `outer` instead. -/
theorem reexports_relayed : ∃ linked longer, link.outcome relayed = (.ok (), linked) ∧
    ((Symbols.resolveExport? (.internal ⟨2⟩) "z").outcome linked.symbols).1 =
      ((Symbols.resolveExport? (.internal ⟨0⟩) "x").outcome linked.symbols).1 ∧
    (linked.symbols.declarationAt ⟨5⟩).kind = .imported (.internal ⟨0⟩) "x" (some ⟨4⟩) ∧
    Symbols.link.outcome (relayed.symbols.reroute ⟨5⟩ (.internal ⟨2⟩) "z") = (.ok (), longer) ∧
    longer.denoted ⟨5⟩ = ⟨4⟩ := by
  have succeeds : (link.outcome relayed).1.isOk = true := by decide
  have kind : ((link.outcome relayed).2.symbols.declarationAt ⟨5⟩).kind =
      .imported (.internal ⟨0⟩) "x" (some ⟨4⟩) := by decide
  have outer : ((link.outcome relayed).2.symbols.moduleAt ⟨2⟩).exports["z"]? =
      some (.again (.internal ⟨1⟩) "y") := by decide
  have middle : ((link.outcome relayed).2.symbols.moduleAt ⟨1⟩).exports["y"]? =
      some (.again (.internal ⟨0⟩) "x") := by decide
  cases linking : link.outcome relayed with
  | mk result linked =>
      rw [linking] at succeeds kind outer middle
      cases result with
      | error fault => cases succeeds
      | ok _ =>
          have first : linked.symbols.HandsOn (.internal ⟨2⟩, "z") (.internal ⟨1⟩, "y") :=
            ⟨by decide, ⟨2⟩, rfl, outer⟩
          have second : linked.symbols.HandsOn (.internal ⟨1⟩, "y") (.internal ⟨0⟩, "x") :=
            ⟨by decide, ⟨1⟩, rfl, middle⟩
          have chain := Relation.TransGen.tail (.single first) second
          obtain ⟨⟨found, after, here, there, -⟩, reroutes⟩ :=
            reexports_agree (.made made_relayed) linking chain
          obtain ⟨longer, long, same⟩ := (reroutes (by decide) ⟨5⟩ _).1 kind
          refine ⟨linked, longer, rfl, ?_, kind, long, ?_⟩
          · rw [here, there]
          · rw [same, Symbols.denoted, kind]

end Graph

end Bundler
