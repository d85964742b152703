import Bundler.Proofs.Draft.Written
import Bundler.Proofs.Graph.Answers

/-! # Targets of imports

Linking goes through the imports one after the other, and a target that is known cuts later searches
short.  Each target is something that the source provides in the program as it was written, and so is
what a request finds after linking.  Where a source provides one thing only, both are the same.
-/

namespace Bundler

namespace Symbols

variable {symbols other : Symbols}

/-- What an import of the name from the source may denote. -/
inductive Grants (symbols : Symbols) : Provider → String → Origin → Prop where
  | whole {source} : Grants symbols source wholeModule (symbols.namespaceOrigin source)
  | named {source name origin} : name ≠ wholeModule → symbols.Provides source name origin →
    Grants symbols source name origin

theorem Grants.provides {source name origin} (grants : symbols.Grants source name origin)
    (other : name ≠ wholeModule) : symbols.Provides source name origin := by
  cases grants with
  | whole => exact absurd rfl other
  | named _ provided => exact provided

/-- The second origin is the first, or the declaration of the first. -/
inductive Means (symbols : Symbols) (first : Origin) : Origin → Prop where
  | same : Means symbols first first
  | found {id} : symbols.Interned first id → Means symbols first (.declaration id)

theorem Means.interned {first origin : Origin} {id : DeclId} (means : symbols.Means first origin)
    (remembers : Remembers symbols other) (interned : other.Interned origin id) :
    other.Interned first id := by
  cases means with
  | same => exact interned
  | found known =>
      cases interned
      exact known.mono remembers

/-- Every target that is known is the declaration of something that the written program grants to the
    import. -/
def Faithful (written symbols : Symbols) : Prop :=
  ∀ id source name target, (symbols.declarationAt id).kind = .imported source name (some target) →
    ∃ origin, written.Grants source name origin ∧ symbols.Interned origin target

end Symbols

namespace Graph

variable {made graph other : Graph}

/-! ## Requests before and after imports have their targets -/

section Requests

variable (annotates : Annotates made graph) (sound : made.Sound)

include annotates sound

theorem becomes_export {id : ModuleId} {name : String} {declaration : DeclId}
    (found : (made.symbols.moduleAt id).exports[name]? = some (.own declaration)) :
    (made.symbols.declarationAt declaration).kind.Becomes
      (graph.symbols.declarationAt declaration).kind :=
  annotates.kind ((sound.modules (Symbols.lt_of_export found)).own found).inside

theorem takes_before {id : ModuleId} {name imported : String} {source : Provider}
    (takes : graph.symbols.Takes id name source imported) :
    made.symbols.Takes id name source imported := by
  cases takes with
  | again found => exact .again (annotates.sameModules.exports id ▸ found)
  | imported found kind =>
      rw [annotates.sameModules.exports] at found
      have becomes := becomes_export annotates sound found
      rw [kind] at becomes
      exact .imported found becomes.untargeted

/-- An export of an import that has a target by now took from another module what is imported. -/
theorem takes_linked (written : made.symbols.Written) {id : ModuleId} {name imported : String}
    {declaration target : DeclId} {source : Provider}
    (found : (graph.symbols.moduleAt id).exports[name]? = some (.own declaration))
    (kind : (graph.symbols.declarationAt declaration).kind = .imported source imported (some target)) :
    made.symbols.Takes id name source imported := by
  rw [annotates.sameModules.exports] at found
  have becomes := becomes_export annotates sound found
  rw [kind] at becomes
  obtain ⟨earlier, before⟩ := becomes.imported
  cases earlier with
  | none => exact .imported found before
  | some => exact absurd before written.untargeted

/-- An explicit export takes what it took, unless its import has a target by now. -/
theorem takes_after {id : ModuleId} {name imported : String} {source : Provider}
    (takes : made.symbols.Takes id name source imported) :
    graph.symbols.Takes id name source imported ∨
      ∃ target, graph.symbols.Answers (.internal id) name (.declaration target) := by
  cases takes with
  | again found => exact .inl (.again ((annotates.sameModules.exports id).symm ▸ found))
  | imported found kind =>
      have becomes := becomes_export annotates sound found
      rw [← annotates.sameModules.exports] at found
      rcases becomes.eq_or_linked with same | ⟨_, _, target, -, after⟩
      · exact .inl (.imported found (same.trans kind))
      · exact .inr ⟨target, .linked found after⟩

/-- What was provided for some request is still provided, by this or by a target. -/
theorem provides_after {source : Provider} {name : String} {origin : Origin}
    (provided : made.symbols.Provides source name origin) :
    ∃ origin, graph.symbols.Provides source name origin := by
  induction provided with
  | here answer =>
      cases answer with
      | external => exact ⟨_, .here .external⟩
      | declared found final =>
          have becomes := becomes_export annotates sound found
          rw [← annotates.sameModules.exports] at found
          rcases becomes.eq_or_linked with same | ⟨_, _, _, before, -⟩
          · exact ⟨_, .here (.declared found (same ▸ final))⟩
          · exact absurd before (final _ _ _)
      | linked found kind =>
          have becomes := becomes_export annotates sound found
          rw [← annotates.sameModules.exports] at found
          rcases becomes.eq_or_linked with same | ⟨_, _, _, before, -⟩
          · exact ⟨_, .here (.linked found (same.trans kind))⟩
          · cases kind.symm.trans before
      | whole takes =>
          rcases takes_after annotates sound takes with takes | ⟨target, answer⟩
          · exact ⟨_, .here (.whole takes)⟩
          · exact ⟨_, .here answer⟩
  | beyond passed _ ih =>
      obtain ⟨origin, later⟩ := ih
      cases passed with
      | explicitly explicit =>
          rcases takes_after annotates sound explicit.1 with takes | ⟨target, answer⟩
          · exact ⟨origin, .beyond (.explicitly ⟨takes, explicit.2⟩) later⟩
          · exact ⟨_, .here answer⟩
      | byStar starred =>
          have starred := (annotates.sameModules.passesByStar _ _ _).mpr starred
          exact ⟨origin, .beyond (.byStar starred) later⟩

/-- What is provided now was provided already when no import had a target. -/
theorem provides_before (written : made.symbols.Written)
    (faithful : made.symbols.Faithful graph.symbols) {source : Provider} {name : String}
    {origin : Origin} (provided : graph.symbols.Provides source name origin) :
    ∃ first, made.symbols.Provides source name first ∧ graph.symbols.Means first origin := by
  induction provided with
  | here answer =>
      cases answer with
      | external => exact ⟨_, .here .external, .same⟩
      | declared found final =>
          rw [annotates.sameModules.exports] at found
          have becomes := becomes_export annotates sound found
          refine ⟨_, .here (.declared found ?_), .same⟩
          rw [becomes.eq final]
          exact final
      | whole takes =>
          rw [annotates.sameModules.namespaceOrigin]
          exact ⟨_, .here (.whole (takes_before annotates sound takes)), .same⟩
      | linked found kind =>
          -- The target answers at once where the written import passes the request on.
          obtain ⟨first, grants, interned⟩ := faithful _ _ _ _ kind
          have takes := takes_linked annotates sound written found kind
          cases grants with
          | whole => exact ⟨_, .here (.whole takes), .found interned⟩
          | named other provided =>
              exact ⟨first, .beyond (.explicitly ⟨takes, other⟩) provided, .found interned⟩
  | beyond passed _ ih =>
      obtain ⟨first, provided, means⟩ := ih
      refine ⟨first, .beyond ?_ provided, means⟩
      cases passed with
      | explicitly explicit =>
          exact .explicitly ⟨takes_before annotates sound explicit.1, explicit.2⟩
      | byStar starred => exact .byStar ((annotates.sameModules.passesByStar _ _ _).mp starred)

end Requests

/-! ## Links keep targets faithful -/

variable {symbols : Symbols}

theorem OriginVisible.interned {id : ModuleId} {origin : Origin}
    (visible : graph.OriginVisible id origin) :
    (graph.symbols.intern origin).2.Interned origin (graph.symbols.intern origin).1 := by
  apply Symbols.interned_intern
  rintro source name rfl
  exact visible

/-- What is found for an import is something that the written program grants to it. -/
theorem grants_of_declarationOrigin? (annotates : Annotates made graph) (sound : made.Sound)
    (written : made.symbols.Written) (faithful : made.symbols.Faithful graph.symbols) {id : DeclId}
    {source : Provider} {name : String} {origin : Origin}
    (kind : (graph.symbols.declarationAt id).kind = .imported source name none)
    (found : graph.symbols.declarationOrigin? id = .ok (some origin)) :
    ∃ first, made.symbols.Grants source name first ∧ graph.symbols.Means first origin := by
  simp only [Symbols.declarationOrigin?, Symbols.bindingOrigin?, kind, Symbols.requestOrigin?] at found
  split at found
  next whole =>
      cases found
      rw [whole, annotates.sameModules.namespaceOrigin]
      exact ⟨_, .whole, .same⟩
  next named =>
      obtain ⟨first, provided, means⟩ :=
        provides_before annotates sound written faithful (Symbols.provides_of_search? found)
      exact ⟨first, .named named provided, means⟩

/-- Linking an import keeps targets faithful. -/
theorem faithful_linkImport (sound : made.Sound) (written : made.symbols.Written)
    (develops : Develops made graph) (faithful : made.symbols.Faithful graph.symbols) (id : DeclId) :
    made.symbols.Faithful ((Symbols.linkImport id).outcome graph.symbols).2 := by
  have sound' := develops.sound sound
  have step := (develops_linkImport sound' id).1
  rcases linkImport_outcome graph.symbols id with
    ⟨same, -⟩ | ⟨fault, same⟩ | ⟨source, name, origin, kind, found, after⟩
  · rwa [same]
  · rwa [same]
  · obtain ⟨first, grants, means⟩ :=
      grants_of_declarationOrigin? develops.toAnnotates sound written faithful kind found
    obtain ⟨owner, -, visible⟩ := sound'.declarationOrigin kind found
    have entry := Symbols.declarationAt_intern (Symbols.lt_of_imported kind) origin
    have kind' := (congrArg Declaration.kind entry).trans kind
    rw [after] at step ⊢
    intro other source' name' target linked
    -- The only new target is that of the import itself; what was interned for it is no import.
    by_cases same : other = id
    · subst same
      rw [declarationAt_setTarget kind', if_pos rfl] at linked
      cases linked
      exact ⟨first, grants, means.interned step.remembers
        (visible.interned.mono (Symbols.remembers_setTarget _ _))⟩
    · rcases step.added (Symbols.lt_of_imported linked) with before | final
      · rw [declarationAt_setTarget kind', if_neg same, Symbols.declarationAt_intern before] at linked
        obtain ⟨origin', grants', interned⟩ := faithful _ _ _ _ linked
        exact ⟨origin', grants', interned.mono step.remembers⟩
      · exact absurd linked (final _ _ _)

theorem faithful_linkImports (sound : made.Sound) (written : made.symbols.Written)
    (develops : Develops made graph) (faithful : made.symbols.Faithful graph.symbols)
    (ids : List DeclId) :
    made.symbols.Faithful ((ids.forM Symbols.linkImport).outcome graph.symbols).2 := by
  induction ids generalizing graph with
  | nil => exact faithful
  | cons id rest ih =>
      have first := faithful_linkImport sound written develops faithful id
      have onward := develops.trans (develops_linkImport (develops.sound sound) id).1
      rw [List.forM_eq_forM, List.forM_cons]
      apply Step.after_bind made.symbols.Faithful
      · exact fun _ _ => first
      · exact fun _ _ => ih onward first

/-- Once all imports have their targets, these do not change. -/
theorem Develops.faithful (develops : Develops graph other) (connected : graph.Connected)
    {written : Symbols} (faithful : written.Faithful graph.symbols) :
    written.Faithful other.symbols := by
  intro id source name target kind
  rcases develops.added (Symbols.lt_of_imported kind) with before | final
  · rw [develops.kind_eq connected before] at kind
    obtain ⟨origin, grants, interned⟩ := faithful _ _ _ _ kind
    exact ⟨origin, grants, interned.mono develops.remembers⟩
  · exact absurd kind (final _ _ _)

/-- Every import gets a target that the written program grants to it. -/
theorem faithful_link (sound : made.Sound) (written : made.symbols.Written)
    (succeeded : Symbols.link.outcome made.symbols = (.ok (), symbols)) :
    made.symbols.Faithful symbols := by
  have start : made.symbols.Faithful made.symbols := fun _ _ _ _ kind =>
    absurd kind written.untargeted
  have imports := faithful_linkImports sound written (Develops.refl made) start
    made.symbols.declarationIds
  have first := (develops_linkImports sound made.symbols.declarationIds).1
  rw [Symbols.link_outcome] at succeeded
  cases outcome : (made.symbols.declarationIds.forM Symbols.linkImport).outcome made.symbols with
  | mk result middle =>
      rw [outcome] at succeeded imports first
      cases result with
      | error fault => cases succeeded
      | ok _ =>
          have later := develops_linkModules (first.sound sound)
            fun id (member : id ∈ middle.moduleIds) => Symbols.mem_moduleIds.mp member
          have outcome' : (middle.moduleIds.forM Symbols.linkExports).outcome middle =
              (.ok (), symbols) := succeeded
          have faithful := later.faithful (connected_linkImports sound outcome) imports
          rwa [withSymbols, withSymbols, outcome'] at faithful

/-! ## Requests for what is imported -/

/-- After linking with success, a request for what an import imports finds something.  Both that and
    the target of the import are what the source provides under the name in the program as it was
    written, so they are the same if the source provides only one thing under the name. -/
theorem resolveExport?_target (program : made.Made) (linking : link.outcome made = (.ok (), graph))
    {id target : DeclId} {source : Provider} {name : String}
    (kind : (graph.symbols.declarationAt id).kind = .imported source name (some target))
    (named : name ≠ wholeModule) :
    ∃ found after,
      (Symbols.resolveExport? source name).outcome graph.symbols = (.ok (some found), after) ∧
      (∃ origin, made.symbols.Provides source name origin ∧ after.Interned origin target) ∧
      (∃ origin, made.symbols.Provides source name origin ∧ after.Interned origin found) ∧
      ((∀ a b, made.symbols.Provides source name a → made.symbols.Provides source name b → a = b) →
        found = target) := by
  have sound := program.sound
  have written := program.written
  have develops := develops_link sound
  rw [linking] at develops
  have annotates := develops.toAnnotates
  have sound' := develops.sound sound
  have faithful := faithful_link sound written (link_symbols linking)
  have linked := linked_link sound (link_symbols linking)
  obtain ⟨owner, -, links, -⟩ := (sound'.declarations (Symbols.lt_of_imported kind)).imported kind
  have known := sound'.known links
  obtain ⟨origin, grants, interned⟩ := faithful _ _ _ _ kind
  have provided := grants.provides named
  obtain ⟨answer, search⟩ := (sound'.navigable linked).answering source known name
  have spec := graph.symbols.exportOrigin?_spec source name
  rw [search] at spec
  cases answer with
  | none =>
      obtain ⟨origin', later⟩ := provides_after annotates sound provided
      exact absurd later (spec origin')
  | some origin' =>
      obtain ⟨first, before, means⟩ := provides_before annotates sound written faithful spec
      have visible := (sound'.provides known spec).visible links.sees
      have remembers := (develops_intern sound' visible).1.remembers
      have found := means.interned remembers visible.interned
      refine ⟨(graph.symbols.intern origin').1, (graph.symbols.intern origin').2, ?_,
        ⟨origin, provided, interned.mono remembers⟩, ⟨first, before, found⟩, fun only => ?_⟩
      · rw [Symbols.resolveExport?_outcome, search]
      · cases only first origin before provided
        exact found.unique (interned.mono remembers)

end Graph

/-! ## A name that is provided twice -/

/-- The module `s` provides `i` in two ways, through `q` and, by way of modules that export each other's
    names, through `o`.  An import that stands in between is linked after the one of the entry. -/
def Draft.crossed : Draft :=
  let draft := (((Draft.addModule {} "s").2.addModule "x").2.addModule "e").2
  let draft := (((draft.addModule "r").2.addModule "q").2.addModule "o").2
  let draft := (draft.addModule "main").2
  let draft := (draft.exportAll ⟨0⟩ (.internal ⟨1⟩)).exportAll ⟨0⟩ (.internal ⟨4⟩)
  let draft := (draft.exportAll ⟨1⟩ (.internal ⟨0⟩)).exportAll ⟨1⟩ (.internal ⟨2⟩)
  let draft := (draft.exportAll ⟨3⟩ (.internal ⟨1⟩)).exportAll ⟨3⟩ (.internal ⟨5⟩)
  let draft := ((declare ⟨4⟩ .constant "i" (some (.literal () .null)) true).outcome draft).2
  let draft := ((declare ⟨5⟩ .constant "i" (some (.literal () .null)) true).outcome draft).2
  let draft := ((importFrom ⟨6⟩ (.internal ⟨0⟩) "i" "i").outcome draft).2
  let draft := ((importFrom ⟨2⟩ (.internal ⟨3⟩) "i" "i").outcome draft).2
  draft.exportLocal ⟨2⟩ "i" "i"

theorem Draft.built_crossed : Draft.crossed.Built := by
  refine .exportLocal (.importFrom (.importFrom (.declare (.declare (.exportAll (.exportAll (.exportAll
    (.exportAll (.exportAll (.exportAll (.addModule (.addModule (.addModule (.addModule (.addModule
    (.addModule (.addModule .empty "s") "x") "e") "r") "q") "o") "main") ?_ ?_) ?_ ?_) ?_ ?_) ?_ ?_)
    ?_ ?_) ?_ ?_) ?_ _ _ _ _) ?_ _ _ _ _) ?_ ?_ _ _) ?_ ?_ _ _) ?_ _ _
  all_goals decide

/-- The program with the module that imports the name from `s` as its entry. -/
def Graph.crossed : Graph := (Draft.crossed.finish ⟨6⟩).toOption.getD Draft.crossed.graph

theorem Draft.finish_crossed : Draft.crossed.finish ⟨6⟩ = .ok Graph.crossed := by
  have succeeds : (Draft.crossed.finish ⟨6⟩).isOk = true := by decide +kernel
  rw [Graph.crossed]
  cases finished : Draft.crossed.finish ⟨6⟩ with
  | ok graph => rfl
  | error fault =>
      rw [finished] at succeeds
      cases succeeds

theorem Graph.made_crossed : Graph.crossed.Made :=
  .finish Draft.built_crossed (by decide +kernel) Draft.finish_crossed

namespace Graph

/-- The import of `i` from `s` has one target, and asking `s` for `i` afterwards finds another one. -/
theorem link_crossed : ∃ linked, link.outcome crossed = (.ok (), linked) ∧
    (linked.symbols.declarationAt ⟨9⟩).kind = .imported (.internal ⟨0⟩) "i" (some ⟨8⟩) ∧
    ((Symbols.resolveExport? (.internal ⟨0⟩) "i").outcome linked.symbols).1 = .ok (some ⟨7⟩) := by
  refine ⟨(link.outcome crossed).2, Step.outcome_eq ?_, ?_, ?_⟩
  all_goals decide +kernel

/-- Both are what `s` provides as `i`.  The greeted name is provided once, and asking for it finds the target
    of its import. -/
theorem provides_crossed :
    (∃ linked after, link.outcome crossed = (.ok (), linked) ∧
      (Symbols.resolveExport? (.internal ⟨0⟩) "i").outcome linked.symbols = (.ok (some ⟨7⟩), after) ∧
      (∃ origin, crossed.symbols.Provides (.internal ⟨0⟩) "i" origin ∧ after.Interned origin ⟨8⟩) ∧
      ∃ origin, crossed.symbols.Provides (.internal ⟨0⟩) "i" origin ∧ after.Interned origin ⟨7⟩) ∧
    ∃ linked after, link.outcome greeting = (.ok (), linked) ∧
      (linked.symbols.declarationAt ⟨4⟩).kind = .imported (.internal ⟨0⟩) "name" (some ⟨2⟩) ∧
      (Symbols.resolveExport? (.internal ⟨0⟩) "name").outcome linked.symbols = (.ok (some ⟨2⟩), after) := by
  constructor
  · have succeeds : (link.outcome crossed).1 = .ok () := by decide +kernel
    have kind : ((link.outcome crossed).2.symbols.declarationAt ⟨9⟩).kind =
        .imported (.internal ⟨0⟩) "i" (some ⟨8⟩) := by decide +kernel
    have asked : ((Symbols.resolveExport? (.internal ⟨0⟩) "i").outcome
        (link.outcome crossed).2.symbols).1 = .ok (some ⟨7⟩) := by decide +kernel
    have linking := Step.outcome_eq succeeds
    obtain ⟨found, after, outcome, target, other, -⟩ :=
      resolveExport?_target made_crossed linking kind (by decide)
    rw [outcome] at asked
    cases asked
    exact ⟨_, after, linking, outcome, target, other⟩
  · have succeeds : (link.outcome greeting).1 = .ok () := by decide +kernel
    have kind : ((link.outcome greeting).2.symbols.declarationAt ⟨4⟩).kind =
        .imported (.internal ⟨0⟩) "name" (some ⟨2⟩) := by decide +kernel
    have linking := Step.outcome_eq succeeds
    have exported : (greeting.symbols.moduleAt ⟨0⟩).exports["name"]? = some (.own ⟨2⟩) := by decide
    have declared : (greeting.symbols.declarationAt ⟨2⟩).kind = .declared ⟨2⟩ := by decide
    have single : ∀ origin, greeting.symbols.Provides (.internal ⟨0⟩) "name" origin →
        origin = .declaration ⟨2⟩ :=
      fun _ => Symbols.Provides.eq_declaration exported fun _ _ _ other => nomatch declared.symm.trans other
    obtain ⟨found, after, outcome, -, -, agree⟩ :=
      resolveExport?_target made_greeting linking kind (by decide)
    obtain rfl := agree fun a b first second => (single a first).trans (single b second).symm
    exact ⟨_, after, linking, kind, outcome⟩

end Graph

end Bundler
