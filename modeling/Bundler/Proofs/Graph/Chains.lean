import Bundler.Proofs.Graph.Answers
import Bundler.Proofs.Graph.Denotation

/-! # Chains of keys

Following a chain of keys goes from namespace to namespace, and stops where the keys are used up, where
something is no namespace, or where a module lacks the key.  Whoever follows it again finds the same.
-/

namespace Bundler

namespace Symbols

variable {symbols : Symbols}

/-- Each declaration on the way is what the one before it exports under the next key.  The symbols are
    those before and after, since declarations for what lies outside may be made on the way. -/
inductive Traced : Symbols → DeclId → List ChainKey → Symbols → DeclId → Prop where
  | here {symbols id} : Traced symbols id [] symbols id
  | hop {symbols middle after id next last exporter key keys} :
    (symbols.declarationAt id).namespace? = some exporter →
    (resolveExport? exporter key.name).outcome symbols = (.ok (some next), middle) →
    Traced middle next keys after last →
    Traced symbols id (key :: keys) after last

/-- Why the way through the remaining keys ends at a declaration, and what it leads to. -/
inductive Stops (symbols : Symbols) (last : DeclId) : List ChainKey → Destination → Prop where
  | declaration : Stops symbols last [] (.declaration last)
  | missing {exporter key rest} :
    (symbols.declarationAt last).namespace? = some exporter →
    symbols.Answered exporter key.name none →
    Stops symbols last (key :: rest) (.missing exporter key)
  | beyond {key rest} :
    (symbols.declarationAt last).namespace? = none → Stops symbols last (key :: rest) .beyond

theorem resolveExport?_none {source : Provider} {name : String} {after : Symbols}
    (missed : (resolveExport? source name).outcome symbols = (.ok none, after)) :
    after = symbols ∧ symbols.Answered source name none := by
  have outcome := symbols.resolveExport?_outcome source name
  cases result : symbols.exportOrigin? source name with
  | error fault =>
      rw [result, missed] at outcome
      cases outcome
  | ok origin =>
      rw [result, missed] at outcome
      cases origin with
      | some origin => cases outcome
      | none =>
          cases outcome
          exact ⟨rfl, missed⟩

/-- Only a module can lack a name. -/
theorem Answered.internal {source : Provider} {name : String}
    (missed : symbols.Answered source name none) : ∃ home, source = .internal home := by
  cases source with
  | internal home => exact ⟨home, rfl⟩
  | external id =>
      rw [Answered, resolveExport?_outcome, exportOrigin?, search?] at missed
      cases missed

namespace Stops

variable {id : DeclId} {key : ChainKey} {keys : List ChainKey} {destination other : Destination}

theorem unique (stops : symbols.Stops id keys destination) (stops' : symbols.Stops id keys other) :
    destination = other := by
  cases stops with
  | declaration =>
      cases stops'
      rfl
  | missing named _ =>
      cases stops' with
      | missing named' _ =>
          cases named.symm.trans named'
          rfl
      | beyond none => cases named.symm.trans none
  | beyond none =>
      cases stops' with
      | missing named _ => cases named.symm.trans none
      | beyond => rfl

/-- Where the way stops, the next key leads nowhere. -/
theorem not_passed (stops : symbols.Stops id (key :: keys) destination) {exporter : Provider}
    {next : DeclId} {middle : Symbols}
    (named : (symbols.declarationAt id).namespace? = some exporter)
    (outcome : (resolveExport? exporter key.name).outcome symbols = (.ok (some next), middle)) :
    False := by
  cases stops with
  | missing named' missed =>
      cases named.symm.trans named'
      cases missed.symm.trans outcome
  | beyond none => cases named.symm.trans none

end Stops

/-- Keys lead one way only. -/
theorem Traced.unique {after other : Symbols} {id last last' : DeclId}
    {passed passed' rest rest' : List ChainKey} (split : passed ++ rest = passed' ++ rest')
    (traced : symbols.Traced id passed after last) (traced' : symbols.Traced id passed' other last')
    {destination destination' : Destination} (stops : after.Stops last rest destination)
    (stops' : other.Stops last' rest' destination') : after = other ∧ destination = destination' := by
  induction traced generalizing passed' with
  | here =>
      cases traced' with
      | here =>
          obtain rfl : rest = rest' := split
          exact ⟨rfl, stops.unique stops'⟩
      | hop named outcome _ =>
          obtain rfl : rest = _ := split
          exact (stops.not_passed named outcome).elim
  | hop named outcome _ ih =>
      cases traced' with
      | here =>
          obtain rfl : _ = rest' := split
          exact (stops'.not_passed named outcome).elim
      | hop named' outcome' onward =>
          obtain ⟨rfl, tails⟩ := List.cons.inj split
          cases named.symm.trans named'
          cases outcome.symm.trans outcome'
          exact ih tails onward stops

end Symbols

namespace Graph

variable {graph other : Graph} {owner : ModuleId}

/-- Where a chain of keys leads to in a program whose requests are all answered. -/
theorem Navigable.follow (navigable : graph.Navigable) {declaration : DeclId}
    (denotable : graph.Denotable owner declaration) (keys : List ChainKey) :
    ∃ passed rest after last destination, keys = passed ++ rest ∧
      graph.symbols.Traced declaration passed after last ∧ after.Stops last rest destination ∧
      (Graph.follow declaration keys).outcome graph = (.ok destination, graph.withSymbols after) ∧
      Develops graph (graph.withSymbols after) ∧
      (graph.withSymbols after).Denotable owner last := by
  -- Asking for one key finds out more about the program, in which the rest of the keys is followed.
  induction keys generalizing graph declaration with
  | nil =>
      exact ⟨[], [], graph.symbols, declaration, _, rfl, .here, .declaration, rfl, Develops.refl graph,
        denotable⟩
  | cons key rest ih =>
      rw [Graph.follow, Step.outcome_bind, Step.outcome_get]
      dsimp only
      split
      next none =>
          exact ⟨[], key :: rest, graph.symbols, declaration, _, rfl, .here, .beyond none, rfl,
            Develops.refl graph, denotable⟩
      next exporter named =>
          obtain ⟨known, sees⟩ := navigable.sound.namespace? denotable.1 named
          obtain ⟨first, visible⟩ := develops_resolveExport? navigable.sound known key.name
          obtain ⟨found, middle, outcome⟩ := navigable.resolveExport? known key.name
          rw [outcome] at first visible
          rw [Step.outcome_bind, onSymbols_outcome, outcome]
          cases found with
          | none =>
              obtain ⟨rfl, missed⟩ := Symbols.resolveExport?_none outcome
              exact ⟨[], key :: rest, graph.symbols, declaration, _, rfl, .here, .missing named missed,
                rfl, Develops.refl graph, denotable⟩
          | some next =>
              obtain ⟨seen, final⟩ := visible next rfl owner sees
              obtain ⟨passed, rest, after, last, destination, rfl, traced, stops, outcome', later,
                denotable'⟩ := ih (navigable.develops first) ⟨seen, fun _ => final⟩
              exact ⟨key :: passed, rest, after, last, destination, rfl, .hop named outcome traced,
                stops, outcome', first.trans later, denotable'⟩

/-! ## Accesses -/

variable {options : Options}

/-- What the access turns out to be. -/
def resolutionOf : Destination → Resolution
  | .declaration last => .declaration last
  | .missing _ _ => .undefined
  | .beyond => .fallback

/-- Whether the parts of the access are settled with it. -/
def settles : Destination → Bool
  | .beyond => false
  | _ => true

/-- The warnings about the access. -/
def complaints (symbols : Symbols) (options : Options) (owner : ModuleId) :
    Destination → Array Diagnostic
  | .missing exporter key => #[missingExportWarning symbols options owner exporter key]
  | _ => #[]

theorem complaints_eq_empty {symbols : Symbols} {destination : Destination}
    (unmissed : ∀ exporter key, destination ≠ .missing exporter key) :
    complaints symbols options owner destination = #[] := by
  cases destination with
  | missing exporter key => exact absurd rfl (unmissed exporter key)
  | declaration | beyond => rfl

/-- Noting what an access is cannot fail.  It changes the mark of the access alone, and of the symbols no
    more than what names are proposed. -/
theorem conclude_outcome (graph : Graph) (options : Options) (owner : ModuleId) (id : NodeId)
    (root : String) (destination : Destination) : ∃ symbols, symbols.modules = graph.symbols.modules ∧
      (destination = .beyond → symbols = graph.symbols) ∧
      (conclude options owner id root destination).outcome graph =
        (.ok (settles destination),
          { graph.modifyMark id fun mark => { mark with resolution := some (resolutionOf destination) } with
            symbols
            warnings := graph.warnings ++ complaints graph.symbols options owner destination }) := by
  cases destination with
  | missing exporter key => exact ⟨graph.symbols, rfl, by simp, rfl⟩
  | beyond =>
      simp only [complaints, Array.append_empty]
      exact ⟨graph.symbols, rfl, fun _ => rfl, rfl⟩
  | declaration last =>
      simp only [conclude, settle, proposeFor, Step.outcome_bind, Step.outcome_modify,
        Step.outcome_pure, complaints, Array.append_empty]
      split
      next source _ _ => exact ⟨graph.symbols.proposeName source root, rfl, by simp, rfl⟩
      next => exact ⟨graph.symbols, rfl, by simp, rfl⟩

theorem lookup_outcome (graph : Graph) (owner : ModuleId) (name : String) : ∃ start looked,
    (lookup owner name).outcome graph = (.ok start, graph.withSymbols looked) :=
  ⟨_, _, rfl⟩

/-- Where the keys lead to from what the root denotes in the module. -/
inductive Leads (graph : Graph) (owner : ModuleId) (root : String) (keys : List ChainKey) :
    Symbols → Destination → Prop where
  | follow {start looked passed rest after last destination} :
    (lookup owner root).outcome graph = (.ok start, graph.withSymbols looked) →
    keys = passed ++ rest → looked.Traced start passed after last →
    after.Stops last rest destination → Leads graph owner root keys after destination

theorem Leads.unique {root : String} {keys : List ChainKey} {after other : Symbols}
    {destination destination' : Destination} (leads : graph.Leads owner root keys after destination)
    (leads' : graph.Leads owner root keys other destination') :
    after = other ∧ destination = destination' := by
  obtain @⟨_, symbols, _, _, _, _, _, looked, rfl, traced, stops⟩ := leads
  obtain @⟨_, symbols', _, _, _, _, _, looked', split, traced', stops'⟩ := leads'
  rw [looked, Prod.mk.injEq] at looked'
  obtain ⟨same, unchanged⟩ := looked'
  cases same
  obtain rfl : symbols = symbols' := congrArg Graph.symbols unchanged
  exact traced.unique split traced' stops stops'

theorem Leads.internal {root : String} {keys : List ChainKey} {after : Symbols} {exporter : Provider}
    {key : ChainKey} (leads : graph.Leads owner root keys after (.missing exporter key)) :
    ∃ home, exporter = .internal home := by
  obtain ⟨-, -, -, stops⟩ := leads
  cases stops with
  | missing _ missed => exact missed.internal

/-- An access is resolved by looking its root up and following its keys from there. -/
theorem Navigable.resolveAccess (navigable : graph.Navigable) (options : Options)
    (owner : ModuleId) {access : Expr Label} {label : Label} {root : String} {keys : List ChainKey}
    (chain : access.chain? = some (.ident label root, keys)) :
    ∃ after destination, graph.Leads owner root keys after destination ∧
      Develops graph (graph.withSymbols after) ∧
      (∀ last, destination = .declaration last → (graph.withSymbols after).Denotable owner last) ∧
      (Graph.resolveAccess options owner access).outcome graph =
        (conclude options owner access.id root destination).outcome (graph.withSymbols after) := by
  obtain ⟨start, middle, looked, develops, denotable⟩ := develops_lookup
    navigable.sound owner root
  obtain ⟨_, symbols, same⟩ := lookup_outcome graph owner root
  rw [looked] at same
  cases same
  obtain ⟨passed, rest, after, last, destination, split, traced, stops, outcome, later, denotable'⟩ :=
    (navigable.develops develops).follow denotable keys
  refine ⟨after, destination, .follow looked split traced stops, develops.trans later, ?_, ?_⟩
  · rintro _ rfl
    cases stops
    exact denotable'
  · rw [resolveAccess_eq chain, Step.outcome_bind, looked]
    dsimp only
    rw [Step.outcome_bind, outcome]
    rfl

end Graph

end Bundler
