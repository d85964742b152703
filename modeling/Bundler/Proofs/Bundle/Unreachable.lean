import Bundler.Proofs.Bundle.Failure
import Bundler.Proofs.Draft.Continued
import Bundler.Proofs.Influence.Matching

/-! # Modules that the entry does not need

When a program is continued by modules that its own do not refer to, both programs are linked and resolved
alongside each other, although what comes from outside is numbered differently.  So the same is included of
them, and they are bundled to the same text.
-/

namespace Bundler

/-- A kind that is written in a program is its own twin. -/
theorem DeclarationKind.Written.twins {twin : DeclId → DeclId → Prop} {kind : DeclarationKind}
    (written : kind.Written) : kind.Twins twin kind := by
  cases kind with
  | declared => exact .declared
  | imported source name target =>
      cases target with
      | none => exact .unlinked
      | some => exact written.elim
  | namespaceOf => exact .namespaceOf
  | provided | free => exact written.elim

/-- A kind that is written stays that of something of the program itself. -/
theorem DeclarationKind.Written.own {kind after : DeclarationKind} (written : kind.Written)
    (becomes : kind.Becomes after) : after.isProvided = false ∧ after.isFree = false := by
  rcases becomes.eq_or_linked with rfl | ⟨_, _, _, -, rfl⟩
  · cases after with
    | declared | imported | namespaceOf => exact ⟨rfl, rfl⟩
    | provided | free => exact written.elim
  · exact ⟨rfl, rfl⟩

namespace Graph

open Symbols (Twins Encloses)

variable {made core whole linked linked' resolved resolved' : Graph} {count : Nat} {options : Options}

/-! ## Finished programs -/

theorem Made.plain (program : made.Made) : made.Plain where
  unnamed := program.unnamed
  globals {name id} found := by
    have written := program.written id
    rw [(program.sound.globals found).2] at written
    exact written.elim

/-- A finished program that has been linked and resolved is still plain. -/
theorem Made.plain_of_resolve (program : made.Made) (linking : link.outcome made = (.ok (), linked))
    (resolving : (resolve options).outcome linked = (.ok (), resolved)) : resolved.Plain := by
  have linked' := Symbols.Plain.lasting.graph_link made.nodes made ⟨rfl, program.plain⟩
  rw [linking] at linked'
  have resolved' := Symbols.Plain.lasting.resolve program.sound.arena (mentions_any _)
    (fun _ => trivial) options linked linked'
  rw [resolving] at resolved'
  exact resolved'.2

namespace Begins

variable (begins : core.Begins whole) (program : core.Made)

include begins program

/-- Before linking, all that is known about the smaller program is what is written in it. -/
theorem encloses : Encloses core.symbols.declarations.size core.symbols whole.symbols where
  inside := Nat.le_refl _
  inside' := begins.symbols.declarations
  modules := begins.symbols.modules
  externals := begins.symbols.externals
  moduleAt {id} there := by
    refine ⟨(core.symbols.moduleAt id).resolvedExports, ?_, begins.symbols.moduleAt there⟩
    exact List.forall₂_same.mpr fun entry member =>
      ⟨rfl, .written ((program.sound.modules there).resolved entry member).1.inside⟩
  own found := ((program.sound.modules (Symbols.lt_of_export found)).own found).inside
  home there := (program.sound.modules there).namespaceDecl.1
  externalAt there := by
    rw [begins.symbols.externalAt there]
    exact .refl _
  provided {source name id} found := by
    rw [begins.symbols.externalAt (Symbols.lt_of_provided found)]
    exact ⟨id, found⟩
  globals {name id} found := by
    rw [begins.symbols.globals]
    exact ⟨id, found⟩
  declarationAt small := by
    rw [begins.symbols.declarationAt small]
    exact ⟨rfl, rfl, (program.written _).twins⟩

/-- After linking both programs, the same is known of the smaller one. -/
theorem alongside (program' : whole.Made) (linking : link.outcome core = (.ok (), linked))
    (linking' : link.outcome whole = (.ok (), linked')) :
    Alongside core.symbols.declarations.size linked linked linked' := by
  have develops := develops_of_link program.sound linking
  have develops' := develops_of_link program'.sound linking'
  have sound := develops.sound program.sound
  have unmarked : ∀ id, linked.markAt id = {} := fun id => (markAt_link linking id).trans (program.markAt id)
  have unmarked' : ∀ id, linked'.markAt id = {} := fun id =>
    (markAt_link linking' id).trans (program'.markAt id)
  refine { develops := .refl linked
           navigable := sound.navigable (linked_of_link program.sound linking)
           sound := develops'.sound program'.sound
           encloses := ?_
           node := fun found => ?_
           bound := fun _ => ?_
           resolution := fun _ => ?_
           binding := fun there name => ?_
           written := fun bound => ?_
           warnings := ?_ }
  -- Nothing was asked from outside before linking, so all declarations so far are written in both.
  · exact linkSymbols_twins (begins.encloses program) program.sound program'.sound rfl
      (link_symbols linking) (link_symbols linking')
  · rw [develops.nodes] at found
    rw [develops'.nodes]
    exact begins.node found
  · rw [unmarked, unmarked']
  · rw [resolutionAt, resolutionAt, unmarked, unmarked']
    exact .unknown
  · rw [develops.scopes, develops'.scopes, Scopes.binding?, Scopes.binding?,
      begins.scopeAt (Nat.lt_of_lt_of_eq there develops.modules)]
  · rw [develops.scopes] at bound
    exact (program.sound.scopes.binding bound).inside
  · rw [(eq_of_link linking).2, (eq_of_link linking').2]
    exact program'.warnings.trans program.warnings.symm

end Begins

namespace Alongside

variable (alongside : Alongside count linked linked linked')

include alongside

/-- Linked programs execute the same modules in the same order. -/
theorem order_eq (entry : linked'.entry = linked.entry)
    (there : linked.HasProvider (.internal linked.entry)) (ordered : linked.order = linked.executionOrder)
    (ordered' : linked'.order = linked'.executionOrder) : linked'.order = linked.order := by
  rw [ordered, ordered']
  exact executionOrder_whole alongside.encloses alongside.navigable.sound alongside.node entry there

end Alongside

namespace Begins

variable (begins : core.Begins whole) (program : core.Made) (program' : whole.Made)

include begins program program'

/-- After linking and resolving both programs, they match. -/
theorem matched (linking : link.outcome core = (.ok (), linked))
    (linking' : link.outcome whole = (.ok (), linked')) (options : Options) :
    ∃ resolved resolved', (resolve options).outcome linked = (.ok (), resolved) ∧
      (resolve options).outcome linked' = (.ok (), resolved') ∧
      Matched core.symbols.declarations.size resolved resolved' := by
  have develops := develops_of_link program.sound linking
  have develops' := develops_of_link program'.sound linking'
  have alongside := begins.alongside program program' linking linking'
  obtain ⟨-, ordered⟩ := bound_link program.sound program.unresolved linking
  obtain ⟨-, ordered'⟩ := bound_link program'.sound program'.unresolved linking'
  have sound := develops.sound program.sound
  have entry : linked'.entry = linked.entry := develops'.entry.trans (begins.entry.trans develops.entry.symm)
  have there : linked.HasProvider (.internal linked.entry) :=
    develops.entry ▸ develops.extension.hasProvider program.entry
  obtain ⟨resolved, resolved', resolving, resolving', onward⟩ := alongside.resolve options sound
    (alongside.order_eq entry there ordered ordered')
    fun owner member => sound.executed_known there (ordered ▸ member)
  have later := develops_of_resolve sound resolving
  have later' := develops_of_resolve alongside.sound resolving'
  refine ⟨resolved, resolved', resolving, resolving', {
    prepared := (program.prepared linking resolving).1
    prepared' := (program'.prepared linking' resolving').1
    encloses := onward.encloses
    node := fun found => onward.node (later.nodes ▸ found)
    resolution := fun inside => onward.resolution (later.nodes ▸ inside)
    entry := later'.entry.trans (entry.trans later.entry.symm)
    written := fun {id} small => ?_
    plain := program.plain_of_resolve linking resolving
    plain' := program'.plain_of_resolve linking' resolving'
    listed := (develops.trans later).remembers.listed program.written.listed
    warnings := onward.warnings }⟩
  exact (program.written id).own ((develops.trans later).kind small)

end Begins

/-- Programs that match are shaken, named and written alike. -/
theorem Matched.emit_eq (matched : Matched count core whole) (unselected : core.selection = ⊥)
    (unselected' : whole.selection = ⊥) (options : Options) :
    (assignNames options whole.retainEntryExports.shake.2).emit options =
      (assignNames options core.retainEntryExports.shake.2).emit options := by
  have sound := matched.prepared.sound
  have sound' := matched.prepared'.sound
  have balanced := matched.corresponds.balanced sound sound.grounded sound'.grounded unselected unselected'
  have transcribes := matched.transcribes balanced options
  rw [(grows_retain_shake sound.grounded).alike.select_eq,
    (grows_retain_shake sound'.grounded).alike.select_eq] at transcribes
  exact transcribes.emit_eq sound options

/-- Modules that a program does not need do not influence its bundle.  When a draft is continued by modules
    that its own do not refer to, and both programs can be linked, they are bundled with the same result:
    the same code, the same modules and the same warnings. -/
theorem bundle_continued {draft after : Draft} {entry : ModuleId} (built : draft.Built)
    (there : draft.graph.HasProvider (.internal entry)) (continued : draft.Continued after)
    (finished : draft.finish entry = .ok core) (finished' : after.finish entry = .ok whole)
    (linking : (link.outcome core).1 = .ok ()) (linking' : (link.outcome whole).1 = .ok ())
    (options : Options) :
    ((bundle options).outcome whole).1 = ((bundle options).outcome core).1 ∧
      (core.Named → ∃ bundled, ((bundle options).outcome core).1 = .ok bundled) := by
  have begins := continued.begins built.sound
  have program : core.Made := .finish built there finished
  have there' : after.graph.HasProvider (.internal entry) := Nat.lt_of_lt_of_le there begins.symbols.modules
  have program' : whole.Made := .finish (continued.built built) there' finished'
  have linking := Step.outcome_eq linking
  have linking' := Step.outcome_eq linking'
  obtain ⟨resolved, resolved', resolving, resolving', matched⟩ :=
    (begins_finish begins built.sound finished finished').matched program program' linking linking' options
  constructor
  · rw [bundle_outcome_of_resolve linking resolving, bundle_outcome_of_resolve linking' resolving']
    exact matched.emit_eq (program.prepared linking resolving).2 (program'.prepared linking' resolving').2
      options
  · exact fun named => program.bundle_succeeds named options linking

end Graph

/-! ## A program with a module beside it -/

/-- The greeting is continued by a module that nothing refers to.  It takes from the module that the
    greeting takes from and from outside, so there are further declarations before those of globals. -/
def Draft.accompanied : Draft :=
  let draft := (Draft.greeting.addModule "extra").2
  let draft := (draft.addExternal "console").2
  let draft := ((importFrom ⟨2⟩ (.internal ⟨0⟩) "name" "whom").outcome draft).2
  let draft := ((importFrom ⟨2⟩ (.external ⟨0⟩) "log" "greet").outcome draft).2
  (draft.addExpression ⟨2⟩ (.call () (.ident () "greet") [.ident () "whom"])).2

/-- The program with the further module, and the entry of the greeting. -/
def Graph.accompanied : Graph := { Draft.accompanied.graph with entry := ⟨1⟩ }

theorem Draft.continued_accompanied : Draft.greeting.Continued Draft.accompanied := by
  have named : ∀ name, name = "name" ∨ name = "log" → name ≠ wholeModule ∧ name ≠ defaultExport := by
    rintro name (rfl | rfl) <;> decide
  refine .addExpression (.importFrom (.importFrom (.addExternal (.addModule .refl "extra") "console")
    ?_ ?_ ?_ _ _ fun _ _ => named _ (.inl rfl)) ?_ ?_ ?_ _ _ fun _ _ => named _ (.inr rfl)) ?_ ?_ _
  all_goals decide

namespace Graph

/-- The greeting is bundled to the same text with the further module and without it. -/
theorem bundle_accompanied : ∃ bundled, ((bundle {}).outcome greeting).1 = .ok bundled ∧
    ((bundle {}).outcome accompanied).1 = .ok bundled := by
  have named : greeting.Named := by
    unfold Named
    decide
  have links : (link.outcome greeting).1 = .ok () := by decide
  have links' : (link.outcome accompanied).1 = .ok () := by decide
  have finished : Draft.greeting.finish ⟨1⟩ = .ok greeting := rfl
  have finished' : Draft.accompanied.finish ⟨1⟩ = .ok accompanied := rfl
  obtain ⟨same, succeeds⟩ := bundle_continued Draft.built_greeting (by decide)
    Draft.continued_accompanied finished finished' links links' {}
  obtain ⟨bundled, outcome⟩ := succeeds named
  exact ⟨bundled, outcome, same.trans outcome⟩

end Graph

end Bundler
