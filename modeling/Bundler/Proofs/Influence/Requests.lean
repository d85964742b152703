import Bundler.Proofs.Exports.Stability
import Bundler.Proofs.Graph.Interning
import Bundler.Proofs.Influence.Twins

/-! # Requests in a larger program

A request to a module of the smaller program is passed on among its modules only, so the search takes the
same way in the larger program and finds a twin.  The declarations that are made for what is found are
twins as well.
-/

namespace Bundler

open Symbols (Twins Encloses Leaves)

/-- The answers are the same, with twins as origins. -/
inductive AnswerTwins (twin : DeclId → DeclId → Prop) :
    Except Fault (Option Origin) → Except Fault (Option Origin) → Prop where
  | fault {fault} : AnswerTwins twin (.error fault) (.error fault)
  | missing : AnswerTwins twin (.ok none) (.ok none)
  | found {origin other} : origin.Twins twin other →
    AnswerTwins twin (.ok (some origin)) (.ok (some other))

theorem AnswerTwins.firstOrigin? {twin : DeclId → DeclId → Prop}
    {search search' : Provider → Except Fault (Option Origin)} {sources : List Provider}
    (each : ∀ source ∈ sources, AnswerTwins twin (search source) (search' source)) :
    AnswerTwins twin (Bundler.firstOrigin? search sources) (Bundler.firstOrigin? search' sources) := by
  induction sources with
  | nil => exact .missing
  | cons source rest ih =>
      have here := each source List.mem_cons_self
      rw [firstOrigin?_cons, firstOrigin?_cons]
      generalize search source = answer, search' source = answer' at here
      cases here with
      | fault => exact .fault
      | found twins => exact .found twins
      | missing => exact ih fun source member => each source (List.mem_cons_of_mem _ member)

/-! ## Declarations of what comes from outside -/

namespace Symbols

variable {count old : Nat} {symbols core whole : Symbols}

theorem leaves_addDeclaration (bound : count ≤ symbols.declarations.size) {name : String}
    {owner : Option Provider} {kind : DeclarationKind} {id : DeclId} (small : id.index < count) :
    (symbols.addDeclaration name owner kind).2.declarationAt id = symbols.declarationAt id := by
  rw [declarationAt_addDeclaration, if_neg]
  rintro rfl
  exact Nat.lt_irrefl _ (Nat.lt_of_lt_of_le small bound)

theorem leaves_externalDeclaration (bound : count ≤ symbols.declarations.size) {source : ExternalId}
    (inside : source.index < symbols.externals.size) (name : String) :
    Leaves old count symbols (symbols.externalDeclaration source name).2 := by
  have remembers := remembers_externalDeclaration inside name
  rw [externalDeclaration] at remembers ⊢
  split at remembers
  next => exact .refl symbols
  next =>
      refine ⟨remembers, rfl, Array.size_modify.symm, ?_, fun _ => rfl, fun id => ?_,
        leaves_addDeclaration bound⟩
      · exact Nat.le_of_lt (Nat.lt_of_lt_of_eq (Nat.lt_succ_self _) (Array.size_push _).symm)
      · dsimp only
        rw [externalAt_modifyExternal]
        split
        · exact ⟨_, _, rfl⟩
        · exact .refl _

theorem leaves_globalDeclaration (bound : count ≤ symbols.declarations.size) (name : String) :
    Leaves old count symbols (symbols.globalDeclaration name).2 := by
  have remembers := symbols.remembers_globalDeclaration name
  rw [globalDeclaration] at remembers ⊢
  split at remembers
  next => exact .refl symbols
  next =>
      refine ⟨remembers, rfl, rfl, ?_, fun _ => rfl, fun _ => .refl _, leaves_addDeclaration bound⟩
      exact Nat.le_of_lt (Nat.lt_of_lt_of_eq (Nat.lt_succ_self _) (Array.size_push _).symm)

theorem provided_externalDeclaration {source other : ExternalId}
    (inside : source.index < symbols.externals.size) {name key : String} {id : DeclId}
    (found : ((symbols.externalDeclaration source name).2.externalAt other).declarations[key]? = some id) :
    (symbols.externalAt other).declarations[key]? = some id ∨ other = source ∧ key = name := by
  rw [externalDeclaration] at found
  split at found
  next => exact .inl found
  next =>
      have inside' : source.index < (symbols.addDeclaration (symbols.providedName source name)
        (some (.external source)) (.provided source name)).2.externals.size := inside
      dsimp only at found
      rw [declarations_modifyExternal_insert inside'] at found
      split at found
      next same =>
          rw [Std.TreeMap.getElem?_insert] at found
          split at found
          next here => exact .inr ⟨same, (Std.LawfulEqCmp.eq_of_compare here).symm⟩
          next => exact .inl found
      next => exact .inl found

theorem globals_globalDeclaration {name key : String} {id : DeclId}
    (found : (symbols.globalDeclaration name).2.globals[key]? = some id) :
    symbols.globals[key]? = some id ∨ key = name := by
  rw [globalDeclaration] at found
  split at found
  next => exact .inl found
  next =>
      rw [Std.TreeMap.getElem?_insert] at found
      split at found
      next here => exact .inr (Std.LawfulEqCmp.eq_of_compare here).symm
      next => exact .inl found

theorem externalAt_globalDeclaration (name : String) (id : ExternalId) :
    (symbols.globalDeclaration name).2.externalAt id = symbols.externalAt id := by
  rw [globalDeclaration]
  split <;> rfl

theorem globals_externalDeclaration (source : ExternalId) (name : String) :
    (symbols.externalDeclaration source name).2.globals = symbols.globals := by
  rw [externalDeclaration]
  split <;> rfl

theorem globalDeclaration_listed (symbols : Symbols) (name : String) :
    (symbols.globalDeclaration name).2.globals[name]? = some (symbols.globalDeclaration name).1 := by
  rw [globalDeclaration]
  split
  next found => exact found
  next => exact Std.TreeMap.getElem?_insert_self

namespace Encloses

variable (encloses : Encloses count core whole)

include encloses

/-- Twins stand for twins: first the larger program makes the declaration, then the smaller one. -/
theorem intern {origin other : Origin} (twins : origin.Twins (Twins count core whole) other)
    (inside : ∀ source name, origin = .provided source name → source.index < core.externals.size) :
    Encloses count (core.intern origin).2 (whole.intern other).2 ∧
      Twins count (core.intern origin).2 (whole.intern other).2 (core.intern origin).1
        (whole.intern other).1 := by
  cases twins with
  | declaration twin => exact ⟨encloses, twin⟩
  | @provided source name =>
      have there := inside source name rfl
      have there' := Nat.lt_of_lt_of_le there encloses.externals
      have here : (core.intern (.provided source name)).2.Interned _ _ := interned_intern inside
      have here' : (whole.intern (.provided source name)).2.Interned _ _ :=
        interned_intern fun _ _ same => by cases same; exact there'
      cases here with
      | provided found =>
          cases here' with
          | provided found' =>
              have grown := encloses.extend_whole (leaves_externalDeclaration encloses.inside' there' name)
              refine ⟨grown.extend_core (leaves_externalDeclaration encloses.inside there name)
                (fun listed => ?_) fun listed => .inl (globals_externalDeclaration source name ▸ listed),
                .provided found found'⟩
              refine (provided_externalDeclaration there listed).imp_right ?_
              rintro ⟨rfl, rfl⟩
              exact ⟨_, found'⟩

theorem globalDeclaration (name : String) :
    Encloses count (core.globalDeclaration name).2 (whole.globalDeclaration name).2 ∧
      Twins count (core.globalDeclaration name).2 (whole.globalDeclaration name).2
        (core.globalDeclaration name).1 (whole.globalDeclaration name).1 := by
  have found' := whole.globalDeclaration_listed name
  have grown := encloses.extend_whole (leaves_globalDeclaration encloses.inside' name)
  refine ⟨grown.extend_core (leaves_globalDeclaration encloses.inside name)
    (fun listed => .inl (externalAt_globalDeclaration name _ ▸ listed)) fun listed => ?_,
    .free (core.globalDeclaration_listed name) found'⟩
  refine (globals_globalDeclaration listed).imp_right ?_
  rintro rfl
  exact ⟨_, found'⟩

end Encloses

end Symbols

namespace Graph

variable {count : Nat} {core whole : Graph}

section Requests

variable (encloses : Encloses count core.symbols whole.symbols)

include encloses

theorem namespaceOrigin_twins {source : Provider} (known : core.HasProvider source) :
    (core.symbols.namespaceOrigin source).Twins (Twins count core.symbols whole.symbols)
      (whole.symbols.namespaceOrigin source) := by
  cases source with
  | external => exact .provided
  | internal id =>
      obtain ⟨_, -, entry⟩ := encloses.moduleAt known
      rw [Symbols.namespaceOrigin, Symbols.namespaceOrigin, entry]
      exact .declaration (.written (encloses.home known))

theorem takes_whole {id : ModuleId} {name imported : String} {source : Provider}
    (takes : core.symbols.Takes id name source imported) : whole.symbols.Takes id name source imported := by
  cases takes with
  | again found => exact .again (encloses.exports (Symbols.lt_of_export found) ▸ found)
  | @imported declaration _ _ found kind =>
      have twins := encloses.kind (encloses.own found)
      rw [kind] at twins
      generalize other : (whole.symbols.declarationAt declaration).kind = kind' at twins
      cases twins
      exact .imported (encloses.exports (Symbols.lt_of_export found) ▸ found) other

theorem passes_whole {id : ModuleId} {name imported : String} {source : Provider}
    (passed : core.symbols.Passes (.internal id) name source imported) :
    whole.symbols.Passes (.internal id) name source imported := by
  cases passed with
  | explicitly explicit => exact .explicitly ⟨takes_whole encloses explicit.1, explicit.2⟩
  | byStar starred =>
      have inside := Symbols.lt_of_mem_starSources starred.2.2
      obtain ⟨absent, named, member⟩ := starred
      refine .byStar ⟨?_, named, ?_⟩
      · rwa [encloses.exports inside]
      · rwa [encloses.starSources inside]

variable (sound : core.Sound)

include sound

/-- A search finds twins, with any two depths that are enough for its trail. -/
theorem search?_twins {start depth deep trail star} {source : Provider} {name : String}
    (way : core.symbols.Trail start depth trail name) (way' : whole.symbols.Trail start deep trail name)
    (known : core.HasProvider source) :
    AnswerTwins (Twins count core.symbols whole.symbols)
      (core.symbols.search? depth trail star source name)
      (whole.symbols.search? deep trail star source name) := by
  -- The depths differ, since the larger program has more names to ask for; the trail is the same.
  induction depth generalizing deep trail star source name with
  | zero => exact absurd rfl way.depth_ne_zero
  | succ depth ih =>
      obtain ⟨deep, rfl⟩ := Nat.exists_eq_succ_of_ne_zero way'.depth_ne_zero
      cases source with
      | external id =>
          rw [Symbols.search?, Symbols.search?]
          exact .found .provided
      | internal id =>
          by_cases again : (id, name) ∈ trail
          · simp only [Symbols.search?, again, if_true, encloses.moduleName known]
            split
            · exact .missing
            · exact .fault
          have onward : ∀ star {next imported}, core.symbols.Passes (.internal id) name next imported →
              AnswerTwins (Twins count core.symbols whole.symbols)
                (core.symbols.search? depth ((id, name) :: trail) star next imported)
                (whole.symbols.search? deep ((id, name) :: trail) star next imported) :=
            fun star _ _ passed => ih (way.next again passed)
              (way'.next again (passes_whole encloses passed)) (sound.known (sound.passes passed))
          have request : ∀ {next imported}, core.symbols.Takes id name next imported →
              AnswerTwins (Twins count core.symbols whole.symbols)
                (core.symbols.requestOrigin?
                  (core.symbols.search? depth ((id, name) :: trail) false) next imported)
                (whole.symbols.requestOrigin?
                  (whole.symbols.search? deep ((id, name) :: trail) false) next imported) := by
            intro next imported takes
            rw [Symbols.requestOrigin?, Symbols.requestOrigin?]
            split
            next => exact .found (namespaceOrigin_twins encloses (sound.known (sound.takes takes)))
            next named => exact onward false (.explicitly ⟨takes, named⟩)
          rw [Symbols.search?, Symbols.search?, if_neg again, if_neg again, encloses.exports known,
            encloses.starSources known]
          dsimp only
          split
          next declaration found =>
              have twins := encloses.kind (encloses.own found)
              rw [Symbols.bindingOrigin?, Symbols.bindingOrigin?]
              generalize kind : (core.symbols.declarationAt declaration).kind = here at twins
              generalize (whole.symbols.declarationAt declaration).kind = there at twins
              cases twins with
              | unlinked => exact request (.imported found kind)
              | linked target => exact .found (.declaration target)
              | declared | namespaceOf | provided | free =>
                  exact .found (.declaration (.written (encloses.own found)))
          next found => exact request (.again found)
          next absent =>
              split
              next => exact .missing
              next named =>
                  apply AnswerTwins.firstOrigin?
                  intro next member
                  exact onward true (.byStar ⟨absent, named, Array.mem_toList_iff.mp member⟩)

theorem exportOrigin?_twins {source : Provider} (known : core.HasProvider source) (name : String) :
    AnswerTwins (Twins count core.symbols whole.symbols) (core.symbols.exportOrigin? source name)
      (whole.symbols.exportOrigin? source name) :=
  search?_twins encloses sound (Symbols.Trail.start name) (Symbols.Trail.start name) known

/-- A request is answered with twins, or fails in the same way. -/
theorem resolveExport?_twins {source : Provider} (known : core.HasProvider source) (name : String) :
    (∃ fault,
      (Symbols.resolveExport? source name).outcome core.symbols = (.error fault, core.symbols) ∧
        (Symbols.resolveExport? source name).outcome whole.symbols = (.error fault, whole.symbols)) ∨
      ∃ found found' after after',
        (Symbols.resolveExport? source name).outcome core.symbols = (.ok found, after) ∧
          (Symbols.resolveExport? source name).outcome whole.symbols = (.ok found', after') ∧
            Encloses count after after' ∧ Option.Rel (Twins count after after') found found' := by
  have answers := exportOrigin?_twins encloses sound known name
  have spec := core.symbols.exportOrigin?_spec source name
  rw [Symbols.resolveExport?_outcome, Symbols.resolveExport?_outcome]
  generalize core.symbols.exportOrigin? source name = answer at answers spec
  generalize whole.symbols.exportOrigin? source name = answer' at answers
  cases answers with
  | fault => exact .inl ⟨_, rfl, rfl⟩
  | missing => exact .inr ⟨none, none, _, _, rfl, rfl, encloses, .none⟩
  | @found origin other twins =>
      have seen := sound.provides known spec
      have inside : ∀ source name, origin = .provided source name →
          source.index < core.symbols.externals.size := by
        rintro other imported rfl
        cases source <;> exact seen
      obtain ⟨encloses', twins'⟩ := encloses.intern twins inside
      exact .inr ⟨_, _, _, _, rfl, rfl, encloses', .some twins'⟩

end Requests

end Graph

end Bundler
