import Bundler.Proofs.Symbols.Access
import Bundler.Symbols.Link

/-! # Tables of shared declarations

A declaration for a global, or for something of an external module, is made once and found in a table
from then on.  Tables only grow, and a step that keeps them complete makes no second declaration for
what is listed already.
-/

namespace Bundler.Symbols

variable {before middle after symbols : Symbols}

/-- Every declaration of something from outside is the one that its table gives for it. -/
structure Listed (symbols : Symbols) : Prop where
  free : ∀ {id}, (symbols.declarationAt id).kind = .free →
    symbols.globals[(symbols.declarationAt id).name]? = some id
  provided : ∀ {id source name}, (symbols.declarationAt id).kind = .provided source name →
    (symbols.externalAt source).declarations[name]? = some id

/-- What the tables held they still hold, and they are complete if they were. -/
structure Remembers (before after : Symbols) : Prop where
  globals : ∀ {name : String} {id}, before.globals[name]? = some id → after.globals[name]? = some id
  provided : ∀ {source} {name : String} {id},
    (before.externalAt source).declarations[name]? = some id →
      (after.externalAt source).declarations[name]? = some id
  listed : before.Listed → after.Listed

namespace Remembers

theorem refl (symbols : Symbols) : Remembers symbols symbols := ⟨id, id, id⟩

theorem trans (first : Remembers before middle) (second : Remembers middle after) :
    Remembers before after where
  globals found := second.globals (first.globals found)
  provided found := second.provided (first.provided found)
  listed complete := second.listed (first.listed complete)

/-- A change that leaves the tables alone remembers everything if it turns no declaration into one of
    something from outside. -/
theorem ofTables (globals : after.globals = before.globals)
    (provided : ∀ id, (after.externalAt id).declarations = (before.externalAt id).declarations)
    (declarationAt : ∀ id, (after.declarationAt id).name = (before.declarationAt id).name ∧
      ((after.declarationAt id).kind = (before.declarationAt id).kind ∨
        ∃ source name target, (after.declarationAt id).kind = .imported source name target)) :
    Remembers before after where
  globals found := globals ▸ found
  provided {source _ _} found := provided source ▸ found
  listed complete := by
    refine ⟨fun {id} kind => ?_, fun {id source name} kind => ?_⟩
    · obtain ⟨named, same | ⟨_, _, _, import_⟩⟩ := declarationAt id
      · rw [globals, named]
        exact complete.free (same.symm.trans kind)
      · cases kind.symm.trans import_
    · obtain ⟨-, same | ⟨_, _, _, import_⟩⟩ := declarationAt id
      · rw [provided]
        exact complete.provided (same.symm.trans kind)
      · cases kind.symm.trans import_

end Remembers

/-! ## Single changes -/

theorem remembers_modifyModule (id : ModuleId) (change : Module → Module) :
    Remembers symbols (symbols.modifyModule id change) :=
  .ofTables rfl (fun _ => rfl) fun _ => ⟨rfl, .inl rfl⟩

theorem remembers_setTarget (id target : DeclId) :
    Remembers symbols (symbols.setTarget id target) := by
  refine .ofTables rfl (fun _ => rfl) fun other => ?_
  rw [setTarget, declarationAt_modifyDeclaration]
  split
  · split
    · exact ⟨rfl, .inr ⟨_, _, _, rfl⟩⟩
    · exact ⟨rfl, .inl rfl⟩
  · exact ⟨rfl, .inl rfl⟩

theorem declarations_propose (external : External) (hint : String) :
    (external.propose hint).declarations = external.declarations := by
  rw [External.propose]
  split <;> rfl

theorem remembers_proposeName (id : ExternalId) (hint : String) :
    Remembers symbols (symbols.proposeName id hint) := by
  refine .ofTables rfl (fun other => ?_) fun _ => ⟨rfl, .inl rfl⟩
  rw [proposeName, externalAt_modifyExternal]
  split
  · exact declarations_propose _ hint
  · rfl

/-! ## Additions -/

section Added

variable {name : String} {owner : Option Provider} {kind : DeclarationKind} {id : DeclId}

theorem free_addDeclaration
    (free : ((symbols.addDeclaration name owner kind).2.declarationAt id).kind = .free) :
    id = ⟨symbols.declarations.size⟩ ∧ kind = .free ∨
      (symbols.declarationAt id).kind = .free ∧
        (symbols.addDeclaration name owner kind).2.declarationAt id = symbols.declarationAt id := by
  rw [declarationAt_addDeclaration] at free ⊢
  split at free
  next new => exact .inl ⟨new, free⟩
  next old => exact .inr ⟨free, if_neg old⟩

theorem provided_addDeclaration {source : ExternalId} {exported : String}
    (provided : ((symbols.addDeclaration name owner kind).2.declarationAt id).kind =
      .provided source exported) :
    id = ⟨symbols.declarations.size⟩ ∧ kind = .provided source exported ∨
      (symbols.declarationAt id).kind = .provided source exported := by
  rw [declarationAt_addDeclaration] at provided
  split at provided
  next new => exact .inl ⟨new, provided⟩
  next => exact .inr provided

end Added

/-- A new entry of a table leaves the others as they are. -/
theorem getElem?_insert_of_absent {α : Type} {table : Std.TreeMap String α} {name key : String}
    {new found : α} (absent : table[name]? = none) (there : table[key]? = some found) :
    (table.insert name new)[key]? = some found := by
  rw [Std.TreeMap.getElem?_insert, if_neg]
  · exact there
  · intro same
    rw [← Std.LawfulEqCmp.eq_of_compare same, absent] at there
    cases there

theorem remembers_globalDeclaration (name : String) :
    Remembers symbols (symbols.globalDeclaration name).2 := by
  rw [globalDeclaration]
  split
  · exact .refl symbols
  next absent =>
      refine ⟨getElem?_insert_of_absent absent, id,
        fun complete => ⟨fun {id} free => ?_, fun {id source exported} kind => ?_⟩⟩
      · change (symbols.globals.insert name ⟨symbols.declarations.size⟩)[
          ((symbols.addDeclaration name none .free).2.declarationAt id).name]? = some id
        rcases free_addDeclaration free with ⟨rfl, -⟩ | ⟨old, same⟩
        · rw [declarationAt_addDeclaration, if_pos rfl, Std.TreeMap.getElem?_insert_self]
        · rw [same]
          exact getElem?_insert_of_absent absent (complete.free old)
      · rcases provided_addDeclaration kind with ⟨-, other⟩ | old
        · cases other
        · exact complete.provided old

/-- The table of an external module after an entry has been added, and those of the others. -/
theorem declarations_modifyExternal_insert {id : ExternalId}
    (inside : id.index < symbols.externals.size) (name : String) (new : DeclId)
    (source : ExternalId) :
    ((symbols.modifyExternal id fun external =>
        { external with declarations := external.declarations.insert name new }).externalAt
          source).declarations =
      if source = id then (symbols.externalAt source).declarations.insert name new
      else (symbols.externalAt source).declarations := by
  rw [externalAt_modifyExternal]
  by_cases same : source = id
  · rw [if_pos ⟨same, inside⟩, if_pos same]
  · rw [if_neg fun both => same both.1, if_neg same]

theorem remembers_externalDeclaration {id : ExternalId} (inside : id.index < symbols.externals.size)
    (name : String) : Remembers symbols (symbols.externalDeclaration id name).2 := by
  rw [externalDeclaration]
  split
  · exact .refl symbols
  next absent =>
      dsimp only
      have inside' : id.index < (symbols.addDeclaration (symbols.providedName id name)
        (some (.external id)) (.provided id name)).2.externals.size := inside
      have keeps : ∀ {source} {key : String} {declaration},
          (symbols.externalAt source).declarations[key]? = some declaration →
            (((symbols.addDeclaration (symbols.providedName id name) (some (.external id))
              (.provided id name)).2.modifyExternal id fun external =>
                { external with
                  declarations := external.declarations.insert name
                    ⟨symbols.declarations.size⟩ }).externalAt source).declarations[key]? =
              some declaration := by
        intro source key declaration found
        rw [declarations_modifyExternal_insert inside']
        split
        next same => exact getElem?_insert_of_absent (same ▸ absent) found
        next => exact found
      refine ⟨fun found => found, keeps,
        fun complete => ⟨fun {other} free => ?_, fun {other source exported} kind => ?_⟩⟩
      · rcases free_addDeclaration free with ⟨-, other⟩ | ⟨old, same⟩
        · cases other
        · exact (congrArg (fun declaration : Declaration => symbols.globals[declaration.name]?)
            same).trans (complete.free old)
      · rcases provided_addDeclaration kind with ⟨rfl, same⟩ | old
        · cases same
          rw [declarations_modifyExternal_insert inside', if_pos rfl,
            Std.TreeMap.getElem?_insert_self]
          rfl
        · exact keeps (complete.provided old)

/-! ## Origins -/

theorem modules_intern (symbols : Symbols) (origin : Origin) :
    (symbols.intern origin).2.modules = symbols.modules := by
  cases origin with
  | declaration => rfl
  | provided source name =>
      rw [intern, externalDeclaration]
      split <;> rfl

/-- What was declared before is not touched. -/
theorem declarationAt_intern {id : DeclId} (inside : id.index < symbols.declarations.size) (origin : Origin) :
    (symbols.intern origin).2.declarationAt id = symbols.declarationAt id := by
  cases origin with
  | declaration => rfl
  | provided source name =>
      rw [intern, externalDeclaration]
      split
      next => rfl
      next =>
          refine (declarationAt_addDeclaration _ _ _ id).trans (if_neg ?_)
          rintro rfl
          exact Nat.lt_irrefl _ inside

end Bundler.Symbols
