import Bundler.Proofs.Exports.Resolution
import Bundler.Proofs.Symbols.Tables

/-! # Requests are answered as before

What a search finds depends on what modules export, and of declarations only on the kinds of those that
are exported.  It does not depend on the depth that is allowed, as long as that is enough for every
trail.  So while a program is annotated all requests keep their answers, once imports have their
targets.
-/

namespace Bundler.Symbols

variable {symbols other : Symbols}

/-- The same modules, of which more may be known about what their exports denote. -/
structure SameModules (symbols other : Symbols) : Prop where
  modules : other.modules.size = symbols.modules.size
  moduleAt : ∀ id, ∃ resolvedExports,
    other.moduleAt id = { symbols.moduleAt id with resolvedExports }

namespace SameModules

theorem of_modules (same : other.modules = symbols.modules) : SameModules symbols other where
  modules := congrArg Array.size same
  moduleAt id := ⟨(symbols.moduleAt id).resolvedExports, congrArg (·.getD id.index default) same⟩

variable (same : SameModules symbols other)

include same

theorem exports (id : ModuleId) : (other.moduleAt id).exports = (symbols.moduleAt id).exports := by
  obtain ⟨_, entry⟩ := same.moduleAt id
  rw [entry]

theorem starSources (id : ModuleId) :
    (other.moduleAt id).starSources = (symbols.moduleAt id).starSources := by
  obtain ⟨_, entry⟩ := same.moduleAt id
  rw [entry]

theorem moduleName (id : ModuleId) : (other.moduleAt id).id = (symbols.moduleAt id).id := by
  obtain ⟨_, entry⟩ := same.moduleAt id
  rw [entry]

theorem namespaceOrigin (source : Provider) :
    other.namespaceOrigin source = symbols.namespaceOrigin source := by
  cases source with
  | external => rfl
  | internal id =>
      obtain ⟨_, entry⟩ := same.moduleAt id
      rw [Symbols.namespaceOrigin, entry]
      rfl

theorem exportedNames (id : ModuleId) : other.exportedNames id = symbols.exportedNames id := by
  have stars : other.starModules = symbols.starModules := by
    funext source
    rw [starModules, same.starSources]
    rfl
  simp only [Symbols.exportedNames, stars, same.modules, same.exports]

theorem passesByStar (id : ModuleId) (name : String) (source : Provider) :
    other.PassesByStar id name source ↔ symbols.PassesByStar id name source := by
  simp only [PassesByStar, same.exports, same.starSources]

end SameModules

/-- Modules export the same, and what they export is of the same kinds. -/
structure SameExports (symbols other : Symbols) : Prop extends SameModules symbols other where
  kind : ∀ {id} {name : String} {declaration},
    (symbols.moduleAt id).exports[name]? = some (.own declaration) →
      (other.declarationAt declaration).kind = (symbols.declarationAt declaration).kind

namespace SameExports

theorem passes (same : SameExports symbols other) {id name source imported}
    (passed : Passes symbols (.internal id) name source imported) :
    Passes other (.internal id) name source imported := by
  cases passed with
  | explicitly explicit =>
      refine .explicitly ⟨?_, explicit.2⟩
      cases explicit.1 with
      | again found => exact .again (same.exports id ▸ found)
      | imported found kind =>
          exact .imported (same.exports id ▸ found) ((same.kind found).trans kind)
  | byStar starred => exact .byStar ((same.passesByStar _ _ _).mpr starred)

end SameExports

/-! ## Searches -/

theorem firstOrigin?_congr {search again : Provider → Except Fault (Option Origin)}
    {sources : List Provider} (same : ∀ source ∈ sources, again source = search source) :
    firstOrigin? again sources = firstOrigin? search sources := by
  induction sources with
  | nil => rfl
  | cons source rest ih =>
      rw [firstOrigin?_cons, firstOrigin?_cons, same source List.mem_cons_self,
        ih fun source member => same source (List.mem_cons_of_mem _ member)]

/-- A search gives the same answer with any two depths that are enough for its trail. -/
theorem SameExports.search?_eq (same : SameExports symbols other) {start depth deep trail star}
    {source : Provider} {name : String} (way : symbols.Trail start depth trail name)
    (way' : other.Trail start deep trail name) :
    other.search? deep trail star source name = symbols.search? depth trail star source name := by
  induction depth generalizing deep trail star source name with
  | zero => exact absurd rfl way.depth_ne_zero
  | succ depth ih =>
      obtain ⟨deep, rfl⟩ := Nat.exists_eq_succ_of_ne_zero way'.depth_ne_zero
      cases source with
      | external id => rw [search?, search?]
      | internal id =>
          by_cases again : (id, name) ∈ trail
          · simp only [search?, again, if_true, same.moduleName]
          have onward : ∀ star {next imported}, Passes symbols (.internal id) name next imported →
              other.search? deep ((id, name) :: trail) star next imported =
                symbols.search? depth ((id, name) :: trail) star next imported :=
            fun star _ _ passed => ih (way.next again passed) (way'.next again (same.passes passed))
          have request : ∀ {next imported}, Takes symbols id name next imported →
              other.requestOrigin? (other.search? deep ((id, name) :: trail) false) next imported =
                symbols.requestOrigin? (symbols.search? depth ((id, name) :: trail) false) next
                  imported := by
            intro next imported takes
            rw [requestOrigin?, requestOrigin?, same.namespaceOrigin]
            split
            next => rfl
            next named => exact onward false (.explicitly ⟨takes, named⟩)
          rw [search?, search?, if_neg again, if_neg again, same.exports, same.starSources]
          dsimp only
          split
          next declaration found =>
              rw [bindingOrigin?, bindingOrigin?, same.kind found]
              split
              next => rfl
              next kind => exact request (.imported found kind)
              next => rfl
          next found => exact request (.again found)
          next absent =>
              split
              next => rfl
              next named =>
                  apply firstOrigin?_congr
                  intro next member
                  exact onward true (.byStar ⟨absent, named, Array.mem_toList_iff.mp member⟩)

/-- Where modules export the same, every request has the same answer. -/
theorem SameExports.exportOrigin?_eq (same : SameExports symbols other) (source : Provider)
    (name : String) : other.exportOrigin? source name = symbols.exportOrigin? source name :=
  same.search?_eq (Trail.start name) (Trail.start name)

/-! ## Declarations of origins -/

/-- The declaration of the origin is there already. -/
inductive Interned (symbols : Symbols) : Origin → DeclId → Prop where
  | declaration {id} : Interned symbols (.declaration id) id
  | provided {source name id} : (symbols.externalAt source).declarations[name]? = some id →
    Interned symbols (.provided source name) id

theorem Interned.unique {origin : Origin} {id other : DeclId} (first : symbols.Interned origin id)
    (second : symbols.Interned origin other) : id = other := by
  cases first with
  | declaration => cases second; rfl
  | provided found =>
      cases second with
      | provided found' => exact Option.some.inj (found.symm.trans found')

theorem Interned.mono {origin : Origin} {id : DeclId} (remembers : Remembers symbols other)
    (interned : symbols.Interned origin id) : other.Interned origin id := by
  cases interned with
  | declaration => exact .declaration
  | provided found => exact .provided (remembers.provided found)

theorem Interned.intern_eq {origin : Origin} {id : DeclId} (interned : symbols.Interned origin id) :
    symbols.intern origin = (id, symbols) := by
  cases interned with
  | declaration => rfl
  | provided found => rw [intern, externalDeclaration, found]

theorem interned_of_intern_eq {origin : Origin} {id : DeclId}
    (same : symbols.intern origin = (id, symbols)) : symbols.Interned origin id := by
  cases origin with
  | declaration other =>
      cases same
      exact .declaration
  | provided source name =>
      rw [intern, externalDeclaration] at same
      split at same
      next found =>
          cases same
          exact .provided found
      next =>
          have size := congrArg (fun result : DeclId × Symbols => result.2.declarations.size) same
          simp [addDeclaration, modifyExternal] at size

/-- Once it has been asked for, the declaration of an origin is there. -/
theorem interned_intern {origin : Origin}
    (inside : ∀ source name, origin = .provided source name →
      source.index < symbols.externals.size) :
    (symbols.intern origin).2.Interned origin (symbols.intern origin).1 := by
  cases origin with
  | declaration => exact .declaration
  | provided source name =>
      have there := inside source name rfl
      rw [intern, externalDeclaration]
      split
      next found => exact .provided found
      next =>
          have there' : source.index < (symbols.addDeclaration (symbols.providedName source name)
            (some (.external source)) (.provided source name)).2.externals.size := there
          refine .provided ?_
          dsimp only
          rw [declarations_modifyExternal_insert there', if_pos rfl,
            Std.TreeMap.getElem?_insert_self]

/-! ## Requests -/

/-- The request has an answer, and its declaration is there already. -/
def Answered (symbols : Symbols) (source : Provider) (name : String) (found : Option DeclId) : Prop :=
  (resolveExport? source name).outcome symbols = (.ok found, symbols)

theorem answered_none {source : Provider} {name : String}
    (missed : symbols.exportOrigin? source name = .ok none) : symbols.Answered source name none := by
  rw [Answered, resolveExport?_outcome, missed]

theorem answered_some {source : Provider} {name : String} {origin : Origin} {id : DeclId}
    (found : symbols.exportOrigin? source name = .ok (some origin))
    (interned : symbols.Interned origin id) : symbols.Answered source name (some id) := by
  rw [Answered, resolveExport?_outcome, found]
  dsimp only
  rw [interned.intern_eq]

theorem Answered.unique {source : Provider} {name : String} {found found' : Option DeclId}
    (answered : symbols.Answered source name found) (again : symbols.Answered source name found') :
    found = found' := by
  rw [Answered] at answered again
  rw [answered] at again
  exact Except.ok.inj (Prod.mk.inj again).1

/-- An answer stays what it is. -/
theorem Answered.mono {source : Provider} {name : String} {found : Option DeclId}
    (answered : symbols.Answered source name found) (same : SameExports symbols other)
    (remembers : Remembers symbols other) : other.Answered source name found := by
  rw [Answered, resolveExport?_outcome] at answered
  have search := same.exportOrigin?_eq source name
  split at answered
  next origin result =>
      rw [result] at search
      simp only [Prod.mk.injEq, Except.ok.injEq] at answered
      obtain ⟨rfl, unchanged⟩ := answered
      have interned := interned_of_intern_eq (Prod.ext rfl unchanged : symbols.intern origin = (_, symbols))
      exact answered_some search (interned.mono remembers)
  next result =>
      cases answered
      rw [result] at search
      exact answered_none search
  next => cases answered

end Bundler.Symbols
