import Mathlib.Data.List.Perm.Subperm
import Mathlib.Data.List.ProdSigma
import Bundler.Proofs.Exports.Provision

/-! # The search for an origin

`Symbols.search?` finds only what is provided, finds something whenever something is provided, and
complains only about a request that leads back to itself.  It looks at a request once for each trail
that leads to it, so a star export that returns to the trail is given up although the module may
provide the name; this loses nothing, since a shortest chain to an origin never returns.
-/

namespace Bundler

section FirstOrigin

variable {search : Provider → Except Fault (Option Origin)} {sources : List Provider}

theorem firstOrigin?_cons (source : Provider) (rest : List Provider) :
    firstOrigin? search (source :: rest) =
      match search source with
      | .ok none => firstOrigin? search rest
      | result => result := by
  rw [firstOrigin?]
  cases search source with
  | error fault => rfl
  | ok result => cases result <;> rfl

theorem firstOrigin?_eq_some {origin} (found : firstOrigin? search sources = .ok (some origin)) :
    ∃ source ∈ sources, search source = .ok (some origin) := by
  induction sources with
  | nil => simp [firstOrigin?] at found
  | cons source rest ih =>
      rw [firstOrigin?_cons] at found
      split at found
      next =>
          obtain ⟨later, member, provided⟩ := ih found
          exact ⟨later, List.mem_cons_of_mem _ member, provided⟩
      next => exact ⟨source, List.mem_cons_self, found⟩

theorem firstOrigin?_eq_none (missed : firstOrigin? search sources = .ok none) :
    ∀ source ∈ sources, search source = .ok none := by
  induction sources with
  | nil => simp
  | cons source rest ih =>
      intro other member
      rw [firstOrigin?_cons] at missed
      split at missed
      next here =>
          rcases List.mem_cons.mp member with rfl | later
          · exact here
          · exact ih missed other later
      next another => exact absurd missed another

theorem firstOrigin?_eq_error {fault} (failed : firstOrigin? search sources = .error fault) :
    ∃ source ∈ sources, search source = .error fault := by
  induction sources with
  | nil => simp [firstOrigin?] at failed
  | cons source rest ih =>
      rw [firstOrigin?_cons] at failed
      split at failed
      next =>
          obtain ⟨later, member, fails⟩ := ih failed
          exact ⟨later, List.mem_cons_of_mem _ member, fails⟩
      next => exact ⟨source, List.mem_cons_self, failed⟩

end FirstOrigin

namespace Symbols

variable {symbols : Symbols}

/-! ## One step of the search -/

/-- How the search goes on from a request that is not on its trail, where `next` is the search with
    that request on the trail. -/
inductive Searched (symbols : Symbols) (id : ModuleId) (name : String)
    (next : Bool → Provider → String → Except Fault (Option Origin)) :
    Except Fault (Option Origin) → Prop where
  | answered {origin} :
    Answers symbols (.internal id) name origin → Searched symbols id name next (.ok (some origin))
  | taken {source imported} :
    PassesExplicitly symbols id name source imported →
    Searched symbols id name next (next false source imported)
  | starred :
    (symbols.moduleAt id).exports[name]? = none → name ≠ defaultExport →
    Searched symbols id name next
      (firstOrigin? (fun source => next true source name)
        (symbols.moduleAt id).starSources.toList)
  | absent :
    (symbols.moduleAt id).exports[name]? = none → name = defaultExport →
    Searched symbols id name next (.ok none)

theorem requestOrigin?_searched {id name source imported} {next}
    (takes : Takes symbols id name source imported) :
    Searched symbols id name next (symbols.requestOrigin? (next false) source imported) := by
  by_cases whole : imported = wholeModule
  · subst whole
    exact .answered (.whole takes)
  · simp only [requestOrigin?, whole, if_false]
    exact .taken ⟨takes, whole⟩

theorem bindingOrigin?_searched {id name declaration} {next}
    (found : (symbols.moduleAt id).exports[name]? = some (.own declaration)) :
    Searched symbols id name next (symbols.bindingOrigin? (next false) declaration) := by
  unfold bindingOrigin?
  split
  next kind => exact .answered (.linked found kind)
  next kind => exact requestOrigin?_searched (.imported found kind)
  next linked unlinked =>
      refine .answered (.declared found fun source imported target kind => ?_)
      cases target with
      | some target => exact linked _ _ _ kind
      | none => exact unlinked _ _ kind

theorem search?_searched (depth : Nat) (star : Bool) {trail id name} (fresh : (id, name) ∉ trail) :
    Searched symbols id name (symbols.search? depth ((id, name) :: trail))
      (symbols.search? (depth + 1) trail star (.internal id) name) := by
  rw [search?, if_neg fresh]
  dsimp only
  split
  next found => exact bindingOrigin?_searched found
  next found => exact requestOrigin?_searched (.again found)
  next found =>
      split
      next default => exact .absent found default
      next named => exact .starred found named

/-! ## Soundness -/

theorem provides_of_search? {depth trail star source name origin}
    (found : symbols.search? depth trail star source name = .ok (some origin)) :
    symbols.Provides source name origin := by
  induction depth generalizing trail star source name with
  | zero =>
      cases source with
      | internal id => simp [search?] at found
      | external id =>
          simp only [search?, Except.ok.injEq, Option.some.injEq] at found
          exact found ▸ .here .external
  | succ depth ih =>
      cases source with
      | external id =>
          simp only [search?, Except.ok.injEq, Option.some.injEq] at found
          exact found ▸ .here .external
      | internal id =>
          by_cases again : (id, name) ∈ trail
          · simp only [search?, again, if_true] at found
            split at found <;> simp at found
          · generalize outcome : symbols.search? (depth + 1) trail star (.internal id) name = result
              at found
            have step := outcome ▸ search?_searched depth star again
            cases step with
            | answered answer =>
                simp only [Except.ok.injEq, Option.some.injEq] at found
                exact found ▸ .here answer
            | taken passed => exact .beyond (.explicitly passed) (ih found)
            | starred absent named =>
                obtain ⟨next, member, later⟩ := firstOrigin?_eq_some found
                exact .beyond (.byStar ⟨absent, named, Array.mem_toList_iff.mp member⟩) (ih later)
            | absent => simp at found

/-! ## Circles -/

/-- The search comes to a request from the last one on its trail, and to that one from every other
    on it. -/
def Entered (symbols : Symbols) (trail : List (ModuleId × String)) (star : Bool)
    (source : Provider) (name : String) : Prop :=
  ∀ r ∈ trail, ∃ last, Relation.ReflTransGen symbols.LeadsTo r last ∧
    Passes symbols (.internal last.1) last.2 source name ∧
    (star = false → PassesExplicitly symbols last.1 last.2 source name)

theorem Entered.next {trail star id name next imported} {star' : Bool}
    (entered : symbols.Entered trail star (.internal id) name)
    (passed : Passes symbols (.internal id) name next imported)
    (explicit : star' = false → PassesExplicitly symbols id name next imported) :
    symbols.Entered ((id, name) :: trail) star' next imported := by
  intro r member
  refine ⟨(id, name), ?_, passed, explicit⟩
  rcases List.mem_cons.mp member with rfl | earlier
  · exact .refl
  · obtain ⟨last, way, step, -⟩ := entered r earlier
    exact way.tail step

/-- The search complains only about a circle that the request leads to. -/
theorem circular_of_search? {depth trail star source name fault}
    (entered : symbols.Entered trail star source name)
    (failed : symbols.search? depth trail star source name = .error fault) :
    ∃ id r, source = .internal id ∧ Relation.ReflTransGen symbols.LeadsTo (id, name) r ∧
      fault = .circularReexport (symbols.moduleAt r.1).id r.2 ∧ symbols.Circular r := by
  induction depth generalizing trail star source name with
  | zero => cases source <;> simp [search?] at failed
  | succ depth ih =>
      cases source with
      | external id => simp [search?] at failed
      | internal id =>
          by_cases again : (id, name) ∈ trail
          · simp only [search?, again, if_true] at failed
            cases star with
            | true => simp at failed
            | false =>
                simp only [Bool.false_eq_true, if_false, Except.error.injEq] at failed
                obtain ⟨last, way, -, explicit⟩ := entered _ again
                exact ⟨id, (id, name), rfl, .refl, failed.symm, last, way, explicit rfl⟩
          · have onward : ∀ star' {next imported},
                Passes symbols (.internal id) name next imported →
                (star' = false → PassesExplicitly symbols id name next imported) →
                symbols.search? depth ((id, name) :: trail) star' next imported = .error fault →
                ∃ id' r, Provider.internal id = .internal id' ∧
                  Relation.ReflTransGen symbols.LeadsTo (id', name) r ∧
                  fault = .circularReexport (symbols.moduleAt r.1).id r.2 ∧
                  symbols.Circular r := by
              intro star' next imported passed explicit failed
              obtain ⟨later, r, rfl, way, named, circular⟩ :=
                ih (entered.next passed explicit) failed
              have step : symbols.LeadsTo (id, name) (later, imported) := passed
              exact ⟨id, r, rfl, .head step way, named, circular⟩
            generalize outcome : symbols.search? (depth + 1) trail star (.internal id) name = result
              at failed
            have step := outcome ▸ search?_searched depth star again
            cases step with
            | answered => simp at failed
            | taken passed => exact onward false (.explicitly passed) (fun _ => passed) failed
            | starred absent named =>
                obtain ⟨next, member, later⟩ := firstOrigin?_eq_error failed
                have passed : PassesByStar symbols id name next :=
                  ⟨absent, named, Array.mem_toList_iff.mp member⟩
                exact onward true (.byStar passed) (by simp) later
            | absent => simp at failed

/-! ## The length of trails -/

/-- The name that an export takes from another module. -/
def Export.taken? : Export → Option String
  | .own _ => none
  | .again _ imported => some imported

/-- The name that a declaration imports. -/
def importedName? (declaration : Declaration) : Option String :=
  match declaration.kind with
  | .imported _ name _ => some name
  | _ => none

/-- All names that a search for `start` can come to. -/
def searchedNames (symbols : Symbols) (start : String) : List String :=
  start :: (symbols.declarations.toList.filterMap importedName? ++
    symbols.modules.toList.flatMap fun m => m.exports.keys.filterMap fun key =>
      m.exports[key]?.bind Export.taken?)

theorem length_searchedNames_le (start : String) :
    (symbols.searchedNames start).length ≤
      symbols.declarations.size +
        (symbols.modules.toList.flatMap fun m => m.exports.keys).length + 1 := by
  have taken : ∀ modules : List Module,
      (modules.flatMap fun m => m.exports.keys.filterMap fun key =>
        m.exports[key]?.bind Export.taken?).length ≤
      (modules.flatMap fun m => m.exports.keys).length := by
    intro modules
    induction modules with
    | nil => exact Nat.le_refl _
    | cons m rest ih =>
        simp only [List.flatMap_cons, List.length_append]
        exact Nat.add_le_add (List.length_filterMap_le _ _) ih
  have imported := List.length_filterMap_le importedName? symbols.declarations.toList
  have := taken symbols.modules.toList
  simp only [searchedNames, List.length_cons, List.length_append, Array.length_toList] at *
  omega

/-- The requests that a search for `start` can come to. -/
def searchedRequests (symbols : Symbols) (start : String) : List (ModuleId × String) :=
  symbols.moduleIds ×ˢ symbols.searchedNames start

theorem mem_searchedRequests {start : String} {id : ModuleId} {name : String} :
    (id, name) ∈ symbols.searchedRequests start ↔
      id.index < symbols.modules.size ∧ name ∈ symbols.searchedNames start := by
  rw [searchedRequests, List.mem_product, mem_moduleIds]

theorem length_searchedRequests_lt (start : String) :
    (symbols.searchedRequests start).length < symbols.trailBound := by
  have names := Nat.mul_le_mul_left symbols.modules.size
    (symbols.length_searchedNames_le start)
  simp only [searchedRequests, List.length_product, moduleIds, List.length_map, List.length_range,
    trailBound]
  omega

theorem Takes.mem_searchedNames {id name source imported} {start : String}
    (takes : Takes symbols id name source imported) : imported ∈ symbols.searchedNames start := by
  refine List.mem_cons_of_mem _ (List.mem_append.mpr ?_)
  cases takes with
  | again found =>
      right
      refine List.mem_flatMap.mpr
        ⟨_, moduleAt_mem (lt_of_export found), List.mem_filterMap.mpr ⟨name, ?_, ?_⟩⟩
      · exact Std.TreeMap.mem_keys.mpr (Std.TreeMap.mem_iff_isSome_getElem?.mpr (by simp [found]))
      · simp [found, Export.taken?]
  | imported found kind =>
      left
      exact List.mem_filterMap.mpr
        ⟨_, declarationAt_mem (lt_of_imported kind), by simp [importedName?, kind]⟩

theorem Passes.mem_searchedNames {id name source imported} {start : String}
    (passed : Passes symbols (.internal id) name source imported)
    (known : name ∈ symbols.searchedNames start) : imported ∈ symbols.searchedNames start := by
  cases passed with
  | explicitly taken => exact taken.1.mem_searchedNames
  | byStar => exact known

/-- The trail of a search for `start` that has come to `name`, with `depth` requests to go. -/
structure Trail (symbols : Symbols) (start : String) (depth : Nat)
    (trail : List (ModuleId × String)) (name : String) : Prop where
  length : depth + trail.length = symbols.trailBound
  nodup : trail.Nodup
  searched : trail ⊆ symbols.searchedRequests start
  known : name ∈ symbols.searchedNames start

namespace Trail

theorem start (name : String) : symbols.Trail name symbols.trailBound [] name :=
  ⟨by simp, List.nodup_nil, by simp, List.mem_cons_self⟩

/-- No trail uses up the bound. -/
theorem depth_ne_zero {start depth trail name} (way : symbols.Trail start depth trail name) :
    depth ≠ 0 := by
  intro exhausted
  have short := (List.subperm_of_subset way.nodup way.searched).length_le
  have bound := symbols.length_searchedRequests_lt start
  have length := way.length
  omega

theorem next {start depth trail id name source imported}
    (way : symbols.Trail start (depth + 1) trail name) (fresh : (id, name) ∉ trail)
    (passed : Passes symbols (.internal id) name source imported) :
    symbols.Trail start depth ((id, name) :: trail) imported where
  length := by
    have length := way.length
    simp only [List.length_cons]
    omega
  nodup := List.nodup_cons.mpr ⟨fresh, way.nodup⟩
  searched := List.cons_subset.mpr
    ⟨mem_searchedRequests.mpr ⟨passed.inside, way.known⟩, way.searched⟩
  known := passed.mem_searchedNames way.known

end Trail

/-! ## Completeness -/

theorem Takes.exports {id name source imported} (takes : Takes symbols id name source imported) :
    ∃ entry, (symbols.moduleAt id).exports[name]? = some entry := by
  cases takes with
  | again found => exact ⟨_, found⟩
  | imported found => exact ⟨_, found⟩

theorem Takes.unique {id name source imported next taken}
    (takes : Takes symbols id name source imported) (other : Takes symbols id name next taken) :
    next = source ∧ taken = imported := by
  cases takes with
  | again found =>
      cases other with
      | again found' => simp_all
      | imported found' => simp_all
  | imported found kind =>
      cases other with
      | again found' => simp_all
      | imported found' kind' =>
          rw [found] at found'
          cases found'
          rw [kind] at kind'
          cases kind'
          exact ⟨rfl, rfl⟩

theorem PassesExplicitly.unique {id name source imported next taken}
    (explicit : PassesExplicitly symbols id name source imported)
    (passed : Passes symbols (.internal id) name next taken) : next = source ∧ taken = imported := by
  cases passed with
  | explicitly other => exact explicit.1.unique other.1
  | byStar starred =>
      obtain ⟨entry, found⟩ := explicit.1.exports
      rw [starred.1] at found
      cases found

theorem PassesExplicitly.not_answers {id name source imported origin}
    (explicit : PassesExplicitly symbols id name source imported) :
    ¬ Answers symbols (.internal id) name origin := by
  intro answer
  obtain ⟨takes, named⟩ := explicit
  cases answer with
  | declared found other =>
      cases takes with
      | again found' => simp_all
      | imported found' kind =>
          rw [found] at found'
          cases found'
          exact other _ _ _ kind
  | linked found kind =>
      cases takes with
      | again found' => simp_all
      | imported found' kind' =>
          rw [found] at found'
          cases found'
          rw [kind] at kind'
          cases kind'
  | whole takes' => exact named (takes'.unique takes).2

theorem not_answers_of_absent {id name origin}
    (absent : (symbols.moduleAt id).exports[name]? = none) :
    ¬ Answers symbols (.internal id) name origin := by
  intro answer
  cases answer with
  | declared found => simp [absent] at found
  | linked found => simp [absent] at found
  | whole takes =>
      obtain ⟨entry, found⟩ := takes.exports
      simp [absent] at found

theorem Passes.byStar_of_absent {id name next imported}
    (absent : (symbols.moduleAt id).exports[name]? = none)
    (passed : Passes symbols (.internal id) name next imported) :
    imported = name ∧ PassesByStar symbols id name next := by
  cases passed with
  | explicitly explicit =>
      obtain ⟨entry, found⟩ := explicit.1.exports
      simp [absent] at found
  | byStar starred => exact ⟨rfl, starred⟩

/-- A request for which the search finds nothing is not provided, except by way of a request on the
    trail, and then no longer a way leads from there to the origin. -/
theorem search?_complete (n : Nat) {start depth trail star source name origin}
    (way : symbols.Trail start depth trail name)
    (provided : symbols.ProvidesAfter n source name origin)
    (missed : symbols.search? depth trail star source name = .ok none) :
    ∃ r ∈ trail, ∃ m ≤ n, symbols.ProvidesAfter m (.internal r.1) r.2 origin := by
  induction n using Nat.strongRecOn generalizing depth trail star source name with
  | _ n ih =>
  cases source with
  | external id => simp [search?] at missed
  | internal id =>
      obtain ⟨depth, rfl⟩ := Nat.exists_eq_succ_of_ne_zero way.depth_ne_zero
      by_cases again : (id, name) ∈ trail
      · exact ⟨_, again, n, Nat.le_refl n, provided⟩
      -- From here a shorter way may lead back to the request itself, which is then searched again.
      have onward : ∀ {k star next imported}, k < n →
          Passes symbols (.internal id) name next imported →
          symbols.ProvidesAfter k next imported origin →
          symbols.search? depth ((id, name) :: trail) star next imported = .ok none →
          ∃ r ∈ trail, ∃ m ≤ n, symbols.ProvidesAfter m (.internal r.1) r.2 origin := by
        intro k star' next imported shorter passed rest nothing
        obtain ⟨r, member, m, le, reached⟩ := ih k shorter (way.next again passed) rest nothing
        rcases List.mem_cons.mp member with rfl | earlier
        · obtain ⟨r, member, l, le', reached⟩ := ih m (by omega) way reached missed
          exact ⟨r, member, l, by omega, reached⟩
        · exact ⟨r, earlier, m, by omega, reached⟩
      generalize outcome : symbols.search? (depth + 1) trail star (.internal id) name = result
        at missed
      have step := outcome ▸ search?_searched depth star again
      cases step with
      | answered => simp at missed
      | taken explicit =>
          cases n with
          | zero => exact absurd provided explicit.not_answers
          | succ k =>
              obtain ⟨next, imported, passed, rest⟩ := provided
              obtain ⟨rfl, rfl⟩ := explicit.unique passed
              exact onward (Nat.lt_succ_self k) passed rest missed
      | starred absent named =>
          cases n with
          | zero => exact absurd provided (not_answers_of_absent absent)
          | succ k =>
              obtain ⟨next, imported, passed, rest⟩ := provided
              obtain ⟨rfl, starred⟩ := passed.byStar_of_absent absent
              exact onward (Nat.lt_succ_self k) passed rest
                (firstOrigin?_eq_none missed next (Array.mem_toList_iff.mpr starred.2.2))
      | absent absent default =>
          cases n with
          | zero => exact absurd provided (not_answers_of_absent absent)
          | succ k =>
              obtain ⟨next, imported, passed, -⟩ := provided
              exact absurd default (passed.byStar_of_absent absent).2.2.1

/-! ## The search as a whole -/

/-- What the search says about a request, said of the provision of exports. -/
theorem exportOrigin?_spec (source : Provider) (name : String) :
    match symbols.exportOrigin? source name with
    | .ok (some origin) => symbols.Provides source name origin
    | .ok none => ∀ origin, ¬ symbols.Provides source name origin
    | .error fault => ∃ id r, source = .internal id ∧
        Relation.ReflTransGen symbols.LeadsTo (id, name) r ∧
        fault = .circularReexport (symbols.moduleAt r.1).id r.2 ∧ symbols.Circular r := by
  unfold exportOrigin?
  split
  next found => exact provides_of_search? found
  next missed =>
      intro origin provided
      obtain ⟨n, provided⟩ := provided.after
      obtain ⟨r, member, -⟩ := search?_complete n (Trail.start name) provided missed
      exact absurd member List.not_mem_nil
  next failed => exact circular_of_search? (by simp [Entered]) failed

end Symbols

end Bundler
