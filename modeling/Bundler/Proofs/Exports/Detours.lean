import Bundler.Proofs.Exports.Stability

/-! # Detours

A module that exports again what another one provides may be asked in place of that one.  A search that
goes by way of it finds what the direct one finds, if this finds anything out: it comes upon the same
requests, but for the one of the detour, which stays on its trail.  The direct search can only come upon
that request from what the detour leads to, and from there it would complain about a circle.
-/

namespace Bundler

theorem firstOrigin?_ok_of_imp {search again : Provider → Except Fault (Option Origin)}
    {sources : List Provider} {found : Option Origin}
    (answers : ∀ source ∈ sources, ∀ found, search source = .ok found → again source = .ok found)
    (answered : firstOrigin? search sources = .ok found) : firstOrigin? again sources = .ok found := by
  induction sources with
  | nil => exact answered
  | cons source rest ih =>
      have here := answers source List.mem_cons_self
      rw [firstOrigin?_cons] at answered ⊢
      split at answered
      next missed =>
          rw [here none missed]
          exact ih (fun source member => answers source (List.mem_cons_of_mem _ member)) answered
      next =>
          rw [here found answered]
          cases found with
          | some origin => rfl
          | none => exact absurd answered ‹_›

namespace Symbols

variable {symbols other : Symbols} {detour : ModuleId × String} {source : Provider} {imported : String}

/-- Coming upon a request of the trail again, other than through a star export, is a fault. -/
theorem search?_circular {depth : Nat} {trail : List (ModuleId × String)} {id : ModuleId} {name : String}
    (again : (id, name) ∈ trail) (positive : depth ≠ 0) {found : Option Origin} :
    symbols.search? depth trail false (.internal id) name ≠ .ok found := by
  obtain ⟨depth, rfl⟩ := Nat.exists_eq_succ_of_ne_zero positive
  rw [search?, if_pos again]
  rintro ⟨⟩

/-- A name that is exported again is searched for where it comes from. -/
theorem search?_again {depth : Nat} {trail : List (ModuleId × String)} (star : Bool)
    (again : (symbols.moduleAt detour.1).exports[detour.2]? = some (.again source imported))
    (named : imported ≠ wholeModule) (fresh : detour ∉ trail) :
    symbols.search? (depth + 1) trail star (.internal detour.1) detour.2 =
      symbols.search? depth (detour :: trail) false source imported := by
  rw [search?, if_neg fresh, again]
  dsimp only
  rw [requestOrigin?, if_neg named]

/-- Some imports of the source in the first symbols take the detour in the second: they are written by way
    of a module that exports again what they take from the source. -/
structure Detours (symbols other : Symbols) (detour : ModuleId × String) (source : Provider)
    (imported : String) : Prop extends SameModules symbols other where
  again : (symbols.moduleAt detour.1).exports[detour.2]? = some (.again source imported)
  named : imported ≠ wholeModule
  kind : ∀ id, (other.declarationAt id).kind = (symbols.declarationAt id).kind ∨
    detour.2 ≠ wholeModule ∧ ∃ target,
      (symbols.declarationAt id).kind = .imported source imported target ∧
        (other.declarationAt id).kind = .imported (.internal detour.1) detour.2 target

/-- Asking in place of the source costs nothing else. -/
theorem Detours.refl
    (again : (symbols.moduleAt detour.1).exports[detour.2]? = some (.again source imported))
    (named : imported ≠ wholeModule) : Detours symbols symbols detour source imported where
  toSameModules := .of_modules rfl
  again := again
  named := named
  kind _ := .inl rfl

/-- How far the trails of both searches may be apart, when both have come to the same request: the detour
    may be on the trail of the second one, once the source has been asked or is about to be. -/
structure Abreast (detour : ModuleId × String) (source : Provider) (imported : String)
    (trail longer : List (ModuleId × String)) (next : Provider) (name : String) : Prop where
  kept : trail ⊆ longer
  only : ∀ r ∈ longer, r ∈ trail ∨ r = detour
  asked : detour ∈ longer →
    (∃ home, source = .internal home ∧ (home, imported) ∈ trail) ∨ (next = source ∧ name = imported)

namespace Abreast

variable {trail longer : List (ModuleId × String)} {name : String} {id : ModuleId}

theorem start (next : Provider) (name : String) : Abreast detour source imported [] [] next name :=
  ⟨by simp, by simp, by simp⟩

/-- Once the request has been put on the trail, the detour is on the longer one only if the source is on
    the shorter one, or if this request is the detour. -/
theorem asked_cons (abreast : Abreast detour source imported trail longer (.internal id) name)
    (there : detour ∈ longer) :
    ∃ home, source = .internal home ∧ (home, imported) ∈ (id, name) :: trail := by
  rcases abreast.asked there with ⟨home, rfl, asked⟩ | ⟨same, rfl⟩
  · exact ⟨home, rfl, List.mem_cons_of_mem _ asked⟩
  · exact ⟨id, same.symm, List.mem_cons_self⟩

theorem only_cons {next : Provider} (abreast : Abreast detour source imported trail longer next name)
    (r : ModuleId × String) : ∀ s ∈ r :: longer, s ∈ r :: trail ∨ s = detour := by
  intro s member
  rcases List.mem_cons.mp member with rfl | earlier
  · exact .inl List.mem_cons_self
  · exact (abreast.only s earlier).imp_left (List.mem_cons_of_mem _)

/-- Both searches go on to a request. -/
theorem onward {next : Provider} {taken : String}
    (abreast : Abreast detour source imported trail longer (.internal id) name)
    (entered : (id, name) = detour → next = source ∧ taken = imported) :
    Abreast detour source imported ((id, name) :: trail) ((id, name) :: longer) next taken where
  kept := List.cons_subset_cons _ abreast.kept
  only := abreast.only_cons _
  asked there := by
    rcases List.mem_cons.mp there with here | earlier
    · exact .inr (entered here.symm)
    · exact .inl (abreast.asked_cons earlier)

/-- The second search takes the detour, and both have come to the source. -/
theorem detoured (abreast : Abreast detour source imported trail longer (.internal id) name) :
    Abreast detour source imported ((id, name) :: trail) (detour :: (id, name) :: longer) source
      imported where
  kept := fun r member => List.mem_cons_of_mem _ (List.cons_subset_cons _ abreast.kept member)
  only r member := by
    rcases List.mem_cons.mp member with rfl | earlier
    · exact .inr rfl
    · exact abreast.only_cons _ r earlier
  asked _ := .inr ⟨rfl, rfl⟩

end Abreast

namespace Detours

variable (detours : Detours symbols other detour source imported)

include detours

theorem again_other :
    (other.moduleAt detour.1).exports[detour.2]? = some (.again source imported) :=
  (detours.exports detour.1).symm ▸ detours.again

theorem requestOrigin?_ok {search search' : Provider → String → Except Fault (Option Origin)}
    {next : Provider} {taken : String} {found : Option Origin}
    (onward : taken ≠ wholeModule → search next taken = .ok found → search' next taken = .ok found)
    (answered : symbols.requestOrigin? search next taken = .ok found) :
    other.requestOrigin? search' next taken = .ok found := by
  rw [requestOrigin?] at answered ⊢
  split at answered
  next whole => rwa [if_pos whole, detours.namespaceOrigin]
  next named =>
      rw [if_neg named]
      exact onward named answered

/-- Both searches get the same from a request that is on neither trail, if they do from those that it is
    passed on to, and from the source of the detour where only the second one takes it. -/
theorem search?_ok_of_fresh {depth deep : Nat} {trail longer : List (ModuleId × String)} {star : Bool}
    {id : ModuleId} {name : String} (again : (id, name) ∉ trail) (ahead : (id, name) ∉ longer)
    (onward : ∀ star {next taken found}, symbols.Passes (.internal id) name next taken →
      other.Passes (.internal id) name next taken →
      symbols.search? depth ((id, name) :: trail) star next taken = .ok found →
      other.search? deep ((id, name) :: longer) star next taken = .ok found)
    (detoured : ∀ {declaration found}, (symbols.moduleAt id).exports[name]? = some (.own declaration) →
      symbols.Passes (.internal id) name source imported →
      other.Passes (.internal id) name (.internal detour.1) detour.2 →
      symbols.search? depth ((id, name) :: trail) false source imported = .ok found →
      other.search? deep ((id, name) :: longer) false (.internal detour.1) detour.2 = .ok found)
    {found : Option Origin}
    (answered : symbols.search? (depth + 1) trail star (.internal id) name = .ok found) :
    other.search? (deep + 1) longer star (.internal id) name = .ok found := by
  rw [search?, if_neg again] at answered
  rw [search?, if_neg ahead, detours.exports, detours.starSources]
  dsimp only at answered ⊢
  split at answered
  next declaration own =>
      have own' := (detours.exports id).symm ▸ own
      rw [bindingOrigin?] at answered ⊢
      rcases detours.kind declaration with same | ⟨other, target, kind, kind'⟩
      · cases kind : (symbols.declarationAt declaration).kind with
        | imported source imported target =>
            rw [kind] at answered same
            rw [same]
            cases target with
            | some target => exact answered
            | none =>
                refine detours.requestOrigin?_ok (fun named => ?_) answered
                exact onward false (.explicitly ⟨.imported own kind, named⟩)
                  (.explicitly ⟨.imported own' same, named⟩)
        | declared | namespaceOf | provided | free =>
            rw [kind] at answered same
            rw [same]
            exact answered
      · rw [kind] at answered
        rw [kind']
        cases target with
        | some target => exact answered
        | none =>
            dsimp only [requestOrigin?] at answered ⊢
            rw [if_neg detours.named] at answered
            rw [if_neg other]
            exact detoured own (.explicitly ⟨.imported own kind, detours.named⟩)
              (.explicitly ⟨.imported own' kind', other⟩) answered
  next found' =>
      have found'' := (detours.exports id).symm ▸ found'
      refine detours.requestOrigin?_ok (fun named => ?_) answered
      exact onward false (.explicitly ⟨.again found', named⟩) (.explicitly ⟨.again found'', named⟩)
  next absent =>
      split at answered
      next default => rwa [if_pos default]
      next other =>
          rw [if_neg other]
          refine firstOrigin?_ok_of_imp (fun next member found => ?_) answered
          have starred : symbols.PassesByStar id name next :=
            ⟨absent, other, Array.mem_toList_iff.mp member⟩
          exact onward true (.byStar starred) (.byStar ((detours.passesByStar _ _ _).mpr starred))

theorem passes_source : symbols.Passes (.internal detour.1) detour.2 source imported :=
  .explicitly ⟨.again detours.again, detours.named⟩

theorem passes_source_other : other.Passes (.internal detour.1) detour.2 source imported :=
  .explicitly ⟨.again detours.again_other, detours.named⟩

/-- What the shorter search finds out, the one with the detour finds out as well. -/
theorem search?_ok {start start' : String} {depth deep : Nat} {trail longer : List (ModuleId × String)}
    {star : Bool} {next : Provider} {name : String} {found : Option Origin}
    (way : symbols.Trail start depth trail name) (way' : other.Trail start' deep longer name)
    (abreast : Abreast detour source imported trail longer next name)
    (answered : symbols.search? depth trail star next name = .ok found) :
    other.search? deep longer star next name = .ok found := by
  -- The induction is on the depth of the shorter search: a detour is one more request of the other.
  induction depth generalizing deep trail longer star next name found with
  | zero => exact absurd rfl way.depth_ne_zero
  | succ depth ih =>
      obtain ⟨deep, rfl⟩ := Nat.exists_eq_succ_of_ne_zero way'.depth_ne_zero
      cases next with
      | external id =>
          rw [search?] at answered ⊢
          exact answered
      | internal id =>
          by_cases again : (id, name) ∈ trail
          · simp only [search?, again, abreast.kept again, if_true] at answered ⊢
            split at answered
            next star => rwa [if_pos star]
            next => cases answered
          by_cases ahead : (id, name) ∈ longer
          · -- The shorter search comes upon the detour only now, and then upon the source again.
            obtain rfl := (abreast.only _ ahead).resolve_left again
            obtain ⟨home, rfl, asked⟩ := abreast.asked_cons ahead
            rw [search?_again star detours.again detours.named again] at answered
            have onward := way.next again detours.passes_source
            exact absurd answered (search?_circular asked onward.depth_ne_zero)
          refine detours.search?_ok_of_fresh again ahead (fun star _ _ _ passed passed' => ?_)
            (fun own passed passed' answered => ?_) answered
          · refine ih (way.next again passed) (way'.next ahead passed') (abreast.onward ?_)
            rintro rfl
            have explicit : symbols.PassesExplicitly id name source imported :=
              ⟨.again detours.again, detours.named⟩
            exact explicit.unique passed
          · have way := way.next again passed
            have way' := way'.next ahead passed'
            have fresh : detour ∉ (id, name) :: longer := by
              intro there
              rcases List.mem_cons.mp there with rfl | earlier
              · cases own.symm.trans detours.again
              · obtain ⟨home, rfl, asked⟩ := abreast.asked_cons earlier
                exact search?_circular asked way.depth_ne_zero answered
            obtain ⟨deep, rfl⟩ := Nat.exists_eq_succ_of_ne_zero way'.depth_ne_zero
            rw [search?_again false detours.again_other detours.named fresh]
            exact ih way (way'.next fresh detours.passes_source_other) abreast.detoured answered

/-! ## Requests -/

variable {found : Option Origin}

/-- Every request that is answered is answered alike where some imports take the detour. -/
theorem exportOrigin?_ok {next : Provider} {name : String}
    (answered : symbols.exportOrigin? next name = .ok found) :
    other.exportOrigin? next name = .ok found :=
  detours.search?_ok (Trail.start name) (Trail.start name) (Abreast.start next name) answered

/-- What is found for the source is found for the detour. -/
theorem exportOrigin?_detour (answered : symbols.exportOrigin? source imported = .ok found) :
    other.exportOrigin? (.internal detour.1) detour.2 = .ok found := by
  have way' : other.Trail detour.2 other.trailBound [] detour.2 := Trail.start detour.2
  obtain ⟨deep, bound⟩ := Nat.exists_eq_succ_of_ne_zero way'.depth_ne_zero
  rw [bound] at way'
  rw [exportOrigin?, bound, search?_again false detours.again_other detours.named List.not_mem_nil]
  refine detours.search?_ok (Trail.start imported)
    (way'.next List.not_mem_nil detours.passes_source_other) ⟨by simp, by simp, fun _ => ?_⟩ answered
  exact .inr ⟨rfl, rfl⟩

/-- The same goes for what imports denote. -/
theorem declarationOrigin?_ok {id : DeclId} (answered : symbols.declarationOrigin? id = .ok found) :
    other.declarationOrigin? id = .ok found := by
  rw [declarationOrigin?, bindingOrigin?] at answered ⊢
  rcases detours.kind id with same | ⟨other, target, kind, kind'⟩
  · rw [same]
    split at answered
    next => exact answered
    next next name kind =>
        exact detours.requestOrigin?_ok (fun _ => detours.exportOrigin?_ok) answered
    next => exact answered
  · rw [kind] at answered
    rw [kind']
    cases target with
    | some target => exact answered
    | none =>
        dsimp only [requestOrigin?] at answered ⊢
        rw [if_neg detours.named] at answered
        rw [if_neg other]
        exact detours.exportOrigin?_detour answered

end Detours

end Symbols

end Bundler
