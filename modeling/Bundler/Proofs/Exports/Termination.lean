import Bundler.Proofs.Exports.Resolution

/-! # Searches come to an end

`Symbols.search?` gives up a request when its bound is used up.  Here the search is said again with rules
that never give up, and the two turn out to be the same: the bound is larger than every trail, and a
search without a bound has no other result.
-/

namespace Bundler

theorem firstOrigin?_singleton (search : Provider → Except Fault (Option Origin)) (source : Provider) :
    firstOrigin? search [source] = search source := by
  rw [firstOrigin?_cons]
  split
  next missed => exact missed.symm
  next => rfl

theorem firstOrigin?_cons_of_missed {search : Provider → Except Fault (Option Origin)} {source : Provider}
    (missed : search source = .ok none) (rest : List Provider) :
    firstOrigin? search (source :: rest) = firstOrigin? search rest := by
  rw [firstOrigin?_cons, missed]

theorem firstOrigin?_cons_of_settled {search : Provider → Except Fault (Option Origin)} {source : Provider}
    (settled : search source ≠ .ok none) (rest : List Provider) :
    firstOrigin? search (source :: rest) = search source := by
  rw [firstOrigin?_cons]
  split
  next missed => exact absurd missed settled
  next => rfl

namespace Symbols

variable {symbols : Symbols}

/-- The modules that a request which has no answer of its own goes on to ask, one after the other: by
    `export *` or not, and for which name. -/
inductive PassesOn (symbols : Symbols) (id : ModuleId) (name : String) :
    (star : Bool) → List Provider → String → Prop where
  | taken {source imported} :
    PassesExplicitly symbols id name source imported → PassesOn symbols id name false [source] imported
  | starred :
    (symbols.moduleAt id).exports[name]? = none → name ≠ defaultExport →
    PassesOn symbols id name true (symbols.moduleAt id).starSources.toList name
  /-- A default export comes from nowhere else. -/
  | absent :
    (symbols.moduleAt id).exports[name]? = none → name = defaultExport →
    PassesOn symbols id name true [] name

theorem PassesOn.passes {id name star sources imported source}
    (onward : PassesOn symbols id name star sources imported) (member : source ∈ sources) :
    Passes symbols (.internal id) name source imported := by
  cases onward with
  | taken passed =>
      cases List.mem_singleton.mp member
      exact .explicitly passed
  | starred absent named => exact .byStar ⟨absent, named, Array.mem_toList_iff.mp member⟩
  | absent => exact absurd member List.not_mem_nil

/-- Asking some modules for a name, one after the other, comes to an end with a result, with at most so
    many requests inside of each other.  No rule gives up a request. -/
inductive Searches (symbols : Symbols) : (depth : Nat) → (trail : List (ModuleId × String)) →
    (star : Bool) → List Provider → String → Except Fault (Option Origin) → Prop where
  | exhausted {depth trail star name} : Searches symbols depth trail star [] name (.ok none)
  | external {depth trail star id rest name} :
    Searches symbols depth trail star (.external id :: rest) name (.ok (some (.provided id name)))
  | circular {depth trail id rest name} :
    (id, name) ∈ trail →
    Searches symbols depth trail false (.internal id :: rest) name
      (.error (.circularReexport (symbols.moduleAt id).id name))
  | returned {depth trail id rest name result} :
    (id, name) ∈ trail → Searches symbols depth trail true rest name result →
    Searches symbols depth trail true (.internal id :: rest) name result
  | answered {depth trail star id rest name origin} :
    (id, name) ∉ trail → Answers symbols (.internal id) name origin →
    Searches symbols (depth + 1) trail star (.internal id :: rest) name (.ok (some origin))
  | settled {depth trail star id rest name star' sources imported result} :
    (id, name) ∉ trail → PassesOn symbols id name star' sources imported →
    Searches symbols depth ((id, name) :: trail) star' sources imported result → result ≠ .ok none →
    Searches symbols (depth + 1) trail star (.internal id :: rest) name result
  | missed {depth trail star id rest name star' sources imported result} :
    (id, name) ∉ trail → PassesOn symbols id name star' sources imported →
    Searches symbols depth ((id, name) :: trail) star' sources imported (.ok none) →
    Searches symbols (depth + 1) trail star rest name result →
    Searches symbols (depth + 1) trail star (.internal id :: rest) name result

/-! ## One step of both searches -/

section Step

variable {id : ModuleId} {name : String} {depth : Nat} {trail : List (ModuleId × String)} {star : Bool}

theorem search?_external (depth : Nat) (trail : List (ModuleId × String)) (star : Bool) (id : ExternalId)
    (name : String) :
    symbols.search? depth trail star (.external id) name = .ok (some (.provided id name)) := by
  cases depth <;> rw [search?]

theorem search?_returned (again : (id, name) ∈ trail) :
    symbols.search? (depth + 1) trail star (.internal id) name =
      if star then .ok none else .error (.circularReexport (symbols.moduleAt id).id name) := by
  rw [search?, if_pos again]

theorem Answers.search?_eq {origin} (answer : Answers symbols (.internal id) name origin)
    (fresh : (id, name) ∉ trail) :
    symbols.search? (depth + 1) trail star (.internal id) name = .ok (some origin) := by
  rw [search?, if_neg fresh]
  cases answer with
  | declared found final =>
      simp only [found, bindingOrigin?]
      split
      next kind => exact absurd kind (final _ _ _)
      next kind => exact absurd kind (final _ _ _)
      next => rfl
  | linked found kind => simp only [found, bindingOrigin?, kind]
  | whole takes =>
      cases takes with
      | again found => simp only [found, requestOrigin?, if_pos]
      | imported found kind => simp only [found, bindingOrigin?, kind, requestOrigin?, if_pos]

theorem PassesOn.search?_eq {star' sources imported} (onward : PassesOn symbols id name star' sources imported)
    (fresh : (id, name) ∉ trail) :
    symbols.search? (depth + 1) trail star (.internal id) name =
      firstOrigin? (fun source => symbols.search? depth ((id, name) :: trail) star' source imported)
        sources := by
  rw [search?, if_neg fresh]
  cases onward with
  | taken passed =>
      obtain ⟨takes, named⟩ := passed
      rw [firstOrigin?_singleton]
      cases takes with
      | again found => simp only [found, requestOrigin?, if_neg named]
      | imported found kind => simp only [found, bindingOrigin?, kind, requestOrigin?, if_neg named]
  | starred absent named => simp only [absent, if_neg named]
  | absent absent default => simp only [absent, if_pos default, firstOrigin?]

/-- A new request is answered, or goes on to ask other modules. -/
theorem Searched.answered_or_passesOn {next : Bool → Provider → String → Except Fault (Option Origin)}
    {result} (searched : Searched symbols id name next result) :
    (∃ origin, Answers symbols (.internal id) name origin) ∨
      ∃ star sources imported, PassesOn symbols id name star sources imported := by
  cases searched with
  | answered answer => exact .inl ⟨_, answer⟩
  | taken passed => exact .inr ⟨_, _, _, .taken passed⟩
  | starred absent named => exact .inr ⟨_, _, _, .starred absent named⟩
  | absent absent default => exact .inr ⟨_, _, _, .absent absent default⟩

end Step

/-! ## The searches agree -/

/-- A bound that is larger than the search needs does not change its result. -/
theorem Searches.firstOrigin?_eq {depth bound trail star sources name result}
    (searches : symbols.Searches depth trail star sources name result) (enough : depth < bound) :
    firstOrigin? (fun source => symbols.search? bound trail star source name) sources = result := by
  obtain ⟨bound, rfl⟩ := Nat.exists_eq_succ_of_ne_zero (Nat.ne_zero_of_lt enough)
  induction searches generalizing bound with
  | exhausted => rfl
  | external =>
      rw [firstOrigin?_cons_of_settled] <;> rw [search?_external]
      simp
  | circular again =>
      rw [firstOrigin?_cons_of_settled] <;> rw [search?_returned again] <;> simp
  | returned again _ later =>
      rw [firstOrigin?_cons_of_missed, later bound enough]
      rw [search?_returned again, if_pos rfl]
  | answered fresh answer =>
      rw [firstOrigin?_cons_of_settled] <;> rw [answer.search?_eq fresh]
      simp
  | settled fresh onward _ some below =>
      obtain ⟨bound, rfl⟩ := Nat.exists_eq_succ_of_ne_zero
        (Nat.ne_zero_of_lt (Nat.lt_of_succ_lt_succ enough))
      have here := below bound (Nat.lt_of_succ_lt_succ enough)
      rw [firstOrigin?_cons_of_settled] <;> rw [onward.search?_eq fresh, here]
      exact some
  | missed fresh onward _ _ below later =>
      obtain ⟨bound, rfl⟩ := Nat.exists_eq_succ_of_ne_zero
        (Nat.ne_zero_of_lt (Nat.lt_of_succ_lt_succ enough))
      have here := below bound (Nat.lt_of_succ_lt_succ enough)
      rw [firstOrigin?_cons_of_missed ((onward.search?_eq fresh).trans here)]
      exact later (bound + 1) enough

/-- The search comes to an end without its bound, since no trail uses that up. -/
theorem Trail.searches {start depth trail star name} (way : symbols.Trail start depth trail name)
    (sources : List Provider) :
    symbols.Searches depth trail star sources name
      (firstOrigin? (fun source => symbols.search? depth trail star source name) sources) := by
  induction depth generalizing trail star name sources with
  | zero => exact absurd rfl way.depth_ne_zero
  | succ depth below =>
      induction sources with
      | nil => exact .exhausted
      | cons source rest later =>
          cases source with
          | external id =>
              rw [firstOrigin?_cons_of_settled] <;> rw [search?_external]
              · exact .external
              · simp
          | internal id =>
              rcases Decidable.em ((id, name) ∈ trail) with again | fresh
              · have here : symbols.search? (depth + 1) trail star (.internal id) name = _ :=
                  search?_returned again
                cases star with
                | true =>
                    rw [firstOrigin?_cons_of_missed here]
                    exact .returned again later
                | false =>
                    rw [firstOrigin?_cons_of_settled] <;> rw [here]
                    · exact .circular again
                    · simp
              rcases (search?_searched depth star fresh).answered_or_passesOn with
                ⟨origin, answer⟩ | ⟨star', sources, imported, onward⟩
              · rw [firstOrigin?_cons_of_settled] <;> rw [answer.search?_eq fresh]
                · exact .answered fresh answer
                · simp
              have here : symbols.search? (depth + 1) trail star (.internal id) name = _ :=
                onward.search?_eq fresh
              -- A trail goes on only to a module that is there to be asked.
              have inside : symbols.Searches depth ((id, name) :: trail) star' sources imported
                  (symbols.search? (depth + 1) trail star (.internal id) name) := by
                rw [here]
                cases sources with
                | nil => exact .exhausted
                | cons first others =>
                    exact below (way.next fresh (onward.passes List.mem_cons_self)) (first :: others)
              by_cases missed : symbols.search? (depth + 1) trail star (.internal id) name = .ok none
              · rw [firstOrigin?_cons_of_missed missed]
                exact .missed fresh onward (missed ▸ inside) later
              · rw [firstOrigin?_cons_of_settled missed]
                exact .settled fresh onward inside missed

/-- The search for an export comes to an end without a bound, with no more requests inside of each other
    than `Symbols.trailBound` says, and with no other result than the bounded one. -/
theorem searches_exportOrigin? (source : Provider) (name : String) :
    symbols.Searches symbols.trailBound [] false [source] name (symbols.exportOrigin? source name) ∧
      ∀ {depth result}, symbols.Searches depth [] false [source] name result →
        result = symbols.exportOrigin? source name := by
  have ends : symbols.Searches symbols.trailBound [] false [source] name _ :=
    (Trail.start name).searches [source]
  rw [firstOrigin?_singleton] at ends
  refine ⟨ends, fun {depth result} searches => ?_⟩
  have enough := Nat.lt_succ_of_le (Nat.le_max_left depth symbols.trailBound)
  have enough' := Nat.lt_succ_of_le (Nat.le_max_right depth symbols.trailBound)
  exact (searches.firstOrigin?_eq enough).symm.trans (ends.firstOrigin?_eq enough')

/-- Asking for the declaration that a module exports under a name comes to an end, with at most so many
    requests inside of each other. -/
inductive Traces (symbols : Symbols) (depth : Nat) (source : Provider) (name : String) :
    Except Fault (Option DeclId) × Symbols → Prop where
  | found {origin} :
    Searches symbols depth [] false [source] name (.ok (some origin)) →
    Traces symbols depth source name (.ok (some (symbols.intern origin).1), (symbols.intern origin).2)
  | missing :
    Searches symbols depth [] false [source] name (.ok none) →
    Traces symbols depth source name (.ok none, symbols)
  | failed {fault} :
    Searches symbols depth [] false [source] name (.error fault) →
    Traces symbols depth source name (.error fault, symbols)

/-- Asking for a declaration comes to an end, and in only one way. -/
theorem traces_resolveExport? (source : Provider) (name : String) :
    symbols.Traces symbols.trailBound source name ((resolveExport? source name).outcome symbols) ∧
      ∀ {depth outcome}, symbols.Traces depth source name outcome →
        outcome = (resolveExport? source name).outcome symbols := by
  obtain ⟨ends, only⟩ := symbols.searches_exportOrigin? source name
  rw [resolveExport?_outcome]
  constructor
  · split
    next found => exact .found (found ▸ ends)
    next missed => exact .missing (missed ▸ ends)
    next failed => exact .failed (failed ▸ ends)
  · intro depth outcome traces
    cases traces with
    | found searches => rw [← only searches]
    | missing searches => rw [← only searches]
    | failed searches => rw [← only searches]

end Symbols

end Bundler
