import Bundler.Proofs.Symbols.Access

/-! # Proposals of names

An external module counts how often each name has been proposed, and keeps the best name so far with its
count.  This is enough: the name is always the one that has been proposed most often and, of several such
names, the one that was the first to be proposed that often.  What is proposed for other modules does not
matter.
-/

namespace Bundler

variable {hints : List String} {name other : String}

/-- No hint is given more often than the name, and at the time when the name had been given as often as it is
    given at all, no hint had been given as often before. -/
structure Prevails (hints : List String) (name : String) : Prop where
  most : ∀ hint, hints.count hint ≤ hints.count name
  first : ∃ before after, hints = before ++ name :: after ∧ before.count name + 1 = hints.count name ∧
    ∀ hint, before.count hint < hints.count name

namespace Prevails

/-- A name prevails as soon as it is given more often than any name before. -/
theorem overtakes (behind : ∀ hint, hints.count hint ≤ hints.count name) :
    Prevails (hints ++ [name]) name := by
  have ahead : (hints ++ [name]).count name = hints.count name + 1 := by simp
  constructor
  · intro hint
    by_cases same : name = hint
    · exact same ▸ Nat.le_refl _
    · have kept : (hints ++ [name]).count hint = hints.count hint := by simp [same]
      rw [ahead, kept]
      exact Nat.le_succ_of_le (behind hint)
  · refine ⟨hints, [], rfl, ahead.symm, fun hint => ?_⟩
    rw [ahead]
    exact Nat.lt_succ_of_le (behind hint)

/-- A hint that is behind changes nothing about a name that is ahead of it. -/
theorem count_behind (behind : hints.count other < hints.count name) :
    (hints ++ [other]).count name = hints.count name := by
  have different : other ≠ name := by
    rintro rfl
    exact Nat.lt_irrefl _ behind
  simp [different]

/-- A name goes on to prevail as long as no other one gets ahead of it. -/
theorem stays (prevails : Prevails hints name) (behind : hints.count other < hints.count name) :
    Prevails (hints ++ [other]) name := by
  have count := count_behind behind
  obtain ⟨most, before, after, split, reached, others⟩ := prevails
  constructor
  · intro hint
    rw [count]
    by_cases same : other = hint
    · subst same
      have once : (hints ++ [other]).count other = hints.count other + 1 := by simp
      rw [once]
      exact behind
    · simpa [same] using most hint
  · rw [count]
    exact ⟨before, after ++ [other], by simp [split], reached, others⟩

/-- Of two names that prevail, neither gets there before the other. -/
theorem unique (first : Prevails hints name) (second : Prevails hints other) : name = other := by
  obtain ⟨before, after, split, reached, ahead⟩ := first.first
  obtain ⟨before', after', split', reached', ahead'⟩ := second.first
  have same : hints.count name = hints.count other := Nat.le_antisymm (second.most _) (first.most _)
  -- What goes on behind the place where a name reaches its number has the whole number before it, so a name
  -- that gets there later was not ahead of the first one.
  have late : ∀ (early between : List String) (hint : String),
      early.count hint + 1 = hints.count hint → hints.count hint ≤ (early ++ hint :: between).count hint :=
    fun early between hint reached => by
      rw [List.count_append, List.count_cons_self]
      omega
  rcases List.append_eq_append_iff.mp (split.symm.trans split') with ⟨between, rfl, rest⟩ | ⟨between, rfl, rest⟩
  · cases between with
    | nil => exact (List.cons.inj rest).1
    | cons hint between =>
        cases (List.cons.inj rest).1
        exact absurd (same ▸ ahead' name) (Nat.not_lt.mpr (late before between name reached))
  · cases between with
    | nil => exact (List.cons.inj rest).1.symm
    | cons hint between =>
        cases (List.cons.inj rest).1
        exact absurd (same ▸ ahead other) (Nat.not_lt.mpr (late before' between other reached'))

end Prevails

namespace External

variable {external : External}

/-- Nobody has proposed a name for the module, and it has none in the bundle. -/
structure Unnamed (external : External) : Prop where
  hints : ∀ hint, external.hints.getD hint 0 = 0
  support : external.support = 0
  outputName : external.outputName = none

/-- What the module keeps is the outcome of the hints. -/
structure Tallies (external : External) (hints : List String) : Prop where
  counted : ∀ hint, external.hints.getD hint 0 = hints.count hint
  supported : hints = [] ∧ external.support = 0 ∨
    Prevails hints external.proposedName ∧ external.support = hints.count external.proposedName
  outputName : external.outputName = none

theorem Unnamed.tallies (unnamed : external.Unnamed) : external.Tallies [] :=
  ⟨unnamed.hints, .inl ⟨rfl, unnamed.support⟩, unnamed.outputName⟩

theorem Tallies.count_le (tallies : external.Tallies hints) (hint : String) :
    hints.count hint ≤ external.support := by
  rcases tallies.supported with ⟨rfl, -⟩ | ⟨prevails, support⟩
  · exact Nat.zero_le _
  · exact support ▸ prevails.most hint

/-- Until the module has a name in the bundle, it goes by the proposed name. -/
theorem Tallies.name_eq (tallies : external.Tallies hints) : external.name = external.proposedName := by
  rw [External.name, tallies.outputName, Option.getD_none]

/-- One more hint changes what the module keeps to the outcome of all hints. -/
theorem Tallies.propose (tallies : external.Tallies hints) (hint : String) :
    (external.propose hint).Tallies (hints ++ [hint]) := by
  have counted : ∀ other,
      (external.propose hint).hints.getD other 0 = (hints ++ [hint]).count other := fun other => by
    rw [getD_hints_propose, tallies.counted, List.count_append, List.count_singleton]
    simp only [beq_iff_eq, @eq_comm _ hint]
  refine ⟨counted, ?_, (outputName_propose ..).trans tallies.outputName⟩
  rw [External.propose, tallies.counted]
  split
  next more =>
      have behind : ∀ other, hints.count other ≤ hints.count hint := fun other => by
        have := tallies.count_le other
        omega
      exact .inr ⟨.overtakes behind, by simp⟩
  next fewer =>
      rcases tallies.supported with ⟨-, none⟩ | ⟨prevails, support⟩
      · omega
      · -- The support is the count of the best name, so a hint that does not exceed it has been behind.
        have behind : hints.count hint < hints.count external.proposedName := by omega
        exact .inr ⟨prevails.stays behind, support.trans (Prevails.count_behind behind).symm⟩

end External

namespace Symbols

variable {symbols : Symbols} {id : ExternalId} {proposals : List (ExternalId × String)}

/-- The names that are proposed for a module, in order. -/
def hintsFor (id : ExternalId) (proposals : List (ExternalId × String)) : List String :=
  proposals.filterMap fun proposal => if proposal.1 = id then some proposal.2 else none

/-- Takes one proposal after the other. -/
def proposeNames (symbols : Symbols) (proposals : List (ExternalId × String)) : Symbols :=
  proposals.foldl (fun symbols proposal => symbols.proposeName proposal.1 proposal.2) symbols

/-- A module is added without a hint. -/
theorem unnamed_addExternal (name : String) :
    ((symbols.addExternal name).2.externalAt (symbols.addExternal name).1).Unnamed := by
  rw [externalAt_addExternal, if_pos (by rw [addExternal])]
  exact ⟨fun _ => Std.TreeMap.getD_emptyc, rfl, rfl⟩

theorem externals_proposeName (other : ExternalId) (hint : String) :
    (symbols.proposeName other hint).externals.size = symbols.externals.size := by
  simp [proposeName, modifyExternal]

/-- A proposal is counted by the module that it is for, and by no other. -/
theorem tallies_proposeName {hints : List String} (inside : id.index < symbols.externals.size)
    (tallies : (symbols.externalAt id).Tallies hints) (proposal : ExternalId × String) :
    ((symbols.proposeName proposal.1 proposal.2).externalAt id).Tallies
      (hints ++ hintsFor id [proposal]) := by
  obtain ⟨other, hint⟩ := proposal
  rw [proposeName, externalAt_modifyExternal]
  by_cases same : other = id
  · subst same
    simpa [hintsFor, inside] using tallies.propose hint
  · simpa [hintsFor, same, Ne.symm same] using tallies

/-- However the proposals for several modules alternate, each module keeps the outcome of its own. -/
theorem tallies_proposeNames {hints : List String} (inside : id.index < symbols.externals.size)
    (tallies : (symbols.externalAt id).Tallies hints) (proposals : List (ExternalId × String)) :
    ((symbols.proposeNames proposals).externalAt id).Tallies (hints ++ hintsFor id proposals) := by
  induction proposals generalizing symbols hints with
  | nil => simpa [hintsFor, proposeNames] using tallies
  | cons proposal proposals later =>
      have kept : id.index < (symbols.proposeName proposal.1 proposal.2).externals.size :=
        (externals_proposeName ..).symm ▸ inside
      have all := later kept (tallies_proposeName inside tallies proposal)
      rw [List.append_assoc, hintsFor, hintsFor, ← List.filterMap_append] at all
      exact all

/-- Once names have been proposed for an external module that had no hint before, and until it gets a name
    in the bundle, its name is the one that prevails among these hints, and there is just one. -/
theorem name_proposeNames (inside : id.index < symbols.externals.size)
    (unnamed : (symbols.externalAt id).Unnamed) (proposed : hintsFor id proposals ≠ [])
    (name : String) :
    ((symbols.proposeNames proposals).externalAt id).name = name ↔
      Prevails (hintsFor id proposals) name := by
  have tallies := tallies_proposeNames inside unnamed.tallies proposals
  rw [List.nil_append] at tallies
  rw [tallies.name_eq]
  obtain ⟨none, -⟩ | ⟨prevails, -⟩ := tallies.supported
  · exact absurd none proposed
  · exact ⟨fun same => same ▸ prevails, prevails.unique⟩

/-- Among the hints for the second module, `files` is the first to be there twice, and nothing is there more
    often, though `fs` is there as often and is the first of all hints. -/
theorem name_proposeNames_files :
    let modules := ((({} : Symbols).addExternal "node:path").2.addExternal "node:fs").2
    let proposals : List (ExternalId × String) :=
      [(⟨1⟩, "fs"), (⟨0⟩, "fs"), (⟨1⟩, "files"), (⟨0⟩, "fs"), (⟨1⟩, "files"), (⟨1⟩, "fs")]
    hintsFor ⟨1⟩ proposals ≠ [] ∧
      ((modules.proposeNames proposals).externalAt ⟨1⟩).name = "files" ∧
      Prevails (hintsFor ⟨1⟩ proposals) "files" := by
  intro modules proposals
  have unnamed : (modules.externalAt ⟨1⟩).Unnamed := unnamed_addExternal "node:fs"
  have proposed : hintsFor ⟨1⟩ proposals ≠ [] := by decide
  have named : ((modules.proposeNames proposals).externalAt ⟨1⟩).name = "files" := by decide
  exact ⟨proposed, named, (name_proposeNames (by decide) unnamed proposed "files").mp named⟩

end Symbols

end Bundler
