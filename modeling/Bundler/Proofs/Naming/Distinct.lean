import Mathlib.Data.Set.Insert
import Bundler.Proofs.Graph.Soundness
import Bundler.Proofs.Naming.Given

/-! # Names do not collide

While names are being given, every name that has been given is taken, and none was taken at the start.
So each step, which gives a name that is not taken, keeps all names different, no matter what names the
program has left behind from an earlier time.
-/

namespace Bundler

/-- The given things have names by now, which are all different and different from the reserved
    ones. -/
structure Assigned (symbols : Symbols) (reserved : List String) (naming : Naming)
    (named : Set Nameable) : Prop where
  renames : symbols.Renames naming.symbols
  covered : reserved ⊆ naming.taken
  given : ∀ a ∈ named, ∃ name ∈ naming.taken,
    name ∉ reserved ∧ naming.symbols.nameOf? a = some name
  distinct : ∀ a ∈ named, ∀ b ∈ named,
    naming.symbols.nameOf? a = naming.symbols.nameOf? b → a = b

namespace Assigned

variable {symbols after : Symbols} {reserved : List String} {naming : Naming} {named : Set Nameable}

theorem start (symbols : Symbols) (taken : List String) : Assigned symbols taken ⟨symbols, taken⟩ ∅ :=
  ⟨.refl symbols, fun _ => id, fun _ member => member.elim, fun _ member => member.elim⟩

/-- One thing more gets a name that is not taken. -/
theorem give (assigned : Assigned symbols reserved naming named)
    (renames : naming.symbols.Renames after) {a : Nameable} {name : String}
    (free : name ∉ naming.taken)
    (names : ∀ b, after.nameOf? b = if b = a then some name else naming.symbols.nameOf? b) :
    Assigned symbols reserved ⟨after, name :: naming.taken⟩ (insert a named) where
  renames := assigned.renames.trans renames
  covered _ member := List.mem_cons_of_mem _ (assigned.covered member)
  given b member := by
    by_cases same : b = a
    · refine ⟨name, List.mem_cons_self, fun member => free (assigned.covered member), ?_⟩
      rw [names, if_pos same]
    · obtain ⟨old, taken, unreserved, given⟩ := assigned.given b (member.resolve_left same)
      exact ⟨old, List.mem_cons_of_mem _ taken, unreserved, by rw [names, if_neg same, given]⟩
  distinct b first c second equal := by
    have other : ∀ {d}, d ∈ named → naming.symbols.nameOf? d ≠ some name := by
      intro d member is
      obtain ⟨old, taken, -, given⟩ := assigned.given d member
      rw [given] at is
      cases is
      exact free taken
    rw [names, names] at equal
    by_cases here : b = a <;> by_cases there : c = a
    · rw [here, there]
    · rw [if_pos here, if_neg there] at equal
      exact absurd equal.symm (other (second.resolve_left there))
    · rw [if_neg here, if_pos there] at equal
      exact absurd equal (other (first.resolve_left here))
    · rw [if_neg here, if_neg there] at equal
      exact assigned.distinct b (first.resolve_left here) c (second.resolve_left there) equal

theorem mono (assigned : Assigned symbols reserved naming named) {fewer : Set Nameable}
    (sub : fewer ⊆ named) : Assigned symbols reserved naming fewer :=
  ⟨assigned.renames, assigned.covered, fun a member => assigned.given a (sub member),
    fun a first b second => assigned.distinct a (sub first) b (sub second)⟩

theorem reserve (assigned : Assigned symbols reserved naming named) (name : String) :
    Assigned symbols reserved (naming.reserve name) named where
  renames := assigned.renames
  covered _ member := List.mem_cons_of_mem _ (assigned.covered member)
  given a member := by
    obtain ⟨old, taken, rest⟩ := assigned.given a member
    exact ⟨old, List.mem_cons_of_mem _ taken, rest⟩
  distinct := assigned.distinct

/-- Naming some things one after the other. -/
theorem foldl {α : Type} (step : Naming → α → Naming) (gives : α → Set Nameable) (items : List α)
    (each : ∀ naming named, ∀ item ∈ items, Assigned symbols reserved naming named →
      Assigned symbols reserved (step naming item) (gives item ∪ named))
    (assigned : Assigned symbols reserved naming named) :
    Assigned symbols reserved (items.foldl step naming)
      ({a | ∃ item ∈ items, a ∈ gives item} ∪ named) := by
  induction items generalizing naming named with
  | nil => exact assigned.mono (by simp)
  | cons item rest ih =>
      have first := each naming named item List.mem_cons_self assigned
      refine (ih (fun naming named item member =>
        each naming named item (List.mem_cons_of_mem _ member)) first).mono ?_
      rintro a (⟨other, member, among⟩ | earlier)
      · rcases List.mem_cons.mp member with rfl | later
        · exact .inr (.inl among)
        · exact .inl ⟨other, later, among⟩
      · exact .inr (.inr earlier)

/-! ## The steps -/

theorem nameDeclaration (assigned : Assigned symbols reserved naming named) {id : DeclId}
    (there : symbols.Has (.declaration id)) (base : String) :
    Assigned symbols reserved (naming.nameDeclaration id base) (insert (.declaration id) named) := by
  refine assigned.give (naming.renames_nameDeclaration id base) freshName_not_mem fun b => ?_
  have still := (assigned.renames.has _).mpr there
  refine (naming.nameOf?_nameDeclaration id base b).trans ?_
  simp only [still, and_true]

/-- What naming a binding gives a name to. -/
def bindingNames (symbols : Symbols) (binding : String × DeclId) : Set Nameable :=
  {a | Symbols.isNamed binding.1 = true ∧ (symbols.declarationAt binding.2).included = true ∧
    a = .declaration binding.2}

theorem nameBinding (assigned : Assigned symbols reserved naming named) {binding : String × DeclId}
    (there : symbols.Has (.declaration binding.2)) :
    Assigned symbols reserved (naming.nameBinding binding) (bindingNames symbols binding ∪ named) := by
  rw [Naming.nameBinding, assigned.renames.included]
  split
  next =>
      refine (assigned.nameDeclaration there binding.1).mono ?_
      rintro a (⟨-, -, rfl⟩ | earlier)
      · exact .inl rfl
      · exact .inr earlier
  next other =>
      refine assigned.mono ?_
      rintro a (⟨named, included, -⟩ | earlier)
      · exact absurd (by rw [named, included]; rfl) other
      · exact earlier

/-- What naming an external module gives a name to. -/
def externalNames (format : Format) (symbols : Symbols) (id : ExternalId) : Set Nameable :=
  insert (.external id)
    {a | ∃ binding ∈ Naming.bindings format symbols id, a ∈ bindingNames symbols binding}

theorem nameModule (assigned : Assigned symbols reserved naming named) {id : ExternalId}
    (there : symbols.Has (.external id)) :
    Assigned symbols reserved (naming.nameModule id) (insert (.external id) named) := by
  refine assigned.give (naming.renames_nameModule id) freshName_not_mem fun b => ?_
  have still := (assigned.renames.has _).mpr there
  refine (naming.nameOf?_nameModule id b).trans ?_
  simp only [still, and_true]

theorem reserveAlias (assigned : Assigned symbols reserved naming named) (format : Format)
    (id : ExternalId) (name : String) :
    Assigned symbols reserved (naming.reserveAlias format id name) named := by
  rw [Naming.reserveAlias]
  split
  · exact assigned.reserve _
  · exact assigned

theorem nameExternal (assigned : Assigned symbols reserved naming named) (format : Format)
    {id : ExternalId} (there : symbols.Has (.external id))
    (bound : ∀ binding ∈ (symbols.externalAt id).declarations.toList,
      symbols.Has (.declaration binding.2)) :
    Assigned symbols reserved (naming.nameExternal format id)
      (externalNames format symbols id ∪ named) := by
  have first := assigned.nameModule there
  have same : Naming.bindings format (naming.nameModule id).symbols id =
      Naming.bindings format symbols id := by
    rw [Naming.bindings, first.renames.exported, Naming.bindings]
  rw [Naming.nameExternal_eq, same]
  refine (foldl _ (bindingNames symbols) _ (fun naming named binding member assigned => ?_)
    (first.reserveAlias format id _)).mono ?_
  · refine assigned.nameBinding (bound binding ?_)
    rw [Naming.bindings] at member
    split at member
    · exact member
    · exact absurd member List.not_mem_nil
  · rintro a ((rfl | among) | earlier)
    · exact .inr (.inl rfl)
    · exact .inl among
    · exact .inr (.inr earlier)

theorem nameExternals (assigned : Assigned symbols reserved naming named) (format : Format)
    (ids : List ExternalId) (there : ∀ id ∈ ids, symbols.Has (.external id))
    (bound : ∀ id ∈ ids, ∀ binding ∈ (symbols.externalAt id).declarations.toList,
      symbols.Has (.declaration binding.2)) :
    Assigned symbols reserved (ids.foldl (Naming.nameExternal format) naming)
      ({a | ∃ id ∈ ids, a ∈ externalNames format symbols id} ∪ named) :=
  foldl _ (externalNames format symbols) ids
    (fun _ _ id member assigned => assigned.nameExternal format (there id member) (bound id member))
    assigned

theorem nameOwns (assigned : Assigned symbols reserved naming named) (ids : List DeclId)
    (there : ∀ id ∈ ids, symbols.Has (.declaration id)) :
    Assigned symbols reserved (ids.foldl Naming.nameOwn naming)
      ({a | ∃ id ∈ ids, a = .declaration id} ∪ named) :=
  foldl Naming.nameOwn (fun id => {a | a = .declaration id}) ids
    (fun _ _ id member assigned => assigned.nameDeclaration (there id member) _) assigned

end Assigned

end Bundler
