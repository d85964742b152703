import Bundler.Proofs.Graph.Lasting

/-! # Plain programs

Before it is named, a program has no names in the output, and the table of globals gives for every name a
declaration of that name.  Linking and resolving keep it so.
-/

namespace Bundler

namespace Symbols

variable {symbols after : Symbols}

/-- No declaration has a name in the output, and globals are listed under their names. -/
structure Plain (symbols : Symbols) : Prop where
  unnamed : ∀ id, (symbols.declarationAt id).outputName = none
  globals : ∀ {name : String} {id}, symbols.globals[name]? = some id →
    id.index < symbols.declarations.size ∧ (symbols.declarationAt id).name = name

namespace Plain

theorem congr (plain : symbols.Plain) (declarations : after.declarations = symbols.declarations)
    (globals : after.globals = symbols.globals) : after.Plain where
  unnamed id := by
    rw [declarationAt, declarations]
    exact plain.unnamed id
  globals found := by
    rw [declarationAt, declarations]
    exact plain.globals (globals ▸ found)

theorem addDeclaration (plain : symbols.Plain) (name : String) (owner : Option Provider)
    (kind : DeclarationKind) : (symbols.addDeclaration name owner kind).2.Plain where
  unnamed id := by
    rw [declarationAt_addDeclaration]
    split
    · rfl
    · exact plain.unnamed id
  globals {key id} found := by
    obtain ⟨inside, named⟩ := plain.globals found
    refine ⟨?_, ?_⟩
    · exact Nat.lt_trans inside (Nat.lt_of_lt_of_eq (Nat.lt_succ_self _) (Array.size_push _).symm)
    · rw [declarationAt_addDeclaration, if_neg]
      · exact named
      · rintro rfl
        exact Nat.lt_irrefl _ inside

theorem externalDeclaration (plain : symbols.Plain) (source : ExternalId) (name : String) :
    (symbols.externalDeclaration source name).2.Plain := by
  rw [Symbols.externalDeclaration]
  split
  · exact plain
  · exact (plain.addDeclaration _ _ _).congr rfl rfl

theorem globalDeclaration (plain : symbols.Plain) (name : String) :
    (symbols.globalDeclaration name).2.Plain := by
  rw [Symbols.globalDeclaration]
  split
  next => exact plain
  next =>
      have added := plain.addDeclaration name none .free
      refine ⟨added.unnamed, fun {key id} found => ?_⟩
      rw [Std.TreeMap.getElem?_insert] at found
      split at found
      next here =>
          cases found
          refine ⟨Nat.lt_of_lt_of_eq (Nat.lt_succ_self _) (Array.size_push _).symm, ?_⟩
          rw [← Std.LawfulEqCmp.eq_of_compare here]
          exact congrArg Declaration.name ((declarationAt_addDeclaration _ _ _ _).trans (if_pos rfl))
      next => exact added.globals found

theorem setTarget (plain : symbols.Plain) (id target : DeclId) : (symbols.setTarget id target).Plain := by
  have same : ∀ other, ((symbols.setTarget id target).declarationAt other).outputName =
        (symbols.declarationAt other).outputName ∧
      ((symbols.setTarget id target).declarationAt other).name = (symbols.declarationAt other).name := by
    intro other
    rcases symbols.setTarget_cases id target other with same | ⟨_, _, _, -, same⟩ <;> rw [same] <;>
      exact ⟨rfl, rfl⟩
  refine ⟨fun other => (same other).1.trans (plain.unnamed other), fun found => ?_⟩
  obtain ⟨inside, named⟩ := plain.globals found
  exact ⟨Nat.lt_of_lt_of_eq inside Array.size_modify.symm, (same _).2.trans named⟩

/-- Whatever a program asks for and mentions, it stays plain. -/
theorem lasting : Lasting (fun _ => True) (fun _ => True) Plain where
  asks _ := asks_any _
  external source name _ plain := plain.externalDeclaration source name
  global _ plain := plain.globalDeclaration _
  target id target plain := plain.setTarget id target
  exports _ _ plain := plain.congr rfl rfl
  propose _ _ _ plain := plain.congr rfl rfl

end Plain

end Symbols

namespace Graph

/-- No declaration of the program has a name in the output, and globals are listed under their names. -/
def Plain (graph : Graph) : Prop := graph.symbols.Plain

end Graph

end Bundler
