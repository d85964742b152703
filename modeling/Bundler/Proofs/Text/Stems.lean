import Bundler.Proofs.Text.Identifiers

/-! # Stems of file names

The file name of a path is what stands behind its last separator, and the stem of a file name is what
stands before its first dot.  A module is called by the stem of its id wherever that can name a binding.
-/

namespace Bundler

namespace Identifier

variable {path name : List Char}

/-- The character divides a path into components. -/
def Separates (c : Char) : Prop := c = '/' ∨ c = '\\'

/-- The path ends with the name, which is a whole component of it. -/
structure EndsWith (path name : List Char) : Prop where
  undivided : ∀ c ∈ name, ¬ Separates c
  complete : path = name ∨ ∃ folder separator, Separates separator ∧ path = folder ++ separator :: name

/-- The name without its extensions.  A dot at the start of a name does not begin an extension. -/
inductive HasStem : List Char → List Char → Prop where
  | whole {name : List Char} : '.' ∉ name → HasStem name name
  | hidden {rest : List Char} : HasStem ('.' :: rest) ('.' :: rest)
  | extended {first extensions : List Char} :
    first ≠ [] → '.' ∉ first → HasStem (first ++ '.' :: extensions) first

/-- The stem of the file name that a path ends with. -/
def IsFileStem (id stem : String) : Prop := ∃ name, EndsWith id.toList name ∧ HasStem name stem.toList

/-- What is taken of a text as long as a test holds, and what the rest starts with. -/
theorem takeWhile_eq_iff {test : Char → Bool} {text taken : List Char} :
    text.takeWhile test = taken ↔ (∀ c ∈ taken, test c = true) ∧
      (text = taken ∨ ∃ c rest, test c = false ∧ text = taken ++ c :: rest) := by
  constructor
  · rintro rfl
    refine ⟨fun c member => List.mem_takeWhile_imp member, ?_⟩
    have whole : text.takeWhile test ++ text.dropWhile test = text := List.takeWhile_append_dropWhile
    cases behind : text.dropWhile test with
    | nil =>
        rw [behind, List.append_nil] at whole
        exact .inl whole.symm
    | cons c rest =>
        have stop := List.head?_dropWhile_not test text
        rw [behind] at stop whole
        exact .inr ⟨c, rest, by simpa using stop, whole.symm⟩
  · rintro ⟨all, rfl | ⟨c, rest, stop, rfl⟩⟩
    · exact List.takeWhile_eq_self_iff.mpr all
    · rw [List.takeWhile_append_of_pos all, List.takeWhile_cons_of_neg (by simp [stop]), List.append_nil]

theorem endsWith_iff : EndsWith path name ↔ lastComponent path = name := by
  have test : ∀ c, (c != '/' && c != '\\') = true ↔ ¬ Separates c := by
    intro c
    simp [Separates]
  rw [lastComponent, List.reverse_eq_iff, takeWhile_eq_iff]
  constructor
  · rintro ⟨undivided, whole⟩
    refine ⟨fun c member => (test c).mpr (undivided c (List.mem_reverse.mp member)), ?_⟩
    rcases whole with rfl | ⟨folder, separator, separates, rfl⟩
    · exact .inl rfl
    · refine .inr ⟨separator, folder.reverse, ?_, by simp⟩
      rw [← Bool.not_eq_true, test]
      exact not_not.mpr separates
  · rintro ⟨undivided, whole⟩
    refine ⟨fun c member => (test c).mp (undivided c (List.mem_reverse.mpr member)), ?_⟩
    rcases whole with same | ⟨separator, rest, separates, same⟩
    · exact .inl (List.reverse_injective same)
    · refine .inr ⟨rest.reverse, separator, ?_, ?_⟩
      · rw [← Bool.not_eq_true, test] at separates
        exact not_not.mp separates
      · apply List.reverse_injective
        simp [same]

theorem hasStem_iff {begin : List Char} : HasStem name begin ↔ stem name = begin := by
  by_cases hidden : ∃ rest, name = '.' :: rest
  · obtain ⟨rest, rfl⟩ := hidden
    rw [stem]
    constructor
    · intro has
      generalize same : '.' :: rest = name at has
      cases has with
      | whole => rfl
      | hidden => rfl
      | extended nonempty none =>
          obtain ⟨c, rest, rfl⟩ := List.exists_cons_of_ne_nil nonempty
          cases same
          exact absurd List.mem_cons_self none
    · rintro rfl
      exact .hidden
  · have shown : ∀ rest, name = '.' :: rest → False := fun rest same => hidden ⟨rest, same⟩
    rw [stem, takeWhile_eq_iff]
    · constructor
      · intro has
        cases has with
        | whole none => exact ⟨fun c member => by simpa using ne_of_mem_of_not_mem member none, .inl rfl⟩
        | hidden => exact absurd rfl (shown _)
        | @extended _ extensions _ none =>
            refine ⟨fun c member => by simpa using ne_of_mem_of_not_mem member none, .inr ?_⟩
            exact ⟨'.', extensions, rfl, rfl⟩
      · rintro ⟨all, rfl | ⟨c, extensions, dot, rfl⟩⟩
        · exact .whole fun member => absurd (all '.' member) (by decide)
        · obtain rfl : c = '.' := by simpa using dot
          refine .extended ?_ fun member => absurd (all '.' member) (by decide)
          rintro rfl
          exact shown _ rfl
    · exact shown

/-- A path has one file stem. -/
theorem isFileStem_iff {id text : String} :
    IsFileStem id text ↔ text = String.ofList (stem (lastComponent id.toList)) := by
  simp only [IsFileStem, endsWith_iff, hasStem_iff, exists_eq_left']
  constructor
  · intro same
    rw [same, String.ofList_toList]
  · rintro rfl
    rw [String.toList_ofList]

theorem sanitized_eq_self (parts : ∀ c ∈ name, isPart c = true) : sanitized name = name := by
  refine (List.map_congr_left fun c member => ?_).trans (List.map_id name)
  exact if_pos (parts c member)

/-- The name made of an id can name a binding, whatever the id is.  Every id has one file stem, and if that
    can name a binding, it is the name made of the id. -/
theorem ofModuleId_stem (id : String) :
    Legal (ofModuleId id) ∧ (∃! stem, IsFileStem id stem) ∧
      ∀ stem, IsFileStem id stem → Legal stem → ofModuleId id = stem := by
  refine ⟨legal_ofModuleId id, ⟨_, isFileStem_iff.mpr rfl, fun _ => isFileStem_iff.mp⟩, ?_⟩
  rintro text is legal
  obtain rfl := isFileStem_iff.mp is
  obtain ⟨first, rest, chars, start, parts⟩ := isPlain_iff.mp legal.1
  rw [String.toList_ofList] at chars
  have kept : sanitized (stem (lastComponent id.toList)) = stem (lastComponent id.toList) := by
    rw [chars]
    refine sanitized_eq_self fun c member => ?_
    rcases List.mem_cons.mp member with rfl | later
    · exact isPart_of_isStart start
    · exact parts c later
  rw [ofModuleId, kept]
  refine if_neg ?_
  rw [legal.2, chars]
  simp [isDigit_of_isStart start]

/-- A stem may stand behind separators of either kind, and before several extensions. -/
theorem ofModuleId_minified : ofModuleId "C:\\lib/newer.min.js" = "newer" := by
  have last : EndsWith "C:\\lib/newer.min.js".toList "newer.min.js".toList :=
    ⟨by simp [Separates], .inr ⟨"C:\\lib".toList, '/', .inl rfl, rfl⟩⟩
  have first : HasStem "newer.min.js".toList "newer".toList :=
    @HasStem.extended "newer".toList "min.js".toList (by decide) (by decide)
  have legal : Legal "newer" := by decide
  obtain ⟨-, -, keeps⟩ := ofModuleId_stem "C:\\lib/newer.min.js"
  exact keeps "newer" ⟨_, last, first⟩ legal

end Identifier

end Bundler
