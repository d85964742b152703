import Mathlib
import Bundler.Path

/-! # Canonical paths

A canonical path is spelled by a drive and by segments that each name something in the directory above.
Such a spelling is read back as the same drive and segments, unless there is no drive and the first segment
starts like one: then the path is read as one on that drive.  So the canonical form of a path is final
exactly if it does not start like that, and the canonical form of the canonical form always is.
-/

namespace Bundler.Path

/-! ## Parts of a path -/

theorem split_eq_splitOn (path : List Char) : split path = path.splitOn '/' := by
  induction path with
  | nil => rfl
  | cons c rest ih =>
      rw [split, ih, List.splitOn_cons_eq_if_modifyHead]
      by_cases slash : c = '/'
      · simp [slash]
      · cases parts : rest.splitOn '/' with
        | nil => exact absurd parts (List.splitOn_ne_nil '/' rest)
        | cons part more => simp [slash]

theorem split_ne_nil (path : List Char) : split path ≠ [] := by
  rw [split_eq_splitOn]
  exact List.splitOn_ne_nil '/' path

theorem split_append (left right : List Char) :
    split (left ++ '/' :: right) = split left ++ split right := by
  simp only [split_eq_splitOn, List.splitOn_append_cons_self]

/-- The parts of a path are made of its characters, but for the slashes. -/
theorem mem_of_mem_split {path part : List Char} (member : part ∈ split path) :
    ∀ c ∈ part, c ∈ path ∧ c ≠ '/' := by
  induction path generalizing part with
  | nil => simp_all [split]
  | cons first rest ih =>
      rw [split] at member
      split at member
      next slash =>
          rcases List.mem_cons.mp member with rfl | among
          · simp
          · exact fun c inside => (ih among c inside).imp_left (List.mem_cons_of_mem _)
      next other =>
          cases parts : split rest with
          | nil => exact absurd parts (split_ne_nil rest)
          | cons head more =>
              simp only [parts] at member ih
              rcases List.mem_cons.mp member with rfl | among
              · intro c inside
                rcases List.mem_cons.mp inside with rfl | inside
                · exact ⟨List.mem_cons_self, other⟩
                · exact (ih List.mem_cons_self c inside).imp_left (List.mem_cons_of_mem _)
              · exact fun c inside => (ih (List.mem_cons_of_mem _ among) c inside).imp_left
                  (List.mem_cons_of_mem _)

/-! ## Segments -/

/-- A part of a path that names something in the directory that it is looked up in. -/
structure IsSegment (part : List Char) : Prop where
  nonempty : part ≠ []
  here : part ≠ ['.']
  parent : part ≠ ['.', '.']
  slash : '/' ∉ part
  backslash : '\\' ∉ part

/-- Walking down parts leads along segments only. -/
theorem isSegment_walk {directory parts : List (List Char)} (above : ∀ s ∈ directory, IsSegment s)
    (plain : ∀ part ∈ parts, '/' ∉ part ∧ '\\' ∉ part) : ∀ s ∈ walk directory parts, IsSegment s := by
  induction parts generalizing directory with
  | nil => exact above
  | cons part rest ih =>
      have later : ∀ part ∈ rest, '/' ∉ part ∧ '\\' ∉ part :=
        fun part member => plain part (List.mem_cons_of_mem _ member)
      rw [walk]
      split
      next => exact ih above later
      next stays =>
          push Not at stays
          split
          next => exact ih (fun s member => above s (List.mem_of_mem_tail member)) later
          next parent =>
              refine ih (fun s member => ?_) later
              rcases List.mem_cons.mp member with rfl | member
              · have plain := plain s List.mem_cons_self
                exact ⟨stays.1, stays.2, parent, plain.1, plain.2⟩
              · exact above s member

theorem walk_segments {directory parts : List (List Char)} (all : ∀ s ∈ parts, IsSegment s) :
    walk directory parts = parts.reverse ++ directory := by
  induction parts generalizing directory with
  | nil => rfl
  | cons part rest ih =>
      have segment := all part List.mem_cons_self
      have later : walk (part :: directory) rest = rest.reverse ++ part :: directory :=
        ih fun s member => all s (List.mem_cons_of_mem _ member)
      rw [walk, if_neg (by simp [segment.nonempty, segment.here]), if_neg segment.parent, later]
      simp

theorem segments_slash (path : List Char) : segments ('/' :: path) = segments path := by
  simp [segments, split, walk]

/-- Segments are read back from their text. -/
theorem segments_intercalate {parts : List (List Char)} (all : ∀ s ∈ parts, IsSegment s) :
    segments (List.intercalate ['/'] parts) = parts := by
  by_cases none : parts = []
  · subst none
    rfl
  · have read : split (List.intercalate ['/'] parts) = parts := by
      rw [split_eq_splitOn]
      exact List.splitOn_intercalate '/' (fun s member => (all s member).slash) none
    rw [segments, read, walk_segments all]
    simp

/-- Segments after one slash each. -/
theorem cons_intercalate {parts : List (List Char)} (some : parts ≠ []) :
    '/' :: List.intercalate ['/'] parts = parts.flatMap ('/' :: ·) := by
  induction parts with
  | nil => exact absurd rfl some
  | cons s rest ih =>
      cases rest with
      | nil => simp
      | cons next more =>
          rw [List.intercalate_cons_cons, List.flatMap_cons, ← ih (List.cons_ne_nil next more)]
          simp

theorem mem_intercalate {parts : List (List Char)} {c : Char}
    (member : c ∈ List.intercalate ['/'] parts) : c = '/' ∨ ∃ s ∈ parts, c ∈ s := by
  by_cases none : parts = []
  · subst none
    cases member
  · have inside := List.mem_cons_of_mem '/' member
    rw [cons_intercalate none, List.mem_flatMap] at inside
    obtain ⟨s, among, inside⟩ := inside
    exact (List.mem_cons.mp inside).imp_right fun inside => ⟨s, among, inside⟩

theorem trimLeft_slash (path : List Char) : trimLeft ('/' :: path) = trimLeft path := by
  simp [trimLeft]

/-- The text of some segments does not start with a slash. -/
theorem trimLeft_intercalate {parts : List (List Char)} (all : ∀ s ∈ parts, IsSegment s) :
    trimLeft (List.intercalate ['/'] parts) = List.intercalate ['/'] parts := by
  cases parts with
  | nil => rfl
  | cons s rest =>
      have segment := all s List.mem_cons_self
      cases s with
      | nil => exact absurd rfl segment.nonempty
      | cons c s =>
          have other : c ≠ '/' := fun slash => segment.slash (slash ▸ List.mem_cons_self)
          cases rest <;> simp [trimLeft, List.intercalate, other]

/-- The text of some segments starts with a drive if the first of them does. -/
theorem hasDrive_intercalate (parts : List (List Char)) (all : ∀ s ∈ parts, IsSegment s) :
    hasDrive (List.intercalate ['/'] parts) = parts.head?.any hasDrive := by
  cases parts with
  | nil => rfl
  | cons s rest =>
      have segment := all s List.mem_cons_self
      match s, rest with
      | [], _ => exact absurd rfl segment.nonempty
      | s, [] => simp [List.intercalate]
      | [c], _ :: _ => simp [List.intercalate, hasDrive]
      | c :: d :: s, _ :: _ =>
          by_cases colon : d = ':'
          · subst colon
            simp [List.intercalate, hasDrive]
          · simp [List.intercalate, hasDrive, colon]

/-! ## Spellings -/

/-- A drive as a canonical path has it, if it has one: a lower-case letter and a colon. -/
inductive IsDrive : List Char → Prop where
  | none : IsDrive []
  | letter {c : Char} : c.isLower = true → IsDrive [c, ':']

/-- Where a drive ends can be seen from the slash behind it. -/
theorem IsDrive.eq_of_append {drive other left right : List Char} (first : IsDrive drive)
    (second : IsDrive other) (same : drive ++ '/' :: left = other ++ '/' :: right) :
    drive = other ∧ left = right := by
  cases first with
  | none =>
      cases second with
      | none => simpa using same
      | letter lower =>
          simp only [List.nil_append, List.cons_append, List.cons.injEq] at same
          exact absurd (same.1 ▸ lower) (by decide)
  | letter lower =>
      cases second with
      | none =>
          simp only [List.nil_append, List.cons_append, List.cons.injEq] at same
          exact absurd (same.1 ▸ lower) (by decide)
      | letter => simpa using same

/-- The path is canonical, on this drive and with these segments. -/
structure Spelled (path drive : List Char) (parts : List (List Char)) : Prop where
  onDrive : IsDrive drive
  named : ∀ s ∈ parts, IsSegment s
  text : path = drive ++ '/' :: List.intercalate ['/'] parts

theorem not_mem_forward (path : List Char) : '\\' ∉ forward path := by
  intro member
  obtain ⟨c, -, turned⟩ := List.mem_map.mp member
  split at turned
  · exact absurd turned (by decide)
  next other => exact other turned

theorem forward_eq_self {path : List Char} (plain : '\\' ∉ path) : forward path = path := by
  have same : path.map (fun c => if c = '\\' then '/' else c) = path.map id :=
    List.map_congr_left fun c member => if_neg (ne_of_mem_of_not_mem member plain)
  rwa [List.map_id] at same

theorem isDrive_takeDrive (path : List Char) : IsDrive (takeDrive path).1 := by
  rw [takeDrive.eq_def]
  split
  next c rest =>
      split
      next letter => exact .letter (by rwa [Char.isLower_toLower_eq_isAlpha])
      next => exact .none
  next => exact .none

theorem takeDrive_subset (path : List Char) : (takeDrive path).2 ⊆ path := by
  rw [takeDrive.eq_def]
  split
  next c rest =>
      split
      · exact fun d member => List.mem_cons_of_mem _ (List.mem_cons_of_mem _ member)
      · exact List.Subset.refl _
  next => exact List.Subset.refl _

theorem isSegment_segments {path : List Char} (plain : '\\' ∉ path) :
    ∀ s ∈ segments path, IsSegment s := by
  intro s member
  refine isSegment_walk (by simp) (fun part among => ⟨fun slash => ?_, fun backslash => ?_⟩) s
    (List.mem_reverse.mp member)
  · exact (mem_of_mem_split among '/' slash).2 rfl
  · exact plain (mem_of_mem_split among '\\' backslash).1

/-- The canonical form of an absolute path is a spelling. -/
theorem spelled_canonicalChars {path : List Char} (absolute : isAbsolute (forward path) = true) :
    Spelled (canonicalChars path) (takeDrive (trimLeft (forward path))).1
      (segments (takeDrive (trimLeft (forward path))).2) where
  onDrive := isDrive_takeDrive _
  named := by
    refine isSegment_segments fun backslash => not_mem_forward path ?_
    exact (List.dropWhile_subset _) (takeDrive_subset _ backslash)
  text := by
    simp only [canonicalChars, absolute, if_true]

theorem canonicalChars_relative {path : List Char} (relative : isAbsolute (forward path) = false) :
    canonicalChars path = forward path := by
  simp only [canonicalChars, relative, Bool.false_eq_true, if_false]

theorem takeDrive_of_hasDrive_eq_false {path : List Char} (none : hasDrive path = false) :
    takeDrive path = ([], path) := by
  match path with
  | [] | [_] => simp [takeDrive]
  | c :: d :: rest =>
      by_cases colon : d = ':'
      · subst colon
        have other : c.isAlpha = false := none
        simp [takeDrive, other]
      · simp [takeDrive, colon]

theorem takeDrive_of_hasDrive {path : List Char} (drive : hasDrive path = true) :
    (takeDrive path).1 ≠ [] := by
  match path with
  | [] | [_] => simp [hasDrive] at drive
  | c :: d :: rest =>
      by_cases colon : d = ':'
      · subst colon
        have letter : c.isAlpha = true := drive
        simp [takeDrive, letter]
      · simp [hasDrive, colon] at drive

namespace Spelled

variable {path drive : List Char} {parts : List (List Char)}

theorem plain (spelled : Spelled path drive parts) : '\\' ∉ path := by
  rw [spelled.text]
  intro member
  rcases List.mem_append.mp member with front | rest
  · cases spelled.onDrive with
    | none => cases front
    | @letter c lower =>
        rcases List.mem_cons.mp front with rfl | front
        · exact absurd lower (by decide)
        · exact absurd front (by decide)
  · rcases List.mem_cons.mp rest with slash | rest
    · exact absurd slash (by decide)
    · rcases mem_intercalate rest with slash | ⟨s, among, inside⟩
      · exact absurd slash (by decide)
      · exact (spelled.named s among).backslash inside

theorem forward (spelled : Spelled path drive parts) : forward path = path :=
  forward_eq_self spelled.plain

theorem isAbsolute (spelled : Spelled path drive parts) : isAbsolute path = true := by
  rw [spelled.text]
  cases spelled.onDrive with
  | none => rfl
  | letter lower => simp [Path.isAbsolute, hasDrive, Char.isAlpha, lower]

/-- A path has one spelling. -/
theorem unique {drive' : List Char} {parts' : List (List Char)} (spelled : Spelled path drive parts)
    (other : Spelled path drive' parts') : drive = drive' ∧ parts = parts' := by
  obtain ⟨same, rest⟩ :=
    spelled.onDrive.eq_of_append other.onDrive (spelled.text.symm.trans other.text)
  refine ⟨same, ?_⟩
  rw [← segments_intercalate spelled.named, rest, segments_intercalate other.named]

/-- A path on a drive is final. -/
theorem canonicalChars_of_drive (spelled : Spelled path drive parts) (there : drive ≠ []) :
    canonicalChars path = path := by
  have read : takeDrive (trimLeft path) = (drive, '/' :: List.intercalate ['/'] parts) := by
    rw [spelled.text]
    cases spelled.onDrive with
    | none => exact absurd rfl there
    | @letter c lower =>
        have letter : c.isAlpha = true := by simp [Char.isAlpha, lower]
        have small : c.toLower = c :=
          Char.toLower_eq_of_not_isUpper (Char.not_isUpper_of_isLower lower)
        have other : c ≠ '/' := by
          rintro rfl
          exact absurd lower (by decide)
        simp [trimLeft, takeDrive, letter, small, other]
  simp only [canonicalChars, spelled.forward, spelled.isAbsolute, read, segments_slash,
    segments_intercalate spelled.named, if_true]
  exact spelled.text.symm

theorem trimLeft_rooted (spelled : Spelled path [] parts) :
    trimLeft path = List.intercalate ['/'] parts := by
  rw [spelled.text, List.nil_append, trimLeft_slash, trimLeft_intercalate spelled.named]

/-- A path on no drive is final if its first segment does not start like a drive. -/
theorem canonicalChars_of_rooted (spelled : Spelled path [] parts)
    (settled : parts.head?.any hasDrive = false) : canonicalChars path = path := by
  have read : takeDrive (trimLeft path) = ([], List.intercalate ['/'] parts) := by
    rw [spelled.trimLeft_rooted]
    exact takeDrive_of_hasDrive_eq_false (by rw [hasDrive_intercalate parts spelled.named, settled])
  simp only [canonicalChars, spelled.forward, spelled.isAbsolute, read,
    segments_intercalate spelled.named, if_true]
  exact spelled.text.symm

/-- If its first segment does start like a drive, then its canonical form is on that drive. -/
theorem canonicalChars_of_hidden (spelled : Spelled path [] parts)
    (hidden : parts.head?.any hasDrive = true) :
    ∃ drive parts', drive ≠ [] ∧ Spelled (canonicalChars path) drive parts' := by
  have again := spelled_canonicalChars (spelled.forward.symm ▸ spelled.isAbsolute)
  refine ⟨_, _, takeDrive_of_hasDrive ?_, again⟩
  rw [spelled.forward, spelled.trimLeft_rooted, hasDrive_intercalate parts spelled.named, hidden]

end Spelled

/-! ## Canonical forms of canonical forms -/

/-- The path is absolute and not on a drive, but the first of its segments starts like one. -/
def HidesDrive (path : List Char) : Prop :=
  isAbsolute path = true ∧ hasDrive (trimLeft path) = false ∧
    (segments (trimLeft path)).head?.any hasDrive = true
  deriving Decidable

theorem canonicalChars_canonicalChars_of_not {path : List Char} (settled : ¬ HidesDrive (forward path)) :
    canonicalChars (canonicalChars path) = canonicalChars path := by
  cases absolute : isAbsolute (forward path) with
  | false =>
      have plain := forward_eq_self (not_mem_forward path)
      rw [canonicalChars_relative absolute, canonicalChars_relative (plain.symm ▸ absolute), plain]
  | true =>
      have spelled := spelled_canonicalChars absolute
      cases drive : hasDrive (trimLeft (forward path)) with
      | true => exact spelled.canonicalChars_of_drive (takeDrive_of_hasDrive drive)
      | false =>
          rw [takeDrive_of_hasDrive_eq_false drive] at spelled
          refine spelled.canonicalChars_of_rooted (Bool.eq_false_iff.mpr fun hidden => ?_)
          exact settled ⟨absolute, drive, hidden⟩

theorem spelled_of_hidesDrive {path : List Char} (hides : HidesDrive (forward path)) :
    Spelled (canonicalChars path) [] (segments (trimLeft (forward path))) := by
  have spelled := spelled_canonicalChars hides.1
  rwa [takeDrive_of_hasDrive_eq_false hides.2.1] at spelled

theorem canonicalChars_of_hidesDrive {path : List Char} (hides : HidesDrive (forward path)) :
    ∃ drive parts, drive ≠ [] ∧ Spelled (canonicalChars (canonicalChars path)) drive parts :=
  (spelled_of_hidesDrive hides).canonicalChars_of_hidden hides.2.2

theorem canonicalChars_canonicalChars_iff (path : List Char) :
    canonicalChars (canonicalChars path) = canonicalChars path ↔ ¬ HidesDrive (forward path) := by
  refine ⟨fun final hides => ?_, canonicalChars_canonicalChars_of_not⟩
  obtain ⟨drive, parts, there, spelled⟩ := canonicalChars_of_hidesDrive hides
  rw [final] at spelled
  exact there (spelled.unique (spelled_of_hidesDrive hides)).1

theorem canonicalChars_thrice (path : List Char) :
    canonicalChars (canonicalChars (canonicalChars path)) = canonicalChars (canonicalChars path) := by
  by_cases hides : HidesDrive (forward path)
  · obtain ⟨drive, parts, there, spelled⟩ := canonicalChars_of_hidesDrive hides
    exact spelled.canonicalChars_of_drive there
  · rw [canonicalChars_canonicalChars_of_not hides, canonicalChars_canonicalChars_of_not hides]

@[simp]
theorem toList_canonical (path : String) :
    (canonical path).toList = canonicalChars path.toList := String.toList_ofList

theorem canonical_eq_iff {path other : String} :
    canonical path = canonical other ↔ canonicalChars path.toList = canonicalChars other.toList := by
  rw [← String.toList_inj, toList_canonical, toList_canonical]

theorem spelled_canonical {path : String} {drive : List Char} {parts : List (List Char)}
    (absolute : isAbsolute (forward path.toList) = true)
    (onDrive : (takeDrive (trimLeft (forward path.toList))).1 = drive)
    (named : segments (takeDrive (trimLeft (forward path.toList))).2 = parts) :
    Spelled (canonical path).toList drive parts := by
  rw [toList_canonical, ← onDrive, ← named]
  exact spelled_canonicalChars absolute

/-- The canonical form of a path is final exactly if the path does not hide a drive, and from the second
    time on it is final in any case: it is on the drive that was hidden.

    The canonical form of an absolute path has no backslash.  It is a slash between two segments each, behind
    a lower-case drive or none, and no segment is empty or leads nowhere or up. -/
theorem canonical_final_iff (path : String) :
    (canonical (canonical path) = canonical path ↔ ¬ HidesDrive (forward path.toList)) ∧
    canonical (canonical (canonical path)) = canonical (canonical path) ∧
    (HidesDrive (forward path.toList) → ∃ drive parts, drive ≠ [] ∧
      Spelled (canonical (canonical path)).toList drive parts) ∧
    (isAbsolute (forward path.toList) = true → '\\' ∉ (canonical path).toList ∧
      ∃ drive parts, Spelled (canonical path).toList drive parts) := by
  simp only [canonical_eq_iff, toList_canonical]
  refine ⟨canonicalChars_canonicalChars_iff _, canonicalChars_thrice _, canonicalChars_of_hidesDrive,
    fun absolute => ?_⟩
  have spelled := spelled_canonicalChars absolute
  exact ⟨spelled.plain, _, _, spelled⟩

/-- Once the segment before it is gone, `C:` comes to the front, and its canonical form is on that drive. -/
theorem canonical_hiding : HidesDrive (forward "/./C:/a".toList) ∧
    canonical (canonical "/./C:/a") ≠ canonical "/./C:/a" ∧
    ∃ drive parts, drive ≠ [] ∧ Spelled (canonical (canonical "/./C:/a")).toList drive parts := by
  have hides : HidesDrive (forward "/./C:/a".toList) := by decide +kernel
  obtain ⟨final, -, drive, -⟩ := canonical_final_iff "/./C:/a"
  exact ⟨hides, fun same => final.mp same hides, drive hides⟩

/-- The canonical form of this path is not the canonical form of itself. -/
theorem canonical_hidden : canonical "/./C:/a" = "/C:/a" ∧ canonical "/C:/a" = "c:/a" ∧
    canonical (canonical "/./C:/a") ≠ canonical "/./C:/a" := by
  decide +kernel

end Bundler.Path
