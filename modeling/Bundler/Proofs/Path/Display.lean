import Mathlib
import Bundler.Proofs.Path.Canonical

/-! # Paths relative to a directory

A path is shown relative to a directory by taking the text of the directory off its front.  Between canonical
paths this is the same as taking off segments, since the text that is left has to start with a slash.  Two
directories are taken off that contain nothing: a root is taken off itself, and the empty path is taken off
every path that is not on a drive.
-/

namespace Bundler.Path

variable {path directory drive : List Char} {parts base : List (List Char)}

/-! ## The end of a directory -/

theorem trimRight_append_slash (path : List Char) : trimRight (path ++ ['/']) = trimRight path := by
  simp [trimRight]

theorem trimRight_concat {last : Char} (other : last ≠ '/') (path : List Char) :
    trimRight (path ++ [last]) = path ++ [last] := by
  simp [trimRight, other]

theorem trimRight_prefix (path : List Char) : trimRight path <+: path := by
  rw [trimRight, ← List.reverse_suffix, List.reverse_reverse]
  exact List.dropWhile_suffix _

theorem IsDrive.trimRight (isDrive : IsDrive drive) : trimRight drive = drive := by
  cases isDrive with
  | none => rfl
  | @letter c _ => exact trimRight_concat (by decide) [c]

/-- Without the slashes at its end, a canonical path has one slash before each segment. -/
theorem Spelled.trimRight (spelled : Spelled path drive parts) :
    trimRight path = drive ++ parts.flatMap ('/' :: ·) := by
  rw [spelled.text]
  rcases List.eq_nil_or_concat parts with rfl | ⟨front, s, rfl⟩
  · simpa using (trimRight_append_slash drive).trans spelled.onDrive.trimRight
  · have segment := spelled.named s (by simp)
    rcases List.eq_nil_or_concat s with rfl | ⟨text, last, rfl⟩
    · exact absurd rfl segment.nonempty
    · have other : last ≠ '/' := fun slash => segment.slash (by simp [slash])
      rw [cons_intercalate (by simp)]
      have ends := trimRight_concat other (drive ++ (front.flatMap ('/' :: ·) ++ '/' :: text))
      simpa using ends

/-! ## Taking off a directory -/

theorem relativeTo?_eq_some_iff {shown : List Char} : relativeTo? directory path = some shown ↔
    ∃ rest, path = trimRight directory ++ '/' :: rest ∧ shown = trimLeft rest := by
  rw [relativeTo?]
  constructor
  · intro found
    split at found
    next rest front =>
        exact ⟨rest, (List.append_eq_of_isPrefixOf?_eq_some front).symm, (Option.some.inj found).symm⟩
    next => cases found
  · rintro ⟨rest, rfl, rfl⟩
    rw [List.isPrefixOf?_eq_some_iff_append_eq.mpr rfl]
    rfl

/-- A directory is taken off what lies in it. -/
theorem Spelled.relativeTo?_below (above : Spelled directory drive base)
    (spelled : Spelled path drive (base ++ parts)) (some : parts ≠ []) :
    relativeTo? directory path = .some (List.intercalate ['/'] parts) := by
  have named : ∀ s ∈ parts, IsSegment s := fun s member =>
    spelled.named s (List.mem_append_right _ member)
  refine relativeTo?_eq_some_iff.mpr ⟨List.intercalate ['/'] parts, ?_, (trimLeft_intercalate named).symm⟩
  rw [spelled.text, above.trimRight, cons_intercalate (by simp [some]), cons_intercalate some,
    List.flatMap_append, List.append_assoc]

/-- A root is taken off itself. -/
theorem Spelled.relativeTo?_root (root : Spelled directory drive []) (same : Spelled path drive []) :
    relativeTo? directory path = some [] := by
  refine relativeTo?_eq_some_iff.mpr ⟨[], ?_, rfl⟩
  rw [same.text, root.trimRight]
  simp

/-- The empty path is taken off a path that is not on a drive. -/
theorem Spelled.relativeTo?_nil (spelled : Spelled path [] parts) :
    relativeTo? [] path = some (List.intercalate ['/'] parts) :=
  relativeTo?_eq_some_iff.mpr
    ⟨List.intercalate ['/'] parts, spelled.text, (trimLeft_intercalate spelled.named).symm⟩

theorem Spelled.relativeTo?_nil_of_drive (spelled : Spelled path drive parts) (there : drive ≠ []) :
    relativeTo? [] path = none := by
  refine Option.eq_none_iff_forall_ne_some.mpr fun shown found => ?_
  obtain ⟨rest, text, -⟩ := relativeTo?_eq_some_iff.mp found
  exact there (spelled.onDrive.eq_of_append .none (spelled.text.symm.trans text)).1

theorem split_flatMap (named : ∀ s ∈ base, IsSegment s) :
    split (base.flatMap ('/' :: ·)) = [] :: base := by
  by_cases none : base = []
  · subst none
    rfl
  · rw [← cons_intercalate none, split, if_pos rfl, split_eq_splitOn,
      List.splitOn_intercalate '/' (fun s member => (named s member).slash) none]

/-- Whatever an absolute directory is taken off lies in it, or is the same root. -/
theorem Spelled.of_relativeTo? {drive' shown : List Char} (above : Spelled directory drive' base)
    (spelled : Spelled path drive parts) (found : relativeTo? directory path = some shown) :
    drive' = drive ∧ ((∃ rest, rest ≠ [] ∧ parts = base ++ rest) ∨ base = [] ∧ parts = []) := by
  obtain ⟨rest, text, -⟩ := relativeTo?_eq_some_iff.mp found
  have slash : ∃ more, base.flatMap ('/' :: ·) ++ '/' :: rest = '/' :: more := by
    cases base with
    | nil => exact ⟨rest, rfl⟩
    | cons s later => exact ⟨_, rfl⟩
  obtain ⟨more, starts⟩ := slash
  rw [above.trimRight, List.append_assoc, starts, spelled.text] at text
  obtain ⟨same, rfl⟩ := spelled.onDrive.eq_of_append above.onDrive text
  refine ⟨same.symm, ?_⟩
  -- Both sides are cut at their slashes.
  have cut := congrArg split starts
  rw [split_append, split_flatMap above.named, split, if_pos rfl, List.cons_append, List.cons.injEq] at cut
  have cut := cut.2
  by_cases none : parts = []
  · subst none
    refine .inr ⟨?_, rfl⟩
    cases base with
    | nil => rfl
    | cons s later => simp [split, split_ne_nil] at cut
  · refine .inl ⟨split rest, split_ne_nil rest, ?_⟩
    rw [cut, split_eq_splitOn,
      List.splitOn_intercalate '/' (fun s member => (spelled.named s member).slash) none]

/-- A relative directory is taken off nothing, unless it is empty. -/
theorem Spelled.relativeTo?_relative (spelled : Spelled path drive parts)
    (relative : Path.isAbsolute directory = false) (some : directory ≠ []) :
    relativeTo? directory path = none := by
  refine Option.eq_none_iff_forall_ne_some.mpr fun shown found => ?_
  obtain ⟨rest, text, -⟩ := relativeTo?_eq_some_iff.mp found
  obtain ⟨ending, whole⟩ := trimRight_prefix directory
  rw [spelled.text] at text
  cases front : Path.trimRight directory with
  | nil =>
      -- Nothing but slashes: such a directory is absolute.
      have slashes : ∀ c ∈ directory, c = '/' := by simpa [Path.trimRight] using front
      cases directory with
      | nil => exact absurd rfl some
      | cons c more =>
          rw [slashes c List.mem_cons_self] at relative
          cases relative
  | cons c more =>
      rw [front] at text whole
      rw [← whole] at relative
      cases spelled.onDrive with
      | none =>
          simp only [List.nil_append, List.cons_append, List.cons.injEq] at text
          rw [← text.1] at relative
          cases relative
      | letter lower =>
          simp only [List.cons_append, List.nil_append, List.cons.injEq] at text
          obtain ⟨rfl, text⟩ := text
          cases more with
          | nil =>
              simp only [List.nil_append, List.cons.injEq] at text
              exact absurd text.1 (by decide)
          | cons colon more =>
              simp only [List.cons_append, List.cons.injEq] at text
              simp [← text.1, Path.isAbsolute, hasDrive, Char.isAlpha, lower] at relative

/-! ## Showing a path -/

/-- The path is on the same drive as the directory, and these are its segments below the directory. -/
def Below (directory path : List Char) (rest : List (List Char)) : Prop :=
  rest ≠ [] ∧ ∃ drive base, Spelled directory drive base ∧ Spelled path drive (base ++ rest)

/-- The path and the directory are the same root or the same drive. -/
def SameRoot (directory path : List Char) : Prop :=
  ∃ drive, Spelled directory drive [] ∧ Spelled path drive []

theorem isAbsolute_canonicalChars (path : List Char) :
    isAbsolute (canonicalChars path) = isAbsolute (forward path) := by
  cases absolute : isAbsolute (forward path) with
  | false => rw [canonicalChars_relative absolute, absolute]
  | true => exact (spelled_canonicalChars absolute).isAbsolute

/-- A canonical path is spelled by a drive and segments, or is relative. -/
theorem spelled_or_relative (path : List Char) :
    (∃ drive parts, Spelled (canonicalChars path) drive parts) ∨
      isAbsolute (canonicalChars path) = false := by
  rw [isAbsolute_canonicalChars]
  cases absolute : isAbsolute (forward path) with
  | false => exact .inr rfl
  | true => exact .inl ⟨_, _, spelled_canonicalChars absolute⟩

theorem relativeTo?_canonicalChars {directory : List Char} (spelled : Spelled path drive parts)
    (outside : ∀ rest, ¬ Below (canonicalChars directory) path rest)
    (apart : ¬ SameRoot (canonicalChars directory) path)
    (some : canonicalChars directory ≠ []) : relativeTo? (canonicalChars directory) path = none := by
  rcases spelled_or_relative directory with ⟨drive', base, above⟩ | relative
  · refine Option.eq_none_iff_forall_ne_some.mpr fun shown found => ?_
    obtain ⟨rfl, ⟨rest, some, rfl⟩ | ⟨rfl, rfl⟩⟩ := above.of_relativeTo? spelled found
    · exact outside rest ⟨some, drive', base, above, spelled⟩
    · exact apart ⟨drive', above, spelled⟩
  · exact spelled.relativeTo?_relative relative some

theorem toList_display_some {path directory : String} {drive : List Char} {parts : List (List Char)}
    (spelled : Spelled (canonical path).toList drive parts) :
    (display path (some directory)).toList =
      (relativeTo? (canonical directory).toList (canonical path).toList).getD (canonical path).toList := by
  have absolute := spelled.isAbsolute
  rw [toList_canonical] at absolute ⊢
  simp only [display, absolute, if_true, String.toList_ofList, toList_canonical]

theorem display_eq_canonical {path directory : String}
    (kept : ∀ drive parts, Spelled (canonical path).toList drive parts →
      relativeTo? (canonical directory).toList (canonical path).toList = none) :
    display path (some directory) = canonical path := by
  rcases spelled_or_relative path.toList with ⟨drive, parts, spelled⟩ | relative
  · rw [← toList_canonical] at spelled
    rw [← String.toList_inj, toList_display_some spelled, kept drive parts spelled, Option.getD_none]
  · simp only [display, relative, Bool.false_eq_true, if_false]
    rfl

theorem canonicalChars_eq_nil_iff {path : List Char} : canonicalChars path = [] ↔ path = [] := by
  refine ⟨fun none => ?_, fun none => by rw [none]; rfl⟩
  cases absolute : isAbsolute (forward path) with
  | false =>
      rw [canonicalChars_relative absolute] at none
      exact List.map_eq_nil_iff.mp none
  | true =>
      have rooted := (spelled_canonicalChars absolute).isAbsolute
      rw [none] at rooted
      cases rooted

/-- A path below the working directory is shown by its segments below it.  It is shown in canonical form if it
    is not below the directory, except in two cases: if the path is the directory and both are a root or a
    drive, then nothing is shown; and if the directory is empty, then the path is shown without the slash at
    its front. -/
theorem display_relative (path : String) (cwd : Option String) :
    (∀ directory ∈ cwd, ∀ rest, Below (canonical directory).toList (canonical path).toList rest →
      (display path cwd).toList = List.intercalate ['/'] rest) ∧
    (∀ directory ∈ cwd, SameRoot (canonical directory).toList (canonical path).toList →
      display path cwd = "") ∧
    ("" ∈ cwd → ∀ parts, Spelled (canonical path).toList [] parts →
      (display path cwd).toList = List.intercalate ['/'] parts) ∧
    ((∀ directory ∈ cwd, (∀ rest, ¬ Below (canonical directory).toList (canonical path).toList rest) ∧
        ¬ SameRoot (canonical directory).toList (canonical path).toList ∧
        (directory = "" → ∀ parts, ¬ Spelled (canonical path).toList [] parts)) →
      display path cwd = canonical path) := by
  refine ⟨?_, ?_, ?_, fun outside => ?_⟩
  · rintro directory rfl rest ⟨some, drive, base, above, spelled⟩
    rw [toList_display_some spelled, above.relativeTo?_below spelled some, Option.getD_some]
  · rintro directory rfl ⟨drive, root, same⟩
    rw [← String.toList_inj, toList_display_some same, root.relativeTo?_root same]
    rfl
  · rintro rfl parts spelled
    rw [toList_display_some spelled]
    have nothing : (canonical "").toList = [] := rfl
    rw [nothing, spelled.relativeTo?_nil, Option.getD_some]
  · cases cwd with
    | none => rfl
    | some directory =>
        obtain ⟨outside, apart, unlessEmpty⟩ := outside directory rfl
        refine display_eq_canonical fun drive parts spelled => ?_
        simp only [toList_canonical] at outside apart spelled ⊢
        by_cases empty : directory = ""
        · subst empty
          refine spelled.relativeTo?_nil_of_drive fun rooted => ?_
          exact unlessEmpty rfl parts (by rwa [toList_canonical, ← rooted])
        · refine relativeTo?_canonicalChars spelled outside apart fun none => empty ?_
          exact String.toList_eq_nil_iff.mp (canonicalChars_eq_nil_iff.mp none)

/-- A file is shown by its two segments below the directory, which is given with a slash at its end; nothing is
    shown of a drive under itself, and all segments of a file under the empty directory.  A file in a directory
    whose name only starts like that of the working directory is shown in canonical form. -/
theorem display_below :
    (Below (canonical "/proj/").toList (canonical "/proj/src/./b.js").toList ["src".toList, "b.js".toList] ∧
      (display "/proj/src/./b.js" (some "/proj/")).toList =
        List.intercalate ['/'] ["src".toList, "b.js".toList]) ∧
    (SameRoot (canonical "C:").toList (canonical "c:/").toList ∧ display "c:/" (some "C:") = "") ∧
    (display "/proj/b.js" (some "")).toList = List.intercalate ['/'] ["proj".toList, "b.js".toList] ∧
    (∀ rest, ¬ Below (canonical "/proj").toList (canonical "/project/./b.js").toList rest) ∧
      display "/project/./b.js" (some "/proj") = canonical "/project/./b.js" := by
  have directory : Spelled (canonical "/proj").toList [] ["proj".toList] := by
    refine spelled_canonical ?_ ?_ ?_ <;> decide +kernel
  have elsewhere : Spelled (canonical "/project/./b.js").toList [] ["project".toList, "b.js".toList] := by
    refine spelled_canonical ?_ ?_ ?_ <;> decide +kernel
  have outside : ∀ rest, ¬ Below (canonical "/proj").toList (canonical "/project/./b.js").toList rest := by
    rintro rest ⟨-, drive, base, above, spelled⟩
    obtain ⟨-, rfl⟩ := directory.unique above
    obtain ⟨-, same⟩ := elsewhere.unique spelled
    exact absurd (List.cons.inj same).1 (by decide)
  refine ⟨?below, ?root, ?empty, outside, ?outside⟩
  case below =>
    have above : Spelled (canonical "/proj/").toList [] ["proj".toList] := by
      refine spelled_canonical ?_ ?_ ?_ <;> decide +kernel
    have spelled : Spelled (canonical "/proj/src/./b.js").toList []
        (["proj".toList] ++ ["src".toList, "b.js".toList]) := by
      refine spelled_canonical ?_ ?_ ?_ <;> decide +kernel
    have below : Below (canonical "/proj/").toList (canonical "/proj/src/./b.js").toList
        ["src".toList, "b.js".toList] := ⟨List.cons_ne_nil _ _, [], _, above, spelled⟩
    exact ⟨below, (display_relative _ _).1 _ rfl _ below⟩
  case root =>
    have drive : Spelled (canonical "C:").toList "c:".toList [] := by
      refine spelled_canonical ?_ ?_ ?_ <;> decide +kernel
    have same : Spelled (canonical "c:/").toList "c:".toList [] := by
      refine spelled_canonical ?_ ?_ ?_ <;> decide +kernel
    have root : SameRoot (canonical "C:").toList (canonical "c:/").toList := ⟨_, drive, same⟩
    exact ⟨root, (display_relative _ _).2.1 _ rfl root⟩
  case empty =>
    refine (display_relative _ _).2.2.1 rfl _ (spelled_canonical ?_ ?_ ?_) <;> decide +kernel
  case outside =>
    refine (display_relative _ _).2.2.2 fun other given => ?_
    obtain rfl : "/proj" = other := Option.some.inj given
    refine ⟨outside, ?_, fun none => absurd none (by decide)⟩
    rintro ⟨drive, -, root⟩
    obtain ⟨-, none⟩ := elsewhere.unique root
    cases none

/-- The empty directory takes the slash off a path that it does not contain, and the root leaves nothing of
    itself. -/
theorem display_outside : display "/proj/src/b.js" (some "") = "proj/src/b.js" ∧
    canonical "/proj/src/b.js" = "/proj/src/b.js" ∧
    display "/" (some "/") = "" ∧ canonical "/" = "/" := by
  decide +kernel

end Bundler.Path
