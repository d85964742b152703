import Mathlib.Data.List.Nodup
import Mathlib.Data.List.Perm.Subperm
import Bundler.Graph.OutputNames

/-! # Fresh names

The numbered names of one base are all different, so the names that are taken cannot be more of them
than there are names taken at all.  A fresh name is therefore never taken, and a name that is free
already stays as it is.
-/

namespace Bundler

variable {taken : List String} {base : String}

theorem numbered_injective (base : String) :
    Function.Injective fun n : Nat => base ++ "$" ++ toString n := by
  intro i j same
  have characters := congrArg String.toList same
  simp only [String.toList_append] at characters
  have digits := congrArg (fun digits => Nat.ofDigitChars 10 digits 0)
    (List.append_cancel_left characters)
  simpa [Nat.toString_eq_ofList_toDigits] using digits

/-- If the search comes back with a name that is taken, then so are all that it has tried. -/
theorem mem_of_numberedName_mem {tries n : Nat} (occupied : numberedName taken base tries n ∈ taken) :
    ∀ i ≤ tries, base ++ "$" ++ toString (n + i) ∈ taken := by
  induction tries generalizing n with
  | zero =>
      intro i le
      rw [Nat.le_zero.mp le]
      exact occupied
  | succ tries ih =>
      rw [numberedName] at occupied
      split at occupied
      next here =>
          intro i le
          cases i with
          | zero => exact List.contains_iff_mem.mp here
          | succ i =>
              rw [Nat.add_succ, ← Nat.succ_add]
              exact ih occupied i (Nat.le_of_succ_le_succ le)
      next free => exact absurd (List.contains_iff_mem.mpr occupied) free

theorem numberedName_not_mem : numberedName taken base taken.length 1 ∉ taken := by
  intro occupied
  have all := mem_of_numberedName_mem occupied
  let numbered := fun i : Nat => base ++ "$" ++ toString (1 + i)
  have distinct : ((List.range (taken.length + 1)).map numbered).Nodup :=
    List.Nodup.map (fun _ _ same => Nat.add_left_cancel (numbered_injective base same))
      List.nodup_range
  have within : (List.range (taken.length + 1)).map numbered ⊆ taken := by
    intro name member
    obtain ⟨i, small, rfl⟩ := List.mem_map.mp member
    exact all i (Nat.le_of_lt_succ (List.mem_range.mp small))
  have short := (List.subperm_of_subset distinct within).length_le
  rw [List.length_map, List.length_range] at short
  exact Nat.not_succ_le_self _ short

/-- A fresh name is not taken. -/
theorem freshName_not_mem : freshName taken base ∉ taken := by
  rw [freshName]
  split
  next => exact numberedName_not_mem
  next free => exact fun occupied => free (List.contains_iff_mem.mpr occupied)

/-- The search comes back with a name that stands behind taken ones only. -/
theorem exists_numberedName_eq (taken : List String) (base : String) (tries n : Nat) :
    ∃ i, numberedName taken base tries n = base ++ "$" ++ toString (n + i) ∧
      ∀ j < i, base ++ "$" ++ toString (n + j) ∈ taken := by
  induction tries generalizing n with
  | zero => exact ⟨0, rfl, fun j less => absurd less (Nat.not_lt_zero j)⟩
  | succ tries ih =>
      rw [numberedName]
      split
      next here =>
          obtain ⟨i, same, before⟩ := ih (n + 1)
          refine ⟨i + 1, by rw [same, Nat.add_assoc, Nat.add_comm 1], fun j less => ?_⟩
          cases j with
          | zero => exact List.contains_iff_mem.mp here
          | succ j =>
              rw [Nat.add_succ, ← Nat.succ_add]
              exact before j (Nat.lt_of_succ_lt_succ less)
      next => exact ⟨0, rfl, fun j less => absurd less (Nat.not_lt_zero j)⟩

/-- A fresh name depends only on which names are taken. -/
theorem freshName_congr {others : List String} (same : ∀ name, name ∈ others ↔ name ∈ taken) :
    freshName others base = freshName taken base := by
  have contains : others.contains base = taken.contains base :=
    Bool.eq_iff_iff.mpr (by simpa only [List.contains_iff_mem] using same base)
  rw [freshName, freshName, contains]
  split
  next =>
      obtain ⟨i, here, before⟩ := exists_numberedName_eq taken base taken.length 1
      obtain ⟨j, there, before'⟩ := exists_numberedName_eq others base others.length 1
      have free : numberedName taken base taken.length 1 ∉ taken := numberedName_not_mem
      have free' : numberedName others base others.length 1 ∉ others := numberedName_not_mem
      rw [here] at free ⊢
      rw [there] at free' ⊢
      rcases Nat.lt_trichotomy i j with less | rfl | less
      · exact absurd ((same _).mp (before' i less)) free
      · rfl
      · exact absurd ((same _).mpr (before j less)) free'
  next => rfl

theorem freshName_of_not_mem (free : base ∉ taken) : freshName taken base = base :=
  if_neg fun occupied => free (List.contains_iff_mem.mp occupied)

end Bundler
