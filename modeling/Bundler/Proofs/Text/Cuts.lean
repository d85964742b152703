import Mathlib.Order.Bounds.Basic
import Bundler.Proofs.Text.Spelling

/-! # Cuts at byte offsets

A cut at any offset is made at the last place up to it that lies between characters.  Stepping back from
the offset, one byte at a time, leads to the same place.
-/

namespace Bundler.Text

theorem isBoundary_iff_exists_append {offset : Nat} {text : List Char} :
    isBoundary offset text = true ↔ ∃ before after, text = before ++ after ∧ byteLength before = offset := by
  constructor
  · intro boundary
    exact ⟨takeBytes offset text, dropBytes offset text, (takeBytes_append_dropBytes offset text).symm,
      eq_of_beq boundary⟩
  · rintro ⟨before, after, rfl, rfl⟩
    exact isBoundary_append before after

theorem byteLength_takeBytes_le (offset : Nat) (text : List Char) :
    byteLength (takeBytes offset text) ≤ offset := by
  induction text generalizing offset with
  | nil => exact Nat.zero_le _
  | cons c rest ih =>
      rw [takeBytes]
      split
      next fits =>
          have later := ih (offset - c.utf8Size)
          rw [byteLength]
          omega
      next => exact Nat.zero_le _

theorem byteLength_takeBytes_le_self (offset : Nat) (text : List Char) :
    byteLength (takeBytes offset text) ≤ byteLength text := by
  have whole := congrArg byteLength (takeBytes_append_dropBytes offset text)
  rw [byteLength_append] at whole
  omega

/-- A cut behind a beginning of the text leaves the beginning whole. -/
theorem takeBytes_append_of_le {left : List Char} {offset : Nat} (fits : byteLength left ≤ offset)
    (right : List Char) :
    takeBytes offset (left ++ right) = left ++ takeBytes (offset - byteLength left) right := by
  induction left generalizing offset with
  | nil => rfl
  | cons c rest ih =>
      rw [byteLength] at fits
      have first : c.utf8Size ≤ offset := by omega
      have later : byteLength rest ≤ offset - c.utf8Size := by omega
      rw [List.cons_append, takeBytes, if_pos first, ih later, byteLength, Nat.sub_add_eq, List.cons_append]

/-- What a cut takes of a beginning is what it takes of the text, as far as the beginning goes. -/
theorem byteLength_takeBytes_left (offset : Nat) (left right : List Char) :
    byteLength (takeBytes offset left) =
      min (byteLength (takeBytes offset (left ++ right))) (byteLength left) := by
  induction left generalizing offset with
  | nil => simp [takeBytes, byteLength]
  | cons c rest ih =>
      simp only [List.cons_append, takeBytes]
      split
      next =>
          simp only [byteLength, ih]
          omega
      next => simp [byteLength]

/-- The cut is made at the last place between characters that is not behind the offset. -/
theorem isGreatest_takeBytes (offset : Nat) (text : List Char) :
    IsGreatest {place | isBoundary place text = true ∧ place ≤ min offset (byteLength text)}
      (byteLength (takeBytes offset text)) := by
  constructor
  · refine ⟨isBoundary_iff_exists_append.mpr ⟨_, _, (takeBytes_append_dropBytes offset text).symm, rfl⟩, ?_⟩
    exact Nat.le_min.mpr ⟨byteLength_takeBytes_le offset text, byteLength_takeBytes_le_self offset text⟩
  · rintro place ⟨boundary, bound⟩
    obtain ⟨before, after, rfl, rfl⟩ := isBoundary_iff_exists_append.mp boundary
    rw [takeBytes_append_of_le (bound.trans (Nat.min_le_left ..)), byteLength_append]
    exact Nat.le_add_right _ _

/-- The first place between characters that is met on the way back from the offset. -/
def stepBack (text : List Char) : (offset : Nat) → Nat
  | 0 => 0
  | offset + 1 => if isBoundary (offset + 1) text then offset + 1 else stepBack text offset

/-- The offset, moved into the text and then back to where a character starts. -/
def floor (text : List Char) (offset : Nat) : Nat := stepBack text (min offset (byteLength text))

theorem isBoundary_zero (text : List Char) : isBoundary 0 text = true :=
  isBoundary_iff_exists_append.mpr ⟨[], text, rfl, rfl⟩

theorem isGreatest_stepBack (text : List Char) (offset : Nat) :
    IsGreatest {place | isBoundary place text = true ∧ place ≤ offset} (stepBack text offset) := by
  induction offset with
  | zero => exact ⟨⟨isBoundary_zero text, Nat.le_refl 0⟩, fun _ inside => inside.2⟩
  | succ offset ih =>
      rw [stepBack]
      split
      next boundary => exact ⟨⟨boundary, Nat.le_refl _⟩, fun _ inside => inside.2⟩
      next split =>
          refine ⟨⟨ih.1.1, Nat.le_succ_of_le ih.1.2⟩, ?_⟩
          rintro place ⟨boundary, bound⟩
          have other : place ≠ offset + 1 := by
            rintro rfl
            exact split boundary
          exact ih.2 ⟨boundary, by omega⟩

theorem floor_eq (text : List Char) (offset : Nat) : floor text offset = byteLength (takeBytes offset text) :=
  (isGreatest_stepBack text _).unique (isGreatest_takeBytes offset text)

/-- What stands in the middle of a text can be cut out of it. -/
theorem slice?_append (before middle after : List Char) :
    slice? (before ++ middle ++ after) (byteLength before) (byteLength (before ++ middle)) = some middle := by
  have opens : isBoundary (byteLength before) (before ++ middle ++ after) = true :=
    isBoundary_iff_exists_append.mpr ⟨before, middle ++ after, by rw [List.append_assoc], rfl⟩
  have closes : isBoundary (byteLength (before ++ middle)) (before ++ middle ++ after) = true :=
    isBoundary_append (before ++ middle) after
  have ordered : byteLength before ≤ byteLength (before ++ middle) := by
    rw [byteLength_append]
    exact Nat.le_add_right _ _
  have dropped : dropBytes (byteLength before) (before ++ middle ++ after) = middle ++ after := by
    rw [List.append_assoc, dropBytes_byteLength_append]
  rw [slice?]
  simp only [ordered, decide_true, opens, closes, Bool.and_self, if_true, dropped]
  rw [byteLength_append, Nat.add_sub_cancel_left, takeBytes_byteLength_append, takeBytes_zero,
    List.append_nil]

end Bundler.Text
