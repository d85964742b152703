import Mathlib.Tactic.Common
import Bundler.Patch

/-! # Where a text stands

A source spells a text at an offset if that many bytes stand before the text.  The offset and the end
of the text then lie between characters, whatever characters these are.
-/

namespace Bundler

namespace Text

theorem byteLength_toList (text : String) : byteLength text.toList = text.utf8ByteSize := by
  obtain ⟨chars, rfl⟩ := text.exists_eq_ofList
  rw [String.toList_ofList]
  induction chars with
  | nil => rfl
  | cons c rest ih =>
      rw [byteLength, ih, String.ofList_cons, String.utf8ByteSize_append, String.utf8ByteSize_singleton]

theorem dropBytes_byteLength_append (left right : List Char) :
    dropBytes (byteLength left) (left ++ right) = right := by
  have whole := takeBytes_append_dropBytes (byteLength left) (left ++ right)
  rw [takeBytes_byteLength_append, takeBytes_zero, List.append_nil] at whole
  exact List.append_cancel_left whole

theorem isBoundary_append (left right : List Char) :
    isBoundary (byteLength left) (left ++ right) = true := by
  simp [isBoundary]

end Text

/-- The text stands in the source, behind as many bytes as the offset says. -/
def Spells (source : String) (start : Nat) (text : String) : Prop :=
  ∃ before after, source = before ++ text ++ after ∧ before.utf8ByteSize = start

namespace Spells

variable {source first second text : String} {start : Nat}

theorem self (source : String) : Spells source 0 source :=
  ⟨"", "", by simp, rfl⟩

theorem left (spells : Spells source start (first ++ second)) : Spells source start first := by
  obtain ⟨before, after, rfl, size⟩ := spells
  exact ⟨before, second ++ after, by simp only [String.append_assoc], size⟩

theorem right (spells : Spells source start (first ++ second)) :
    Spells source (start + first.utf8ByteSize) second := by
  obtain ⟨before, after, rfl, rfl⟩ := spells
  exact ⟨before ++ first, after, by simp only [String.append_assoc], String.utf8ByteSize_append⟩

/-- Both ends of the text lie between characters. -/
theorem boundaries (spells : Spells source start text) :
    Text.isBoundary start source.toList = true ∧
      Text.isBoundary (start + text.utf8ByteSize) source.toList = true := by
  obtain ⟨before, after, rfl, rfl⟩ := spells
  constructor
  · rw [← Text.byteLength_toList, String.append_assoc, String.toList_append]
    exact Text.isBoundary_append _ _
  · rw [← String.utf8ByteSize_append, ← Text.byteLength_toList, String.toList_append (s := before ++ text)]
    exact Text.isBoundary_append _ _

theorem slice? {patch : Patch} (spells : Spells patch.source start text) :
    patch.slice? ⟨start, start + text.utf8ByteSize⟩ = some text := by
  obtain ⟨opens, ends⟩ := spells.boundaries
  obtain ⟨before, after, same, size⟩ := spells
  have dropped : Text.dropBytes start patch.source.toList = text.toList ++ after.toList := by
    rw [same, ← size, ← Text.byteLength_toList, String.append_assoc, String.toList_append,
      Text.dropBytes_byteLength_append, String.toList_append]
  have taken : Text.takeBytes (start + text.utf8ByteSize - start) (text.toList ++ after.toList) =
      text.toList := by
    rw [Nat.add_sub_cancel_left, ← Text.byteLength_toList, Text.takeBytes_byteLength_append,
      Text.takeBytes_zero, List.append_nil]
  rw [Patch.slice?, Text.slice?]
  simp only [Nat.le_add_right, decide_true, opens, ends, Bool.and_self, if_true, dropped, taken,
    Option.map_some, String.ofList_toList]

theorem covers {patch : Patch} (spells : Spells patch.source start text) (some_text : text ≠ "") :
    patch.covers ⟨start, start + text.utf8ByteSize⟩ = true := by
  obtain ⟨opens, ends⟩ := spells.boundaries
  have size : 0 < text.utf8ByteSize :=
    Nat.pos_of_ne_zero fun none => some_text (String.utf8ByteSize_eq_zero_iff.mp none)
  simp only [Patch.covers, opens, ends, Bool.and_true, decide_eq_true_eq]
  omega

end Spells

end Bundler
