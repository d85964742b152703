/-!
# Byte offsets into text

A text is a list of characters, while every offset of this library counts the bytes of its UTF-8
form. This module measures texts in bytes and cuts them at byte offsets. A cut never splits a
character: `takeBytes n` is the longest beginning that fits into `n` bytes, and `dropBytes n` is the
rest (`takeBytes_append_dropBytes`).
-/

namespace Bundler.Text

/-- The number of bytes that a text takes in UTF-8. -/
def byteLength : List Char → Nat
  | [] => 0
  | c :: rest => c.utf8Size + byteLength rest

/-- The longest beginning of a text that takes at most `n` bytes. -/
def takeBytes : Nat → List Char → List Char
  | _, [] => []
  | n, c :: rest => if c.utf8Size ≤ n then c :: takeBytes (n - c.utf8Size) rest else []

/-- What is left of a text after its longest beginning of at most `n` bytes. -/
def dropBytes : Nat → List Char → List Char
  | _, [] => []
  | n, c :: rest => if c.utf8Size ≤ n then dropBytes (n - c.utf8Size) rest else c :: rest

/-- Whether some beginning of the text takes exactly `n` bytes. -/
def isBoundary (n : Nat) (text : List Char) : Bool :=
  byteLength (takeBytes n text) == n

/-- The characters between two byte offsets. There are none to give when the offsets are out of
    order, lie outside the text or split a character. -/
def slice? (text : List Char) (start stop : Nat) : Option (List Char) :=
  if start ≤ stop && isBoundary start text && isBoundary stop text then
    some (takeBytes (stop - start) (dropBytes start text))
  else
    none

@[simp]
theorem byteLength_append (left right : List Char) :
    byteLength (left ++ right) = byteLength left + byteLength right := by
  induction left with
  | nil => simp [byteLength]
  | cons c rest ih => simp only [List.cons_append, byteLength, ih]; omega

/-- The two halves of a cut make up the text. -/
@[simp]
theorem takeBytes_append_dropBytes (n : Nat) (text : List Char) :
    takeBytes n text ++ dropBytes n text = text := by
  induction text generalizing n with
  | nil => rfl
  | cons c rest ih =>
    simp only [takeBytes, dropBytes]
    split
    · simp [ih]
    · rfl

/-- Cutting after a beginning's own bytes gives that beginning back. -/
@[simp]
theorem takeBytes_byteLength_append (left right : List Char) :
    takeBytes (byteLength left) (left ++ right) = left ++ takeBytes 0 right := by
  induction left with
  | nil => rfl
  | cons c rest ih =>
    simp only [List.cons_append, byteLength, takeBytes]
    rw [if_pos (Nat.le_add_right _ _), Nat.add_sub_cancel_left, ih]

@[simp]
theorem takeBytes_zero (text : List Char) : takeBytes 0 text = [] := by
  cases text with
  | nil => rfl
  | cons c rest => simp [takeBytes, Nat.pos_iff_ne_zero.mp c.utf8Size_pos]

end Bundler.Text
