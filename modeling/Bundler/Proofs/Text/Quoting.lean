import Mathlib
import Bundler.Json.Reader
import Bundler.Text.Quoted

/-! # Quoted text reads back

What stands between the quotes is read as the text that it was made of, whatever characters that contains.
-/

namespace Bundler.Text

open Json

theorem hexValue?_hexDigit {n : Nat} (small : n < 16) : hexValue? (hexDigit n) = some n := by
  have all : ∀ n < 16, hexValue? (hexDigit n) = some n := by decide
  exact all n small

/-- Reading a character goes on with reading the rest. -/
theorem stringUnits?_short {letter c : Char} (stands : shortEscape? letter = some c) (rest : List Char) :
    stringUnits? ('\\' :: letter :: rest) =
      (stringUnits? rest).map fun read => (c.toNat :: read.1, read.2) := by
  have other : letter ≠ 'u' := by
    rintro rfl
    cases stands
  cases again : stringUnits? rest <;> simp [stringUnits?, other, stands, again]

theorem stringUnits?_control {c : Char} (control : c.toNat < 0x20) (rest : List Char) :
    stringUnits? ('\\' :: 'u' :: '0' :: '0' :: hexDigit (c.toNat / 16) :: hexDigit (c.toNat % 16) :: rest) =
      (stringUnits? rest).map fun read => (c.toNat :: read.1, read.2) := by
  have unit : codeUnit? '0' '0' (hexDigit (c.toNat / 16)) (hexDigit (c.toNat % 16)) = some c.toNat := by
    have zero : hexValue? '0' = some 0 := by decide
    rw [codeUnit?, zero, hexValue?_hexDigit (by omega), hexValue?_hexDigit (by omega)]
    simp
    omega
  cases again : stringUnits? rest <;> simp [stringUnits?, unit, again]

theorem stringUnits?_plain {c : Char} (visible : 0x20 ≤ c.toNat) (quote : c ≠ '"') (backslash : c ≠ '\\')
    (rest : List Char) :
    stringUnits? (c :: rest) = (stringUnits? rest).map fun read => (c.toNat :: read.1, read.2) := by
  rw [stringUnits?]
  · cases stringUnits? rest <;> simp [visible]
  · exact quote
  · exact fun _ _ _ _ _ escaped => absurd escaped backslash
  · exact fun _ _ escaped => absurd escaped backslash

/-- A character is read from its spelling. -/
theorem stringUnits?_escape (c : Char) (rest : List Char) :
    stringUnits? (escape c ++ rest) = (stringUnits? rest).map fun read => (c.toNat :: read.1, read.2) := by
  rw [escape]
  split_ifs with quote backslash backspace tab newline feed carriage control
  next => exact stringUnits?_short (by subst quote; rfl) rest
  next => exact stringUnits?_short (by subst backslash; rfl) rest
  next => exact stringUnits?_short (by subst backspace; rfl) rest
  next => exact stringUnits?_short (by subst tab; rfl) rest
  next => exact stringUnits?_short (by subst newline; rfl) rest
  next => exact stringUnits?_short (by subst feed; rfl) rest
  next => exact stringUnits?_short (by subst carriage; rfl) rest
  next => exact stringUnits?_control control rest
  next => exact stringUnits?_plain (by omega) quote backslash rest

theorem stringUnits?_flatMap_escape (text rest : List Char) :
    stringUnits? (text.flatMap escape ++ '"' :: rest) = some (text.map Char.toNat, rest) := by
  induction text with
  | nil => simp [stringUnits?]
  | cons c text ih =>
      rw [List.flatMap_cons, List.append_assoc, stringUnits?_escape, ih]
      rfl

/-- No character has the number of a surrogate. -/
theorem not_surrogate (c : Char) : isLead c.toNat = false ∧ isTrail c.toNat = false := by
  have valid : c.toNat < 0xD800 ∨ 0xDFFF < c.toNat ∧ c.toNat < 0x110000 := c.valid
  simp only [isLead, isTrail, Bool.and_eq_false_iff, decide_eq_false_iff_not]
  omega

theorem joinPairs?_map_toNat (text : List Char) : joinPairs? (text.map Char.toNat) = some text := by
  induction text with
  | nil => simp [joinPairs?]
  | cons c rest ih =>
      have single := not_surrogate c
      cases rest with
      | nil => simp [joinPairs?, single]
      | cons next rest =>
          rw [List.map_cons] at ih
          simp [joinPairs?, single, ih]

theorem string?_quoted (text : String) (rest : List Char) :
    string? (text.toList.flatMap escape ++ '"' :: rest) = some (some text, rest) := by
  rw [string?, stringUnits?_flatMap_escape]
  simp [joinPairs?_map_toNat]

end Bundler.Text
