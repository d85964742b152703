import Mathlib
import Bundler.Graph.OutputNames

/-! # Names that may be bound

A plain identifier that is not reserved can name a binding.  It stays one when letters, digits, `_` or `$`
are put behind it, and when `_` or `$` is among them it cannot even become reserved: no reserved word
contains these.
-/

namespace Bundler

namespace Identifier

variable {text behind : String}

/-- The text can name a binding. -/
def Legal (text : String) : Prop := isPlain text = true ∧ isReserved text = false

instance (text : String) : Decidable (Legal text) :=
  inferInstanceAs (Decidable (isPlain text = true ∧ isReserved text = false))

theorem isPart_of_isDigit {c : Char} (digit : c.isDigit = true) : isPart c = true := by
  simp [isPart, Char.isAlphanum, digit]

theorem isPart_of_isStart {c : Char} (start : isStart c = true) : isPart c = true := by
  simp only [isStart, isPart, Char.isAlphanum, Bool.or_eq_true] at start ⊢
  tauto

theorem isDigit_of_isStart {c : Char} (start : isStart c = true) : c.isDigit = false := by
  have letters : 'A'.val.toNat = 65 ∧ 'a'.val.toNat = 97 ∧ '9'.val.toNat = 57 := by decide
  rw [← Bool.not_eq_true]
  intro digit
  simp only [isStart, Char.isAlpha, Char.isUpper, Char.isLower, Char.isDigit, UInt32.le_iff_toNat_le,
    ge_iff_le, Bool.or_eq_true, Bool.and_eq_true, decide_eq_true_eq, beq_iff_eq] at start digit
  rcases start with (letter | rfl) | rfl
  · omega
  · exact absurd digit (by decide)
  · exact absurd digit (by decide)

/-- Only ASCII characters stand in plain identifiers. -/
theorem ascii_of_isPart {c : Char} (part : isPart c = true) : c.toNat < 128 := by
  simp only [isPart, Char.isAlphanum, Char.isAlpha, Char.isUpper, Char.isLower, Char.isDigit,
    UInt32.le_iff_toNat_le, ge_iff_le, Bool.or_eq_true, Bool.and_eq_true, decide_eq_true_eq,
    beq_iff_eq] at part
  have last : 'Z'.val.toNat = 90 ∧ 'z'.val.toNat = 122 ∧ '9'.val.toNat = 57 := by decide
  have same : c.val.toNat = c.toNat := rfl
  rcases part with (part | rfl) | rfl
  · omega
  · decide
  · decide

theorem isPlain_iff :
    isPlain text = true ↔
      ∃ first rest, text.toList = first :: rest ∧ isStart first = true ∧
        ∀ c ∈ rest, isPart c = true := by
  rw [isPlain]
  cases text.toList with
  | nil => simp [isPlainChars]
  | cons first rest => simp [isPlainChars, and_assoc]

theorem isPlain_append (plain : isPlain text = true) (parts : ∀ c ∈ behind.toList, isPart c = true) :
    isPlain (text ++ behind) = true := by
  obtain ⟨first, rest, chars, start, before⟩ := isPlain_iff.mp plain
  refine isPlain_iff.mpr ⟨first, rest ++ behind.toList, ?_, start, fun c member => ?_⟩
  · rw [String.toList_append, chars, List.cons_append]
  · exact (List.mem_append.mp member).elim (before c) (parts c)

theorem isPart_of_mem_toString (n : Nat) : ∀ c ∈ (toString n).toList, isPart c = true := by
  intro c member
  rw [Nat.toString_eq_ofList_toDigits, String.toList_ofList] at member
  exact isPart_of_isDigit (Nat.isDigit_of_mem_toDigits (by decide) (by decide) member)

/-- No reserved word contains `_` or `$`. -/
theorem isReserved_eq_false {c : Char} (mark : c = '_' ∨ c = '$') (member : c ∈ text.toList) :
    isReserved text = false := by
  by_contra reserved
  rw [Bool.not_eq_false, isReserved, List.contains_iff_mem] at reserved
  have letters : ∀ word ∈ reservedWords, '_' ∉ word.toList ∧ '$' ∉ word.toList := by decide
  rcases mark with rfl | rfl
  · exact (letters text reserved).1 member
  · exact (letters text reserved).2 member

/-- A numbered name can name a binding if the name is plain, reserved or not. -/
theorem legal_numbered (plain : isPlain text = true) (n : Nat) :
    Legal (text ++ "$" ++ toString n) := by
  refine ⟨isPlain_append (isPlain_append plain ?_) (isPart_of_mem_toString n),
    isReserved_eq_false (c := '$') (.inr rfl) ?_⟩
  · exact List.all_eq_true.mp (by decide)
  · simp [String.toList_append]

/-- So can the alias of a default export. -/
theorem legal_defaultAlias (plain : isPlain text = true) : Legal (Symbols.defaultAlias text) := by
  refine ⟨isPlain_append plain ?_, isReserved_eq_false (c := '_') (.inl rfl) ?_⟩
  · exact List.all_eq_true.mp (by decide)
  · simp [Symbols.defaultAlias, String.toList_append]

theorem isPart_of_mem_sanitized {name : List Char} : ∀ c ∈ sanitized name, isPart c = true := by
  intro c member
  obtain ⟨original, -, rfl⟩ := List.mem_map.mp member
  by_cases part : isPart original = true
  · rwa [if_pos part]
  · rw [if_neg part]
    decide

theorem isStart_of_isPart {c : Char} (part : isPart c = true) (letter : c.isDigit = false) :
    isStart c = true := by
  simpa [isStart, isPart, Char.isAlphanum, letter] using part

/-- A text of characters that may stand in a plain identifier is one, unless it is empty or starts with a
    digit. -/
theorem isPlain_of_isPart {chars : List Char} (parts : ∀ c ∈ chars, isPart c = true) (some : chars ≠ [])
    (letter : chars.head?.any Char.isDigit = false) : isPlain (String.ofList chars) = true := by
  obtain ⟨first, rest, rfl⟩ := List.exists_cons_of_ne_nil some
  refine isPlain_iff.mpr ⟨first, rest, String.toList_ofList, ?_, fun c later => ?_⟩
  · exact isStart_of_isPart (parts first List.mem_cons_self) letter
  · exact parts c (List.mem_cons_of_mem _ later)

/-- Whatever the id of a module is, the name that is made of it can name a binding. -/
theorem legal_ofModuleId (id : String) : Legal (ofModuleId id) := by
  have parts : ∀ c ∈ sanitized (stem (lastComponent id.toList)), isPart c = true :=
    isPart_of_mem_sanitized
  rw [ofModuleId]
  generalize sanitized (stem (lastComponent id.toList)) = chars at parts
  split
  next =>
      refine ⟨isPlain_iff.mpr ⟨'_', chars, by simp [String.toList_append], by decide, parts⟩,
        isReserved_eq_false (c := '_') (.inl rfl) (by simp [String.toList_append])⟩
  next fits =>
      simp only [Bool.or_eq_true, not_or, Bool.not_eq_true, List.isEmpty_eq_false_iff] at fits
      obtain ⟨⟨some, letter⟩, free⟩ := fits
      exact ⟨isPlain_of_isPart parts some letter, free⟩

end Identifier

end Bundler
