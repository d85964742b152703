import Mathlib
import Bundler.Identifier
import Bundler.Text.Blank
import Bundler.Proofs.Decimal.Positional
import Bundler.Proofs.Text.Quoting

/-! # Tokens

A text is read from the left, each time the longest token that it goes on with, and blanks between tokens
are left out.  So there is at most one list of tokens that a text is read as.  What is written for a name, a
text or a number is read as one token, as long as nothing follows that the token would go on with.
-/

namespace Bundler.Reading

open Decimal

/-- Whether a character is blank between tokens. -/
def isSpace (c : Char) : Bool := (Text.isBlank c && c.toNat != 0x85) || c.toNat == 0xFEFF

/-- The characters that words start with and go on with.  Among ASCII characters these are given. -/
structure Alphabet where
  isStart : Char → Bool
  isPart : Char → Bool
  isStart_ascii : ∀ c, c.toNat < 128 → isStart c = Identifier.isStart c
  isPart_ascii : ∀ c, c.toNat < 128 → isPart c = Identifier.isPart c
  isPart_of_isStart : ∀ c, isStart c = true → isPart c = true
  isPart_space : ∀ c, isSpace c = true → isPart c = false

/-- A word, a text between quotes, a number, or a punctuation mark. -/
inductive Token where
  | word (name : String)
  | string (value : String)
  | numeral (value : ℚ)
  | mark (c : Char)
  deriving DecidableEq

/-- The punctuation marks. -/
def marks : List Char := ['(', ')', '[', ']', ',', '.', '=']

section Scanning

variable (alphabet : Alphabet) (greedy : Bool)

/-- Reads the point and the fraction of a number.  A reader that is greedy takes any point behind digits as
    part of the number, another one only if there is a digit behind it. -/
def takeFraction : List Char → List Char × List Char
  | '.' :: rest =>
    if greedy || rest.head?.any Char.isDigit then
      (rest.takeWhile Char.isDigit, rest.dropWhile Char.isDigit)
    else ([], '.' :: rest)
  | rest => ([], rest)

/-- Reads the sign of an exponent. -/
def takeSign : List Char → Int × List Char
  | '+' :: rest => (1, rest)
  | '-' :: rest => (-1, rest)
  | rest => (1, rest)

/-- Reads the exponent of a number. -/
def takeExponent? : List Char → Option (Int × List Char)
  | [] => some (0, [])
  | c :: rest =>
    if c = 'e' ∨ c = 'E' then
      let (sign, rest) := takeSign rest
      let digits := rest.takeWhile Char.isDigit
      if digits = [] then none
      else some (sign * Nat.ofDigitChars 10 digits 0, rest.dropWhile Char.isDigit)
    else some (0, c :: rest)

/-- Reads a number.  Neither a word nor another digit may follow at once. -/
def scanNumeral? (chars : List Char) : Option (Token × List Char) := do
  let whole := chars.takeWhile Char.isDigit
  guard (whole.length ≤ 1 || whole.head? != some '0')
  let (fraction, rest) := takeFraction greedy (chars.dropWhile Char.isDigit)
  let (exponent, rest) ← takeExponent? rest
  guard (!rest.head?.any fun c => alphabet.isStart c || c.isDigit)
  return (.numeral (decimalValue whole fraction * 10 ^ exponent), rest)

/-- Reads the longest token that a text starts with. -/
def scan? : List Char → Option (Token × List Char)
  | [] => none
  | c :: rest =>
    if alphabet.isStart c then
      some (.word (String.ofList (c :: rest.takeWhile alphabet.isPart)), rest.dropWhile alphabet.isPart)
    else if c = '"' then do
      let (value?, rest) ← Json.string? rest
      return (.string (← value?), rest)
    else if c.isDigit || (c == '.' && rest.head?.any Char.isDigit) then
      scanNumeral? alphabet greedy (c :: rest)
    else if c ∈ marks ∧ ¬ (c = '=' ∧ rest.head?.any (fun d => d == '=' || d == '>') = true) then
      some (.mark c, rest)
    else none

/-- The text is read as the tokens. -/
inductive Lexes : List Char → List Token → Prop where
  | nil : Lexes [] []
  | space {c rest tokens} : isSpace c = true → Lexes rest tokens → Lexes (c :: rest) tokens
  | token {chars token rest tokens} : scan? alphabet greedy chars = some (token, rest) → Lexes rest tokens →
    Lexes chars (token :: tokens)

end Scanning

variable {alphabet : Alphabet} {greedy : Bool} {rest : List Char}

theorem Alphabet.isStart_space {c : Char} (space : isSpace c = true) : alphabet.isStart c = false := by
  by_contra start
  rw [Bool.not_eq_false] at start
  have part := alphabet.isPart_of_isStart c start
  rw [alphabet.isPart_space c space] at part
  cases part

theorem isDigit_space {c : Char} (space : isSpace c = true) : c.isDigit = false := by
  by_contra digit
  have bounds : 48 ≤ c.toNat ∧ c.toNat ≤ 57 := by
    simpa [Char.isDigit, UInt32.le_iff_toNat_le] using digit
  simp only [isSpace, Text.isBlank, Bool.or_eq_true, Bool.and_eq_true, decide_eq_true_eq, beq_iff_eq,
    bne_iff_ne] at space
  omega

/-- No token starts with another character. -/
theorem scan?_eq_none {c : Char} (start : alphabet.isStart c = false) (digit : c.isDigit = false)
    (apart : c ∉ '"' :: marks) : scan? alphabet greedy (c :: rest) = none := by
  obtain ⟨quote, mark⟩ := not_or.mp (List.mem_cons.not.mp apart)
  have point : c ≠ '.' := by
    rintro rfl
    exact mark (by decide)
  simp [scan?, start, quote, digit, point, mark]

/-- No token starts with a blank. -/
theorem scan?_space {c : Char} (space : isSpace c = true) : scan? alphabet greedy (c :: rest) = none := by
  have other : ∀ d ∈ '"' :: marks, isSpace d = false := List.all_iff_forall_prop.mp (by decide)
  refine scan?_eq_none (alphabet.isStart_space space) (isDigit_space space) fun mem => ?_
  exact Bool.false_ne_true ((other c mem).symm.trans space)

/-- A text that starts with a blank is read as what is behind it. -/
theorem Lexes.of_space {c : Char} {tokens : List Token} (lexes : Lexes alphabet greedy (c :: rest) tokens)
    (space : isSpace c = true) : Lexes alphabet greedy rest tokens := by
  cases lexes with
  | space _ later => exact later
  | token found _ => rw [scan?_space space] at found; cases found

/-- A text that starts with a token is read as the token and what is behind it. -/
theorem Lexes.of_token {chars : List Char} {token : Token} {tokens : List Token}
    (lexes : Lexes alphabet greedy chars tokens) (first : scan? alphabet greedy chars = some (token, rest)) :
    ∃ left, tokens = token :: left ∧ Lexes alphabet greedy rest left := by
  cases lexes with
  | nil => cases first
  | space blank _ => rw [scan?_space blank] at first; cases first
  | token found later =>
      rw [first] at found
      injection found with same
      injection same with same behind
      subst same behind
      exact ⟨_, rfl, later⟩

/-- There is one way only to read a text. -/
theorem Lexes.unique {chars : List Char} {first second : List Token} (lexes : Lexes alphabet greedy chars first)
    (other : Lexes alphabet greedy chars second) : first = second := by
  induction lexes generalizing second with
  | nil =>
      cases other with
      | nil => rfl
      | token found _ => cases found
  | space blank _ ih => exact ih (other.of_space blank)
  | token found _ ih =>
      obtain ⟨left, rfl, later⟩ := other.of_token found
      rw [ih later]

/-! ## What is written is read as one token -/

/-- What may follow an expression. -/
def closers : List Char := [' ', '.', '[', ']', '(', ')', ',']

/-- The text is at its end or goes on with what may follow an expression. -/
def Stops (rest : List Char) : Prop := ∀ c ∈ rest.head?, c ∈ closers

theorem Stops.isPart (stops : Stops rest) (alphabet : Alphabet) :
    ∀ c ∈ rest.head?, alphabet.isPart c = false := by
  have none : ∀ c ∈ closers, c.toNat < 128 ∧ Identifier.isPart c = false :=
    List.all_iff_forall_prop.mp (by decide)
  intro c mem
  obtain ⟨ascii, other⟩ := none c (stops c mem)
  rw [alphabet.isPart_ascii c ascii, other]

theorem Stops.isStart (stops : Stops rest) (alphabet : Alphabet) :
    ∀ c ∈ rest.head?, alphabet.isStart c = false := by
  have none : ∀ c ∈ closers, c.toNat < 128 ∧ Identifier.isStart c = false :=
    List.all_iff_forall_prop.mp (by decide)
  intro c mem
  obtain ⟨ascii, other⟩ := none c (stops c mem)
  rw [alphabet.isStart_ascii c ascii, other]

theorem Stops.isDigit (stops : Stops rest) : ∀ c ∈ rest.head?, c.isDigit = false := by
  have none : ∀ c ∈ closers, c.isDigit = false := List.all_iff_forall_prop.mp (by decide)
  exact fun c mem => none c (stops c mem)

theorem takeWhile_append_stop {p : Char → Bool} {taken : List Char} (all : ∀ c ∈ taken, p c = true)
    (stop : ∀ c ∈ rest.head?, p c = false) :
    (taken ++ rest).takeWhile p = taken ∧ (taken ++ rest).dropWhile p = rest := by
  rw [List.takeWhile_append_of_pos all, List.dropWhile_append_of_pos all]
  cases rest with
  | nil => exact ⟨List.append_nil _, rfl⟩
  | cons c rest =>
      have here : ¬ p c = true := by
        rw [stop c rfl]
        exact Bool.false_ne_true
      rw [List.takeWhile_cons_of_neg here, List.dropWhile_cons_of_neg here]
      exact ⟨List.append_nil _, rfl⟩

/-- The name is a word of the alphabet. -/
def Alphabet.IsWord (alphabet : Alphabet) (name : String) : Prop :=
  ∃ first parts, name.toList = first :: parts ∧ alphabet.isStart first = true ∧
    ∀ c ∈ parts, alphabet.isPart c = true

theorem scan?_word {name : String} (word : alphabet.IsWord name) (stops : Stops rest) :
    scan? alphabet greedy (name.toList ++ rest) = some (.word name, rest) := by
  obtain ⟨first, parts, chars, start, all⟩ := word
  obtain ⟨taken, dropped⟩ := takeWhile_append_stop all (stops.isPart alphabet)
  rw [chars, List.cons_append, scan?, if_pos start, taken, dropped, ← chars, String.ofList_toList]

theorem isStart_quote : alphabet.isStart '"' = false := alphabet.isStart_ascii '"' (by decide)

theorem scan?_string (value : String) :
    scan? alphabet greedy ((Text.quote value).toList ++ rest) = some (.string value, rest) := by
  have chars : (Text.quote value).toList ++ rest =
      '"' :: (value.toList.flatMap Text.escape ++ '"' :: rest) := by
    rw [Text.quote, String.toList_ofList]
    simp
  rw [chars, scan?, if_neg (by rw [isStart_quote]; exact Bool.false_ne_true), if_pos rfl,
    Text.string?_quoted]
  rfl

/-- A mark is read alone, if it is neither the point of a number nor part of a longer mark. -/
theorem scan?_mark {c : Char} (mark : c ∈ marks) (point : c = '.' → rest.head?.any Char.isDigit = false)
    (longer : c = '=' → rest.head?.any (fun d => d == '=' || d == '>') = false) :
    scan? alphabet greedy (c :: rest) = some (.mark c, rest) := by
  have none : ∀ c ∈ marks, c.toNat < 128 ∧ Identifier.isStart c = false ∧ c ≠ '"' ∧ c.isDigit = false :=
    List.all_iff_forall_prop.mp (by decide)
  obtain ⟨ascii, other, quote, digit⟩ := none c mark
  have start : ¬ alphabet.isStart c = true := by
    rw [alphabet.isStart_ascii c ascii, other]
    exact Bool.false_ne_true
  have number : ¬ (c.isDigit || (c == '.' && rest.head?.any Char.isDigit)) = true := by
    rw [digit, Bool.false_or, Bool.and_eq_true, beq_iff_eq]
    rintro ⟨same, behind⟩
    exact Bool.false_ne_true ((point same).symm.trans behind)
  have single : ¬ (c = '=' ∧ rest.head?.any (fun d => d == '=' || d == '>') = true) := by
    rintro ⟨same, behind⟩
    exact Bool.false_ne_true ((longer same).symm.trans behind)
  rw [scan?, if_neg start, if_neg quote, if_neg number, if_pos ⟨mark, single⟩]

/-- A number that is written without a point can have one behind it only for a reader that leaves it there. -/
def LeavesPoint (greedy : Bool) (fraction rest : List Char) : Prop :=
  rest.head? = some '.' → fraction ≠ [] ∨ greedy = false ∧ rest.tail.head?.any Char.isDigit = false

theorem takeFraction_pointed {fraction : List Char} (digits : ∀ c ∈ fraction, c.isDigit = true)
    (stops : Stops rest) (point : LeavesPoint greedy fraction rest) :
    takeFraction greedy (pointed fraction ++ rest) = (fraction, rest) := by
  cases fraction with
  | cons c fraction =>
      obtain ⟨taken, dropped⟩ := takeWhile_append_stop digits stops.isDigit
      have first : c.isDigit = true := digits c List.mem_cons_self
      rw [List.cons_append] at taken dropped
      simp [pointed, takeFraction, first, taken, dropped]
  | nil =>
      rw [pointed, List.nil_append]
      cases rest with
      | nil => rfl
      | cons c rest =>
          by_cases dot : c = '.'
          · subst dot
            rcases point rfl with some | ⟨rfl, behind⟩
            · exact absurd rfl some
            · rw [takeFraction, if_neg]
              rw [Bool.false_or]
              exact fun digit => Bool.false_ne_true (behind.symm.trans digit)
          · rw [takeFraction]
            exact fun _ same => absurd (List.cons.inj same).1 dot

theorem takeExponent?_stops (stops : Stops rest) : takeExponent? rest = some (0, rest) := by
  cases rest with
  | nil => rfl
  | cons c rest =>
      have none : ∀ c ∈ closers, ¬ (c = 'e' ∨ c = 'E') := List.all_iff_forall_prop.mp (by decide)
      rw [takeExponent?, if_neg (none c (stops c rfl))]

theorem isDigit_pointed (fraction : List Char) (stops : Stops rest) :
    ∀ c ∈ (pointed fraction ++ rest).head?, c.isDigit = false := by
  cases fraction with
  | nil => exact stops.isDigit
  | cons c fraction =>
      intro c mem
      cases mem
      decide

theorem scanNumeral?_decimal {whole fraction : List Char} (before : IsWhole whole)
    (digits : ∀ c ∈ fraction, c.isDigit = true) (stops : Stops rest)
    (point : LeavesPoint greedy fraction rest) :
    scanNumeral? alphabet greedy (whole ++ (pointed fraction ++ rest)) =
      some (.numeral (decimalValue whole fraction), rest) := by
  obtain ⟨-, all, short⟩ := before
  obtain ⟨taken, dropped⟩ := takeWhile_append_stop all (isDigit_pointed fraction stops)
  have first : (whole.length ≤ 1 || whole.head? != some '0') = true := by
    simpa using short
  have behind : (rest.head?.any fun c => alphabet.isStart c || c.isDigit) = false := by
    cases rest with
    | nil => rfl
    | cons c rest => simp [stops.isStart alphabet c rfl, stops.isDigit c rfl]
  simp [scanNumeral?, taken, dropped, first, takeFraction_pointed digits stops point,
    takeExponent?_stops stops, behind]

theorem isStart_digit {c : Char} (digit : c.isDigit = true) : alphabet.isStart c = false := by
  have bounds : 48 ≤ c.toNat ∧ c.toNat ≤ 57 := by
    simpa [Char.isDigit, UInt32.le_iff_toNat_le] using digit
  have mark : c ≠ '_' ∧ c ≠ '$' := by
    refine ⟨?_, ?_⟩
    · rintro rfl
      exact absurd digit (by decide)
    · rintro rfl
      exact absurd digit (by decide)
  have letter : c.isAlpha = false := by
    simp only [Char.isAlpha, Char.isUpper, Char.isLower, UInt32.le_iff_toNat_le, ge_iff_le,
      Bool.or_eq_false_iff, Bool.and_eq_false_iff, decide_eq_false_iff_not]
    have upper : 'A'.val.toNat = 65 := rfl
    have lower : 'a'.val.toNat = 97 := rfl
    have same : c.val.toNat = c.toNat := rfl
    omega
  rw [alphabet.isStart_ascii c (by omega)]
  simp [Identifier.isStart, letter, mark]

/-- What starts with a digit is read as a number. -/
theorem scan?_digit {c : Char} (digit : c.isDigit = true) :
    scan? alphabet greedy (c :: rest) = scanNumeral? alphabet greedy (c :: rest) := by
  have start : ¬ alphabet.isStart c = true := by
    rw [isStart_digit digit]
    exact Bool.false_ne_true
  have quote : c ≠ '"' := by
    rintro rfl
    exact absurd digit (by decide)
  rw [scan?, if_neg start, if_neg quote, digit, Bool.true_or, if_pos rfl]

theorem scan?_numeral {whole fraction : List Char} (before : IsWhole whole)
    (digits : ∀ c ∈ fraction, c.isDigit = true) (stops : Stops rest)
    (point : LeavesPoint greedy fraction rest) :
    scan? alphabet greedy (whole ++ pointed fraction ++ rest) =
      some (.numeral (decimalValue whole fraction), rest) := by
  have read : scanNumeral? alphabet greedy _ = _ := scanNumeral?_decimal before digits stops point
  obtain ⟨some, all, -⟩ := before
  cases whole with
  | nil => exact absurd rfl some
  | cons c more =>
      rw [List.append_assoc, List.cons_append, scan?_digit (all c List.mem_cons_self)]
      exact read

end Bundler.Reading
