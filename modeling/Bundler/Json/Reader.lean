import Bundler.Json.Value

/-!
# Reading JSON

`Value.ofText?` reads a text that is one JSON value and nothing else but white space around it. It
follows the grammar to the letter: no comments, no commas after the last item, no leading zeros and
no raw control characters in strings. Every function takes the characters still to be read and
gives back those that it has left.
-/

namespace Bundler.Json

/-- Skips the four blank characters of JSON. -/
def skipBlank (chars : List Char) : List Char :=
  chars.dropWhile fun c => c == ' ' || c == '\t' || c == '\n' || c == '\r'

/-- The value of a hexadecimal digit. -/
def hexValue? (c : Char) : Option Nat :=
  if '0' ≤ c ∧ c ≤ '9' then some (c.toNat - '0'.toNat)
  else if 'a' ≤ c ∧ c ≤ 'f' then some (c.toNat - 'a'.toNat + 10)
  else if 'A' ≤ c ∧ c ≤ 'F' then some (c.toNat - 'A'.toNat + 10)
  else none

/-- The code unit that four hexadecimal digits spell. -/
def codeUnit? (a b c d : Char) : Option Nat := do
  return (((← hexValue? a) * 16 + (← hexValue? b)) * 16 + (← hexValue? c)) * 16 + (← hexValue? d)

/-- What a backslash and a character other than `u` stand for. -/
def shortEscape? : Char → Option Char
  | '"' => some '"'
  | '\\' => some '\\'
  | '/' => some '/'
  | 'b' => some '\x08'
  | 'f' => some '\x0c'
  | 'n' => some '\n'
  | 'r' => some '\r'
  | 't' => some '\t'
  | _ => none

/-- Reads the rest of a string behind its opening quote, as numbers of characters and of single
    surrogates. -/
def stringUnits? : List Char → Option (List Nat × List Char)
  | [] => none
  | '"' :: rest => some ([], rest)
  | '\\' :: 'u' :: a :: b :: c :: d :: rest => do
    let unit ← codeUnit? a b c d
    let (units, rest) ← stringUnits? rest
    return (unit :: units, rest)
  | '\\' :: c :: rest => do
    let c ← shortEscape? c
    let (units, rest) ← stringUnits? rest
    return (c.toNat :: units, rest)
  | c :: rest => do
    guard (0x20 ≤ c.toNat)
    let (units, rest) ← stringUnits? rest
    return (c.toNat :: units, rest)

/-- Whether a number is that of a surrogate that comes first in a pair. -/
def isLead (unit : Nat) : Bool := 0xD800 ≤ unit && unit ≤ 0xDBFF

/-- Whether a number is that of a surrogate that comes second in a pair. -/
def isTrail (unit : Nat) : Bool := 0xDC00 ≤ unit && unit ≤ 0xDFFF

/-- Joins the surrogate pairs of a string. There is no text if a surrogate has no partner. -/
def joinPairs? : List Nat → Option (List Char)
  | [] => some []
  | lead :: trail :: rest =>
    if isLead lead then do
      guard (isTrail trail)
      let chars ← joinPairs? rest
      return Char.ofNat (0x10000 + (lead - 0xD800) * 0x400 + (trail - 0xDC00)) :: chars
    else do
      guard (!isTrail lead)
      let chars ← joinPairs? (trail :: rest)
      return Char.ofNat lead :: chars
  | [unit] => do
    guard (!isLead unit && !isTrail unit)
    return [Char.ofNat unit]

/-- Reads the rest of a string behind its opening quote. -/
def string? (chars : List Char) : Option (Option String × List Char) := do
  let (units, rest) ← stringUnits? chars
  return ((joinPairs? units).map String.ofList, rest)

/-- Skips one or more digits. -/
def digits? : List Char → Option (List Char)
  | c :: rest => if c.isDigit then some (rest.dropWhile Char.isDigit) else none
  | [] => none

/-- Skips the whole part of a number. It starts with a zero only if it is zero. -/
def wholePart? : List Char → Option (List Char)
  | '0' :: rest => some rest
  | rest => digits? rest

/-- Skips the fraction of a number, if there is one. -/
def fractionPart? : List Char → Option (List Char)
  | '.' :: rest => digits? rest
  | rest => some rest

/-- Skips the sign of an exponent, if there is one. -/
def skipSign : List Char → List Char
  | '+' :: rest | '-' :: rest => rest
  | rest => rest

/-- Skips the exponent of a number, if there is one. -/
def exponentPart? : List Char → Option (List Char)
  | 'e' :: rest | 'E' :: rest => digits? (skipSign rest)
  | rest => some rest

/-- Skips a number. -/
def number? (chars : List Char) : Option (List Char) := do
  let rest := match chars with
    | '-' :: rest => rest
    | rest => rest
  exponentPart? (← fractionPart? (← wholePart? rest))

/-- Skips a colon and the blanks before it. -/
def colon? (chars : List Char) : Option (List Char) :=
  match skipBlank chars with
  | ':' :: rest => some rest
  | _ => none

mutual

/-- Reads a value. The first number bounds the steps left; `Value.ofText?` gives enough of them. -/
def value? : Nat → List Char → Option (Value × List Char)
  | 0, _ => none
  | steps + 1, chars =>
    match skipBlank chars with
    | 'n' :: 'u' :: 'l' :: 'l' :: rest => some (.null, rest)
    | 't' :: 'r' :: 'u' :: 'e' :: rest => some (.bool true, rest)
    | 'f' :: 'a' :: 'l' :: 's' :: 'e' :: rest => some (.bool false, rest)
    | '"' :: rest => do
      let (text, rest) ← string? rest
      return (.string text, rest)
    | '[' :: rest =>
      match skipBlank rest with
      | ']' :: rest => some (.array [], rest)
      | rest => do
        let (items, rest) ← items? steps rest
        return (.array items, rest)
    | '{' :: rest =>
      match skipBlank rest with
      | '}' :: rest => some (.object [], rest)
      | rest => do
        let (members, rest) ← members? steps rest
        return (.object members, rest)
    | rest => do
      let rest ← number? rest
      return (.number, rest)

/-- Reads one item of an array or more, and the closing bracket. -/
def items? : Nat → List Char → Option (List Value × List Char)
  | 0, _ => none
  | steps + 1, chars => do
    let (item, rest) ← value? steps chars
    match skipBlank rest with
    | ',' :: rest =>
      let (items, rest) ← items? steps rest
      return (item :: items, rest)
    | ']' :: rest => return ([item], rest)
    | _ => none

/-- Reads one member of an object or more, and the closing brace. -/
def members? : Nat → List Char → Option (List (Option String × Value) × List Char)
  | 0, _ => none
  | steps + 1, chars =>
    match skipBlank chars with
    | '"' :: rest => do
      let (key, rest) ← string? rest
      let (value, rest) ← value? steps (← colon? rest)
      match skipBlank rest with
      | ',' :: rest =>
        let (members, rest) ← members? steps rest
        return ((key, value) :: members, rest)
      | '}' :: rest => return ([(key, value)], rest)
      | _ => none
    | _ => none

end

/-- Reads a text that is one JSON value. Two steps for each character are enough, since a value or
    an item takes at least one of them. -/
def Value.ofText? (text : String) : Option Value := do
  let chars := text.toList
  let (value, rest) ← value? (2 * chars.length + 2) chars
  guard (skipBlank rest).isEmpty
  return value

end Bundler.Json
