/-!
# Identifiers

The names that a declaration can carry in the output, as far as this library makes them itself: one
ASCII letter, `_` or `$`, and then any number of these and of digits. `Identifier.ofModuleId` makes
such a name, and never a reserved word, out of any module id.
-/

namespace Bundler.Identifier

/-- Whether a character may stand anywhere in a plain identifier. -/
def isPart (c : Char) : Bool := c.isAlphanum || c == '_' || c == '$'

/-- Whether a character may start a plain identifier. -/
def isStart (c : Char) : Bool := c.isAlpha || c == '_' || c == '$'

/-- Whether a list of characters is a plain identifier. -/
def isPlainChars : List Char → Bool
  | [] => false
  | first :: rest => isStart first && rest.all isPart

/-- Whether a text is a plain identifier, and so can be written as a property after a dot. -/
def isPlain (text : String) : Bool := isPlainChars text.toList

/-- The keywords, and the words that strict code keeps from naming a binding. -/
def reservedWords : List String :=
  ["arguments", "await", "break", "case", "catch", "class", "const", "continue", "debugger",
   "default", "delete", "do", "else", "enum", "eval", "export", "extends", "false", "finally",
   "for", "function", "if", "implements", "import", "in", "instanceof", "interface", "let", "new",
   "null", "package", "private", "protected", "public", "return", "static", "super", "switch",
   "this", "throw", "true", "try", "typeof", "var", "void", "while", "with", "yield"]

/-- Whether a text cannot name a binding. -/
def isReserved (text : String) : Bool := reservedWords.contains text

/-- The last component of a path, which may be divided by slashes of either kind. -/
def lastComponent (path : List Char) : List Char :=
  (path.reverse.takeWhile fun c => c != '/' && c != '\\').reverse

/-- A file name without its extensions. A name that starts with a dot is kept whole. -/
def stem : List Char → List Char
  | '.' :: rest => '.' :: rest
  | name => name.takeWhile (· != '.')

/-- The characters with `_` in place of each one that no plain identifier contains. -/
def sanitized (name : List Char) : List Char :=
  name.map fun c => if isPart c then c else '_'

/-- A legal name for the module `id`: the stem of its file name, sanitized, behind `_` where it
    would be empty, start with a digit or be reserved. -/
def ofModuleId (id : String) : String :=
  let chars := sanitized (stem (lastComponent id.toList))
  let name := String.ofList chars
  if chars.isEmpty || chars.head?.any Char.isDigit || isReserved name then "_" ++ name else name

end Bundler.Identifier
