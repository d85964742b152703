/-!
# Paths

Module ids are usually absolute paths. `Path.canonical` gives an absolute path its one spelling: an
optional lower-case drive, then each segment after a slash, with `.` and `..` resolved. What is not
absolute (a virtual id, a bare package name) only has its backslashes turned. `Path.display` shows
a path relative to a working directory that contains it.
-/

namespace Bundler.Path

/-- Turns backslashes into slashes. -/
def forward (path : List Char) : List Char :=
  path.map fun c => if c = '\\' then '/' else c

/-- Whether a path starts with a drive: an ASCII letter and a colon. -/
def hasDrive : List Char → Bool
  | c :: ':' :: _ => c.isAlpha
  | _ => false

/-- Whether a path starts at a root or on a drive. -/
def isAbsolute (path : List Char) : Bool :=
  path.head? == some '/' || hasDrive path

/-- Removes the slashes at the start of a path. -/
def trimLeft (path : List Char) : List Char :=
  path.dropWhile (· == '/')

/-- Removes the slashes at the end of a path. -/
def trimRight (path : List Char) : List Char :=
  (path.reverse.dropWhile (· == '/')).reverse

/-- The parts of a path between its slashes; two slashes in a row have an empty part between
    them. -/
def split : List Char → List (List Char)
  | [] => [[]]
  | c :: rest =>
    if c = '/' then [] :: split rest
    else match split rest with
      | [] => [[c]]
      | part :: parts => (c :: part) :: parts

/-- Walks down the parts of a path from a directory, given as its segments from the innermost out.
    The parent of the root is the root. -/
def walk : (directory : List (List Char)) → (parts : List (List Char)) → List (List Char)
  | directory, [] => directory
  | directory, part :: parts =>
    if part = [] ∨ part = ['.'] then walk directory parts
    else if part = ['.', '.'] then walk directory.tail parts
    else walk (part :: directory) parts

/-- The segments of a path below its root, from the root down. -/
def segments (path : List Char) : List (List Char) :=
  (walk [] (split path)).reverse

/-- Takes the drive off the start of a path. The drive comes in lower case. -/
def takeDrive : List Char → List Char × List Char
  | c :: ':' :: rest => if c.isAlpha then ([c.toLower, ':'], rest) else ([], c :: ':' :: rest)
  | path => ([], path)

/-- The canonical form of a path, as characters. -/
def canonicalChars (path : List Char) : List Char :=
  let path := forward path
  if isAbsolute path then
    let (drive, rest) := takeDrive (trimLeft path)
    drive ++ '/' :: List.intercalate ['/'] (segments rest)
  else
    path

/-- Removes a directory from the front of a path. It must end where a segment of the path ends. -/
def relativeTo? (directory path : List Char) : Option (List Char) :=
  match (trimRight directory).isPrefixOf? path with
  | some ('/' :: rest) => some (trimLeft rest)
  | _ => none

/-- The canonical form of a path. -/
def canonical (path : String) : String :=
  String.ofList (canonicalChars path.toList)

/-- The path as it is shown to somebody working in `cwd`: the part below `cwd` if the path is
    inside of it, and the canonical path otherwise. -/
def display (path : String) (cwd : Option String) : String :=
  let path := canonicalChars path.toList
  match cwd with
  | some directory =>
    if isAbsolute path then
      String.ofList ((relativeTo? (canonicalChars directory.toList) path).getD path)
    else
      String.ofList path
  | none => String.ofList path

end Bundler.Path
