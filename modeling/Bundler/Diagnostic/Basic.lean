import Std.Data.TreeMap
import Bundler.Range

/-!
# Diagnostics

A message about a place in a file, with further labelled places, notes, a link to read more, and
named fields for programs that read the diagnostic.
-/

namespace Bundler

/-- How bad the thing is that a diagnostic reports. -/
inductive Severity where
  | error
  | warning
  | note
  deriving Repr, DecidableEq, Inhabited

/-- The word for a severity. -/
def Severity.name : Severity → String
  | .error => "error"
  | .warning => "warning"
  | .note => "note"

/-- A file of the program, by its number. -/
structure FileId where
  index : Nat
  deriving Repr, DecidableEq, Inhabited

/-- A range of bytes in a file. -/
structure Span where
  file : FileId
  range : Range
  deriving Repr, DecidableEq, Inhabited

/-- A further place, with what there is to say about it. -/
structure PlaceLabel where
  span : Span
  message : String
  deriving Repr, DecidableEq, Inhabited

/-- A message about a place in a file. -/
structure Diagnostic where
  severity : Severity
  code : String
  message : String
  primary : Span
  url : Option String := none
  labels : List PlaceLabel := []
  notes : List String := []
  fields : Std.TreeMap String String := {}

namespace Diagnostic

/-- Adds a place after those there are. -/
def withLabel (diagnostic : Diagnostic) (label : PlaceLabel) : Diagnostic :=
  { diagnostic with labels := diagnostic.labels ++ [label] }

/-- Adds a note after those there are. -/
def withNote (diagnostic : Diagnostic) (note : String) : Diagnostic :=
  { diagnostic with notes := diagnostic.notes ++ [note] }

/-- Sets the link, in place of an earlier one. -/
def withUrl (diagnostic : Diagnostic) (url : String) : Diagnostic :=
  { diagnostic with url := some url }

/-- Sets a field, in place of an earlier value of it. -/
def withField (diagnostic : Diagnostic) (key value : String) : Diagnostic :=
  { diagnostic with fields := diagnostic.fields.insert key value }

/-- The value of a field. -/
def field? (diagnostic : Diagnostic) (key : String) : Option String :=
  diagnostic.fields[key]?

/-- A field reads back as it was set last, and setting it changes no other. -/
@[simp]
theorem field?_withField (diagnostic : Diagnostic) (key value other : String) :
    (diagnostic.withField key value).field? other =
      if key = other then some value else diagnostic.field? other := by
  simp [field?, withField, Std.TreeMap.getElem?_insert]

end Diagnostic

end Bundler
