import Bundler.Fault
import Bundler.Text.Bytes

/-!
# Patches

A set of replacements in a text, and text to be put before and after it. Replacements never overlap,
so the order in which they were asked for does not matter; they are kept sorted by their start.
-/

namespace Bundler

/-- The replacement of a range of bytes. -/
structure Edit where
  range : Range
  text : String
  /-- The range held a name, and the text is its new name. -/
  storeName : Bool := false
  /-- Only the content of the range is replaced, what is around it belongs to others. -/
  contentOnly : Bool := false
  deriving Repr, DecidableEq, Inhabited

/-- A name that was replaced by another. -/
structure Renaming where
  range : Range
  original : String
  renamed : String
  deriving Repr, DecidableEq, Inhabited

/-- A patched text, with the edits that led to it. -/
structure Rendered where
  code : String
  edits : List Edit
  names : List Renaming
  deriving Repr, DecidableEq, Inhabited

/-- Edits of a text. -/
structure Patch where
  source : String
  edits : List Edit := []
  intro : String := ""
  outro : String := ""
  deriving Repr, DecidableEq, Inhabited

namespace Patch

/-- The source between two byte offsets. -/
def slice? (patch : Patch) (range : Range) : Option String :=
  (Text.slice? patch.source.toList range.start range.stop).map String.ofList

/-- Whether the patch changes nothing. -/
def isEmpty (patch : Patch) : Bool :=
  patch.edits.isEmpty && patch.intro.isEmpty && patch.outro.isEmpty

/-- Whether a range covers whole characters of the source, and at least one of them. -/
def covers (patch : Patch) (range : Range) : Bool :=
  let text := patch.source.toList
  range.start < range.stop && Text.isBoundary range.start text && Text.isBoundary range.stop text

/-- The last edit that starts before the end of a range, if it does not also end before the range
    starts. Since edits do not overlap each other, no other edit overlaps the range when this one
    does not. -/
def overlapping? (patch : Patch) (range : Range) : Option Edit :=
  (patch.edits.filter fun edit => edit.range.start < range.stop).getLast?.filter fun edit =>
    range.start < edit.range.stop

/-- Puts an edit before all those that start after it. -/
def insertEdit (edit : Edit) : List Edit → List Edit
  | [] => [edit]
  | first :: rest =>
    if edit.range.start < first.range.start then edit :: first :: rest
    else first :: insertEdit edit rest

/-- Adds a replacement. -/
def replace (patch : Patch) (edit : Edit) : Except Fault Patch :=
  if patch.covers edit.range then
    match patch.overlapping? edit.range with
    | some existing => .error (.overlappingEdit edit.range existing.range)
    | none => .ok { patch with edits := insertEdit edit patch.edits }
  else
    .error (.invalidRange edit.range patch.source.utf8ByteSize)

/-- Adds a removal. -/
def remove (patch : Patch) (range : Range) : Except Fault Patch :=
  patch.replace { range, text := "" }

/-- Adds a replacement of a name by another. -/
def rename (patch : Patch) (range : Range) (name : String) : Except Fault Patch :=
  patch.replace { range, text := name, storeName := true }

/-- Puts text before the source and before all that was put there earlier. -/
def prepend (patch : Patch) (text : String) : Patch :=
  { patch with intro := text ++ patch.intro }

/-- Puts text after the source and after all that was put there earlier. -/
def append (patch : Patch) (text : String) : Patch :=
  { patch with outro := patch.outro ++ text }

/-- Applies sorted edits to what follows the first `offset` bytes of a text. -/
def splice : (offset : Nat) → (rest : List Char) → List Edit → List Char
  | _, rest, [] => rest
  | offset, rest, edit :: edits =>
    Text.takeBytes (edit.range.start - offset) rest ++ edit.text.toList ++
      splice edit.range.stop (Text.dropBytes (edit.range.stop - offset) rest) edits

/-- The names that the patch replaces, in the order of the source. -/
def renamings (patch : Patch) : List Renaming :=
  (patch.edits.filter (·.storeName)).map fun edit =>
    ⟨edit.range, (patch.slice? edit.range).getD "", edit.text⟩

/-- The patched text. -/
def apply (patch : Patch) : Rendered where
  code := patch.intro ++ String.ofList (splice 0 patch.source.toList patch.edits) ++ patch.outro
  edits := patch.edits
  names := patch.renamings

end Patch

end Bundler
