import Bundler.Diagnostic.Basic
import Bundler.Text.Bytes

/-!
# Frames

A diagnostic as a block of text: its heading, then for every place the line that it starts in with
the place marked underneath, then notes and link. Columns count characters, a tab as many as it is
expanded to. A range that is out of order, leaves its text or splits a character is pulled into
shape first, so that every diagnostic can be shown.
-/

namespace Bundler

/-- The names and texts of files, as far as they are known. -/
structure Sources where
  name? : FileId → Option String
  text? : FileId → Option String

namespace Frame

/-- How a frame is drawn. -/
structure Style where
  color : Bool := false
  tabWidth : Nat := 2
  deriving Repr, DecidableEq, Inhabited

/-- The columns of a tab, never none. -/
def Style.tab (style : Style) : Nat := max 1 style.tabWidth

/-- The columns of a text that stands in one line. -/
def Style.width (style : Style) : List Char → Nat
  | [] => 0
  | c :: rest => (if c = '\t' then style.tab else 1) + style.width rest

/-- A line with its tabs expanded. -/
def Style.expand (style : Style) (line : List Char) : List Char :=
  line.flatMap fun c => if c = '\t' then List.replicate style.tab ' ' else [c]

/-- The colours that a frame is drawn with. -/
inductive Ink where
  | red
  | yellow
  | blue

/-- The sequence that switches a terminal to bold text of a colour. -/
def Ink.code : Ink → String
  | .red => "\x1b[1;31m"
  | .yellow => "\x1b[1;33m"
  | .blue => "\x1b[1;34m"

/-- A text in a colour, if the style has colours. -/
def Style.paint (style : Style) (ink : Ink) (text : String) : String :=
  if style.color then ink.code ++ text ++ "\x1b[0m" else text

/-- A range of a text, seen from the line that it starts in. -/
structure Place where
  /-- The number of the line, counted from one. -/
  line : Nat
  /-- What the line holds before the range. -/
  lead : List Char
  /-- What the range holds of the line. -/
  marked : List Char
  /-- What the line holds from the start of the range on. -/
  tail : List Char
  deriving Repr, DecidableEq

/-- Finds a range in a text. Its ends are moved back to where a character starts, and an end before
    the start is moved to the start. -/
def Place.ofRange (text : List Char) (range : Range) : Place :=
  let before := Text.takeBytes range.start text
  let after := Text.dropBytes range.start text
  let tail := after.takeWhile (· != '\n')
  { line := 1 + before.count '\n'
    lead := (before.reverse.takeWhile (· != '\n')).reverse
    marked := Text.takeBytes (range.stop - Text.byteLength before) tail
    tail }

/-- The column of a place, counted from one. -/
def Place.column (style : Style) (place : Place) : Nat :=
  1 + style.width place.lead

/-- The number of marks under a place, at least one. -/
def Place.marks (style : Style) (place : Place) : Nat :=
  max 1 (style.width place.marked)

/-- A place to be shown, with its message. The primary place of a diagnostic looks different from
    the others. -/
structure Highlight where
  span : Span
  message : String
  isPrimary : Bool

/-- A text repeated. -/
def fill (n : Nat) (c : Char) : String := String.ofList (List.replicate n c)

/-- The line that says where a place is. -/
def location (style : Style) (sources : Sources) (highlight : Highlight) : String :=
  let name := (sources.name? highlight.span.file).getD "<unknown file>"
  match sources.text? highlight.span.file with
  | some text =>
    let place := Place.ofRange text.toList highlight.span.range
    " --> " ++ name ++ ":" ++ toString place.line ++ ":" ++ toString (place.column style) ++ "\n"
  | none => " --> " ++ name ++ ":?:?\n"

/-- The line of a place, with marks under the place and the message behind them. -/
def excerpt (style : Style) (sources : Sources) (highlight : Highlight) : String :=
  match sources.text? highlight.span.file with
  | none => "  | (source unavailable)\n"
  | some text =>
    let place := Place.ofRange text.toList highlight.span.range
    let number := toString place.line
    let gutter := fill number.length ' '
    let line := String.ofList (style.expand (place.lead ++ place.tail))
    let indent := fill (style.width place.lead) ' '
    let marks :=
      if highlight.isPrimary then style.paint .red (fill (place.marks style) '^')
      else style.paint .blue (fill (place.marks style) '-')
    let message := if highlight.message.isEmpty then "" else " " ++ highlight.message
    gutter ++ " |\n" ++ number ++ " | " ++ line ++ "\n" ++
      gutter ++ " | " ++ indent ++ marks ++ message ++ "\n"

/-- The excerpts of some places, each file announced where it is not that of the place before. -/
def excerpts (style : Style) (sources : Sources) :
    (file : Option FileId) → List Highlight → String
  | _, [] => ""
  | file, highlight :: rest =>
    (if file = some highlight.span.file then "" else location style sources highlight) ++
      excerpt style sources highlight ++
      excerpts style sources (some highlight.span.file) rest

/-- The colour that a severity's word is shown in. -/
def ink : Severity → Ink
  | .error => .red
  | .warning => .yellow
  | .note => .blue

/-- The places of a diagnostic, the primary one first. -/
def highlights (diagnostic : Diagnostic) : List Highlight :=
  ⟨diagnostic.primary, diagnostic.message, true⟩ ::
    diagnostic.labels.map fun label => ⟨label.span, label.message, false⟩

end Frame

/-- A diagnostic as a block of text. -/
def Diagnostic.frame (diagnostic : Diagnostic) (sources : Sources) (style : Frame.Style) : String :=
  style.paint (Frame.ink diagnostic.severity) diagnostic.severity.name ++
    "[" ++ diagnostic.code ++ "]: " ++ diagnostic.message ++ "\n" ++
    Frame.excerpts style sources none (Frame.highlights diagnostic) ++
    String.join (diagnostic.notes.map fun note => "  = note: " ++ note ++ "\n") ++
    (diagnostic.url.elim "" fun url => "  = see: " ++ url ++ "\n")

end Bundler
