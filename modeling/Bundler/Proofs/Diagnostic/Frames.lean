import Mathlib.Data.List.DropRight
import Mathlib.Data.List.TakeWhile
import Bundler.Proofs.Diagnostic.Lines

/-! # Where frames point

A frame shows the line that its range starts in and marks as much of the range as stands in this line.  The
ends of the range may be out of order, behind the text or inside of a character.  What they come to then is
said by a cut of the text, and nothing that is computed with offsets on the way can fail.
-/

namespace Bundler

open Text

/-- A text, cut at the ends of a range and at the ends of the line that the range starts in. -/
structure Cut (text : List Char) (range : Range) where
  /-- Where the range starts. -/
  start : Nat
  /-- Where the range ends. -/
  stop : Nat
  /-- The lines before. -/
  before : List Char
  /-- What the line holds before the range. -/
  lead : List Char
  /-- What the range holds of the line. -/
  marked : List Char
  /-- What the line holds behind the range. -/
  rest : List Char
  /-- The text behind the line. -/
  after : List Char
  text_eq : text = before ++ (lead ++ marked ++ rest) ++ after
  isGreatest_start :
    IsGreatest {place | isBoundary place text = true ∧ place ≤ min range.start (byteLength text)} start
  isGreatest_stop :
    IsGreatest {place | isBoundary place text = true ∧ place ≤ min (max range.stop start) (byteLength text)}
      stop
  before_whole : WholeLines before
  one_line : '\n' ∉ lead ++ marked ++ rest
  after_other : OtherLine after
  start_eq : byteLength (before ++ lead) = start
  stop_eq : byteLength (before ++ lead ++ marked) = min stop (byteLength (before ++ (lead ++ marked ++ rest)))

namespace Cut

variable {text : List Char} {range : Range}

theorem otherLine_dropWhile (text : List Char) : OtherLine (text.dropWhile (· != '\n')) := by
  induction text with
  | nil => exact .inl rfl
  | cons c rest ih =>
      rw [List.dropWhile_cons]
      split
      next => exact ih
      next newline => exact .inr ⟨rest, by rw [of_not_not (by simpa using newline : ¬ c ≠ '\n')]⟩

theorem wholeLines_rdropWhile (text : List Char) : WholeLines (text.rdropWhile (· != '\n')) := by
  rcases otherLine_dropWhile text.reverse with none | ⟨rest, some⟩
  · exact .inl (by rw [List.rdropWhile, none, List.reverse_nil])
  · exact .inr ⟨rest.reverse, by rw [List.rdropWhile, some, List.reverse_cons]⟩

/-- The end of a range takes the same of the line as it takes of the text. -/
theorem stop_of_line (start offset : Nat) (before line after : List Char) (size : byteLength before = start) :
    byteLength (before ++ takeBytes (offset - start) line) =
      min (byteLength (takeBytes (max offset start) (before ++ (line ++ after))))
        (byteLength (before ++ line)) := by
  have behind : max offset start - start = offset - start := by omega
  have reached : byteLength before ≤ max offset start := size.trans_le (Nat.le_max_right _ _)
  rw [takeBytes_append_of_le reached, size, behind, byteLength_append, byteLength_append, byteLength_append,
    byteLength_takeBytes_left (offset - start) line after]
  omega

/-- The cut of a text that shows a range. -/
def ofRange (text : List Char) (range : Range) : Cut text range :=
  let upTo := takeBytes range.start text
  let behind := dropBytes range.start text
  let line := behind.takeWhile (· != '\n')
  let before := upTo.rdropWhile (· != '\n')
  let lead := upTo.rtakeWhile (· != '\n')
  let marked := takeBytes (range.stop - byteLength upTo) line
  let rest := dropBytes (range.stop - byteLength upTo) line
  let after := behind.dropWhile (· != '\n')
  have upTo_eq : before ++ lead = upTo := List.rdropWhile_append_rtakeWhile
  have line_eq : marked ++ rest = line := takeBytes_append_dropBytes _ _
  have behind_eq : line ++ after = behind := List.takeWhile_append_dropWhile
  have text_eq : upTo ++ (line ++ after) = text := by
    rw [behind_eq]
    exact takeBytes_append_dropBytes _ _
  have lines_eq : before ++ (lead ++ marked ++ rest) = upTo ++ line := by
    rw [List.append_assoc, line_eq, ← List.append_assoc, upTo_eq]
  { before, lead, marked, rest, after
    start := byteLength upTo
    stop := byteLength (takeBytes (max range.stop (byteLength upTo)) text)
    text_eq := by rw [lines_eq, List.append_assoc, text_eq]
    isGreatest_start := isGreatest_takeBytes _ _
    isGreatest_stop := isGreatest_takeBytes _ _
    before_whole := wholeLines_rdropWhile upTo
    one_line := by
      rw [List.append_assoc, line_eq]
      intro mem
      rcases List.mem_append.mp mem with mem | mem
      · exact absurd (List.mem_rtakeWhile_imp mem) (by decide)
      · exact absurd (List.mem_takeWhile_imp mem) (by decide)
    after_other := otherLine_dropWhile behind
    start_eq := by rw [upTo_eq]
    stop_eq := by
      have whole := stop_of_line _ range.stop upTo line after rfl
      rw [lines_eq, upTo_eq]
      rwa [text_eq] at whole }

theorem place_eq (text : List Char) (range : Range) :
    Frame.Place.ofRange text range =
      { line := 1 + ((ofRange text range).before ++ (ofRange text range).lead).count '\n'
        lead := (ofRange text range).lead
        marked := (ofRange text range).marked
        tail := (ofRange text range).marked ++ (ofRange text range).rest } := by
  have upTo_eq : (ofRange text range).before ++ (ofRange text range).lead = takeBytes range.start text :=
    List.rdropWhile_append_rtakeWhile
  have line_eq : (ofRange text range).marked ++ (ofRange text range).rest =
      (dropBytes range.start text).takeWhile (· != '\n') := takeBytes_append_dropBytes _ _
  rw [upTo_eq, line_eq]
  rfl

variable (cut : Cut text range)

theorem floor_start : floor text range.start = cut.start := by
  rw [floor_eq]
  exact (isGreatest_takeBytes range.start text).unique cut.isGreatest_start

theorem floor_stop : floor text (max range.stop cut.start) = cut.stop := by
  rw [floor_eq]
  exact (isGreatest_takeBytes _ text).unique cut.isGreatest_stop

theorem count_newlines : (cut.before ++ cut.lead).count '\n' = cut.before.count '\n' := by
  have none : '\n' ∉ cut.lead := fun mem => cut.one_line (by simp [mem])
  rw [List.count_append, List.count_eq_zero.mpr none, Nat.add_zero]

/-- The range starts in its line. -/
theorem start_between :
    byteLength cut.before ≤ cut.start ∧
      cut.start ≤ byteLength (cut.before ++ (cut.lead ++ cut.marked ++ cut.rest)) := by
  have start := cut.start_eq
  simp only [byteLength_append] at start ⊢
  omega

theorem lineIndex_start : lineIndex text cut.start = cut.before.count '\n' := by
  obtain ⟨lower, upper⟩ := cut.start_between
  have found := lineIndex_append cut.after cut.before_whole cut.one_line lower upper
  rwa [← cut.text_eq] at found

theorem lineBounds_eq :
    lineBounds text (cut.before.count '\n') =
      (byteLength cut.before, byteLength (cut.before ++ (cut.lead ++ cut.marked ++ cut.rest))) := by
  have bounds := lineBounds_append cut.before_whole cut.one_line cut.after_other
  rwa [← cut.text_eq] at bounds

theorem slice?_line :
    slice? text (byteLength cut.before) (byteLength (cut.before ++ (cut.lead ++ cut.marked ++ cut.rest))) =
      some (cut.lead ++ cut.marked ++ cut.rest) := by
  have found := slice?_append cut.before (cut.lead ++ cut.marked ++ cut.rest) cut.after
  rwa [← cut.text_eq] at found

end Cut

namespace Frame

variable {style : Style}

theorem Style.width_append (left right : List Char) :
    style.width (left ++ right) = style.width left + style.width right := by
  induction left with
  | nil => simp [Style.width]
  | cons c rest ih => simp only [List.cons_append, Style.width, ih, Nat.add_assoc]

/-- A text takes as many columns as it has characters when its tabs are expanded. -/
theorem Style.length_expand (text : List Char) : (style.expand text).length = style.width text := by
  induction text with
  | nil => rfl
  | cons c rest ih =>
      rw [Style.expand] at ih
      rw [Style.expand, List.flatMap_cons, List.length_append, ih, Style.width]
      split
      next => rw [List.length_replicate]
      next => rfl

/-- The columns of a line up to an offset. -/
def Style.columnAt (style : Style) (line : List Char) (offset : Nat) : Nat :=
  style.width (takeBytes (min offset (byteLength line)) line)

theorem Style.columnAt_append (left right : List Char) :
    style.columnAt (left ++ right) (byteLength left) = style.width left := by
  have inside : min (byteLength left) (byteLength (left ++ right)) = byteLength left := by
    rw [byteLength_append]
    omega
  rw [Style.columnAt, inside, takeBytes_byteLength_append, takeBytes_zero, List.append_nil]

/-- What is computed for a place. -/
structure Spot where
  /-- The number of the line, counted from one. -/
  line : Nat
  /-- The line. -/
  text : List Char
  /-- The columns of the line before the place. -/
  startColumn : Nat
  /-- The columns of the line before the end of the place. -/
  stopColumn : Nat
  deriving Repr, DecidableEq

/-- The difference of two numbers, if it is a number. -/
def minus? (n m : Nat) : Option Nat := if m ≤ n then some (n - m) else none

theorem minus?_eq {n m d : Nat} (sum : n = m + d) : minus? n m = some d := by
  subst sum
  rw [minus?, if_pos (Nat.le_add_right m d), Nat.add_sub_cancel_left]

/-- Finds a range in a text by way of offsets.  There is no result if an offset splits a character where
    the text is cut, or if a difference of offsets is negative. -/
def Spot.ofRange? (style : Style) (text : List Char) (range : Range) : Option Spot := do
  let start := floor text range.start
  let stop := floor text (max range.stop start)
  let index := lineIndex text start
  let (lineStart, lineStop) := lineBounds text index
  let line ← slice? text lineStart lineStop
  let first ← minus? start lineStart
  let last ← minus? (min stop lineStop) lineStart
  return ⟨1 + index, line, style.columnAt line first, style.columnAt line last⟩

theorem Spot.ofRange?_eq {text : List Char} {range : Range} (cut : Cut text range) :
    Spot.ofRange? style text range =
      some ⟨1 + (cut.before ++ cut.lead).count '\n', cut.lead ++ cut.marked ++ cut.rest,
        style.width cut.lead, style.width (cut.lead ++ cut.marked)⟩ := by
  have first : minus? cut.start (byteLength cut.before) = some (byteLength cut.lead) :=
    minus?_eq (by rw [← cut.start_eq, byteLength_append])
  have last : minus? (min cut.stop (byteLength (cut.before ++ (cut.lead ++ cut.marked ++ cut.rest))))
      (byteLength cut.before) = some (byteLength (cut.lead ++ cut.marked)) :=
    minus?_eq (by rw [← cut.stop_eq, List.append_assoc, byteLength_append])
  have startColumn : style.columnAt (cut.lead ++ cut.marked ++ cut.rest) (byteLength cut.lead) =
      style.width cut.lead := by
    rw [List.append_assoc, Style.columnAt_append]
  have stopColumn : style.columnAt (cut.lead ++ cut.marked ++ cut.rest) (byteLength (cut.lead ++ cut.marked)) =
      style.width (cut.lead ++ cut.marked) := Style.columnAt_append _ _
  simp only [Spot.ofRange?, cut.floor_start, cut.floor_stop, cut.lineIndex_start, cut.lineBounds_eq,
    cut.slice?_line, first, last, startColumn, stopColumn, cut.count_newlines, Option.bind_eq_bind,
    Option.bind_some, Option.pure_def]

example : Spot.ofRange? { tabWidth := 4 } "a\n\té→\nb".toList ⟨6, 2⟩ =
    some ⟨2, "\té→".toList, 5, 5⟩ := by decide

/-- The frame of a highlight says where the range starts, shows the line, and marks what the range holds of
    it.  The same is computed with offsets. -/
structure PointsAt (style : Style) (sources : Sources) (highlight : Highlight) {text : List Char}
    (cut : Cut text highlight.span.range) : Prop where
  location_eq : location style sources highlight =
    " --> " ++ (sources.name? highlight.span.file).getD "<unknown file>" ++
      ":" ++ toString (1 + (cut.before ++ cut.lead).count '\n') ++
      ":" ++ toString (1 + style.width cut.lead) ++ "\n"
  excerpt_eq : excerpt style sources highlight =
    let number := toString (1 + (cut.before ++ cut.lead).count '\n')
    let gutter := fill number.length ' '
    let marks := max 1 (style.width cut.marked)
    gutter ++ " |\n" ++
      number ++ " | " ++ String.ofList (style.expand (cut.lead ++ cut.marked ++ cut.rest)) ++ "\n" ++
      gutter ++ " | " ++ fill (style.expand cut.lead).length ' ' ++
        (if highlight.isPrimary then style.paint .red (fill marks '^') else style.paint .blue (fill marks '-')) ++
        (if highlight.message.isEmpty then "" else " " ++ highlight.message) ++ "\n"
  width_eq : (style.expand cut.lead).length = style.width cut.lead
  offsets_eq : Spot.ofRange? style text highlight.span.range =
    some ⟨1 + (cut.before ++ cut.lead).count '\n', cut.lead ++ cut.marked ++ cut.rest,
      style.width cut.lead, style.width cut.lead + style.width cut.marked⟩

end Frame

end Bundler
