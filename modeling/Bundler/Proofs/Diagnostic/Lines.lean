import Mathlib.Data.List.Basic
import Bundler.Diagnostic.Frame
import Bundler.Proofs.Text.Cuts

/-! # Lines by byte offsets

The line of an offset is found by searching the offsets that the lines of the text start at.  The bounds of
the line are then offsets too, and what is shown of it is cut out of the text between them.
-/

namespace Bundler

namespace Text

/-- The offsets behind the line ends of a text, if the text starts at the offset. -/
def startsFrom (offset : Nat) : List Char → List Nat
  | [] => []
  | c :: rest => if c = '\n' then (offset + 1) :: startsFrom (offset + 1) rest
      else startsFrom (offset + c.utf8Size) rest

/-- The offsets that the lines of a text start at. -/
def lineStarts (text : List Char) : List Nat := 0 :: startsFrom 0 text

/-- Where an increasing list has a number, or else where the number belongs. -/
def search (numbers : List Nat) (n : Nat) : Except Nat Nat :=
  if n ∈ numbers then .ok (numbers.idxOf n) else .error (numbers.countP (· < n))

/-- The line that an offset lies in, counted from zero. -/
def lineIndex (text : List Char) (offset : Nat) : Nat :=
  match search (lineStarts text) (min offset (byteLength text)) with
  | .ok index => index
  | .error 0 => 0
  | .error (index + 1) => index

/-- Where a line starts, and where it stops before its line end. -/
def lineBounds (text : List Char) (index : Nat) : Nat × Nat :=
  let start := (lineStarts text)[index]?.getD (byteLength text)
  let stop := ((lineStarts text)[index + 1]?.map (· - 1)).getD (byteLength text)
  (start, max stop start)

theorem startsFrom_append (offset : Nat) (left right : List Char) :
    startsFrom offset (left ++ right) =
      startsFrom offset left ++ startsFrom (offset + byteLength left) right := by
  induction left generalizing offset with
  | nil => rfl
  | cons c rest ih =>
      simp only [List.cons_append, startsFrom, byteLength]
      split
      next newline =>
          have size : c.utf8Size = 1 := by rw [newline]; rfl
          rw [ih, size, List.cons_append, Nat.add_assoc]
      next => rw [ih, Nat.add_assoc]

theorem startsFrom_eq_nil {line : List Char} (one : '\n' ∉ line) (offset : Nat) :
    startsFrom offset line = [] := by
  induction line generalizing offset with
  | nil => rfl
  | cons c rest ih =>
      obtain ⟨other, later⟩ := List.ne_and_not_mem_of_not_mem_cons one
      rw [startsFrom, if_neg (Ne.symm other), ih later]

theorem length_startsFrom (offset : Nat) (text : List Char) :
    (startsFrom offset text).length = text.count '\n' := by
  induction text generalizing offset with
  | nil => rfl
  | cons c rest ih =>
      rw [startsFrom, List.count_cons]
      split
      next newline => simp [newline, ih]
      next other => simp [other, ih]

theorem mem_startsFrom {offset start : Nat} {text : List Char} (mem : start ∈ startsFrom offset text) :
    offset < start ∧ start ≤ offset + byteLength text := by
  induction text generalizing offset with
  | nil => cases mem
  | cons c rest ih =>
      rw [startsFrom] at mem
      rw [byteLength]
      split at mem
      next newline =>
          have size : c.utf8Size = 1 := by rw [newline]; rfl
          rcases List.mem_cons.mp mem with rfl | later
          · omega
          · have := ih later
            omega
      next =>
          have := ih mem
          omega

/-- The starts increase, as the search for an offset needs it. -/
theorem pairwise_lineStarts (text : List Char) : (lineStarts text).Pairwise (· < ·) := by
  have increasing (offset : Nat) : (startsFrom offset text).Pairwise (· < ·) := by
    induction text generalizing offset with
    | nil => exact .nil
    | cons c rest ih =>
        rw [startsFrom]
        split
        next => exact List.pairwise_cons.mpr ⟨fun _ mem => (mem_startsFrom mem).1, ih (offset + 1)⟩
        next => exact ih _
  exact List.pairwise_cons.mpr ⟨fun _ mem => (mem_startsFrom mem).1, increasing 0⟩

/-- The search ends at the last number that is not greater. -/
theorem search_append {smaller greater : List Nat} {last n : Nat} (below : ∀ m ∈ smaller, m < last)
    (reached : last ≤ n) (above : ∀ m ∈ greater, n < m) :
    search (smaller ++ last :: greater) n =
      if n = last then .ok smaller.length else .error (smaller.length + 1) := by
  have all : ∀ m ∈ smaller, m < n := fun m mem => (below m mem).trans_le reached
  have foreign : n ∉ smaller := fun mem => Nat.lt_irrefl n (all n mem)
  have beyond : n ∉ greater := fun mem => Nat.lt_irrefl n (above n mem)
  rw [search]
  by_cases same : n = last
  · subst same
    have mem : n ∈ smaller ++ n :: greater := by simp
    rw [if_pos mem, if_pos rfl, List.idxOf_append_of_notMem foreign, List.idxOf_cons_self, Nat.add_zero]
  · have absent : n ∉ smaller ++ last :: greater := by simp [foreign, beyond, same]
    have short : smaller.countP (· < n) = smaller.length :=
      List.countP_eq_length.mpr fun m mem => decide_eq_true (all m mem)
    have none : greater.countP (· < n) = 0 :=
      List.countP_eq_zero.mpr fun m mem => by simp [Nat.le_of_lt (above m mem)]
    have behind : last < n := Nat.lt_of_le_of_ne reached (Ne.symm same)
    rw [if_neg absent, if_neg same, List.countP_append, List.countP_cons, short, none]
    simp [behind]

/-- The text consists of whole lines. -/
def WholeLines (text : List Char) : Prop := text = [] ∨ ∃ start, text = start ++ ['\n']

/-- The text is empty or goes on in another line. -/
def OtherLine (text : List Char) : Prop := text = [] ∨ ∃ rest, text = '\n' :: rest

section Line

variable {before line : List Char} (after : List Char)

/-- The starts of the lines before a line, the start of the line, and the starts of those after it. -/
theorem lineStarts_append (whole : WholeLines before) (one : '\n' ∉ line) :
    ∃ earlier, earlier.length = before.count '\n' ∧ (∀ start ∈ earlier, start < byteLength before) ∧
      lineStarts (before ++ line ++ after) =
        earlier ++ byteLength before :: startsFrom (byteLength (before ++ line)) after := by
  have middle (offset : Nat) : startsFrom offset line = [] := startsFrom_eq_nil one offset
  rw [lineStarts, startsFrom_append, startsFrom_append, middle, List.append_nil, Nat.zero_add]
  rcases whole with rfl | ⟨start, rfl⟩
  · exact ⟨[], rfl, by simp, rfl⟩
  · have size : byteLength (start ++ ['\n']) = byteLength start + 1 := byteLength_append start ['\n']
    refine ⟨0 :: startsFrom 0 start, ?_, ?_, ?_⟩
    · rw [List.length_cons, length_startsFrom, List.count_append, List.count_singleton_self]
    · intro earlier mem
      rw [size]
      rcases List.mem_cons.mp mem with rfl | mem
      · exact Nat.succ_pos _
      · have := mem_startsFrom mem
        omega
    · rw [startsFrom_append, size, Nat.zero_add]
      simp [startsFrom]

/-- An offset of a line is found to lie in the line, also where it is the offset of the line end. -/
theorem lineIndex_append (whole : WholeLines before) (one : '\n' ∉ line) {offset : Nat}
    (lower : byteLength before ≤ offset) (upper : offset ≤ byteLength (before ++ line)) :
    lineIndex (before ++ line ++ after) offset = before.count '\n' := by
  obtain ⟨earlier, count, below, starts⟩ := lineStarts_append after whole one
  have within : offset ≤ byteLength (before ++ line ++ after) := by
    rw [byteLength_append]
    omega
  have above : ∀ start ∈ startsFrom (byteLength (before ++ line)) after, offset < start :=
    fun start mem => upper.trans_lt (mem_startsFrom mem).1
  rw [lineIndex, Nat.min_eq_left within, starts, search_append below lower above, count]
  by_cases first : offset = byteLength before <;> simp only [first, if_true, if_false]

theorem lineBounds_append {after : List Char} (whole : WholeLines before) (one : '\n' ∉ line)
    (other : OtherLine after) :
    lineBounds (before ++ line ++ after) (before.count '\n') =
      (byteLength before, byteLength (before ++ line)) := by
  obtain ⟨earlier, count, -, starts⟩ := lineStarts_append after whole one
  have start : (lineStarts (before ++ line ++ after))[before.count '\n']? = some (byteLength before) := by
    rw [starts, ← count, List.getElem?_append_right (Nat.le_refl _), Nat.sub_self, List.getElem?_cons_zero]
  have next : (lineStarts (before ++ line ++ after))[before.count '\n' + 1]? =
      (startsFrom (byteLength (before ++ line)) after)[0]? := by
    rw [starts, ← count, List.getElem?_append_right (Nat.le_add_right _ 1), Nat.add_sub_cancel_left,
      List.getElem?_cons_succ]
  have ordered : byteLength before ≤ byteLength (before ++ line) := by
    rw [byteLength_append]
    exact Nat.le_add_right _ _
  simp only [lineBounds, start, next, Option.getD_some]
  rcases other with rfl | ⟨rest, rfl⟩
  · simp [startsFrom]
  · simp [startsFrom]

end Line

end Text

end Bundler
