import Bundler.Proofs.Step
import Bundler.Proofs.Text.Spelling
import Bundler.Graph.Output

/-! # Rewriting a text piece by piece

The steps that edit a module go over its text from front to back.  Each rewrites the piece that it is
responsible for and touches nothing else, and pieces that follow each other can be rewritten one after
the other, so the rewriting of a module is put together in the way its text is printed.
-/

namespace Bundler

/-- Edits in order, inside of a text that starts at the given offset, with the text that they lead to
    and the names that they replace. -/
inductive Edited : (start : Nat) → (text : String) → List Edit → (output : String) → List Renaming → Prop where
  /-- What is left is kept. -/
  | rest {start text} : Edited start text [] text []
  /-- Some text is kept, and what stands behind it is replaced. -/
  | edit {start : Nat} {kept cut text output : String} {edit : Edit} {edits names} :
    cut ≠ "" →
    edit.range = ⟨start + kept.utf8ByteSize, start + kept.utf8ByteSize + cut.utf8ByteSize⟩ →
    Edited edit.range.stop text edits output names →
    Edited start (kept ++ cut ++ text) (edit :: edits) (kept ++ edit.text ++ output)
      (if edit.storeName then ⟨edit.range, cut, edit.text⟩ :: names else names)

namespace Edited

variable {start : Nat} {text output : String} {edits : List Edit} {names : List Renaming}

/-- Pieces that follow each other are edited on their own. -/
theorem append {other result : String} {later : List Edit} {more : List Renaming}
    (first : Edited start text edits output names)
    (second : Edited (start + text.utf8ByteSize) other later result more) :
    Edited start (text ++ other) (edits ++ later) (output ++ result) (names ++ more) := by
  induction first with
  | @rest start text =>
      cases second with
      | rest => exact .rest
      | @edit _ kept cut text' output' edit edits names some_cut range rest =>
          -- What was left of the first piece and what is kept of the second are kept together.
          have range' : edit.range = ⟨start + (text ++ kept).utf8ByteSize,
              start + (text ++ kept).utf8ByteSize + cut.utf8ByteSize⟩ := by
            rw [range, String.utf8ByteSize_append, Nat.add_assoc]
          simpa only [String.append_assoc, List.nil_append] using Edited.edit some_cut range' rest
  | @edit start kept cut text output edit edits names some_cut range rest ih =>
      have onward : edit.range.stop + text.utf8ByteSize =
          start + (kept ++ cut ++ text).utf8ByteSize := by
        simp only [range, String.utf8ByteSize_append]
        omega
      rw [← onward] at second
      have together := Edited.edit some_cut range (ih second)
      by_cases store : edit.storeName = true
      · simpa only [store, if_true, String.append_assoc, List.cons_append] using together
      · simpa only [store, Bool.false_eq_true, if_false, String.append_assoc, List.cons_append]
          using together

theorem range (edited : Edited start text edits output names) :
    ∀ edit ∈ edits, edit.range.start < edit.range.stop ∧ start ≤ edit.range.start ∧
      edit.range.stop ≤ start + text.utf8ByteSize := by
  induction edited with
  | rest => simp
  | @edit start kept cut text output edit edits names some_cut range rest ih =>
      have size : cut.utf8ByteSize ≠ 0 := mt String.utf8ByteSize_eq_zero_iff.mp some_cut
      intro other member
      simp only [String.utf8ByteSize_append]
      rcases List.mem_cons.mp member with rfl | later
      · rw [range]
        dsimp only
        omega
      · obtain ⟨filled, behind, inside⟩ := ih other later
        rw [range] at behind inside
        dsimp only at behind inside
        omega

/-- Applying the edits gives the output. -/
theorem splice (edited : Edited start text edits output names) :
    Patch.splice start text.toList edits = output.toList := by
  induction edited with
  | rest => rfl
  | @edit start kept cut text output edit edits names _ range rest ih =>
      have before : Text.takeBytes (edit.range.start - start) (kept ++ cut ++ text).toList =
          kept.toList := by
        rw [range, Nat.add_sub_cancel_left, ← Text.byteLength_toList, String.append_assoc,
          String.toList_append, Text.takeBytes_byteLength_append, Text.takeBytes_zero, List.append_nil]
      have behind : Text.dropBytes (edit.range.stop - start) (kept ++ cut ++ text).toList =
          text.toList := by
        rw [range, Nat.add_assoc, Nat.add_sub_cancel_left, ← String.utf8ByteSize_append,
          ← Text.byteLength_toList, String.toList_append (s := kept ++ cut),
          Text.dropBytes_byteLength_append]
      rw [Patch.splice, before, behind, ih, String.toList_append, String.toList_append]

/-- The names that the edits replace are what the source has in their place, in order. -/
theorem names_eq (edited : Edited start text edits output names) {patch : Patch}
    (spells : Spells patch.source start text) :
    (edits.filter (·.storeName)).map (fun edit => (edit.range, patch.slice? edit.range, edit.text)) =
      names.map fun name => (name.range, some name.original, name.renamed) := by
  induction edited with
  | rest => rfl
  | @edit start kept cut text output edit edits names _ range _ ih =>
      have cut_there := spells.left.right.slice?
      have later := ih (by
        rw [range, Nat.add_assoc, ← String.utf8ByteSize_append]
        exact spells.right)
      rw [← range] at cut_there
      by_cases store : edit.storeName = true
      · simp only [store, List.filter_cons_of_pos, List.map_cons, if_true, cut_there, later]
      · simp only [store, List.filter_cons_of_neg, Bool.false_eq_true, not_false_eq_true, if_false,
          later]

theorem sorted (edited : Edited start text edits output names) :
    names.Pairwise (fun a b => a.range.stop ≤ b.range.start) ∧
      ∀ name ∈ names, start ≤ name.range.start := by
  induction edited with
  | rest => exact ⟨.nil, by simp⟩
  | @edit start kept cut text output edit edits names _ range _ ih =>
      obtain ⟨sorted, behind⟩ := ih
      have ahead : start ≤ edit.range.stop := by
        rw [range]
        dsimp only
        omega
      split
      · constructor
        · exact List.pairwise_cons.mpr ⟨behind, sorted⟩
        · intro name member
          rcases List.mem_cons.mp member with rfl | later
          · rw [range]
            exact Nat.le_add_right _ _
          · exact Nat.le_trans ahead (behind name later)
      · exact ⟨sorted, fun name member => Nat.le_trans ahead (behind name member)⟩

section Whole

variable {source : String}

theorem slice? (edited : Edited 0 source edits output names) :
    ∀ name ∈ names, Patch.slice? { source } name.range = some name.original := by
  intro name member
  have spells : Spells (Patch.source { source }) 0 source := .self source
  have replaced := edited.names_eq spells
  have listed := List.mem_map_of_mem (f := fun name : Renaming =>
    (name.range, some name.original, name.renamed)) member
  rw [← replaced] at listed
  obtain ⟨edit, -, same⟩ := List.mem_map.mp listed
  obtain ⟨range, original⟩ := Prod.mk.inj same
  rw [← range]
  exact (Prod.mk.inj original).1

theorem renamings_eq (edited : Edited 0 source edits output names) {patch : Patch}
    (same : patch.source = source) (all : patch.edits = edits) : patch.renamings = names := by
  subst same all
  have replaced := congrArg (List.map fun entry : Range × Option String × String =>
    (⟨entry.1, entry.2.1.getD "", entry.2.2⟩ : Renaming)) (edited.names_eq (.self patch.source))
  rw [Patch.renamings]
  simpa only [List.map_map, Function.comp_def, Option.getD_some, List.map_id'] using replaced

/-- A patch of these edits gives the output, and what is put behind it. -/
theorem apply_eq (edited : Edited 0 source edits output names) (outro : String) :
    Patch.apply { source, edits, outro } = { code := output ++ outro, edits, names } := by
  rw [Patch.apply, edited.renamings_eq rfl rfl]
  simp only [edited.splice, String.ofList_toList, String.empty_append]

end Whole

end Edited

/-! ## Adding an edit behind all others -/

namespace Patch

variable {patch : Patch} {pos : Nat}

/-- All edits lie before the offset. -/
def EndsBefore (patch : Patch) (pos : Nat) : Prop :=
  ∀ edit ∈ patch.edits, edit.range.start < edit.range.stop ∧ edit.range.stop ≤ pos

theorem EndsBefore.mono {later : Nat} (before : patch.EndsBefore pos) (le : pos ≤ later) :
    patch.EndsBefore later := fun edit member =>
  ⟨(before edit member).1, Nat.le_trans (before edit member).2 le⟩

theorem overlapping?_eq_none {range : Range} (before : patch.EndsBefore range.start) :
    patch.overlapping? range = none := by
  rw [overlapping?, Option.filter_eq_none_iff]
  intro edit last overlap
  have member := List.mem_filter.mp (List.mem_of_getLast? last)
  have inside := (before edit member.1).2
  simp only [decide_eq_true_eq] at overlap
  omega

theorem insertEdit_eq {edit : Edit} {edits : List Edit}
    (before : ∀ other ∈ edits, other.range.start ≤ edit.range.start) :
    insertEdit edit edits = edits ++ [edit] := by
  induction edits with
  | nil => rfl
  | cons first rest ih =>
      have here := before first List.mem_cons_self
      have later := ih fun other member => before other (List.mem_cons_of_mem _ member)
      rw [insertEdit, if_neg (Nat.not_lt.mpr here), later]
      rfl

/-- A replacement of some text behind all edits is never refused. -/
theorem replace_eq {start : Nat} {text : String} {edit : Edit} (spells : Spells patch.source start text)
    (some_text : text ≠ "") (range : edit.range = ⟨start, start + text.utf8ByteSize⟩)
    (before : patch.EndsBefore start) :
    patch.replace edit = .ok { patch with edits := patch.edits ++ [edit] } := by
  have covers := spells.covers some_text
  rw [← range] at covers
  have free : patch.overlapping? edit.range = none :=
    overlapping?_eq_none (by rwa [range])
  have behind : ∀ other ∈ patch.edits, other.range.start ≤ edit.range.start := by
    intro other member
    have := before other member
    rw [range]
    dsimp only
    omega
  simp only [replace, covers, if_true, free, insertEdit_eq behind]

end Patch

/-! ## Steps -/

/-- Given the text at the offset and all edits before it, the step adds the edits by which the text
    becomes the output, and does nothing else. -/
def Rewrites (step : Step Patch Unit) (start : Nat) (text output : String) (names : List Renaming) :
    Prop :=
  ∃ edits, Edited start text edits output names ∧
    ∀ patch : Patch, Spells patch.source start text → patch.EndsBefore start →
      step.outcome patch = (.ok (), { patch with edits := patch.edits ++ edits })

namespace Rewrites

variable {start : Nat} {step next : Step Patch Unit} {text other output result : String}
  {names more : List Renaming}

theorem keep (start : Nat) (text : String) : Rewrites (pure ()) start text text [] :=
  ⟨[], .rest, fun patch _ _ => by simp⟩

/-- Two pieces that follow each other are rewritten one after the other. -/
theorem bind {middle : Nat} (first : Rewrites step start text output names)
    (second : Rewrites next middle other result more) (follows : middle = start + text.utf8ByteSize) :
    Rewrites (do step; next) start (text ++ other) (output ++ result) (names ++ more) := by
  subst follows
  obtain ⟨edits, edited, adds⟩ := first
  obtain ⟨later, edited', adds'⟩ := second
  refine ⟨edits ++ later, edited.append edited', fun patch spells before => ?_⟩
  have between : Patch.EndsBefore { patch with edits := patch.edits ++ edits }
      (start + text.utf8ByteSize) := by
    intro edit member
    rcases List.mem_append.mp member with earlier | new
    · exact before.mono (Nat.le_add_right _ _) edit earlier
    · have range := edited.range edit new
      exact ⟨range.1, range.2.2⟩
  rw [Step.outcome_bind, adds patch spells.left before]
  dsimp only
  rw [adds' { patch with edits := patch.edits ++ edits } spells.right between, List.append_assoc]

theorem behind (kept : String)
    (rewrites : Rewrites step (start + kept.utf8ByteSize) text output names) :
    Rewrites step start (kept ++ text) (kept ++ output) names := by
  obtain ⟨edits, edited, adds⟩ := rewrites
  refine ⟨edits, Edited.append .rest edited, fun patch spells before => ?_⟩
  exact adds patch spells.right (before.mono (Nat.le_add_right _ _))

theorem before (rewrites : Rewrites step start text output names) (kept : String) :
    Rewrites step start (text ++ kept) (output ++ kept) names := by
  obtain ⟨edits, edited, adds⟩ := rewrites
  refine ⟨edits, ?_, fun patch spells before => adds patch spells.left before⟩
  simpa only [List.append_nil] using edited.append .rest

theorem replace (edit : Edit) (some_text : text ≠ "")
    (range : edit.range = ⟨start, start + text.utf8ByteSize⟩) :
    Rewrites (Graph.edit fun patch => patch.replace edit) start text edit.text
      (if edit.storeName then [⟨edit.range, text, edit.text⟩] else []) := by
  refine ⟨[edit], ?_, fun patch spells before => ?_⟩
  · have edited : Edited start ("" ++ text ++ "") [edit] ("" ++ edit.text ++ "") _ :=
      .edit some_text (by simpa using range) .rest
    simpa only [String.empty_append, String.append_empty] using edited
  · simp [Graph.edit, Patch.replace_eq spells some_text range before]

theorem remove (some_text : text ≠ "") :
    Rewrites (Graph.edit fun patch => patch.remove ⟨start, start + text.utf8ByteSize⟩) start text ""
      [] :=
  replace { range := ⟨start, start + text.utf8ByteSize⟩, text := "" } some_text rfl

/-- A name is replaced by another, if it is another. -/
theorem rename (some_text : text ≠ "") (new : String) :
    Rewrites (Graph.rename ⟨start, start + text.utf8ByteSize⟩ new) start text new
      (if text = new then [] else [⟨⟨start, start + text.utf8ByteSize⟩, text, new⟩]) := by
  by_cases same : text = new
  · subst same
    refine ⟨[], ?_, fun patch spells _ => ?_⟩
    · rw [if_pos rfl]
      exact .rest
    · simp [Graph.rename, spells.slice?]
  · obtain ⟨edits, edited, adds⟩ := replace
      { range := ⟨start, start + text.utf8ByteSize⟩, text := new, storeName := true } some_text rfl
    refine ⟨edits, by simpa only [if_true, if_neg same] using edited, fun patch spells before => ?_⟩
    simpa [Graph.rename, spells.slice?, same, Patch.rename] using adds patch spells before

end Rewrites

end Bundler
