import Bundler.Proofs.Output.Rewriting

/-! # Edits that do not meet

A patch accepts an edit after a look at a single one of those that it has.  This is enough because the edits
of a patch are orderly: each covers some text of the source, and each ends before the next one starts.
-/

namespace Bundler

/-! ## Ranges -/

namespace Range

/-- Some byte lies in both. -/
def Meets (first second : Range) : Prop :=
  ∃ byte, (first.start ≤ byte ∧ byte < first.stop) ∧ second.start ≤ byte ∧ byte < second.stop

/-- One ends before the other starts. -/
def Before (first second : Range) : Prop := first.stop ≤ second.start

variable {first second : Range}

theorem Meets.symm (meets : first.Meets second) : second.Meets first := by
  obtain ⟨byte, inFirst, inSecond⟩ := meets
  exact ⟨byte, inSecond, inFirst⟩

theorem Before.not_meets (before : first.Before second) : ¬ first.Meets second := by
  rintro ⟨byte, inFirst, inSecond⟩
  have := before
  unfold Before at this
  omega

theorem before_or_before (filled : first.start < first.stop) (filled' : second.start < second.stop)
    (apart : ¬ first.Meets second) : first.Before second ∨ second.Before first := by
  unfold Before
  by_contra neither
  exact apart ⟨max first.start second.start, by omega, by omega⟩

/-- The range holds at least one whole character of the source and no part of any other. -/
structure Covers (range : Range) (source : String) : Prop where
  filled : range.start < range.stop
  within : range.stop ≤ source.utf8ByteSize
  opens : (String.Pos.Raw.mk range.start).IsValid source
  closes : (String.Pos.Raw.mk range.stop).IsValid source

end Range

theorem Text.isBoundary_iff {offset : Nat} {text : String} :
    Text.isBoundary offset text.toList = true ↔ (String.Pos.Raw.mk offset).IsValid text := by
  rw [String.Pos.Raw.isValid_iff_exists_append]
  constructor
  · intro boundary
    refine ⟨.ofList (Text.takeBytes offset text.toList), .ofList (Text.dropBytes offset text.toList), ?_, ?_⟩
    · rw [← String.ofList_append, Text.takeBytes_append_dropBytes, String.ofList_toList]
    · have size := Text.byteLength_toList (.ofList (Text.takeBytes offset text.toList))
      rw [String.toList_ofList] at size
      rw [String.Pos.Raw.ext_iff, String.byteIdx_rawEndPos, ← size]
      exact (eq_of_beq boundary).symm
  · rintro ⟨before, after, rfl, ends⟩
    have size : offset = Text.byteLength before.toList := by
      rw [Text.byteLength_toList]
      exact congrArg String.Pos.Raw.byteIdx ends
    rw [size, String.toList_append]
    exact Text.isBoundary_append _ _

theorem Patch.covers_iff {patch : Patch} {range : Range} :
    patch.covers range = true ↔ range.Covers patch.source := by
  simp only [covers, Bool.and_eq_true, decide_eq_true_eq, Text.isBoundary_iff]
  constructor
  · rintro ⟨⟨filled, opens⟩, closes⟩
    exact ⟨filled, closes.le_rawEndPos, opens, closes⟩
  · rintro ⟨filled, -, opens, closes⟩
    exact ⟨⟨filled, opens⟩, closes⟩

/-! ## Orderly edits -/

/-- Each edit covers some text, and ends before the next one starts. -/
structure Orderly (source : String) (edits : List Edit) : Prop where
  covered : ∀ edit ∈ edits, edit.range.Covers source
  sorted : edits.Pairwise fun first second => first.range.Before second.range

namespace Orderly

variable {source : String} {edits : List Edit}

theorem nil : Orderly source [] := ⟨by simp, .nil⟩

/-- The order of the edits follows from what they are. -/
theorem eq_of_perm {others : List Edit} (orderly : Orderly source edits) (orderly' : Orderly source others)
    (perm : edits.Perm others) : edits = others := by
  refine perm.eq_of_pairwise (fun first second member member' before after => ?_) orderly.sorted
    orderly'.sorted
  have filled := (orderly.covered first member).filled
  have filled' := (orderly'.covered second member').filled
  unfold Range.Before at before after
  omega

theorem start_lt (orderly : Orderly source edits) :
    edits.Pairwise fun first second => first.range.start < second.range.start := by
  refine orderly.sorted.imp_of_mem fun member _ before => ?_
  exact Nat.lt_of_lt_of_le (orderly.covered _ member).filled before

theorem apart (orderly : Orderly source edits) :
    edits.Pairwise fun first second => ¬ first.range.Meets second.range :=
  orderly.sorted.imp fun before => before.not_meets

end Orderly

namespace Patch

variable {patch : Patch} {edit : Edit} {edits : List Edit}

/-! ## Inserting an edit -/

theorem insertEdit_perm : (insertEdit edit edits).Perm (edit :: edits) := by
  induction edits with
  | nil => exact .refl _
  | cons first rest ih =>
      rw [insertEdit]
      split
      · exact .refl _
      · exact (ih.cons first).trans (.swap edit first rest)

theorem insertEdit_sorted {source : String} (orderly : Orderly source edits)
    (covers : edit.range.Covers source) (free : ∀ other ∈ edits, ¬ other.range.Meets edit.range) :
    (insertEdit edit edits).Pairwise fun first second => first.range.Before second.range := by
  obtain ⟨covered, sorted⟩ := orderly
  induction edits with
  | nil => simp [insertEdit]
  | cons first rest ih =>
      obtain ⟨ahead, rest_sorted⟩ := List.pairwise_cons.mp sorted
      have first_covers := covered first List.mem_cons_self
      have side := Range.before_or_before first_covers.filled covers.filled (free first List.mem_cons_self)
      have filled := first_covers.filled
      have filled' := covers.filled
      unfold Range.Before at side ahead ⊢
      rw [insertEdit]
      split
      next starts =>
        -- The edit is in front of the first one, and so in front of all that are behind that.
        have before : edit.range.stop ≤ first.range.start := by omega
        refine List.pairwise_cons.mpr ⟨fun other member => ?_, sorted⟩
        rcases List.mem_cons.mp member with rfl | later
        · exact before
        · have := ahead other later
          omega
      next starts =>
        have before : first.range.stop ≤ edit.range.start := by omega
        refine List.pairwise_cons.mpr ⟨fun other member => ?_, ?_⟩
        · rcases List.mem_cons.mp (insertEdit_perm.mem_iff.mp member) with rfl | later
          · exact before
          · exact ahead other later
        · exact ih (fun other member => free other (List.mem_cons_of_mem _ member))
            (fun other member => covered other (List.mem_cons_of_mem _ member)) rest_sorted

end Patch

theorem Orderly.insertEdit {source : String} {edit : Edit} {edits : List Edit}
    (orderly : Orderly source edits) (covers : edit.range.Covers source)
    (free : ∀ other ∈ edits, ¬ other.range.Meets edit.range) :
    Orderly source (Patch.insertEdit edit edits) where
  covered other member := by
    rcases List.mem_cons.mp (Patch.insertEdit_perm.mem_iff.mp member) with rfl | earlier
    · exact covers
    · exact orderly.covered other earlier
  sorted := Patch.insertEdit_sorted orderly covers free

/-! ## Accepting an edit -/

namespace Patch

variable {patch : Patch} {edit : Edit}

/-- The one edit that is looked at decides for all. -/
theorem overlapping?_eq_none_iff {range : Range} (orderly : Orderly patch.source patch.edits)
    (covers : range.Covers patch.source) :
    patch.overlapping? range = none ↔ ∀ edit ∈ patch.edits, ¬ edit.range.Meets range := by
  have filled := covers.filled
  rw [overlapping?, Option.filter_eq_none_iff]
  constructor
  · rintro apart edit member ⟨byte, inEdit, inRange⟩
    have starts : edit ∈ patch.edits.filter fun edit => edit.range.start < range.stop :=
      List.mem_filter.mpr ⟨member, decide_eq_true (by omega)⟩
    have sorted := orderly.sorted.filter fun edit => edit.range.start < range.stop
    rcases List.eq_nil_or_concat (patch.edits.filter fun edit => edit.range.start < range.stop) with
      none | ⟨front, last, all⟩
    · rw [none] at starts
      cases starts
    · -- All others of these end before the last one does, and that one ends before the range starts.
      rw [List.concat_eq_append] at all
      rw [all] at starts sorted apart
      have ends : last.range.stop ≤ range.start := by
        simpa using apart last List.getLast?_concat
      rcases List.mem_append.mp starts with earlier | here
      · have before := (List.pairwise_append.mp sorted).2.2 edit earlier last (List.mem_singleton_self _)
        have kept : last ∈ patch.edits.filter fun edit => edit.range.start < range.stop := by simp [all]
        have lastFilled := (orderly.covered last (List.mem_filter.mp kept).1).filled
        unfold Range.Before at before
        omega
      · rw [List.mem_singleton.mp here] at inEdit
        omega
  · intro free last isLast overlap
    have member := List.mem_filter.mp (List.mem_of_getLast? isLast)
    have lastFilled := (orderly.covered last member.1).filled
    have starts := of_decide_eq_true member.2
    have ends := of_decide_eq_true overlap
    exact free last member.1 ⟨max last.range.start range.start, by omega, by omega⟩

/-- An edit is accepted if it covers some text and meets no other edit. -/
theorem replace_accepts (orderly : Orderly patch.source patch.edits)
    (covers : edit.range.Covers patch.source)
    (free : ∀ other ∈ patch.edits, ¬ other.range.Meets edit.range) :
    patch.replace edit = .ok { patch with edits := insertEdit edit patch.edits } := by
  have alone := (overlapping?_eq_none_iff orderly covers).mpr free
  simp only [replace, covers_iff.mpr covers, if_true, alone]

/-- Every other edit is refused. -/
theorem replace_refuses (orderly : Orderly patch.source patch.edits)
    (unfit : ¬ (edit.range.Covers patch.source ∧
      ∀ other ∈ patch.edits, ¬ other.range.Meets edit.range)) :
    ∃ fault, patch.replace edit = .error fault := by
  rw [replace]
  split
  next covers =>
    have covers := covers_iff.mp covers
    split
    next => exact ⟨_, rfl⟩
    next alone => exact absurd ⟨covers, (overlapping?_eq_none_iff orderly covers).mp alone⟩ unfit
  next => exact ⟨_, rfl⟩

end Patch

/-! ## What orderly edits lead to -/

/-- Of two beginnings of a text the longer one continues the shorter one. -/
theorem exists_between {before rest opening closing : String} (same : before ++ rest = opening ++ closing)
    (le : before.utf8ByteSize ≤ opening.utf8ByteSize) :
    ∃ kept, opening = before ++ kept ∧ rest = kept ++ closing := by
  have chars := congrArg String.toList same
  rw [String.toList_append, String.toList_append, List.append_eq_append_iff] at chars
  rcases chars with ⟨kept, opened, left⟩ | ⟨extra, longer, closed⟩
  · refine ⟨.ofList kept, String.toList_inj.mp ?_, String.toList_inj.mp ?_⟩
    · simpa using opened
    · simpa using left
  · have size : before.utf8ByteSize = opening.utf8ByteSize + (String.ofList extra).utf8ByteSize := by
      rw [← String.utf8ByteSize_append]
      exact congrArg String.utf8ByteSize (String.toList_inj.mp (by simpa using longer))
    have none : String.ofList extra = "" := String.utf8ByteSize_eq_zero_iff.mp (by omega)
    have noChars : extra = [] := by simpa using congrArg String.toList none
    subst noChars
    refine ⟨"", ?_, ?_⟩
    · exact (String.toList_inj.mp (by simpa using longer)).symm.trans (by simp)
    · exact String.toList_inj.mp (by simpa using closed.symm)

/-- Orderly edits can be made one after the other, each in what the ones before it leave. -/
theorem Orderly.edited {source before text : String} {edits : List Edit} (orderly : Orderly source edits)
    (split : source = before ++ text)
    (behind : ∀ edit ∈ edits, before.utf8ByteSize ≤ edit.range.start) :
    ∃ output names, Edited before.utf8ByteSize text edits output names := by
  induction edits generalizing before text with
  | nil => exact ⟨text, [], .rest⟩
  | cons edit rest ih =>
      have covers := orderly.covered edit List.mem_cons_self
      have filled := covers.filled
      obtain ⟨ahead, sorted⟩ := List.pairwise_cons.mp orderly.sorted
      obtain ⟨opening, closing, cutHere, start⟩ := String.Pos.Raw.isValid_iff_exists_append.mp covers.opens
      obtain ⟨whole, left, cutThere, stop⟩ := String.Pos.Raw.isValid_iff_exists_append.mp covers.closes
      have start : edit.range.start = opening.utf8ByteSize := congrArg String.Pos.Raw.byteIdx start
      have stop : edit.range.stop = whole.utf8ByteSize := congrArg String.Pos.Raw.byteIdx stop
      obtain ⟨kept, rfl, rfl⟩ := exists_between (split.symm.trans cutHere)
        (start ▸ behind edit List.mem_cons_self)
      obtain ⟨cut, rfl, rfl⟩ := exists_between (cutHere.symm.trans cutThere) (by omega)
      rw [String.utf8ByteSize_append] at start
      rw [String.utf8ByteSize_append, String.utf8ByteSize_append] at stop
      obtain ⟨output, names, later⟩ := ih
        ⟨fun other member => orderly.covered other (List.mem_cons_of_mem _ member), sorted⟩ cutThere
        fun other member => by
          rw [String.utf8ByteSize_append, String.utf8ByteSize_append, ← stop]
          exact ahead other member
      rw [String.utf8ByteSize_append, String.utf8ByteSize_append, ← stop] at later
      have someText : cut ≠ "" := by
        rintro rfl
        simp at stop
        omega
      have range : edit.range = ⟨before.utf8ByteSize + kept.utf8ByteSize,
          before.utf8ByteSize + kept.utf8ByteSize + cut.utf8ByteSize⟩ := by
        rw [← stop, ← start]
      rw [← String.append_assoc]
      exact ⟨_, _, .edit someText range later⟩

end Bundler
