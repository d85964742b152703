import Bundler.Proofs.Patch.Disjoint

/-! # Pieces of a text

A text is put together from pieces, some of which are known with their place.  Places are given in the
source that the text is part of, so they stay right when texts are put together.
-/

namespace Bundler

/-- The range is where the text stands in the source. -/
def Range.Holds (range : Range) (source text : String) : Prop :=
  Spells source range.start text ∧ range.stop = range.start + text.utf8ByteSize

namespace Range.Holds

variable {range : Range} {source text : String}

theorem append (holds : range.Holds source text) (more : String) : range.Holds (source ++ more) text := by
  obtain ⟨⟨before, after, rfl, size⟩, stop⟩ := holds
  exact ⟨⟨before, after ++ more, by simp only [String.append_assoc], size⟩, stop⟩

theorem slice? (holds : range.Holds source text) : Patch.slice? { source } range = some text := by
  obtain ⟨spells, stop⟩ := holds
  have found : Patch.slice? { source } ⟨range.start, range.start + text.utf8ByteSize⟩ = some text :=
    Spells.slice? spells
  rwa [← stop] at found

end Range.Holds

/-- A text, and the place that it is said to have. -/
structure Piece where
  range : Range
  text : String
  deriving Repr, DecidableEq

/-- The pieces stand in the text that starts at the offset, one behind the other. -/
inductive Tiled : (start : Nat) → (text : String) → List Piece → Prop where
  | rest {start text} : Tiled start text []
  | piece {start : Nat} {kept rest : String} {piece : Piece} {pieces} :
    piece.range =
      ⟨start + kept.utf8ByteSize, start + kept.utf8ByteSize + piece.text.utf8ByteSize⟩ →
    Tiled piece.range.stop rest pieces →
    Tiled start (kept ++ piece.text ++ rest) (piece :: pieces)

namespace Tiled

variable {start : Nat} {text other : String} {pieces more : List Piece}

theorem single {range : Range} (same : range = ⟨start, start + text.utf8ByteSize⟩) :
    Tiled start text [⟨range, text⟩] := by
  subst same
  have tiled : Tiled start ("" ++ text ++ "") [⟨⟨start, start + text.utf8ByteSize⟩, text⟩] :=
    @Tiled.piece start "" "" ⟨⟨start, start + text.utf8ByteSize⟩, text⟩ [] (by simp) .rest
  simpa using tiled

/-- Texts that follow each other are put together from their own pieces. -/
theorem append {middle : Nat} (first : Tiled start text pieces) (second : Tiled middle other more)
    (follows : middle = start + text.utf8ByteSize) : Tiled start (text ++ other) (pieces ++ more) := by
  subst follows
  induction first with
  | @rest start text =>
      cases second with
      | rest => exact .rest
      | @piece _ kept rest piece pieces range later =>
          have range' : piece.range = ⟨start + (text ++ kept).utf8ByteSize,
              start + (text ++ kept).utf8ByteSize + piece.text.utf8ByteSize⟩ := by
            rw [range, String.utf8ByteSize_append, Nat.add_assoc]
          simpa only [String.append_assoc, List.nil_append] using Tiled.piece range' later
  | @piece start kept rest piece pieces range later ih =>
      have onward : start + (kept ++ piece.text ++ rest).utf8ByteSize =
          piece.range.stop + rest.utf8ByteSize := by
        simp only [range, String.utf8ByteSize_append]
        omega
      rw [onward] at second
      simpa only [String.append_assoc, List.cons_append] using Tiled.piece range (ih second)

theorem behind (kept : String) (tiled : Tiled (start + kept.utf8ByteSize) text pieces) :
    Tiled start (kept ++ text) pieces :=
  append .rest tiled rfl

theorem before (tiled : Tiled start text pieces) (kept : String) : Tiled start (text ++ kept) pieces := by
  simpa only [List.append_nil] using tiled.append .rest rfl

/-- All pieces stand where they are said to. -/
theorem holds {source : String} (tiled : Tiled start text pieces) (spells : Spells source start text) :
    ∀ piece ∈ pieces, piece.range.Holds source piece.text := by
  induction tiled with
  | rest => simp
  | @piece start kept rest piece pieces range _ ih =>
      intro other member
      rcases List.mem_cons.mp member with rfl | later
      · refine ⟨?_, by rw [range]⟩
        rw [range]
        exact spells.left.right
      · refine ih ?_ other later
        rw [range, Nat.add_assoc, ← String.utf8ByteSize_append]
        exact spells.right

theorem inside (tiled : Tiled start text pieces) :
    ∀ piece ∈ pieces, start ≤ piece.range.start ∧ piece.range.stop ≤ start + text.utf8ByteSize := by
  induction tiled with
  | rest => simp
  | @piece start kept rest piece pieces range _ ih =>
      intro other member
      simp only [String.utf8ByteSize_append]
      rcases List.mem_cons.mp member with rfl | later
      · rw [range]
        dsimp only
        omega
      · have later := ih other later
        rw [range] at later
        dsimp only at later
        omega

theorem sorted (tiled : Tiled start text pieces) :
    pieces.Pairwise fun first second => first.range.Before second.range := by
  induction tiled with
  | rest => exact .nil
  | piece _ later ih => exact List.pairwise_cons.mpr ⟨fun other member => (later.inside other member).1, ih⟩

end Tiled

end Bundler
