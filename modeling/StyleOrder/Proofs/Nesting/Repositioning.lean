import StyleOrder.Proofs.Nesting.Recasting
import StyleOrder.Proofs.Sheet.Layout

namespace StyleOrder

/-!
# Reading depends on proportions

If all lines are moved such that widths are multiplied by a common factor, every line
reads as it did.  Blocks and entries are then the same ones at other positions.
-/

namespace Position.Scales

theorem widen {factor : Nat} (positive : 0 < factor) : Scales factor (Position.widen factor) where
  positive := positive
  column _ := rfl

theorem makeRoom (index : Nat) : Scales 1 (Position.makeRoom index) where
  positive := Nat.one_pos
  column position := (Nat.mul_one position.column).symm

end Position.Scales

/-- The same fault at another position. -/
def Malformed.reposition (move : Position → Position) (malformed : Malformed) : Malformed :=
  { malformed with position := move malformed.position }

namespace Sheet

theorem Mark.recast_relocate (move : Position → Position) (position : Position) (mark : Mark) :
    Recast (Entry.relocate move) position (move position) mark mark :=
  .of_map (fun _ => rfl) (by cases mark <;> rfl)

theorem Line.recast_reposition (move : Position → Position) (line : Line) :
    Recast move (Entry.relocate move) (Malformed.reposition move) line (line.reposition move) where
  position := rfl
  marks := List.forall₂_same.mpr fun mark _ => Mark.recast_relocate move line.position mark
  fault _ := rfl

end Sheet

namespace Outline

open Sheet (Line)

/-- A source whose lines are those of another one, moved, is parsed like the other. -/
theorem parse_reposition {move : Position → Position} {factor : Nat}
    (scales : Position.Scales factor move) {source moved : String}
    (lines : Line.ofSource moved = (Line.ofSource source).map (Line.reposition move)) :
    Outline.parse moved =
      ((Outline.parse source).map (reposition move)).mapError (Malformed.reposition move) := by
  apply parse_recast scales
  rw [lines, List.forall₂_map_right_iff, List.forall₂_same]
  exact fun line _ => line.recast_reposition move

end Outline
end StyleOrder
