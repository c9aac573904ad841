namespace StyleOrder

/-!
# Positions

A position names a line of a source text.  The column is the indentation of the
line, which is the only column worth reporting: whatever the line opens or adds
starts there.
-/

/-- A line, counted from one, and its indentation in characters. -/
structure Position where
  line : Nat
  column : Nat
deriving DecidableEq, Repr, Inhabited

namespace Position

/-- Lines first, then columns. -/
def compare (left right : Position) : Ordering :=
  (Ord.compare left.line right.line).then (Ord.compare left.column right.column)

def le (left right : Position) : Bool :=
  (left.compare right).isLE

/-- Line and column, with a colon between them. -/
def text (position : Position) : String :=
  toString position.line ++ ":" ++ toString position.column

/-- Positions in ascending order; equal ones keep their order. -/
def sort (positions : List Position) : List Position :=
  positions.mergeSort le

end Position
end StyleOrder
