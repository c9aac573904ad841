import StyleOrder.Proofs.Outline.Views

namespace StyleOrder
namespace Outline

/-!
# The block that layout suggests

To a reader, a line belongs to the nearest line above it that stands further to
the left.  `enclosing?` says this of an outline: it names the last block that
precedes a position and is narrower.  Only the positions of blocks are looked
at, never a parent, so the definition can be compared with the parents that
reading has assigned.

When every block precedes the position, its line does not matter, and what is
asked for is the last block that is narrower, `nearest?`.
-/

/-- The last block whose position passes a test. -/
def lastWhere (outline : Outline) (test : Position → Bool) : Option Nat :=
  ((List.range outline.size).filter fun id => (outline.position? id).any test).getLast?

/-- The last block that is narrower than a column. -/
def nearest? (outline : Outline) (column : Nat) : Option Nat :=
  outline.lastWhere fun other => other.column < column

/-- The last block on an earlier line that is narrower than a position. -/
def enclosing? (outline : Outline) (position : Position) : Option Nat :=
  outline.lastWhere fun other => other.line < position.line && other.column < position.column

/-- Blocks stand on different lines, in the order of their numbers. -/
def Ascends (outline : Outline) : Prop :=
  outline.headings.Pairwise fun heading later => heading.1.line < later.1.line

theorem lastWhere_congr (outline : Outline) {test other : Position → Bool}
    (agree : ∀ id position, outline.position? id = some position → test position = other position) :
    outline.lastWhere test = outline.lastWhere other := by
  unfold lastWhere
  congr 1
  apply List.filter_congr
  intro id _
  cases found : outline.position? id with
  | none => rfl
  | some position => exact agree id position found

/-- The last block passes the test, and no later block does. -/
theorem lastWhere_eq_some {outline : Outline} {test : Position → Bool} {id : Nat}
    (found : outline.lastWhere test = some id) :
    (∃ position, outline.position? id = some position ∧ test position = true) ∧
      ∀ later position, outline.position? later = some position → test position = true →
        later ≤ id := by
  obtain ⟨others, split⟩ := List.getLast?_eq_some_iff.mp found
  have candidate : ∀ later, later ∈ others ++ [id] ↔
      later < outline.size ∧ (outline.position? later).any test = true := by
    intro later
    rw [← split, List.mem_filter, List.mem_range]
  constructor
  · have passes := ((candidate id).mp (by simp)).2
    cases present : outline.position? id with
    | none =>
        rw [present] at passes
        cases passes
    | some position =>
        rw [present] at passes
        exact ⟨position, rfl, passes⟩
  · intro later position present passes
    have listed : later ∈ others ++ [id] := by
      rw [candidate, present]
      exact ⟨lt_size_of_position? present, passes⟩
    exact le_of_getLast? (List.pairwise_lt_range.filter _) found (split ▸ listed)

theorem lastWhere_eq_some_of {outline : Outline} {test : Position → Bool} {id : Nat}
    {position : Position} (present : outline.position? id = some position)
    (passes : test position = true)
    (last : ∀ later other, outline.position? later = some other → test other = true → later ≤ id) :
    outline.lastWhere test = some id := by
  cases found : outline.lastWhere test with
  | none =>
      have absent := List.filter_eq_nil_iff.mp (List.getLast?_eq_none_iff.mp found) id
        (List.mem_range.mpr (lt_size_of_position? present))
      rw [present] at absent
      exact absurd passes absent
  | some other =>
      obtain ⟨⟨otherPosition, otherPresent, otherPasses⟩, otherLast⟩ := lastWhere_eq_some found
      have notAfter := last other otherPosition otherPresent otherPasses
      have notBefore := otherLast id position present passes
      rw [Nat.le_antisymm notAfter notBefore]

/-- A search looks at positions only. -/
theorem lastWhere_of_headings {outline other : Outline} (same : other.headings = outline.headings)
    (test : Position → Bool) : other.lastWhere test = outline.lastWhere test := by
  simp only [lastWhere, size_eq_length_headings, position?_eq_headings, same]

/-- A further block is found first, if it passes. -/
theorem lastWhere_concat {outline grown : Outline} {position : Position} {parent : Option Nat}
    (concat : grown.headings = outline.headings ++ [(position, parent)])
    (test : Position → Bool) :
    grown.lastWhere test = if test position then some outline.size else outline.lastWhere test := by
  have size : grown.size = outline.size + 1 := by
    rw [size_eq_length_headings, concat, List.length_append, ← size_eq_length_headings]
    rfl
  have last : grown.position? outline.size = some position := by
    rw [position?_eq_headings, concat, size_eq_length_headings, List.getElem?_concat_length]
    rfl
  have others : (List.range outline.size).filter (fun id => (grown.position? id).any test) =
      (List.range outline.size).filter (fun id => (outline.position? id).any test) := by
    apply List.filter_congr
    intro id member
    have inside := List.mem_range.mp member
    rw [size_eq_length_headings] at inside
    rw [position?_eq_headings, concat, List.getElem?_append_left inside, ← position?_eq_headings]
  rw [lastWhere, size, List.range_succ, List.filter_append, others, List.filter_cons, last,
    Option.any_some, List.filter_nil]
  cases test position with
  | true => exact List.getLast?_concat
  | false =>
      rw [if_neg Bool.false_ne_true, if_neg Bool.false_ne_true, List.append_nil]
      rfl

theorem Ascends.line_lt {outline : Outline} (ascends : outline.Ascends) {id later : Nat}
    {position other : Position} (before : id < later)
    (present : outline.position? id = some position)
    (presentLater : outline.position? later = some other) : position.line < other.line := by
  rw [position?_eq_headings] at present presentLater
  obtain ⟨heading, atId, rfl⟩ := Option.map_eq_some_iff.mp present
  obtain ⟨headingLater, atLater, rfl⟩ := Option.map_eq_some_iff.mp presentLater
  obtain ⟨inside, rfl⟩ := List.getElem?_eq_some_iff.mp atId
  obtain ⟨insideLater, rfl⟩ := List.getElem?_eq_some_iff.mp atLater
  exact List.pairwise_iff_getElem.mp ascends id later inside insideLater before

/-! ## What encloses a position -/

/-- After the last block it is enough to look at columns. -/
theorem enclosing?_eq_nearest? {outline : Outline} {position : Position}
    (after : ∀ id other, outline.position? id = some other → other.line < position.line) :
    outline.enclosing? position = outline.nearest? position.column := by
  apply lastWhere_congr
  intro id other present
  simp [after id other present]

/-- Nothing is narrower than the margin. -/
theorem nearest?_zero (outline : Outline) : outline.nearest? 0 = none := by
  cases found : outline.nearest? 0 with
  | none => rfl
  | some id =>
      obtain ⟨⟨other, -, passes⟩, -⟩ := lastWhere_eq_some found
      simp at passes

/-- Nothing encloses a position at the margin. -/
theorem enclosing?_eq_none {outline : Outline} {position : Position}
    (margin : position.column = 0) : outline.enclosing? position = none := by
  cases found : outline.enclosing? position with
  | none => rfl
  | some id =>
      obtain ⟨⟨other, -, passes⟩, -⟩ := lastWhere_eq_some found
      rw [margin] at passes
      simp at passes

/-- Seen from a block that is the nearest one at some column, every block that is
narrower still stands above it. -/
theorem enclosing?_of_nearest? {outline : Outline} (ascends : outline.Ascends) {column id : Nat}
    {position : Position} (nearest : outline.nearest? column = some id)
    (present : outline.position? id = some position) :
    outline.enclosing? position = outline.nearest? position.column := by
  obtain ⟨⟨found, foundAt, narrower⟩, last⟩ := lastWhere_eq_some nearest
  rw [present] at foundAt
  cases foundAt
  apply lastWhere_congr
  intro other otherPosition otherAt
  by_cases further : otherPosition.column < position.column
  · have narrow : position.column < column := by simpa using narrower
    have notLater : other ≤ id :=
      last other otherPosition otherAt (by simpa using Nat.lt_trans further narrow)
    have different : other ≠ id := by
      intro same
      rw [same, present] at otherAt
      cases otherAt
      exact Nat.lt_irrefl _ further
    have above := ascends.line_lt (Nat.lt_of_le_of_ne notLater different) otherAt present
    simp [further, above]
  · simp [further]

end Outline
end StyleOrder
