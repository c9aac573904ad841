import StyleOrder.Proofs.Nesting.Run
import StyleOrder.Sheet.Specimen

namespace StyleOrder

/-!
# Parsed outlines are well formed

Every outline that parsing returns is a forest whose links agree with each
other.  The numbers in it descend from child to parent, the lists of children
are exactly the inverse of the parents, and no block is lost or listed twice.

While lines are read, blocks are looked up by number: the present body and what
encloses it, the block opened last, and the parent that a new block is listed
with.  A number that is no block would be ignored silently by the outline
operations, so it is stated here that none is ever looked up, in any state that
reading passes through, also between two marks of one line.
-/

namespace Outline

/-- Every number held in the outline is that of a block. -/
def Closed (outline : Outline) : Prop :=
  ∀ block ∈ outline.blocks,
    (∀ id, block.parent = some id → id < outline.size) ∧
      ∀ id ∈ block.children, id < outline.size

/-- The links of an outline agree with each other. -/
structure WellFormed (outline : Outline) : Prop where
  closed : outline.Closed
  parent_lt : ∀ id enclosing, outline.parent? id = some enclosing → enclosing < id
  /-- Ancestors are the parent and its ancestors, down to a block without parent. -/
  ancestors_eq : ∀ id, outline.ancestors id =
    (outline.parent? id).elim [] fun enclosing => enclosing :: outline.ancestors enclosing
  ancestors_descend : ∀ id, (id :: outline.ancestors id).Pairwise (· > ·)
  depth_eq : ∀ id, outline.depth id =
    (outline.parent? id).elim 0 fun enclosing => outline.depth enclosing + 1
  /-- The children of a block are, in ascending order, the blocks whose parent it is. -/
  children_eq : ∀ id block, outline.block? id = some block →
    block.children = (List.range outline.size).filter fun child => outline.parent? child = some id
  /-- The blocks without parent and the children of all blocks are all blocks, each once. -/
  named_once :
    (outline.roots ++ outline.blocks.flatMap Block.children).Perm (List.range outline.size)

namespace Linked

variable {outline : Outline} (linked : outline.Linked)

include linked

theorem children_of_block? {id : Nat} {block : Block} (present : outline.block? id = some block) :
    block.children =
      (List.range outline.size).filter fun child => outline.parent? child = some id := by
  have listed := linked.children_eq id
  rw [children, present] at listed
  exact listed

theorem closed : outline.Closed := by
  intro block member
  obtain ⟨id, present⟩ := exists_block?_of_mem member
  constructor
  · intro enclosing found
    rw [← parent?_of_block? present] at found
    exact Nat.lt_trans (linked.parent_lt id enclosing found) (lt_size_of_parent? found)
  · intro child listed
    rw [linked.children_of_block? present] at listed
    exact List.mem_range.mp (List.mem_filter.mp listed).1

theorem wellFormed : outline.WellFormed where
  closed := linked.closed
  parent_lt := linked.parent_lt
  ancestors_eq id := by
    cases found : outline.parent? id with
    | none => exact ancestors_of_no_parent? found
    | some enclosing => exact ancestors_of_parent? linked found
  ancestors_descend := Outline.ancestors_descend linked
  depth_eq id := by
    cases found : outline.parent? id with
    | none => exact depth_of_no_parent? found
    | some enclosing => exact depth_of_parent? linked found
  children_eq _ _ present := linked.children_of_block? present
  named_once := roots_append_children_perm linked

end Linked
end Outline

namespace Nesting

/-- The states that reading lines passes through: between two lines, and within a
line once it has been placed and some of its marks have been applied. -/
inductive Passes (lines : List Sheet.Line) : Nesting → Prop where
  | between {placements : List Placement} {nesting : Nesting} (run : Run placements nesting)
      (read : placements.map Placement.line <+: lines) : Passes lines nesting
  | within {placements : List Placement} {nesting placed : Nesting} {line : Sheet.Line}
      {marks : List Sheet.Mark} (run : Run placements nesting)
      (read : placements.map Placement.line ++ [line] <+: lines)
      (placing : (nesting.fixUnit line.width).place line = .ok placed)
      (applied : marks <+: Sheet.Mark.ofText line.text) :
      Passes lines (marks.foldl (apply line.position) { placed with width := line.width })

/-- Every number that a state can look up is that of a block: the body, all that
is met on the way up from it, the block opened last, and what the outline
holds. -/
structure InRange (nesting : Nesting) : Prop where
  body : ∀ id, nesting.body = some id → id < nesting.outline.size
  upward : ∀ bound, ∀ id ∈ nesting.outline.chain bound nesting.body, id < nesting.outline.size
  latest : ∀ id, nesting.latest = some id → id < nesting.outline.size
  held : nesting.outline.Closed

theorem Sound.inRange {nesting : Nesting} (sound : nesting.Sound) : nesting.InRange where
  body := sound.body_lt
  upward bound id occurs := by
    cases bound with
    | zero => cases occurs
    | succ bound =>
        cases start : nesting.body with
        | none =>
            rw [start] at occurs
            cases occurs
        | some first =>
            have inside := sound.body_lt first start
            rw [start, Outline.chain] at occurs
            rcases List.mem_cons.mp occurs with same | later
            · rwa [same]
            · exact Nat.lt_trans (Outline.lt_of_mem_chain sound.linked later) inside
  latest := sound.latest_lt
  held := sound.linked.closed

theorem Passes.sound {lines : List Sheet.Line} {nesting : Nesting} (passes : Passes lines nesting) :
    nesting.Sound := by
  cases passes with
  | between run read => exact run.sound
  | @within placements before placed line marks run read placing applied =>
      obtain ⟨kept, enters⟩ := enters_of_place placing
      have placedSound : placed.Sound := by
        rw [kept]
        exact run.sound.place enters
      exact (placedSound.withWidth line.width).foldl_apply line.position marks

/-- There are no more blocks than lines. -/
theorem Run.size_le {placements : List Placement} {nesting : Nesting}
    (run : Run placements nesting) : nesting.outline.size ≤ placements.length := by
  rw [Outline.size_eq_length_headings, run.headings_eq, List.length_map]
  exact List.length_filter_le _ _

end Nesting

namespace Outline

/-- Parsing returns well-formed outlines, with no more blocks than the source has
lines, and looks up no number that is not a block on its way there. -/
theorem parse_wellFormed (source : String) (outline : Outline)
    (parsed : Outline.parse source = .ok outline) :
    outline.WellFormed ∧ outline.size ≤ (Text.lines source.toList).length ∧
      ∀ nesting, Nesting.Passes (Sheet.Line.ofSource source) nesting → nesting.InRange := by
  obtain ⟨placements, nesting, run, read, rfl⟩ := (parse_eq_ok_iff source outline).mp parsed
  refine ⟨run.sound.linked.wellFormed, ?_, fun state passes => passes.sound.inRange⟩
  calc
    nesting.outline.size ≤ placements.length := run.size_le
    _ = (Sheet.Line.ofSource source).length := by rw [← read, List.length_map]
    _ ≤ (Text.lines source.toList).length := Sheet.Line.length_readFrom_le 1 _

theorem disordered_wellFormed :
    ∃ outline, Outline.parse Sheet.Specimen.disordered = .ok outline ∧ outline.size = 9 ∧
      outline.WellFormed ∧
      outline.size ≤ (Text.lines Sheet.Specimen.disordered.toList).length ∧
      ∀ nesting, Nesting.Passes (Sheet.Line.ofSource Sheet.Specimen.disordered) nesting →
        nesting.InRange := by
  obtain ⟨outline, parsed, nine⟩ := exists_of_view Outline.size
    (show (Outline.parse Sheet.Specimen.disordered).toOption.map Outline.size = some 9 by
      decide +kernel)
  exact ⟨outline, parsed, nine, parse_wellFormed _ outline parsed⟩

end Outline
end StyleOrder
