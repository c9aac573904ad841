import Mathlib.Data.List.Nodup
import StyleOrder.Proofs.Nesting.Run
import StyleOrder.Proofs.Sheet.Sources

namespace StyleOrder

/-!
# Where the parts of an outline come from

A source may be indented in any way that can be read at all: blocks may end up
inside others for no reason that a reader would see, and entries may be dropped
because nothing encloses them.  Even so everything in the outline can be led back
to one line.  The opening lines are the blocks, one each and in order.  An entry
stands on the line that it was read from, a line that is placed in one block only;
so no entry occurs twice, and bodies list their entries downwards.

A line that opens a block and holds an entry as well is placed once.  The block
that it is placed in becomes the parent of the new block and receives the entry,
so the two have the same fate.
-/

namespace Nesting
namespace Run

variable {placements : List Placement} {nesting : Nesting}

/-- The body of a block holds what the lines placed in it add. -/
theorem mem_entries_iff (run : Run placements nesting) {id : Nat} {entry : Entry} :
    entry ∈ nesting.outline.entries id ↔
      ∃ placement ∈ placements, placement.body = some id ∧ entry ∈ placement.line.entries := by
  rw [run.entries_eq, List.mem_flatMap]
  constructor
  · rintro ⟨placement, member, added⟩
    rcases List.mem_filter.mp member with ⟨placed, inBody⟩
    exact ⟨placement, placed, of_decide_eq_true inBody, added⟩
  · rintro ⟨placement, placed, inBody, added⟩
    exact ⟨placement, List.mem_filter.mpr ⟨placed, decide_eq_true inBody⟩, added⟩

section Numbered

variable (run : Run placements nesting)
  (numbered : (placements.map Placement.line).Pairwise fun line later =>
    line.number < later.number)

include numbered

omit run in
/-- A line is placed once. -/
theorem placement_eq_of_number_eq {placement other : Placement} (member : placement ∈ placements)
    (otherMember : other ∈ placements) (same : placement.line.number = other.line.number) :
    placement = other := by
  have distinct : (placements.map fun placement => placement.line.number).Nodup := by
    rw [List.Nodup, List.pairwise_map]
    exact (List.pairwise_map.mp numbered).imp Nat.ne_of_lt
  exact List.inj_on_of_nodup_map distinct member otherMember same

omit run in
/-- Entries of one line number were added by one placement. -/
theorem placement_eq_of_entries {placement other : Placement} {entry otherEntry : Entry}
    (member : placement ∈ placements) (otherMember : other ∈ placements)
    (added : entry ∈ placement.line.entries) (otherAdded : otherEntry ∈ other.line.entries)
    (same : entry.position.line = otherEntry.position.line) : placement = other := by
  apply placement_eq_of_number_eq numbered member otherMember
  rw [Sheet.Line.position_of_mem_entries added,
    Sheet.Line.position_of_mem_entries otherAdded] at same
  exact same

include run

/-- A line stands below the block that it is placed in. -/
theorem line_lt_of_body {placement : Placement} (member : placement ∈ placements) {id : Nat}
    {position : Position} (inBody : placement.body = some id)
    (present : nesting.outline.position? id = some position) :
    position.line < placement.line.number := by
  rcases List.append_of_mem member with ⟨before, after, read⟩
  rcases run.split read with ⟨middle, runBefore, enters, kept⟩
  rcases runBefore.position?_of_enters enters inBody with ⟨earlier, found⟩
  have same : earlier = position := Option.some.inj ((kept id earlier found).symm.trans present)
  rcases runBefore.exists_placement found with ⟨opener, openerMember, -, atLine, -⟩
  rw [read, List.map_append, List.map_cons] at numbered
  have above := (List.pairwise_append.mp numbered).2.2 opener.line
    (List.mem_map_of_mem openerMember) placement.line List.mem_cons_self
  rw [← same, ← atLine]
  exact above

/-- A body lists its entries downwards. -/
theorem entries_ascend (id : Nat) :
    (nesting.outline.entries id).Pairwise fun entry later =>
      entry.position.line < later.position.line := by
  rw [run.entries_eq, List.pairwise_flatMap]
  constructor
  · intro placement _
    have single := placement.line.length_entries_le
    match placement.line.entries, single with
    | [], _ => exact List.Pairwise.nil
    | [entry], _ => exact List.pairwise_singleton _ entry
  · apply ((List.pairwise_map.mp numbered).filter _).imp
    intro placement later above entry added laterEntry laterAdded
    rw [Sheet.Line.position_of_mem_entries added, Sheet.Line.position_of_mem_entries laterAdded]
    exact above

/-- An entry that a line adds is found in the body of the block that the line was
placed in, and nowhere else. -/
theorem mem_entries_iff_body {placement : Placement} (member : placement ∈ placements)
    {entry : Entry} (added : entry ∈ placement.line.entries) (id : Nat) :
    entry ∈ nesting.outline.entries id ↔ placement.body = some id := by
  rw [run.mem_entries_iff]
  constructor
  · rintro ⟨other, otherMember, inBody, otherAdded⟩
    rwa [placement_eq_of_entries numbered member otherMember added otherAdded rfl]
  · intro inBody
    exact ⟨placement, member, inBody, added⟩

end Numbered
end Run
end Nesting

namespace Outline

open Sheet (Line)
open Nesting (Run Placement)

/-- Everything in the outline comes from the lines, and from each line at most once. -/
structure ComesFrom (outline : Outline) (lines : List Line) : Prop where
  /-- The blocks are the opening lines, in order. -/
  positions : outline.blocks.map Block.position = (lines.filter Line.opens).map Line.position
  blocks_ascend : outline.blocks.Pairwise fun block later =>
    block.position.line < later.position.line
  /-- An entry stands on a line one of whose marks is that entry. -/
  origin : ∀ block ∈ outline.blocks, ∀ entry ∈ block.entries,
    ∃ line ∈ lines, entry.position = line.position ∧
      ∃ mark ∈ Sheet.Mark.ofText line.text, mark.entry? line.position = some entry
  /-- No two entries share a line, be it in one body or in two. -/
  once : (outline.blocks.flatMap Block.entries).Pairwise fun entry other =>
    entry.position.line ≠ other.position.line
  entries_ascend : ∀ block ∈ outline.blocks, block.entries.Pairwise fun entry later =>
    entry.position.line < later.position.line
  below : ∀ block ∈ outline.blocks, ∀ entry ∈ block.entries,
    block.position.line < entry.position.line
  /-- Where a line opens a block and holds an entry, the parent of the block has the
  entry, and no other block has it. -/
  shared : ∀ line ∈ lines, line.opens = true → ∀ entry ∈ line.entries,
    ∃ id block, outline.block? id = some block ∧ block.position = line.position ∧
      ((∃ owner ∈ outline.blocks, entry ∈ owner.entries) ↔ block.parent.isSome = true) ∧
      ∀ owner holder, outline.block? owner = some holder →
        (entry ∈ holder.entries ↔ block.parent = some owner)

section

variable {placements : List Placement} {nesting : Nesting} (run : Run placements nesting)
  (numbered : (placements.map Placement.line).Pairwise fun line later =>
    line.number < later.number)

include run numbered

/-- Two blocks never hold entries of one line, since the line was placed once. -/
theorem entries_apart {id other : Nat} (different : id ≠ other) {entry otherEntry : Entry}
    (added : entry ∈ nesting.outline.entries id)
    (otherAdded : otherEntry ∈ nesting.outline.entries other) :
    entry.position.line ≠ otherEntry.position.line := by
  intro same
  rcases run.mem_entries_iff.mp added with ⟨placement, member, inBody, here⟩
  rcases run.mem_entries_iff.mp otherAdded with ⟨second, secondMember, inOther, there⟩
  rw [Run.placement_eq_of_entries numbered member secondMember here there same, inOther] at inBody
  exact different (Option.some.inj inBody).symm

theorem entries_once : (nesting.outline.blocks.flatMap Block.entries).Pairwise fun entry other =>
    entry.position.line ≠ other.position.line := by
  rw [List.pairwise_flatMap]
  constructor
  · intro block member
    rcases exists_block?_of_mem member with ⟨id, present⟩
    rw [← entries_of_block? present]
    exact (run.entries_ascend numbered id).imp Nat.ne_of_lt
  · apply List.pairwise_iff_getElem.mpr
    intro id other inside otherInside before entry added otherEntry otherAdded
    rw [← entries_of_block? (List.getElem?_eq_getElem inside)] at added
    rw [← entries_of_block? (List.getElem?_eq_getElem otherInside)] at otherAdded
    exact entries_apart run numbered (Nat.ne_of_lt before) added otherAdded

theorem entry_with_parent {placement : Placement} (member : placement ∈ placements)
    (opening : placement.line.opens = true) {entry : Entry}
    (added : entry ∈ placement.line.entries) :
    ∃ id block, nesting.outline.block? id = some block ∧
      block.position = placement.line.position ∧
      ((∃ owner ∈ nesting.outline.blocks, entry ∈ owner.entries) ↔ block.parent.isSome = true) ∧
      ∀ owner holder, nesting.outline.block? owner = some holder →
        (entry ∈ holder.entries ↔ block.parent = some owner) := by
  rcases run.exists_block_of_opens member opening with ⟨id, present, parent⟩
  rcases Option.map_eq_some_iff.mp present with ⟨block, found, atLine⟩
  rw [parent?_of_block? found] at parent
  have held : ∀ owner holder, nesting.outline.block? owner = some holder →
      (entry ∈ holder.entries ↔ block.parent = some owner) := by
    intro owner holder ownerFound
    rw [← entries_of_block? ownerFound, run.mem_entries_iff_body numbered member added, parent]
  refine ⟨id, block, found, atLine, ⟨?_, ?_⟩, held⟩
  · rintro ⟨holder, holderMember, inHolder⟩
    rcases exists_block?_of_mem holderMember with ⟨owner, ownerFound⟩
    rw [(held owner holder ownerFound).mp inHolder]
    rfl
  · intro enclosed
    rcases Option.isSome_iff_exists.mp enclosed with ⟨owner, inOwner⟩
    rcases run.exists_position? member (parent ▸ inOwner) with ⟨position, ownerPresent⟩
    rcases Option.map_eq_some_iff.mp ownerPresent with ⟨holder, ownerFound, -⟩
    exact ⟨holder, List.mem_of_getElem? ownerFound, (held owner holder ownerFound).mpr inOwner⟩

theorem comesFrom_of_run : nesting.outline.ComesFrom (placements.map Placement.line) := by
  have positions : nesting.outline.blocks.map Block.position =
      ((placements.map Placement.line).filter Line.opens).map Line.position := by
    rw [← map_fst_headings, run.positions_eq]
  refine ⟨positions, ?_, ?_, entries_once run numbered, ?_, ?_, ?_⟩
  · have ascend : (nesting.outline.blocks.map Block.position).Pairwise fun position later =>
        position.line < later.line := by
      rw [positions]
      exact (numbered.filter Line.opens).map _ fun _ _ above => above
    exact ascend.of_map Block.position fun _ _ above => above
  · intro block member entry added
    rcases exists_block?_of_mem member with ⟨id, present⟩
    rw [← entries_of_block? present] at added
    rcases run.mem_entries_iff.mp added with ⟨placement, placed, -, here⟩
    exact ⟨placement.line, List.mem_map_of_mem placed, Line.position_of_mem_entries here,
      List.mem_filterMap.mp here⟩
  · intro block member
    rcases exists_block?_of_mem member with ⟨id, present⟩
    rw [← entries_of_block? present]
    exact run.entries_ascend numbered id
  · intro block member entry added
    rcases exists_block?_of_mem member with ⟨id, present⟩
    rw [← entries_of_block? present] at added
    rcases run.mem_entries_iff.mp added with ⟨placement, placed, inBody, here⟩
    rw [Line.position_of_mem_entries here]
    exact run.line_lt_of_body numbered placed inBody (position?_of_block? present)
  · intro line member opening entry added
    rcases List.mem_map.mp member with ⟨placement, placed, rfl⟩
    exact entry_with_parent run numbered placed opening added

end

theorem comesFrom_of_parse {source : String} {outline : Outline}
    (parsed : Outline.parse source = .ok outline) : outline.ComesFrom (Line.ofSource source) := by
  rcases (parse_eq_ok_iff source outline).mp parsed with ⟨placements, nesting, run, read, rfl⟩
  have numbered := Line.ofSource_ascends source
  rw [← read] at numbered
  rw [← read]
  exact comesFrom_of_run run numbered

/-- Parsing loses no opening line and adds none: the blocks stand where the raw
lines that begin with an opening character stand.  Everything else in the outline
can be led back to the lines as well. -/
theorem parse_comesFrom (source : String) (outline : Outline)
    (parsed : Outline.parse source = .ok outline) :
    outline.blocks.map Block.position =
        (((Text.lines source.toList).zipIdx 1).filter fun raw =>
          Sheet.Mark.begins (Text.trim raw.1)).map (fun raw => ⟨raw.2, Text.indentation raw.1⟩) ∧
      outline.ComesFrom (Line.ofSource source) := by
  rcases (parse_eq_ok_iff source outline).mp parsed with ⟨placements, nesting, run, read, rfl⟩
  have numbered := Line.ofSource_ascends source
  rw [← read] at numbered
  have comesFrom := comesFrom_of_run run numbered
  rw [read] at comesFrom
  exact ⟨comesFrom.positions.trans (Line.positions_readFrom 1 _), comesFrom⟩

/-- Widths that fit no unit.  The first call is dropped, and each of the other four
lines puts its entry into the parent of the block that it opens. -/
theorem uneven_comesFrom :
    let source := "@include y\n   color: red\n @include x\n  top: 0\n\n// c\n+z\n"
    ∃ outline, Outline.parse source = .ok outline ∧
      outline.blocks.map (fun block => (block.parent, block.entries.length)) =
        [(none, 2), (some 0, 0), (some 0, 2), (some 2, 0), (some 2, 0)] ∧
      outline.ComesFrom (Line.ofSource source) := by
  intro source
  obtain ⟨outline, parsed, seen⟩ := exists_of_view
    (fun outline => outline.blocks.map fun block => (block.parent, block.entries.length))
    (show (Outline.parse source).toOption.map _ =
      some [(none, 2), (some 0, 0), (some 0, 2), (some 2, 0), (some 2, 0)] by
      decide +kernel)
  exact ⟨outline, parsed, seen, (parse_comesFrom source outline parsed).2⟩

end Outline
end StyleOrder
