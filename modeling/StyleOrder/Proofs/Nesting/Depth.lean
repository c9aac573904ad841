import Mathlib.Algebra.Order.Floor.Div
import Mathlib.Data.List.Induction
import Mathlib.GroupTheory.GroupAction.Ring
import StyleOrder.Proofs.Nesting.Provenance

namespace StyleOrder

/-!
# Depth and width

A narrower line leaves one block for every whole unit, and what is left over is
forgotten.  Where widths go back by parts of a unit, the place therefore drifts: a
line may stand in more blocks than its width accounts for.  It never stands in
fewer.  As long as lines go in by one unit at most, and only below the line that
opens the block they enter, the blocks around a line make up for its width, with
one unit each.

This is what keeps a later line from leaving more blocks than there are.  It gives
a lower bound on the depth of blocks, and it means that an indented line is always
in some block, so that its entries are kept.
-/

namespace Outline

/-- Number of blocks around a place. -/
def level (outline : Outline) : Option Nat → Nat
  | none => 0
  | some id => outline.depth id + 1

theorem level_parent? {outline : Outline} (linked : outline.Linked) (id : Nat) :
    outline.level (outline.parent? id) = outline.depth id := by
  cases found : outline.parent? id with
  | none => exact (depth_of_no_parent? found).symm
  | some enclosing => exact (depth_of_parent? linked found).symm

/-- Further blocks do not move those that are there to another level. -/
theorem depth_of_parents {outline grown : Outline} (linked : outline.Linked)
    (linkedGrown : grown.Linked)
    (kept : ∀ id < outline.size, grown.parent? id = outline.parent? id) {id : Nat}
    (inside : id < outline.size) : grown.depth id = outline.depth id := by
  induction id using Nat.strongRecOn with
  | ind id ih =>
      cases found : outline.parent? id with
      | none => rw [depth_of_no_parent? found, depth_of_no_parent? ((kept id inside).trans found)]
      | some enclosing =>
          have descends := linked.parent_lt id enclosing found
          rw [depth_of_parent? linked found,
            depth_of_parent? linkedGrown ((kept id inside).trans found),
            ih enclosing descends (Nat.lt_trans descends inside)]

end Outline

namespace Nesting

open Sheet (Line)

/-- As many blocks can be left as there are around a place. -/
theorem exists_leave {outline : Outline} (linked : outline.Linked) {count : Nat}
    {body : Option Nat} (enough : count ≤ outline.level body) :
    ∃ reached, leave outline count body = some reached ∧
      outline.level reached + count = outline.level body := by
  induction count generalizing body with
  | zero => exact ⟨body, rfl, rfl⟩
  | succ count ih =>
      cases body with
      | none => exact absurd enough (Nat.not_succ_le_zero count)
      | some id =>
          have up : outline.level (some id) = outline.level (outline.parent? id) + 1 := by
            rw [Outline.level_parent? linked]
            rfl
          rcases ih (show count ≤ outline.level (outline.parent? id) by omega) with
            ⟨reached, left, levels⟩
          exact ⟨reached, left, by omega⟩

theorem parent?_absorb (nesting : Nesting) (line : Line) {id : Nat}
    (inside : id < nesting.outline.size) :
    (nesting.absorb line).outline.parent? id = nesting.outline.parent? id := by
  rw [Outline.size_eq_length_headings] at inside
  rw [Outline.parent?_eq_headings, headings_absorb, List.getElem?_append_left inside,
    ← Outline.parent?_eq_headings]

/-- Taking in a line leaves every place at its level. -/
theorem level_line {nesting : Nesting} (sound : nesting.Sound) {line : Line} {body : Option Nat}
    (enters : (nesting.fixUnit line.width).Enters line.width body) {place : Option Nat}
    (inside : ∀ id, place = some id → id < nesting.outline.size) :
    ({ nesting.fixUnit line.width with body }.absorb line).outline.level place =
      nesting.outline.level place := by
  rw [← outline_fixUnit nesting line.width] at inside ⊢
  have placed := sound.place enters
  cases place with
  | none => rfl
  | some id =>
      have same := Outline.depth_of_parents placed.linked (placed.absorb line).linked
        (fun _ => parent?_absorb _ line) (inside id rfl)
      exact congrArg (· + 1) same

/-- The blocks around a line make up for its width, with one unit each. -/
def Covers (unit : Nat) (placements : List Placement) (outline : Outline) : Prop :=
  ∀ placement ∈ placements, placement.line.width ≤ outline.level placement.body * unit

namespace Covers

variable {unit : Nat} {placements : List Placement} {nesting : Nesting}

theorem width_le (covers : Covers unit placements nesting.outline)
    (run : Run placements nesting) :
    nesting.width ≤ nesting.outline.level nesting.body * unit := by
  cases run with
  | start => exact Nat.zero_le _
  | line read line enters =>
      obtain ⟨bodyKept, -, width⟩ := absorb_kept _ line
      rw [bodyKept, width]
      exact covers _ (List.mem_append_right _ List.mem_cons_self)

/-- The column of a block is covered by the blocks around it. -/
theorem column_le (covers : Covers unit placements nesting.outline)
    (run : Run placements nesting) {id : Nat} {position : Position}
    (present : nesting.outline.position? id = some position) :
    position.column ≤ nesting.outline.depth id * unit := by
  obtain ⟨placement, member, -, rfl, parent⟩ := run.exists_placement present
  have bound := covers placement member
  rwa [← parent, Outline.level_parent? run.sound.linked] at bound

/-- The next line finds a place, and one that covers its width. -/
theorem enters (covers : Covers unit placements nesting.outline) (run : Run placements nesting)
    (positive : 0 < unit) {line : Line}
    (first : ∀ indent, Line.firstIndent? (placements.map Placement.line) = some indent →
      indent = unit)
    (steps : Line.StepsWithin unit (placements.map Placement.line ++ [line])) :
    ∃ body, (nesting.fixUnit line.width).Enters line.width body ∧
      line.width ≤ nesting.outline.level body * unit := by
  obtain ⟨-, flush, stepped⟩ := steps.of_concat
  have covered := covers.width_le run
  rcases Nat.lt_trichotomy line.width nesting.width with narrower | same | wider
  · -- The quotient is rounded down, so it gives up no more than the difference.
    have given : (nesting.width - line.width) / unit * unit ≤ nesting.width - line.width :=
      Nat.div_mul_le_self _ _
    have enough : (nesting.width - line.width) / unit ≤ nesting.outline.level nesting.body :=
      Nat.le_of_mul_le_mul_right (by omega) positive
    obtain ⟨reached, left, levels⟩ := exists_leave run.sound.linked enough
    refine ⟨reached, .leave ?_ ?_, ?_⟩
    · rwa [width_fixUnit]
    · rwa [outline_fixUnit, body_fixUnit, run.steps_eq narrower first]
    · rw [← levels, Nat.add_mul] at covered
      omega
  · refine ⟨_, .stay (by rw [width_fixUnit, same]), ?_⟩
    rwa [body_fixUnit, same]
  · cases last : (placements.map Placement.line).getLast? with
    | none =>
        have margin := flush (List.getLast?_eq_none_iff.mp last)
        omega
    | some previous =>
        have lower : previous.width < line.width := run.width_of_getLast? last ▸ wider
        obtain ⟨oneUnit, opening⟩ := stepped previous last lower
        obtain ⟨id, latest, present⟩ := run.latest_of_opens last opening
        have outer : previous.width ≤ nesting.outline.depth id * unit :=
          covers.column_le run present
        refine ⟨some id, .enter ?_ ?_, ?_⟩
        · rwa [width_fixUnit]
        · rwa [latest_fixUnit]
        · rw [Outline.level, Nat.succ_mul]
          omega

/-- Taking in a line that was placed like this keeps all lines covered. -/
theorem line (covers : Covers unit placements nesting.outline) (run : Run placements nesting)
    {line : Line} {body : Option Nat}
    (enters : (nesting.fixUnit line.width).Enters line.width body)
    (covered : line.width ≤ nesting.outline.level body * unit) :
    Covers unit (placements ++ [⟨line, body⟩])
      ({ nesting.fixUnit line.width with body }.absorb line).outline := by
  intro placement member
  rcases List.mem_append.mp member with old | new
  · rw [level_line run.sound enters]
    · exact covers placement old
    · intro id inBody
      obtain ⟨position, present⟩ := run.exists_position? old inBody
      exact Outline.lt_size_of_position? present
  · cases List.mem_singleton.mp new
    rw [level_line run.sound enters]
    · exact covered
    · intro id inBody
      obtain ⟨position, present⟩ := run.position?_of_enters enters inBody
      exact Outline.lt_size_of_position? present

end Covers

/-- A sheet that steps within its unit can be read, and all its lines are covered. -/
theorem exists_covering_run {unit : Nat} (positive : 0 < unit) {lines : List Line}
    (first : ∀ indent, Line.firstIndent? lines = some indent → indent = unit)
    (steps : Line.StepsWithin unit lines) :
    ∃ placements nesting, Run placements nesting ∧ placements.map Placement.line = lines ∧
      Covers unit placements nesting.outline := by
  induction lines using List.reverseRecOn with
  | nil => exact ⟨[], Nesting.start, Run.start, rfl, fun _ member => by cases member⟩
  | append_singleton lines line ih =>
      have firstBefore : ∀ indent, Line.firstIndent? lines = some indent → indent = unit :=
        fun indent found => first indent (Line.firstIndent?_of_concat found)
      obtain ⟨placements, nesting, run, rfl, covers⟩ := ih firstBefore steps.of_concat.1
      obtain ⟨body, enters, covered⟩ := covers.enters run positive firstBefore steps
      exact ⟨_, _, run.line line enters, by simp, covers.line run enters covered⟩

end Nesting

namespace Outline

open Sheet (Line)

/-- A source whose lines go in by one unit at most, each below the line that opens its
block, is parsed however it goes back.  A block has as many blocks around it as its
column needs, or more, and no entry of an indented line is dropped. -/
theorem parse_coversColumns (source : String)
    (steps : Line.StepsWithin (Line.unit (Line.ofSource source)) (Line.ofSource source)) :
    ∃ outline, Outline.parse source = .ok outline ∧
      (∀ id block, outline.block? id = some block →
        block.position.column ⌈/⌉ Line.unit (Line.ofSource source) ≤ outline.depth id) ∧
      ∀ line ∈ Line.ofSource source, 0 < line.width → ∀ entry ∈ line.entries,
        ∃ block ∈ outline.blocks, entry ∈ block.entries := by
  obtain ⟨placements, nesting, run, read, covers⟩ := Nesting.exists_covering_run
    (Line.unit_pos _) (fun _ found => Line.eq_unit_of_firstIndent? found) steps
  refine ⟨nesting.outline, ?_, ?_, ?_⟩
  · exact (parse_eq_ok_iff source nesting.outline).mpr ⟨placements, nesting, run, read, rfl⟩
  · intro id block present
    rw [ceilDiv_le_iff_le_mul (Line.unit_pos _), Nat.mul_comm]
    exact covers.column_le run (position?_of_block? present)
  · intro line member indented entry added
    rw [← read] at member
    obtain ⟨placement, placed, rfl⟩ := List.mem_map.mp member
    have covered := covers placement placed
    cases inBody : placement.body with
    | none =>
        rw [inBody, level, Nat.zero_mul] at covered
        omega
    | some id =>
        obtain ⟨position, present⟩ := run.exists_position? placed inBody
        obtain ⟨block, found, -⟩ := Option.map_eq_some_iff.mp present
        refine ⟨block, List.mem_of_getElem? found, ?_⟩
        rw [← entries_of_block? found]
        exact run.mem_entries_iff.mpr ⟨placement, placed, inBody, added⟩

/-- Going back by less than the unit, again and again.  The last two blocks are two and
three blocks deep, where one would cover their columns. -/
theorem drifting_coversColumns :
    let source := ".a\n    .b\n  .c\n      .d\n   .e\n    top: 0\n"
    Line.StepsWithin 4 (Line.ofSource source) ∧
      ∃ outline, Outline.parse source = .ok outline ∧
        outline.numbered.map (fun (id, block) => (block.position.column, outline.depth id)) =
          [(0, 0), (4, 1), (2, 1), (6, 2), (3, 2), (4, 3)] ∧
        (∀ id block, outline.block? id = some block →
          block.position.column ⌈/⌉ 4 ≤ outline.depth id) ∧
        ∃ block ∈ outline.blocks, Entry.property "top" "0" ⟨6, 4⟩ ∈ block.entries := by
  intro source
  have four : Line.unit (Line.ofSource source) = 4 := by decide +kernel
  have steps : Line.StepsWithin (Line.unit (Line.ofSource source)) (Line.ofSource source) := by
    decide +kernel
  obtain ⟨outline, parsed, covered, kept⟩ := parse_coversColumns source steps
  obtain ⟨other, parsedOther, depths⟩ := exists_of_view
    (fun outline => outline.numbered.map fun (id, block) =>
      (block.position.column, outline.depth id))
    (show (Outline.parse source).toOption.map _ =
      some [(0, 0), (4, 1), (2, 1), (6, 2), (3, 2), (4, 3)] by decide +kernel)
  have same : other = outline := Except.ok.inj (parsedOther.symm.trans parsed)
  rw [four] at steps covered
  refine ⟨steps, outline, parsed, same ▸ depths, covered, ?_⟩
  exact kept ⟨6, 4, "top: 0".toList⟩ (by decide +kernel) (by decide) _ (by decide +kernel)

end Outline
end StyleOrder
