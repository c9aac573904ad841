import StyleOrder.Proofs.Nesting.Offside
import StyleOrder.Proofs.Outline.Relocation
import StyleOrder.Proofs.Sheet.Sources

namespace StyleOrder

/-!
# Sheets that follow one another

When a second sheet is read after a first one, three things are carried over the
seam: the unit, the place and the block opened last.  A sheet that steps by its
unit gives up its place at the first line of the next sheet, which stands at the
margin.  Its last block stays the one that a wider line would enter, but the next
sheet opens a block of its own before it has such a line, or else it could not be
read by itself.  And the units agree, or one of the sheets never uses its own.

So the second sheet is read as it would be read alone, with all numbers counted on
from the first.
-/

namespace Nesting

open Sheet (Line)

/-! ## Two readings side by side -/

/-- The outer reading has an outline in front of what the inner reading has, and is
at the same place otherwise. -/
structure Beside (first : Outline) (move : Position → Position) (inner outer : Nesting) : Prop where
  outline : outer.outline = first.followedBy move inner.outline
  body : outer.body = inner.body.map (· + first.size)
  /-- Before the inner reading has opened a block, nothing is said about the outer one. -/
  latest : ∀ id, inner.latest = some id → outer.latest = some (id + first.size)

namespace Beside

variable {first : Outline} {move : Position → Position} {inner outer : Nesting}

theorem selector (beside : Beside first move inner outer) : outer.selector = inner.selector := by
  unfold Nesting.selector
  rw [beside.body, beside.outline]
  cases inner.body with
  | none => rfl
  | some id =>
      simp only [Option.map_some, Option.bind_some, Outline.block?_followedBy_add, Option.map_map]
      rfl

theorem openBlock (beside : Beside first move inner outer) (kind : BlockKind)
    (name selector : String) (position : Position) :
    Beside first move (inner.openBlock kind name selector position)
      (outer.openBlock kind name selector (move position)) where
  outline := by
    simp only [Nesting.openBlock, beside.outline, beside.body, Outline.push_followedBy]
  body := beside.body
  latest id found := by
    cases found
    simp only [Nesting.openBlock, beside.outline, Outline.size_followedBy]

theorem addEntry (beside : Beside first move inner outer) (entry : Entry) :
    Beside first move (inner.addEntry entry) (outer.addEntry (entry.relocate move)) := by
  cases inBody : inner.body with
  | none =>
      have outside : outer.body = none := by
        rw [beside.body, inBody]
        rfl
      simpa only [Nesting.addEntry, inBody, outside] using beside
  | some target =>
      have within : outer.body = some (target + first.size) := by
        rw [beside.body, inBody]
        rfl
      simp only [Nesting.addEntry, inBody, within]
      refine ⟨?_, rfl, beside.latest⟩
      simp only [beside.outline, Outline.addEntry_followedBy]

theorem apply (beside : Beside first move inner outer) (position : Position) (mark : Sheet.Mark) :
    Beside first move (inner.apply position mark) (outer.apply (move position) mark) := by
  cases mark with
  | selector fragment =>
      simp only [Nesting.apply, beside.selector]
      exact beside.openBlock _ _ _ position
  | mixin => exact beside.addEntry (.mixin position)
  | atRule name =>
      simp only [Nesting.apply, beside.selector]
      exact beside.openBlock _ _ _ position
  | placeholder name => exact beside.openBlock _ _ _ position
  | property name value => exact beside.addEntry (.property name value position)

theorem foldl_apply (beside : Beside first move inner outer) (position : Position)
    (marks : List Sheet.Mark) :
    Beside first move (marks.foldl (Nesting.apply position) inner)
      (marks.foldl (Nesting.apply (move position)) outer) := by
  induction marks generalizing inner outer with
  | nil => exact beside
  | cons mark others ih => exact ih (beside.apply position mark)

/-- Taking in a line keeps two readings side by side. -/
theorem absorb (beside : Beside first move inner outer) {line moved : Line}
    (text : moved.text = line.text) (position : moved.position = move line.position) :
    Beside first move (inner.absorb line) (outer.absorb moved) := by
  unfold Nesting.absorb
  rw [text, position]
  have widened : Beside first move { inner with width := line.width }
      { outer with width := moved.width } := ⟨beside.outline, beside.body, beside.latest⟩
  exact widened.foldl_apply line.position _

/-- Walking up in the second outline does not notice the first. -/
theorem leave_followedBy (second : Outline) (count : Nat) (body : Option Nat) :
    leave (first.followedBy move second) count (body.map (· + first.size)) =
      (leave second count body).map (Option.map (· + first.size)) := by
  induction count generalizing body with
  | zero => rfl
  | succ count ih =>
      cases body with
      | none => rfl
      | some id =>
          rw [leave, Option.map_some, leave, Outline.parent?_followedBy_add]
          exact ih _

/-- Where the inner reading places a line, there the outer one does, provided that
both leave the same number of blocks. -/
theorem enters (beside : Beside first move inner outer) (sameWidth : outer.width = inner.width)
    {width : Nat} {body : Option Nat}
    (sameSteps : width < inner.width → outer.steps width = inner.steps width)
    (enters : inner.Enters width body) : outer.Enters width (body.map (· + first.size)) := by
  cases enters with
  | leave narrower reached =>
      apply Enters.leave
      · rwa [sameWidth]
      · rw [sameSteps narrower, beside.outline, beside.body, leave_followedBy, reached,
          Option.map_some]
  | stay same =>
      rw [← beside.body]
      exact Enters.stay (same.trans sameWidth.symm)
  | enter wider opened =>
      apply Enters.enter
      · rwa [sameWidth]
      · exact beside.latest _ opened

theorem fixUnit (beside : Beside first move inner outer) (width : Nat) :
    Beside first move (inner.fixUnit width) (outer.fixUnit width) := by
  rw [fixUnit_eq, fixUnit_eq]
  exact ⟨beside.outline, beside.body, beside.latest⟩

theorem withBody (beside : Beside first move inner outer) (body : Option Nat) :
    Beside first move { inner with body } { outer with body := body.map (· + first.size) } :=
  ⟨beside.outline, rfl, beside.latest⟩

end Beside

/-! ## Across the seam -/

/-- The first line of a sheet stands at the margin, outside every block. -/
theorem Enters.of_start {width : Nat} {body : Option Nat}
    (enters : (Nesting.start.fixUnit width).Enters width body) : width = 0 ∧ body = none := by
  cases enters with
  | leave narrower reached =>
      rw [width_fixUnit] at narrower
      exact absurd narrower (Nat.not_lt_zero width)
  | stay same =>
      rw [width_fixUnit] at same
      exact ⟨same, body_fixUnit _ _⟩
  | enter wider opened =>
      rw [latest_fixUnit] at opened
      cases opened

theorem firstIndent?_map_down (count : Nat) (lines : List Line) :
    Line.firstIndent? (lines.map (Line.down count)) = Line.firstIndent? lines := by
  rw [Line.firstIndent?, List.map_map]
  rfl

section Seam

variable {unit count : Nat} {before : List Placement} {reached : Nesting}
  (runBefore : Run before reached)
  (indentBefore : ∀ indent, Line.firstIndent? (before.map Placement.line) = some indent →
    indent = unit)

include runBefore indentBefore

/-- After a sheet that steps by its unit, a line at the margin is outside every block. -/
theorem enters_margin (offside : Offside unit before reached) (positive : 0 < unit)
    (numbered : (before.map Placement.line).Pairwise fun line later => line.number < later.number)
    (steps : Line.StepsBy unit (before.map Placement.line)) {line : Line}
    (margin : line.width = 0) : (reached.fixUnit line.width).Enters line.width none := by
  have entered :=
    (offside.enters runBefore positive numbered indentBefore (steps.concat_margin margin)).1
  have outside : reached.outline.nearest? line.width = none := by
    rw [margin]
    exact Outline.nearest?_zero _
  rwa [outside] at entered

omit indentBefore in
/-- The first line of the second sheet gives up the place in the first. -/
theorem follow_first {line : Line}
    (outside : (reached.fixUnit line.width).Enters line.width none) :
    ∃ outer, Run (before ++ [⟨line.down count, none⟩]) outer ∧
      Beside reached.outline (Position.down count)
        ({ Nesting.start.fixUnit line.width with body := none }.absorb line) outer ∧
      outer.width = line.width := by
  refine ⟨_, runBefore.line (line.down count) outside, ?_, (absorb_kept _ _).2.2⟩
  apply Beside.absorb
  · refine ⟨?_, rfl, ?_⟩
    · simp only [outline_fixUnit]
      exact (Outline.followedBy_empty _ _).symm
    · intro id found
      simp only [latest_fixUnit] at found
      cases found
  · rfl
  · rfl

omit runBefore in
/-- A further line of the second sheet is placed where it would be placed alone.  Both
readings count in the same unit once they have to count. -/
theorem follow_next {placements more : List Placement} {inner outer : Nesting}
    (run : Run placements inner) (runOuter : Run (before ++ more) outer)
    (lines : more.map Placement.line = (placements.map Placement.line).map (Line.down count))
    (beside : Beside reached.outline (Position.down count) inner outer)
    (width : outer.width = inner.width)
    (indent : ∀ indent, Line.firstIndent? (placements.map Placement.line) = some indent →
      indent = unit)
    {line : Line} {body : Option Nat} (enters : (inner.fixUnit line.width).Enters line.width body) :
    ∃ next, Run (before ++ (more ++ [⟨line.down count, body.map (· + reached.outline.size)⟩])) next ∧
      Beside reached.outline (Position.down count)
        ({ inner.fixUnit line.width with body }.absorb line) next ∧
      next.width = line.width := by
  have indentOuter : ∀ indent,
      Line.firstIndent? ((before ++ more).map Placement.line) = some indent → indent = unit := by
    intro first found
    rw [List.map_append, lines, Line.firstIndent?_or, firstIndent?_map_down,
      Option.or_eq_some_iff] at found
    rcases found with found | ⟨-, found⟩
    · exact indentBefore first found
    · exact indent first found
  have sameSteps : line.width < (inner.fixUnit line.width).width →
      (outer.fixUnit line.width).steps line.width = (inner.fixUnit line.width).steps line.width := by
    intro narrower
    rw [width_fixUnit] at narrower
    rw [run.steps_eq narrower indent, runOuter.steps_eq (width ▸ narrower) indentOuter, width]
  have entersOuter := (beside.fixUnit line.width).enters
    (by rw [width_fixUnit, width_fixUnit, width]) sameSteps enters
  have runNext := runOuter.line (line.down count) entersOuter
  rw [List.append_assoc] at runNext
  refine ⟨_, runNext, ?_, (absorb_kept _ _).2.2⟩
  exact ((beside.fixUnit line.width).withBody body).absorb rfl rfl

/-- What is read after a sheet that steps by its unit is read as it would be alone. -/
theorem Run.follow (offside : Offside unit before reached) (positive : 0 < unit)
    (numbered : (before.map Placement.line).Pairwise fun line later => line.number < later.number)
    (steps : Line.StepsBy unit (before.map Placement.line))
    {placements : List Placement} {inner : Nesting} (run : Run placements inner)
    (indent : ∀ indent, Line.firstIndent? (placements.map Placement.line) = some indent →
      indent = unit)
    (read : placements ≠ []) :
    ∃ more outer, Run (before ++ more) outer ∧
      more.map Placement.line = (placements.map Placement.line).map (Line.down count) ∧
      Beside reached.outline (Position.down count) inner outer ∧ outer.width = inner.width := by
  induction run with
  | start => exact absurd rfl read
  | @line placements inner earlier line body enters ih =>
      rw [List.map_append, List.map_singleton] at indent
      have width := (absorb_kept { inner.fixUnit line.width with body } line).2.2
      -- Only the first line is placed by what the first sheet left behind.
      by_cases first : placements = []
      · have fresh := earlier.eq_start first
        subst first fresh
        rcases enters.of_start with ⟨margin, rfl⟩
        rcases follow_first runBefore
          (enters_margin runBefore indentBefore offside positive numbered steps margin) with
          ⟨outer, runOuter, beside, sameWidth⟩
        exact ⟨_, outer, runOuter, rfl, beside, sameWidth.trans width.symm⟩
      · have indentEarlier : ∀ indent,
            Line.firstIndent? (placements.map Placement.line) = some indent → indent = unit :=
          fun _ found => indent _ (Line.firstIndent?_of_concat found)
        rcases ih indentEarlier first with ⟨more, outer, runOuter, lines, beside, sameWidth⟩
        rcases follow_next indentBefore earlier runOuter lines beside sameWidth
          indentEarlier enters with ⟨next, runNext, besideNext, nextWidth⟩
        refine ⟨_, next, runNext, ?_, besideNext, nextWidth.trans width.symm⟩
        rw [List.map_append, List.map_append, List.map_append, lines]
        rfl

end Seam
end Nesting

namespace Outline

open Sheet (Line)
open Nesting (Run Placement Offside)

/-- One unit serves two sheets, unless both are indented and differ. -/
theorem exists_common_unit {lines others : List Line}
    (steps : Line.StepsBy (Line.unit lines) lines)
    (units : ∀ indent ∈ Line.firstIndent? lines, ∀ other ∈ Line.firstIndent? others,
      indent = other) :
    ∃ unit, 0 < unit ∧ Line.StepsBy unit lines ∧
      (∀ indent, Line.firstIndent? lines = some indent → indent = unit) ∧
      ∀ indent, Line.firstIndent? others = some indent → indent = unit := by
  cases found : Line.firstIndent? lines with
  | some indent =>
      have same := Line.eq_unit_of_firstIndent? found
      refine ⟨indent, Line.firstIndent?_pos found, same ▸ steps, ?_, ?_⟩
      · intro other again
        exact (Option.some.inj again).symm
      · intro other foundOther
        exact (units indent found other foundOther).symm
  | none =>
      refine ⟨Line.unit others, Line.unit_pos others, steps.of_flat found _, ?_, ?_⟩
      · intro indent again
        cases again
      · intro indent foundOther
        exact Line.eq_unit_of_firstIndent? foundOther

/-- After a sheet that steps by its unit, any sheet in the same unit is parsed as it
would be alone. -/
theorem parse_append {first second : String} (ended : Text.Ended first.toList)
    (steps : Line.StepsBy (Line.unit (Line.ofSource first)) (Line.ofSource first))
    (units : ∀ indent ∈ Line.firstIndent? (Line.ofSource first),
      ∀ other ∈ Line.firstIndent? (Line.ofSource second), indent = other)
    {below : Outline} (parsed : Outline.parse second = .ok below) :
    ∃ above, Outline.parse first = .ok above ∧
      Outline.parse (first ++ second) =
        .ok (above.followedBy (Position.down (Text.lines first.toList).length) below) := by
  rcases exists_common_unit steps units with ⟨unit, positive, stepsUnit, indentFirst, indentSecond⟩
  have numbered := Line.ofSource_ascends first
  rcases Nesting.exists_offside_run positive numbered indentFirst stepsUnit with
    ⟨before, reached, runBefore, linesBefore, offside⟩
  rcases (parse_eq_ok_iff second below).mp parsed with ⟨placements, inner, run, read, rfl⟩
  refine ⟨reached.outline,
    (parse_eq_ok_iff first _).mpr ⟨before, reached, runBefore, linesBefore, rfl⟩, ?_⟩
  apply (parse_eq_ok_iff (first ++ second) _).mpr
  rw [Line.ofSource_append ended, ← linesBefore, ← read]
  by_cases empty : placements = []
  · have fresh := run.eq_start empty
    subst empty fresh
    exact ⟨before, reached, runBefore, (List.append_nil _).symm, (followedBy_empty _ _).symm⟩
  · rw [← linesBefore] at numbered indentFirst stepsUnit
    rw [← read] at indentSecond
    rcases Run.follow runBefore indentFirst offside positive numbered stepsUnit run indentSecond
      empty with ⟨more, outer, runOuter, lines, beside, -⟩
    refine ⟨before ++ more, outer, runOuter, ?_, beside.outline⟩
    rw [List.map_append, lines]

end Outline
end StyleOrder
