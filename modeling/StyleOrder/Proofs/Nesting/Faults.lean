import Mathlib.Data.List.Induction
import StyleOrder.Proofs.Nesting.Growth

namespace StyleOrder

/-!
# Which sheets are malformed, and where

A fault is raised in the middle of reading, by what is remembered there.  Whether a
sheet has a line that nothing encloses can be told from its text nevertheless.  As long
as no line is indented and none opens a block, every line can be placed, and there is
nothing to enter.  The first line that is indented then decides: it is the only one
that can be found without an enclosing block, and it is unless a line above it opens
one.

The other fault needs a line that goes back, so it stands on a line that is narrower
than the one before it.
-/

namespace Nesting

open Sheet (Line)

namespace Run

variable {placements : List Placement} {nesting : Nesting}

/-- As long as no line opens a block, all lines stand at the margin. -/
theorem flush_of_no_opener (run : Run placements nesting)
    (closed : ∀ placement ∈ placements, placement.line.opens = false) :
    (∀ placement ∈ placements, placement.line.width = 0) ∧ nesting.width = 0 := by
  induction run with
  | start => exact ⟨fun _ member => (List.not_mem_nil member).elim, rfl⟩
  | @line placements nesting read line body enters ih =>
      have closedBefore : ∀ placement ∈ placements, placement.line.opens = false :=
        fun placement member => closed placement (List.mem_append_left _ member)
      rcases ih closedBefore with ⟨flush, margin⟩
      have here : line.width = 0 := by
        by_contra indented
        have wider : (nesting.fixUnit line.width).width < line.width := by
          rw [width_fixUnit, margin]
          exact Nat.pos_of_ne_zero indented
        rcases enters.of_wider wider with ⟨id, opened, -⟩
        rw [latest_fixUnit, read.latest_eq_none_iff.mpr closedBefore] at opened
        cases opened
      refine ⟨?_, (absorb_kept _ line).2.2.trans here⟩
      intro placement member
      rcases List.mem_append.mp member with old | new
      · exact flush placement old
      · rw [List.mem_singleton.mp new]
        exact here

/-- Lines at the margin can always be placed. -/
theorem exists_of_flush {lines : List Line} (flush : ∀ line ∈ lines, line.width = 0) :
    ∃ placements nesting, Run placements nesting ∧ placements.map Placement.line = lines ∧
      nesting.width = 0 := by
  induction lines using List.reverseRecOn with
  | nil => exact ⟨[], Nesting.start, .start, rfl, rfl⟩
  | append_singleton before line ih =>
      have here : line.width = 0 := flush line (by simp)
      rcases ih fun earlier member => flush earlier (List.mem_append_left _ member) with
        ⟨placements, nesting, read, same, margin⟩
      have stays : (nesting.fixUnit line.width).Enters line.width
          (nesting.fixUnit line.width).body := .stay (by rw [width_fixUnit, here, margin])
      exact ⟨_, _, read.line line stays, by rw [List.map_append, same]; rfl,
        (absorb_kept _ line).2.2.trans here⟩

end Run
end Nesting

namespace Outline

open Sheet (Line)
open Nesting (Run Placement)

/-- A source is malformed exactly when there is a run up to a line that cannot be placed. -/
theorem parse_eq_error_iff_run (source : String) (malformed : Malformed) :
    Outline.parse source = .error malformed ↔
      ∃ placements nesting line after fault, Run placements nesting ∧
        Line.ofSource source = placements.map Placement.line ++ line :: after ∧
        (nesting.fixUnit line.width).Fails line.width fault ∧
        malformed = .ofLine line fault := by
  constructor
  · intro failed
    rcases Nesting.exists_first_fault ((parse_eq_error_iff source malformed).mp failed) with
      ⟨index, raw, line, nesting, found, read, accepted, refused⟩
    rcases Run.start.extend accepted with ⟨placements, same, run⟩
    rcases Nesting.fails_of_step refused with ⟨fault, rfl, fails⟩
    have split := Line.readFrom_split found read
    rw [← same] at split
    exact ⟨placements, nesting, line, _, fault, run, split, fails, rfl⟩
  · rintro ⟨placements, nesting, line, after, fault, run, lines, fails, rfl⟩
    rw [parse_eq_error_iff, lines, List.foldlM_append, run.foldlM_eq]
    change (nesting.step line >>= fun next => after.foldlM Nesting.step next) = _
    rw [Nesting.step_of_fails fails]
    rfl

/-- The line at which the first fault is found, by the fault. -/
theorem fault_cases {placements : List Placement} {nesting : Nesting}
    (run : Run placements nesting) {width : Nat} {fault : Fault}
    (fails : (nesting.fixUnit width).Fails width fault) :
    (fault = .noEnclosingBlock ∧ width ≠ 0 ∧ ∀ earlier ∈ placements.map Placement.line,
        earlier.width = 0 ∧ earlier.opens = false) ∨
      (fault = .pastTopLevel ∧ ∃ before previous,
        placements.map Placement.line = before ++ [previous] ∧ width < previous.width) := by
  cases fails with
  | enter wider unopened =>
      rw [Nesting.width_fixUnit] at wider
      rw [Nesting.latest_fixUnit] at unopened
      have closed := run.latest_eq_none_iff.mp unopened
      have flush := (run.flush_of_no_opener closed).1
      refine Or.inl ⟨rfl, Nat.ne_of_gt (Nat.zero_lt_of_lt wider), ?_⟩
      intro earlier member
      rcases List.mem_map.mp member with ⟨placement, placed, rfl⟩
      exact ⟨flush placement placed, closed placement placed⟩
  | leave narrower outside =>
      rw [Nesting.width_fixUnit, run.width_eq] at narrower
      rcases List.eq_nil_or_concat (placements.map Placement.line) with
        empty | ⟨before, previous, last⟩
      · rw [empty] at narrower
        exact absurd narrower (Nat.not_lt_zero width)
      · rw [List.concat_eq_append] at last
        rw [last, List.getLast?_concat] at narrower
        exact Or.inr ⟨rfl, before, previous, last, narrower⟩

/-- Below lines at the margin that open no block, an indented line cannot be placed. -/
theorem parse_eq_error_of_unopened {source : String} {before after : List Line} {line : Line}
    (lines : Line.ofSource source = before ++ line :: after)
    (margin : ∀ earlier ∈ before, earlier.width = 0 ∧ earlier.opens = false)
    (indented : line.width ≠ 0) :
    Outline.parse source = .error (.ofLine line .noEnclosingBlock) := by
  rcases Run.exists_of_flush fun earlier member => (margin earlier member).1 with
    ⟨placements, nesting, run, same, zero⟩
  have unopened : nesting.latest = none := by
    apply run.latest_eq_none_iff.mpr
    intro placement placed
    exact (margin placement.line (same ▸ List.mem_map_of_mem placed)).2
  have fails : (nesting.fixUnit line.width).Fails line.width .noEnclosingBlock := by
    apply Nesting.Fails.enter
    · rw [Nesting.width_fixUnit, zero]
      exact Nat.pos_of_ne_zero indented
    · rw [Nesting.latest_fixUnit, unopened]
  exact (parse_eq_error_iff_run source _).mpr
    ⟨placements, nesting, line, after, _, run, by rw [same, lines], fails, rfl⟩

/-- A line without enclosing block is found exactly where the first indented line of a
source comes before every line that opens a block, and it is that line.  Every other
fault is a line that leaves more blocks than it is in, and that line is narrower than
the one before it. -/
theorem parse_faults (source : String) (malformed : Malformed) :
    ((Outline.parse source = .error malformed ∧
        malformed.fault.reason = "indented line has no enclosing node") ↔
      ∃ before line after, Line.ofSource source = before ++ line :: after ∧
        (∀ earlier ∈ before, earlier.width = 0 ∧ earlier.opens = false) ∧
        line.width ≠ 0 ∧ malformed = .ofLine line .noEnclosingBlock) ∧
    (Outline.parse source = .error malformed →
      malformed.fault.reason ≠ "indented line has no enclosing node" →
      malformed.fault.reason = "dedent past the top level" ∧
      ∃ before previous line after, Line.ofSource source = before ++ previous :: line :: after ∧
        line.width < previous.width ∧ malformed = .ofLine line .pastTopLevel) := by
  refine ⟨⟨?_, ?_⟩, ?_⟩
  · rintro ⟨failed, reason⟩
    rcases (parse_eq_error_iff_run source malformed).mp failed with
      ⟨placements, nesting, line, after, fault, run, lines, fails, rfl⟩
    rcases fault_cases run fails with ⟨rfl, indented, margin⟩ | ⟨rfl, -⟩
    · exact ⟨_, line, after, lines, margin, indented, rfl⟩
    · exact absurd reason (show Fault.pastTopLevel.reason ≠ _ by decide)
  · rintro ⟨before, line, after, lines, margin, indented, rfl⟩
    exact ⟨parse_eq_error_of_unopened lines margin indented, rfl⟩
  · intro failed other
    rcases (parse_eq_error_iff_run source malformed).mp failed with
      ⟨placements, nesting, line, after, fault, run, lines, fails, rfl⟩
    rcases fault_cases run fails with ⟨rfl, -⟩ | ⟨rfl, before, previous, last, narrower⟩
    · exact absurd rfl other
    · refine ⟨rfl, before, previous, line, after, ?_, narrower, rfl⟩
      rw [lines, last, List.append_assoc]
      rfl

/-- An indented line below a comment and a line at the margin that opens no block, and a
line that goes back four units out of two blocks. -/
theorem parse_faults_both :
    (let source := "// c\n\n:root\n  .a\n"
      let malformed : Malformed := ⟨⟨4, 2⟩, .noEnclosingBlock, ".a"⟩
      Outline.parse source = .error malformed ∧
        ∃ before line after, Line.ofSource source = before ++ line :: after ∧
          (∀ earlier ∈ before, earlier.width = 0 ∧ earlier.opens = false) ∧
          line.width ≠ 0 ∧ malformed = .ofLine line .noEnclosingBlock) ∧
    (let source := ".a\n  .b\n         .c\n .d"
      let malformed : Malformed := ⟨⟨4, 1⟩, .pastTopLevel, ".d"⟩
      Outline.parse source = .error malformed ∧
        ∃ before previous line after, Line.ofSource source = before ++ previous :: line :: after ∧
          line.width < previous.width ∧ malformed = .ofLine line .pastTopLevel) := by
  refine ⟨?_, ?_⟩
  · intro source malformed
    have failed : Outline.parse source = .error malformed := by decide +kernel
    exact ⟨failed, (parse_faults source malformed).1.mp ⟨failed, rfl⟩⟩
  · intro source malformed
    have failed : Outline.parse source = .error malformed := by decide +kernel
    exact ⟨failed, ((parse_faults source malformed).2 failed (by decide)).2⟩

end Outline
end StyleOrder
