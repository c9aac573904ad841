import Mathlib.Logic.Relation
import StyleOrder.Proofs.Nesting.Faults

namespace StyleOrder

/-!
# Every moment of reading

A line is taken in by several small moves, and each of them changes what is
remembered: the unit is fixed, blocks are left one after the other or the latest
one is entered, the width is noted, and marks are applied one by one.  A moment is
what is remembered after some of these moves, with what is still to be done.

The number of blocks to leave is a difference divided by the unit.  That the unit
is there and is not zero is not checked where it is used.  It follows from what
holds at every moment: the unit is the first indentation among the lines taken up,
so it is missing only while all of them stand at the margin, and then there is
nothing to leave.
-/

namespace Nesting

open Sheet (Line Mark)

/-- What is still to be done with the line that is being taken in. -/
inductive Task where
  /-- There is no such line. -/
  | idle
  /-- The unit has been fixed, and the line is to be placed. -/
  | place (line : Line)
  /-- The line goes back, and some blocks are still to be left. -/
  | leave (line : Line) (count : Nat)
  /-- The line has been placed, and its width is to be noted. -/
  | settle (line : Line)
  /-- Some marks of the line are still to be applied. -/
  | mark (position : Position) (marks : List Mark)

namespace Task

/-- The line that is not yet placed, or whose width is not yet noted. -/
def line? : Task → Option Line
  | place line | leave line _ | settle line => some line
  | idle | mark _ _ => none

/-- How many blocks the task can still open. -/
def openings : Task → Nat
  | idle => 0
  | place _ | leave _ _ | settle _ => 1
  | mark _ marks => (marks.filter Mark.opens).length

end Task

/-- What is remembered at some point of reading, the lines taken up until then, the
present one included, and what is ahead. -/
structure Moment where
  read : List Line
  ahead : List Line
  task : Task
  nesting : Nesting

namespace Moment

/-- Nothing has been read. -/
def first (lines : List Line) : Moment where
  read := []
  ahead := lines
  task := .idle
  nesting := .start

end Moment

/-- One move.  There is none from a moment at which a line cannot be placed. -/
inductive Moves : Moment → Moment → Prop where
  | takeUp {read ahead : List Line} {nesting : Nesting} (line : Line) :
      Moves ⟨read, line :: ahead, .idle, nesting⟩
        ⟨read ++ [line], ahead, .place line, nesting.fixUnit line.width⟩
  | goBack {read ahead : List Line} {nesting : Nesting} {line : Line}
      (narrower : line.width < nesting.width) :
      Moves ⟨read, ahead, .place line, nesting⟩
        ⟨read, ahead, .leave line (nesting.steps line.width), nesting⟩
  | leave {read ahead : List Line} {nesting : Nesting} {line : Line} {count id : Nat}
      (inside : nesting.body = some id) :
      Moves ⟨read, ahead, .leave line (count + 1), nesting⟩
        ⟨read, ahead, .leave line count, { nesting with body := nesting.outline.parent? id }⟩
  | left {read ahead : List Line} {nesting : Nesting} {line : Line} :
      Moves ⟨read, ahead, .leave line 0, nesting⟩ ⟨read, ahead, .settle line, nesting⟩
  | stay {read ahead : List Line} {nesting : Nesting} {line : Line}
      (same : line.width = nesting.width) :
      Moves ⟨read, ahead, .place line, nesting⟩ ⟨read, ahead, .settle line, nesting⟩
  | enter {read ahead : List Line} {nesting : Nesting} {line : Line} {id : Nat}
      (wider : nesting.width < line.width) (opened : nesting.latest = some id) :
      Moves ⟨read, ahead, .place line, nesting⟩
        ⟨read, ahead, .settle line, { nesting with body := some id }⟩
  | settle {read ahead : List Line} {nesting : Nesting} {line : Line} :
      Moves ⟨read, ahead, .settle line, nesting⟩
        ⟨read, ahead, .mark line.position (Mark.ofText line.text),
          { nesting with width := line.width }⟩
  | mark {read ahead : List Line} {nesting : Nesting} {position : Position} {mark : Mark}
      {marks : List Mark} :
      Moves ⟨read, ahead, .mark position (mark :: marks), nesting⟩
        ⟨read, ahead, .mark position marks, nesting.apply position mark⟩
  | done {read ahead : List Line} {nesting : Nesting} {position : Position} :
      Moves ⟨read, ahead, .mark position [], nesting⟩ ⟨read, ahead, .idle, nesting⟩

/-- Any number of moves. -/
def Leads : Moment → Moment → Prop :=
  Relation.ReflTransGen Moves

/-- The moments of reading some lines. -/
def Reaches (lines : List Line) (moment : Moment) : Prop :=
  Leads (.first lines) moment

/-- The moments at which a line turns out to be malformed. -/
inductive Moment.Faults : Moment → Malformed → Prop where
  | pastTopLevel {read ahead : List Line} {nesting : Nesting} {line : Line} {count : Nat}
      (outside : nesting.body = none) :
      Faults ⟨read, ahead, .leave line (count + 1), nesting⟩ (.ofLine line .pastTopLevel)
  | noEnclosingBlock {read ahead : List Line} {nesting : Nesting} {line : Line}
      (wider : nesting.width < line.width) (unopened : nesting.latest = none) :
      Faults ⟨read, ahead, .place line, nesting⟩ (.ofLine line .noEnclosingBlock)

/-! ## Moves make up the reading of lines -/

/-- What finishing a task gives. -/
def Task.finish (nesting : Nesting) : Task → Except Malformed Nesting
  | idle => .ok nesting
  | place line => (nesting.place line).map (absorb · line)
  | leave line count =>
      match Nesting.leave nesting.outline count nesting.body with
      | some body => .ok ({ nesting with body }.absorb line)
      | none => .error (.ofLine line .pastTopLevel)
  | settle line => .ok (nesting.absorb line)
  | mark position marks => .ok (marks.foldl (apply position) nesting)

/-- What reading on to the end gives. -/
def Moment.outcome (moment : Moment) : Except Malformed Nesting :=
  moment.task.finish moment.nesting >>= fun nesting => moment.ahead.foldlM step nesting

theorem Moment.Faults.outcome_eq {moment : Moment} {malformed : Malformed}
    (faults : moment.Faults malformed) : moment.outcome = .error malformed := by
  cases faults with
  | pastTopLevel outside =>
      dsimp only [Moment.outcome, Task.finish]
      rw [outside]
      rfl
  | noEnclosingBlock wider unopened =>
      dsimp only [Moment.outcome, Task.finish]
      rw [place_of_fails (.enter wider unopened)]
      rfl

/-- A move leaves the outcome as it is. -/
theorem Moves.outcome_eq {moment next : Moment} (moves : Moves moment next) :
    next.outcome = moment.outcome := by
  cases moves with
  | takeUp line =>
      dsimp only [Moment.outcome, Task.finish]
      rw [← step_eq]
      rfl
  | @goBack read ahead nesting line narrower =>
      dsimp only [Moment.outcome, Task.finish]
      rw [place, if_pos narrower]
      cases Nesting.leave nesting.outline (nesting.steps line.width) nesting.body <;> rfl
  | leave inside =>
      dsimp only [Moment.outcome, Task.finish]
      rw [inside]
      rfl
  | stay same =>
      dsimp only [Moment.outcome, Task.finish]
      rw [place_of_enters (.stay same)]
      rfl
  | enter wider opened =>
      dsimp only [Moment.outcome, Task.finish]
      rw [place_of_enters (.enter wider opened)]
      rfl
  | left | settle | mark | done => rfl

theorem Leads.outcome_eq {moment later : Moment} (leads : Leads moment later) :
    later.outcome = moment.outcome := by
  induction leads with
  | refl => rfl
  | tail _ moves ih => rw [moves.outcome_eq, ih]

/-- Leaving blocks one by one gets to where leaving them at once does. -/
theorem leads_leave {read ahead : List Line} {line : Line} {nesting : Nesting} {count : Nat}
    {body : Option Nat} (reached : leave nesting.outline count nesting.body = some body) :
    Leads ⟨read, ahead, .leave line count, nesting⟩
      ⟨read, ahead, .settle line, { nesting with body }⟩ := by
  induction count generalizing nesting with
  | zero =>
      obtain rfl : nesting.body = body := Option.some.inj reached
      exact .single .left
  | succ count ih =>
      cases inside : nesting.body with
      | none =>
          rw [inside] at reached
          cases reached
      | some id =>
          rw [inside] at reached
          exact .head (.leave inside)
            (@ih { nesting with body := nesting.outline.parent? id } reached)

/-- If the blocks run out, they do so at some moment. -/
theorem exists_fault_of_leave {read ahead : List Line} {line : Line} {nesting : Nesting}
    {count : Nat} (outside : leave nesting.outline count nesting.body = none) :
    ∃ moment, Leads ⟨read, ahead, .leave line count, nesting⟩ moment ∧
      moment.Faults (.ofLine line .pastTopLevel) := by
  induction count generalizing nesting with
  | zero => cases outside
  | succ count ih =>
      cases inside : nesting.body with
      | none => exact ⟨_, .refl, .pastTopLevel inside⟩
      | some id =>
          rw [inside] at outside
          rcases @ih { nesting with body := nesting.outline.parent? id } outside with
            ⟨moment, leads, faults⟩
          exact ⟨moment, .head (.leave inside) leads, faults⟩

theorem leads_mark {read ahead : List Line} {position : Position} {nesting : Nesting}
    (marks : List Mark) :
    Leads ⟨read, ahead, .mark position marks, nesting⟩
      ⟨read, ahead, .idle, marks.foldl (apply position) nesting⟩ := by
  induction marks generalizing nesting with
  | nil => exact .single .done
  | cons mark marks ih => exact .head .mark ih

theorem leads_settle {read ahead : List Line} {line : Line} {nesting : Nesting} :
    Leads ⟨read, ahead, .settle line, nesting⟩ ⟨read, ahead, .idle, nesting.absorb line⟩ :=
  .head .settle (leads_mark _)

theorem leads_place {read ahead : List Line} {line : Line} {nesting : Nesting}
    {body : Option Nat} (enters : nesting.Enters line.width body) :
    Leads ⟨read, ahead, .place line, nesting⟩
      ⟨read, ahead, .settle line, { nesting with body }⟩ := by
  cases enters with
  | leave narrower reached => exact .head (.goBack narrower) (leads_leave reached)
  | stay same => exact .single (.stay same)
  | enter wider opened => exact .single (.enter wider opened)

/-- Every run is made up of moves. -/
theorem Run.reaches {placements : List Placement} {nesting : Nesting}
    (run : Run placements nesting) (ahead : List Line) :
    Reaches (placements.map Placement.line ++ ahead)
      ⟨placements.map Placement.line, ahead, .idle, nesting⟩ := by
  induction run generalizing ahead with
  | start => exact .refl
  | line read line enters ih =>
      rw [List.map_append, List.map_singleton, List.append_assoc, List.singleton_append]
      exact (ih (line :: ahead)).trans (.head (.takeUp line)
        ((leads_place enters).trans leads_settle))

theorem exists_fault_of_fails {read ahead : List Line} {line : Line} {nesting : Nesting}
    {fault : Fault} (fails : nesting.Fails line.width fault) :
    ∃ moment, Leads ⟨read, ahead, .place line, nesting⟩ moment ∧
      moment.Faults (.ofLine line fault) := by
  cases fails with
  | leave narrower outside =>
      rcases exists_fault_of_leave outside with ⟨moment, leads, faults⟩
      exact ⟨moment, .head (.goBack narrower) leads, faults⟩
  | enter wider unopened => exact ⟨_, .refl, .noEnclosingBlock wider unopened⟩

/-! ## What holds at every moment -/

/-- What every move keeps.  Only lines that have been taken up count, so the unit is
the first indentation among them also while the last one is not yet placed. -/
structure Moment.Steady (moment : Moment) : Prop where
  sound : moment.nesting.Sound
  unit_eq : moment.nesting.unit = Line.firstIndent? moment.read
  unit_of_width : moment.nesting.width ≠ 0 → moment.nesting.unit ≠ none
  unit_of_body : moment.nesting.body ≠ none → moment.nesting.unit ≠ none
  taken : ∀ line, moment.task.line? = some line → line ∈ moment.read
  /-- Every line taken up opens one block at most. -/
  room : moment.nesting.outline.size + moment.task.openings ≤ moment.read.length

/-- The unit is missing only if every line stands at the margin. -/
theorem firstIndent?_eq_none_iff {lines : List Line} :
    Line.firstIndent? lines = none ↔ ∀ line ∈ lines, line.width = 0 := by
  rw [Line.firstIndent?, List.find?_eq_none, List.forall_mem_map]
  simp only [bne_iff_ne, ne_eq, Decidable.not_not]

theorem size_apply (position : Position) (nesting : Nesting) (mark : Mark) :
    (nesting.apply position mark).outline.size =
      nesting.outline.size + ([mark].filter Mark.opens).length := by
  have added := congrArg List.length (headings_foldl_apply position nesting [mark])
  rwa [List.length_append, List.length_replicate, ← Outline.size_eq_length_headings,
    ← Outline.size_eq_length_headings] at added

namespace Moment.Steady

theorem first (lines : List Line) : (Moment.first lines).Steady where
  sound := Sound.start
  unit_eq := rfl
  unit_of_width indented := absurd rfl indented
  unit_of_body inside := absurd rfl inside
  taken _ found := by cases found
  room := Nat.le_refl 0

/-- The unit is known once an indented line has been taken up. -/
theorem unit_of_line {moment : Moment} (steady : moment.Steady) {line : Line}
    (taken : line ∈ moment.read) (indented : line.width ≠ 0) : moment.nesting.unit ≠ none := by
  rw [steady.unit_eq]
  intro missing
  exact indented (firstIndent?_eq_none_iff.mp missing line taken)

theorem takeUp {read ahead : List Line} {nesting : Nesting} {line : Line}
    (steady : Moment.Steady ⟨read, line :: ahead, .idle, nesting⟩) :
    Moment.Steady ⟨read ++ [line], ahead, .place line, nesting.fixUnit line.width⟩ := by
  have known : nesting.unit ≠ none → (nesting.fixUnit line.width).unit ≠ none := by
    intro known
    rw [fixUnit_eq]
    cases fixed : nesting.unit with
    | none => exact absurd fixed known
    | some unit => exact Option.some_ne_none unit
  refine ⟨?_, ?_, ?_, ?_, ?_, ?_⟩
  · rw [fixUnit_eq]
    exact ⟨steady.sound.linked, steady.sound.body_lt, steady.sound.latest_eq⟩
  · rw [fixUnit_eq, Line.firstIndent?_append]
    exact congrArg (Option.or · _) steady.unit_eq
  · intro indented
    exact known (steady.unit_of_width (width_fixUnit nesting line.width ▸ indented))
  · intro inside
    exact known (steady.unit_of_body (body_fixUnit nesting line.width ▸ inside))
  · intro other found
    obtain rfl : line = other := Option.some.inj found
    exact List.mem_append_right _ (List.mem_singleton_self line)
  · have room := steady.room
    simp only [outline_fixUnit, Task.openings, List.length_append, List.length_singleton] at room ⊢
    omega

theorem moves {moment next : Moment} (steady : moment.Steady) (moves : Moves moment next) :
    next.Steady := by
  cases moves with
  | takeUp line => exact steady.takeUp
  | goBack | left | stay | done =>
      exact ⟨steady.sound, steady.unit_eq, steady.unit_of_width, steady.unit_of_body,
        steady.taken, steady.room⟩
  | @leave read ahead nesting line count id inside =>
      refine ⟨⟨steady.sound.linked, ?_, steady.sound.latest_eq⟩, steady.unit_eq,
        steady.unit_of_width, fun _ => steady.unit_of_body ?_, steady.taken, steady.room⟩
      · intro enclosing found
        exact Nat.lt_trans (steady.sound.linked.parent_lt id enclosing found)
          (steady.sound.body_lt id inside)
      · rw [inside]
        exact Option.some_ne_none id
  | @enter read ahead nesting line id wider opened =>
      refine ⟨⟨steady.sound.linked, ?_, steady.sound.latest_eq⟩, steady.unit_eq,
        steady.unit_of_width, fun _ => ?_, steady.taken, steady.room⟩
      · intro entered found
        obtain rfl : id = entered := Option.some.inj found
        exact steady.sound.latest_lt id opened
      · exact steady.unit_of_line (steady.taken line rfl) (Nat.ne_of_gt (Nat.zero_lt_of_lt wider))
  | @settle read ahead nesting line =>
      refine ⟨steady.sound.withWidth line.width, steady.unit_eq,
        steady.unit_of_line (steady.taken line rfl), steady.unit_of_body, nofun, ?_⟩
      have room := steady.room
      have few : ((Mark.ofText line.text).filter Mark.opens).length ≤ 1 := by
        rw [Mark.length_filter_opens_ofText]
        split <;> omega
      simp only [Task.openings] at room ⊢
      omega
  | @mark read ahead nesting position mark marks =>
      rcases apply_kept position nesting mark with ⟨body, unit, width⟩
      refine ⟨steady.sound.apply position mark, unit.trans steady.unit_eq, ?_, ?_, nofun, ?_⟩
      · simpa only [unit, width] using steady.unit_of_width
      · simpa only [unit, body] using steady.unit_of_body
      · have room := steady.room
        have split : ((mark :: marks).filter Mark.opens).length =
            ([mark].filter Mark.opens).length + (marks.filter Mark.opens).length := by
          rw [← List.length_append, ← List.filter_append, List.singleton_append]
        simp only [Task.openings, split, size_apply] at room ⊢
        omega

theorem leads {moment later : Moment} (steady : moment.Steady) (leads : Leads moment later) :
    later.Steady := by
  induction leads with
  | refl => exact steady
  | tail _ moves ih => exact ih.moves moves

end Moment.Steady

/-- A unit that has been fixed stays. -/
theorem Moves.unit_eq {moment next : Moment} (moves : Moves moment next) {unit : Nat}
    (fixed : moment.nesting.unit = some unit) : next.nesting.unit = some unit := by
  cases moves with
  | takeUp line => rw [fixUnit_eq, fixed, Option.some_or]
  | mark => rw [(apply_kept _ _ _).2.1, fixed]
  | goBack | leave | left | stay | enter | settle | done => exact fixed

theorem Leads.unit_eq {moment later : Moment} (leads : Leads moment later) {unit : Nat}
    (fixed : moment.nesting.unit = some unit) : later.nesting.unit = some unit := by
  induction leads with
  | refl => exact fixed
  | tail _ moves ih => exact moves.unit_eq ih

/-- Lines are taken up in order, and none is passed over. -/
theorem Leads.read_append_ahead {moment later : Moment} (leads : Leads moment later) :
    later.read ++ later.ahead = moment.read ++ moment.ahead := by
  induction leads with
  | refl => rfl
  | tail _ moves ih =>
      rw [← ih]
      cases moves with
      | takeUp line => rw [List.append_assoc, List.singleton_append]
      | goBack | leave | left | stay | enter | settle | mark | done => rfl

/-- A moment at which the arithmetic of indentation can do no harm. -/
structure Moment.Safe (moment : Moment) : Prop where
  /-- Without a unit nothing has been indented. -/
  unit_unset : moment.nesting.unit = none →
    (∀ line ∈ moment.read, line.width = 0) ∧ moment.nesting.width = 0 ∧ moment.nesting.body = none
  unit_pos : ∀ unit ∈ moment.nesting.unit, 0 < unit
  /-- A line that goes back is measured in the unit, which is there and is not zero.  The
  difference of the widths is exact, and the quotient no greater than the width. -/
  goBack : ∀ line, moment.task = .place line → line.width < moment.nesting.width →
    ∃ unit, moment.nesting.unit = some unit ∧ 0 < unit ∧
      moment.nesting.width - line.width + line.width = moment.nesting.width ∧
      moment.nesting.steps line.width = (moment.nesting.width - line.width) / unit ∧
      moment.nesting.steps line.width ≤ moment.nesting.width
  /-- The present body is not opened later than the latest block. -/
  body_le : ∀ id ∈ moment.nesting.body, ∃ latest ∈ moment.nesting.latest, id ≤ latest

theorem Moment.Steady.safe {moment : Moment} (steady : moment.Steady) : moment.Safe where
  unit_unset missing := by
    refine ⟨firstIndent?_eq_none_iff.mp (steady.unit_eq.symm.trans missing), ?_, ?_⟩
    · by_contra indented
      exact steady.unit_of_width indented missing
    · by_contra inside
      exact steady.unit_of_body inside missing
  unit_pos unit known := Line.firstIndent?_pos (steady.unit_eq.symm.trans known)
  goBack line _ narrower := by
    have indented : moment.nesting.width ≠ 0 := Nat.ne_of_gt (Nat.zero_lt_of_lt narrower)
    rcases Option.ne_none_iff_exists'.mp (steady.unit_of_width indented) with ⟨unit, known⟩
    have steps : moment.nesting.steps line.width = (moment.nesting.width - line.width) / unit := by
      rw [Nesting.steps, known, Option.getD_some]
    refine ⟨unit, known, Line.firstIndent?_pos (steady.unit_eq.symm.trans known),
      Nat.sub_add_cancel (Nat.le_of_lt narrower), steps, ?_⟩
    calc
      moment.nesting.steps line.width = (moment.nesting.width - line.width) / unit := steps
      _ ≤ moment.nesting.width - line.width := Nat.div_le_self _ _
      _ ≤ moment.nesting.width := Nat.sub_le _ _
  body_le id inBody := by
    have inside := steady.sound.body_lt id inBody
    cases opened : moment.nesting.latest with
    | some latest => exact ⟨latest, rfl, steady.sound.le_latest opened inside⟩
    | none =>
        rw [steady.sound.latest_eq, List.getLast?_eq_none_iff, List.range_eq_nil] at opened
        rw [opened] at inside
        exact absurd inside (Nat.not_lt_zero id)

theorem Reaches.steady {lines : List Line} {moment : Moment} (reaches : Reaches lines moment) :
    moment.Steady :=
  (Moment.Steady.first lines).leads reaches

/-- There are never more blocks than lines, so the number of a block is less than that of
the lines. -/
theorem Reaches.latest_lt {lines : List Line} {moment : Moment} (reaches : Reaches lines moment)
    {id : Nat} (opened : moment.nesting.latest = some id) : id < lines.length := by
  have taken := congrArg List.length (Leads.read_append_ahead reaches)
  have room := reaches.steady.room
  have inside := reaches.steady.sound.latest_lt id opened
  simp only [Moment.first, List.length_append, List.length_nil] at taken
  omega

end Nesting

namespace Outline

open Nesting (Reaches Leads Moment)
open Sheet (Line)

/-- Parsing is made up of moves, and ends where they end.  At every moment on the way the
unit is missing only as long as nothing is indented, and once fixed it is positive and stays.
A line that goes back is measured in it without harm, and the present body is not opened
after the latest block.  Every block has a number below that of the lines, so it fits
wherever that one does. -/
theorem parse_moments (source : String) :
    (∀ outline, Outline.parse source = .ok outline ↔
      ∃ nesting, Reaches (Line.ofSource source) ⟨Line.ofSource source, [], .idle, nesting⟩ ∧
        nesting.outline = outline) ∧
    (∀ malformed, Outline.parse source = .error malformed ↔
      ∃ moment, Reaches (Line.ofSource source) moment ∧ moment.Faults malformed) ∧
    ∀ moment, Reaches (Line.ofSource source) moment →
      moment.Safe ∧
      (∀ later, Leads moment later → ∀ unit ∈ moment.nesting.unit,
        later.nesting.unit = some unit) ∧
      ∀ id ∈ moment.nesting.latest, id < (Text.lines source.toList).length := by
  have result : ∀ moment, Reaches (Line.ofSource source) moment →
      Outline.parse source = moment.outcome.map Nesting.outline := by
    intro moment reaches
    rw [Leads.outcome_eq reaches, parse_eq_map]
    rfl
  refine ⟨fun outline => ⟨?_, ?_⟩, fun malformed => ⟨?_, ?_⟩, fun moment reaches => ⟨?_, ?_, ?_⟩⟩
  · intro parsed
    rcases (parse_eq_ok_iff source outline).mp parsed with ⟨placements, nesting, run, read, made⟩
    have reaches := run.reaches []
    rw [List.append_nil, read] at reaches
    exact ⟨nesting, reaches, made⟩
  · rintro ⟨nesting, reaches, rfl⟩
    rw [result _ reaches]
    rfl
  · intro failed
    rcases (parse_eq_error_iff_run source malformed).mp failed with
      ⟨placements, nesting, line, after, fault, run, lines, fails, rfl⟩
    rcases Nesting.exists_fault_of_fails fails with ⟨moment, leads, faults⟩
    rw [lines]
    exact ⟨moment, (run.reaches (line :: after)).trans (.head (.takeUp line) leads), faults⟩
  · rintro ⟨moment, reaches, faults⟩
    rw [result moment reaches, faults.outcome_eq]
    rfl
  · exact reaches.steady.safe
  · exact fun later leads unit fixed => Leads.unit_eq leads fixed
  · intro id opened
    exact Nat.lt_of_lt_of_le (reaches.latest_lt opened) (Line.length_readFrom_le 1 _)

/-- The last line goes back by four columns and a unit of two, out of a line that went three
columns further in. -/
theorem parse_moments_uneven :
    let source := ".a\n  .b\n     .c\n .d"
    let last : Line := ⟨4, 1, ".d".toList⟩
    ∃ moment, Reaches (Line.ofSource source) moment ∧ moment.task = .place last ∧
      moment.nesting.width = 5 ∧ moment.nesting.unit = some 2 ∧
      moment.nesting.steps last.width = 2 ∧ moment.Safe ∧
      ∀ later, Leads moment later → later.nesting.unit = some 2 := by
  intro source last
  let before := (Line.ofSource source).take 3
  have split : Line.ofSource source = before ++ [last] := by decide +kernel
  have state : (before.foldlM Nesting.step Nesting.start).toOption.map
      (fun nesting => (nesting.width, nesting.unit)) = some (5, some 2) := by decide +kernel
  cases accepted : before.foldlM Nesting.step Nesting.start with
  | error malformed =>
      rw [accepted] at state
      cases state
  | ok nesting =>
      rw [accepted] at state
      rcases Prod.mk.inj (Option.some.inj state) with ⟨width, unit⟩
      rcases Nesting.Run.start.extend accepted with ⟨placements, same, run⟩
      have reaches := (run.reaches [last]).tail (.takeUp last)
      rw [List.nil_append, same, ← split] at reaches
      have fixed : (nesting.fixUnit last.width).unit = some 2 := by
        rw [Nesting.fixUnit_eq, unit, Option.some_or]
      have deep : (nesting.fixUnit last.width).width = 5 := by rw [Nesting.width_fixUnit, width]
      have steps : (nesting.fixUnit last.width).steps last.width = 2 := by
        rw [Nesting.steps, deep, fixed]
        change (5 - 1) / 2 = 2
        decide
      rcases (parse_moments source).2.2 _ reaches with ⟨safe, stays, -⟩
      exact ⟨_, reaches, rfl, deep, fixed, steps, safe,
        fun later leads => stays later leads 2 fixed⟩

end Outline
end StyleOrder
