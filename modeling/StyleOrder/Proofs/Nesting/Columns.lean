import StyleOrder.Proofs.Nesting.Run

namespace StyleOrder

/-!
# Columns along the tree

One expects a block to stand further in than the block that encloses it, at
least where all widths are multiples of one unit.  Going back keeps this: leaving
a block gives up at least one unit, so the block that is reached is still
narrower than the line.  Going in need not.  A line that goes in enters the block
opened last, and lines that open no block can stand between the two, so that this
block may lie deeper than the line.

What has to be asked of a sheet is therefore that a line which goes in is wider
than the last line that opens a block.  This is exactly what makes every line
wider than the block it is placed in, and for the columns of blocks it is enough;
where it fails at a line that opens a block, that block is not wider than its
parent.
-/

namespace Nesting

open Sheet (Line)

/-- Every line is wider than the block that it was placed in. -/
def Widens (placements : List Placement) (outline : Outline) : Prop :=
  ∀ placement ∈ placements, ∀ id position, placement.body = some id →
    outline.position? id = some position → position.column < placement.line.width

/-- A smaller multiple is smaller by at least the unit. -/
private theorem add_le_of_dvd {unit first second : Nat} (alignedFirst : unit ∣ first)
    (alignedSecond : unit ∣ second) (less : first < second) : first + unit ≤ second := by
  have gap := Nat.le_of_dvd (Nat.sub_pos_of_lt less) (Nat.dvd_sub alignedSecond alignedFirst)
  omega

/-- Each block left gives up at least one unit. -/
theorem column_of_leave {outline : Outline} {unit : Nat}
    (narrows : ∀ id enclosing position, outline.parent? id = some enclosing →
      outline.position? id = some position →
      ∃ outer, outline.position? enclosing = some outer ∧ outer.column + unit ≤ position.column)
    {count start id : Nat} {position reachedAt : Position}
    (present : outline.position? start = some position)
    (reached : leave outline count (some start) = some (some id))
    (found : outline.position? id = some reachedAt) :
    reachedAt.column + count * unit ≤ position.column := by
  induction count generalizing start position with
  | zero =>
      cases reached
      rw [present] at found
      cases found
      rw [Nat.zero_mul, Nat.add_zero]
  | succ count inductionHypothesis =>
      rw [leave] at reached
      cases parent : outline.parent? start with
      | none =>
          rw [parent] at reached
          cases count <;> cases reached
      | some enclosing =>
          obtain ⟨outer, outerPresent, oneStep⟩ := narrows start enclosing position parent present
          rw [parent] at reached
          have others := inductionHypothesis outerPresent reached
          rw [Nat.succ_mul]
          omega

namespace Run

variable {placements : List Placement} {nesting : Nesting} {unit : Nat}

/-- Where lines are wider than their blocks, so is the present width. -/
theorem body_narrower (run : Run placements nesting) (widens : Widens placements nesting.outline)
    (id : Nat) (position : Position) (inBody : nesting.body = some id)
    (present : nesting.outline.position? id = some position) : position.column < nesting.width := by
  cases run with
  | start => cases inBody
  | line read line enters =>
      obtain ⟨bodyKept, -, width⟩ := absorb_kept _ line
      rw [bodyKept] at inBody
      rw [width]
      exact widens _ (List.mem_append_right _ List.mem_cons_self) id position inBody present

/-- Where lines are wider than their blocks, a parent is narrower by at least one
unit. -/
theorem narrows (run : Run placements nesting) (widens : Widens placements nesting.outline)
    (aligned : ∀ line ∈ placements.map Placement.line, unit ∣ line.width)
    (id enclosing : Nat) (position : Position)
    (parent : nesting.outline.parent? id = some enclosing)
    (present : nesting.outline.position? id = some position) :
    ∃ outer, nesting.outline.position? enclosing = some outer ∧
      outer.column + unit ≤ position.column := by
  obtain ⟨placement, member, -, rfl, inBody⟩ := run.exists_placement present
  rw [parent] at inBody
  obtain ⟨outer, outerPresent⟩ := run.exists_position? member inBody.symm
  obtain ⟨outerPlacement, outerMember, -, rfl, -⟩ := run.exists_placement outerPresent
  refine ⟨outerPlacement.line.position, outerPresent, ?_⟩
  exact add_le_of_dvd (aligned _ (List.mem_map_of_mem outerMember))
    (aligned _ (List.mem_map_of_mem member))
    (widens placement member enclosing _ inBody.symm outerPresent)

/-- Going back keeps lines wider than their blocks. -/
theorem narrower_of_leave (run : Run placements nesting)
    (widens : Widens placements nesting.outline)
    (aligned : ∀ line ∈ placements.map Placement.line, unit ∣ line.width)
    {width id : Nat} {position : Position} (widthAligned : unit ∣ width)
    (narrower : width < nesting.width)
    (reached : leave nesting.outline ((nesting.width - width) / unit) nesting.body = some (some id))
    (present : nesting.outline.position? id = some position) : position.column < width := by
  have before := run.dvd_width aligned
  have positive := Nat.pos_of_dvd_of_pos before (Nat.zero_lt_of_lt narrower)
  cases start : nesting.body with
  | none =>
      rw [start] at reached
      cases count : (nesting.width - width) / unit <;> rw [count] at reached <;> cases reached
  | some first =>
      obtain ⟨firstAt, firstPresent⟩ :=
        Outline.exists_position?_of_lt (run.sound.body_lt first start)
      have firstAligned : unit ∣ firstAt.column := by
        obtain ⟨placement, member, -, rfl, -⟩ := run.exists_placement firstPresent
        exact aligned _ (List.mem_map_of_mem member)
      have firstBelow := add_le_of_dvd firstAligned before
        (run.body_narrower widens first firstAt start firstPresent)
      rw [start] at reached
      have walked := column_of_leave (run.narrows widens aligned) firstPresent reached present
      rw [Nat.div_mul_cancel (Nat.dvd_sub before widthAligned)] at walked
      omega

/-- A line that goes in is wider than the block it enters exactly when it is wider
than the last line that opens a block. -/
theorem enter_narrower_iff (run : Run placements nesting) {line : Line} {id : Nat}
    (wider : nesting.width < line.width) (opened : nesting.latest = some id) :
    (∀ position, nesting.outline.position? id = some position → position.column < line.width) ↔
      Line.HeadedBy (placements.map Placement.line) line := by
  obtain ⟨position, present⟩ := Outline.exists_position?_of_lt (run.sound.latest_lt id opened)
  have latest := run.position?_latest
  rw [opened, Option.bind_some, present] at latest
  obtain ⟨opener, last, same⟩ := Option.map_eq_some_iff.mp latest.symm
  have column : position.column = opener.width := by
    rw [← same]
    rfl
  constructor
  · intro narrower previous _ _ other found
    rw [last] at found
    cases found
    rw [← column]
    exact narrower position present
  · intro headed other found
    rw [present] at found
    cases found
    have read : opener ∈ placements.map Placement.line :=
      (List.mem_filter.mp (List.mem_of_getLast? last)).1
    cases final : (placements.map Placement.line).getLast? with
    | none =>
        rw [List.getLast?_eq_none_iff.mp final] at read
        cases read
    | some previous =>
        rw [column]
        exact headed previous final (run.width_of_getLast? final ▸ wider) opener last

/-- Unless a line goes in, nothing is asked of it. -/
theorem headedBy_of_le (run : Run placements nesting) {line : Line}
    (bounded : line.width ≤ nesting.width) :
    Line.HeadedBy (placements.map Placement.line) line := by
  intro previous last wider
  have width := run.width_of_getLast? last
  omega

/-- What a line needs in order to be wider than the block it is placed in, once all
lines before it are. -/
theorem placed_narrower_iff (run : Run placements nesting)
    (widens : Widens placements nesting.outline)
    (aligned : ∀ line ∈ placements.map Placement.line, unit ∣ line.width)
    (first : ∀ indent, Line.firstIndent? (placements.map Placement.line) = some indent →
      indent = unit)
    {line : Line} {body : Option Nat} (lineAligned : unit ∣ line.width)
    (enters : (nesting.fixUnit line.width).Enters line.width body) :
    (∀ id position, body = some id → nesting.outline.position? id = some position →
        position.column < line.width) ↔
      Line.HeadedBy (placements.map Placement.line) line := by
  cases enters with
  | leave narrower reached =>
      rw [width_fixUnit] at narrower
      rw [run.steps_eq narrower first, outline_fixUnit, body_fixUnit] at reached
      constructor
      · intro _
        exact run.headedBy_of_le (Nat.le_of_lt narrower)
      · intro _ id position inBody present
        rw [inBody] at reached
        exact run.narrower_of_leave widens aligned lineAligned narrower reached present
  | stay same =>
      rw [width_fixUnit] at same
      constructor
      · intro _
        exact run.headedBy_of_le (Nat.le_of_eq same)
      · intro _ id position inBody present
        rw [body_fixUnit] at inBody
        rw [same]
        exact run.body_narrower widens id position inBody present
  | @enter id wider opened =>
      rw [width_fixUnit] at wider
      rw [latest_fixUnit] at opened
      rw [← run.enter_narrower_iff wider opened]
      constructor
      · intro narrower position present
        exact narrower id position rfl present
      · intro narrower _ position inBody present
        cases inBody
        exact narrower position present

/-- One more line has to be wider than its block as well.  That block was there
before the line, so the line does not change where it stands. -/
theorem widens_concat_iff (run : Run placements nesting) {line : Line} {body : Option Nat}
    (enters : (nesting.fixUnit line.width).Enters line.width body) :
    Widens (placements ++ [⟨line, body⟩])
        ({ nesting.fixUnit line.width with body }.absorb line).outline ↔
      Widens placements nesting.outline ∧
        ∀ id position, body = some id → nesting.outline.position? id = some position →
          position.column < line.width := by
  constructor
  · intro widens
    refine ⟨?_, ?_⟩
    · intro placement member id position inBody present
      exact widens placement (List.mem_append_left _ member) id position inBody
        (position?_line line body present)
    · intro id position inBody present
      exact widens ⟨line, body⟩ (by simp) id position inBody (position?_line line body present)
  · rintro ⟨widens, narrower⟩ placement member id position inBody present
    have settled : ∀ earlier, nesting.outline.position? id = some earlier →
        earlier = position := by
      intro earlier found
      exact Option.some.inj ((position?_line line body found).symm.trans present)
    rcases List.mem_append.mp member with old | new
    · obtain ⟨earlier, found⟩ := run.exists_position? old inBody
      rw [← settled earlier found]
      exact widens placement old id earlier inBody found
    · cases List.mem_singleton.mp new
      obtain ⟨earlier, found⟩ := run.position?_of_enters enters inBody
      rw [← settled earlier found]
      exact narrower id earlier inBody found

/-- Lines are wider than their blocks exactly when every line that goes in is wider
than the last line that opens a block. -/
theorem widens_iff_headed (run : Run placements nesting)
    (aligned : ∀ line ∈ placements.map Placement.line, unit ∣ line.width)
    (first : ∀ indent, Line.firstIndent? (placements.map Placement.line) = some indent →
      indent = unit) :
    Widens placements nesting.outline ↔ Line.Headed (placements.map Placement.line) := by
  induction run with
  | start =>
      constructor
      · intro _ index inside
        cases inside
      · intro _ placement member
        cases member
  | @line placements nesting read line body enters inductionHypothesis =>
      rw [List.map_append, List.map_singleton] at aligned first ⊢
      have alignedBefore : ∀ line ∈ placements.map Placement.line, unit ∣ line.width :=
        fun other member => aligned other (List.mem_append_left _ member)
      have firstBefore : ∀ indent,
          Line.firstIndent? (placements.map Placement.line) = some indent → indent = unit :=
        fun indent found => first indent (Line.firstIndent?_of_concat found)
      rw [read.widens_concat_iff enters, Line.headed_concat_iff,
        ← inductionHypothesis alignedBefore firstBefore]
      refine and_congr_right fun widens => ?_
      exact read.placed_narrower_iff widens alignedBefore firstBefore
        (aligned line (by simp)) enters

end Run
end Nesting

namespace Outline

open Sheet (Line)
open Nesting (Run Placement Widens)

/-- Every block stands further in than the block that encloses it. -/
def Narrows (outline : Outline) : Prop :=
  ∀ id block enclosing outer, outline.block? id = some block → block.parent = some enclosing →
    outline.block? enclosing = some outer → outer.position.column < block.position.column

section

variable {placements : List Placement} {nesting : Nesting} (run : Run placements nesting)

include run

theorem narrows_of_widens (widens : Widens placements nesting.outline) :
    nesting.outline.Narrows := by
  intro id block enclosing outer present parent outerPresent
  obtain ⟨placement, member, -, atLine, inBody⟩ :=
    run.exists_placement (position?_of_block? present)
  rw [parent?_of_block? present, parent] at inBody
  rw [← atLine]
  exact widens placement member enclosing outer.position inBody.symm
    (position?_of_block? outerPresent)

/-- A block that goes in has the block opened last for its parent. -/
theorem headedBy_of_narrows (narrows : nesting.outline.Narrows) {before after : List Placement}
    {placement : Placement} (read : placements = before ++ placement :: after)
    (opening : placement.line.opens = true) :
    Line.HeadedBy (before.map Placement.line) placement.line := by
  obtain ⟨middle, runBefore, enters, kept⟩ := run.split read
  rcases Nat.lt_or_ge middle.width placement.line.width with wider | bounded
  · have member : placement ∈ placements := by
      rw [read]
      exact List.mem_append_right _ List.mem_cons_self
    obtain ⟨enclosing, opened, inBody⟩ := enters.of_wider (by rwa [Nesting.width_fixUnit])
    rw [Nesting.latest_fixUnit] at opened
    rw [← runBefore.enter_narrower_iff wider opened]
    intro outerAt outerPresent
    obtain ⟨id, present, parent⟩ := run.exists_block_of_opens member opening
    obtain ⟨block, found, atLine⟩ := Option.map_eq_some_iff.mp present
    obtain ⟨outer, outerFound, outerSame⟩ :=
      Option.map_eq_some_iff.mp (kept enclosing outerAt outerPresent)
    rw [parent?_of_block? found, inBody] at parent
    have below := narrows id block enclosing outer found parent outerFound
    rw [outerSame, atLine] at below
    exact below
  · exact runBefore.headedBy_of_le bounded

end

/-- In an evenly indented sheet, blocks are wider than their parents as soon as every
line that goes in is wider than the last line that opens a block.  Of lines that
open a block themselves this is also necessary; and it is equivalent to every line,
whatever it holds, being wider than the block it is placed in. -/
theorem parse_narrows (source : String) (outline : Outline)
    (parsed : Outline.parse source = .ok outline)
    (aligned : ∀ line ∈ Line.ofSource source,
      Line.unit (Line.ofSource source) ∣ line.width) :
    (Line.Headed (Line.ofSource source) → outline.Narrows) ∧
      (outline.Narrows → ∀ before line after, Line.ofSource source = before ++ line :: after →
        line.opens = true → Line.HeadedBy before line) ∧
      ∃ placements nesting, Run placements nesting ∧ nesting.outline = outline ∧
        placements.map Placement.line = Line.ofSource source ∧
        (Line.Headed (Line.ofSource source) ↔ Widens placements outline) := by
  obtain ⟨placements, nesting, run, read, rfl⟩ := (parse_eq_ok_iff source outline).mp parsed
  have exactly : Widens placements nesting.outline ↔ Line.Headed (Line.ofSource source) := by
    rw [← read] at aligned ⊢
    exact run.widens_iff_headed aligned fun _ found => Line.eq_unit_of_firstIndent? found
  refine ⟨?_, ?_, placements, nesting, run, rfl, read, exactly.symm⟩
  · intro headed
    exact narrows_of_widens run (exactly.mpr headed)
  · intro narrows before line after split opening
    rw [← read] at split
    obtain ⟨first, rest, halves, same, others⟩ := List.map_eq_append_iff.mp split
    obtain ⟨placement, later, cut, atLine, -⟩ := List.map_eq_cons_iff.mp others
    rw [← same, ← atLine]
    exact headedBy_of_narrows run narrows (cut ▸ halves) (atLine ▸ opening)

/-- A line that opens no block does no harm below a block of its own width. -/
theorem narrows_below_sibling :
    ∃ outline, Outline.parse ".a\n~ b\n  .c\n    .d\n  .e\n" = .ok outline ∧
      Line.Headed (Line.ofSource ".a\n~ b\n  .c\n    .d\n  .e\n") ∧ outline.Narrows := by
  obtain ⟨outline, parsed, -⟩ := exists_of_view Outline.size
    (show (Outline.parse ".a\n~ b\n  .c\n    .d\n  .e\n").toOption.map Outline.size = some 4 by
      decide +kernel)
  have headed : Line.Headed (Line.ofSource ".a\n~ b\n  .c\n    .d\n  .e\n") := by decide +kernel
  exact ⟨outline, parsed, headed,
    (parse_narrows _ outline parsed (by decide +kernel)).1 headed⟩

/-- Even indentation alone is not enough.  The third line opens no block, so the
fourth enters the block of the second, which stands no further out. -/
theorem evenBy_not_narrows :
    ¬ ∀ source outline, Outline.parse source = .ok outline →
      Line.EvenBy (Line.unit (Line.ofSource source)) (Line.ofSource source) →
      outline.Narrows := by
  intro claim
  obtain ⟨outline, parsed, seen⟩ := exists_of_view
    (fun outline => ((outline.block? 2).map fun block => (block.parent, block.position.column),
      (outline.block? 1).map fun block => block.position.column))
    (show (Outline.parse ".a\n  .b\n:root\n  .c\n").toOption.map _ =
      some (some (some 1, 2), some 2) by decide +kernel)
  have even : Line.EvenBy (Line.unit (Line.ofSource ".a\n  .b\n:root\n  .c\n"))
      (Line.ofSource ".a\n  .b\n:root\n  .c\n") :=
    ⟨by decide +kernel, by decide +kernel⟩
  obtain ⟨inner, outer⟩ := Prod.mk.inj seen
  obtain ⟨block, present, facts⟩ := Option.map_eq_some_iff.mp inner
  obtain ⟨enclosing, enclosingPresent, column⟩ := Option.map_eq_some_iff.mp outer
  obtain ⟨parent, innerColumn⟩ := Prod.mk.inj facts
  have below := claim _ outline parsed even 2 block 1 enclosing present parent enclosingPresent
  omega

end Outline
end StyleOrder
