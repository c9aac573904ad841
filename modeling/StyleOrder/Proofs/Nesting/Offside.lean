import Mathlib.Data.List.Induction
import StyleOrder.Proofs.Nesting.Run
import StyleOrder.Proofs.Outline.Nearest

namespace StyleOrder

/-!
# Nesting agrees with layout

Reading remembers one block, and finds its way by counting units.  On a sheet
that steps by its unit this comes to the same as looking for the nearest
narrower block above a line, however far lines go back and whatever they hold.

The invariant has two parts.  The present body is the nearest block narrower
than the present width; and below the present width every level is occupied:
the nearest block narrower than a multiple of the unit is narrower by exactly
one unit.  Leaving a block then descends by one level, because a parent is
itself the nearest narrower block above its child.
-/

namespace Nesting

open Sheet (Line)

/-- The nearest block below a column is one unit narrower. -/
def Occupied (outline : Outline) (unit column : Nat) : Prop :=
  ∃ id position, outline.nearest? column = some id ∧ outline.position? id = some position ∧
    position.column + unit = column

/-- Lines were placed where layout puts them, and every level up to the present
width is occupied. -/
structure Offside (unit : Nat) (placements : List Placement) (nesting : Nesting) : Prop where
  placed : ∀ placement ∈ placements,
    placement.body = nesting.outline.enclosing? placement.line.position
  inner : ∀ placement ∈ placements, 0 < placement.line.width →
    ∃ id position, placement.body = some id ∧ nesting.outline.position? id = some position ∧
      position.column + unit = placement.line.width
  body_eq : nesting.body = nesting.outline.nearest? nesting.width
  occupied : ∀ column, unit ∣ column → 0 < column → column ≤ nesting.width →
    Occupied nesting.outline unit column

/-- Blocks stand on ascending lines when the lines read ascend. -/
theorem Run.ascends {placements : List Placement} {nesting : Nesting}
    (run : Run placements nesting)
    (numbered : (placements.map Placement.line).Pairwise fun line later =>
      line.number < later.number) : nesting.outline.Ascends := by
  rw [Outline.Ascends, run.headings_eq, List.pairwise_map]
  exact (List.pairwise_map.mp numbered).filter _

/-- A search that the position of a line fails does not notice the line. -/
theorem lastWhere_absorb (nesting : Nesting) {line : Line} {test : Position → Bool}
    (fails : test line.position = false) :
    (nesting.absorb line).outline.lastWhere test = nesting.outline.lastWhere test := by
  have headings := headings_absorb nesting line
  cases opening : line.opens with
  | true =>
      rw [opening, if_pos rfl] at headings
      rw [Outline.lastWhere_concat headings, fails, if_neg Bool.false_ne_true]
  | false =>
      rw [opening, if_neg Bool.false_ne_true, List.append_nil] at headings
      exact Outline.lastWhere_of_headings headings test

/-! ## Searches across a line

A line that is taken in changes no search that its own position fails.
-/

theorem lastWhere_line (nesting : Nesting) {line : Line} (body : Option Nat)
    {test : Position → Bool} (fails : test line.position = false) :
    ({ nesting.fixUnit line.width with body }.absorb line).outline.lastWhere test =
      nesting.outline.lastWhere test :=
  (lastWhere_absorb _ fails).trans
    (Outline.lastWhere_of_headings (by rw [outline_fixUnit]) test)

theorem nearest?_line (nesting : Nesting) {line : Line} (body : Option Nat) {column : Nat}
    (bounded : column ≤ line.width) :
    ({ nesting.fixUnit line.width with body }.absorb line).outline.nearest? column =
      nesting.outline.nearest? column :=
  lastWhere_line nesting body (decide_eq_false (Nat.not_lt.mpr bounded))

theorem Occupied.line {nesting : Nesting} {unit column : Nat}
    (occupied : Occupied nesting.outline unit column) {line : Line} (body : Option Nat)
    (bounded : column ≤ line.width) :
    Occupied ({ nesting.fixUnit line.width with body }.absorb line).outline unit column := by
  obtain ⟨id, position, nearest, present, below⟩ := occupied
  exact ⟨id, position, (nearest?_line nesting body bounded).trans nearest,
    position?_line line body present, below⟩

/-- What encloses an earlier line stays the same. -/
theorem enclosing?_line_of_lt (nesting : Nesting) {line : Line} (body : Option Nat)
    {position : Position} (earlier : position.line < line.number) :
    ({ nesting.fixUnit line.width with body }.absorb line).outline.enclosing? position =
      nesting.outline.enclosing? position := by
  apply lastWhere_line
  have notAbove : ¬ line.position.line < position.line := Nat.not_lt.mpr (Nat.le_of_lt earlier)
  rw [decide_eq_false notAbove, Bool.false_and]

/-- What encloses the line itself is the nearest narrower block before it. -/
theorem Run.enclosing?_line {placements : List Placement} {nesting : Nesting}
    (run : Run placements nesting) {line : Line} (body : Option Nat)
    (later : ∀ placement ∈ placements, placement.line.number < line.number) :
    ({ nesting.fixUnit line.width with body }.absorb line).outline.enclosing? line.position =
      nesting.outline.nearest? line.width := by
  have above : ∀ id other, nesting.outline.position? id = some other →
      other.line < line.position.line := by
    intro id other present
    obtain ⟨placement, member, -, rfl, -⟩ := run.exists_placement present
    exact later placement member
  calc
    _ = nesting.outline.enclosing? line.position := lastWhere_line nesting body (by simp)
    _ = nesting.outline.nearest? line.width := Outline.enclosing?_eq_nearest? above

/-! ## Placing by levels -/

/-- The block opened on the last line is the nearest one for any wider line. -/
theorem Run.nearest?_of_opens {placements : List Placement} {nesting : Nesting}
    (run : Run placements nesting) {previous : Line} {width : Nat}
    (last : (placements.map Placement.line).getLast? = some previous)
    (opening : previous.opens = true) (lower : previous.width < width) :
    ∃ id, nesting.latest = some id ∧ nesting.outline.position? id = some previous.position ∧
      nesting.outline.nearest? width = some id := by
  obtain ⟨id, latest, present⟩ := run.latest_of_opens last opening
  refine ⟨id, latest, present, Outline.lastWhere_eq_some_of present ?_ ?_⟩
  · exact decide_eq_true lower
  · intro later other found _
    exact run.sound.le_latest latest (Outline.lt_size_of_position? found)

/-- Leaving blocks one by one descends one level at a time. -/
theorem leave_nearest? {outline : Outline} (ascends : outline.Ascends)
    (parents : ∀ id position, outline.position? id = some position →
      outline.parent? id = outline.enclosing? position)
    {unit column : Nat} (positive : 0 < unit) (aligned : unit ∣ column)
    (occupied : ∀ level, unit ∣ level → 0 < level → level ≤ column →
      Occupied outline unit level)
    (count : Nat) (enough : count * unit ≤ column) :
    leave outline count (outline.nearest? column) =
      some (outline.nearest? (column - count * unit)) := by
  induction count generalizing column with
  | zero => rw [Nat.zero_mul, Nat.sub_zero, leave]
  | succ count inductionHypothesis =>
      rw [Nat.succ_mul] at enough ⊢
      obtain ⟨id, position, nearest, present, below⟩ :=
        occupied column aligned (by omega) (Nat.le_refl column)
      have alignedBelow : unit ∣ position.column :=
        (Nat.dvd_add_left (Nat.dvd_refl unit)).mp (below ▸ aligned)
      have occupiedBelow : ∀ level, unit ∣ level → 0 < level → level ≤ position.column →
          Occupied outline unit level := by
        intro level multiple positiveLevel bounded
        exact occupied level multiple positiveLevel (by omega)
      rw [nearest, leave, parents id position present,
        Outline.enclosing?_of_nearest? ascends nearest present,
        inductionHypothesis alignedBelow occupiedBelow (by omega)]
      congr 2
      omega

namespace Offside

variable {unit : Nat} {placements : List Placement} {nesting : Nesting}

theorem parents (offside : Offside unit placements nesting) (run : Run placements nesting)
    (id : Nat) (position : Position) (present : nesting.outline.position? id = some position) :
    nesting.outline.parent? id = nesting.outline.enclosing? position := by
  obtain ⟨placement, member, -, rfl, parent⟩ := run.exists_placement present
  rw [parent, offside.placed placement member]

/-- The next line finds the block that layout suggests, and the levels up to its
width are occupied. -/
theorem enters (offside : Offside unit placements nesting) (run : Run placements nesting)
    (positive : 0 < unit) {line : Line}
    (numbered : (placements.map Placement.line).Pairwise fun line later =>
      line.number < later.number)
    (first : ∀ indent, Line.firstIndent? (placements.map Placement.line) = some indent →
      indent = unit)
    (steps : Line.StepsBy unit (placements.map Placement.line ++ [line])) :
    (nesting.fixUnit line.width).Enters line.width (nesting.outline.nearest? line.width) ∧
      ∀ column, unit ∣ column → 0 < column → column ≤ line.width →
        Occupied nesting.outline unit column := by
  obtain ⟨before, flush, aligned, stepped⟩ := steps.of_concat
  rcases Nat.lt_trichotomy line.width nesting.width with narrower | same | wider
  · have widthAligned := run.dvd_width before.aligned
    have whole := Nat.div_mul_cancel (Nat.dvd_sub widthAligned aligned)
    have reached := leave_nearest? (run.ascends numbered) (offside.parents run) positive
      widthAligned offside.occupied ((nesting.width - line.width) / unit) (by omega)
    rw [whole, Nat.sub_sub_self (Nat.le_of_lt narrower), ← offside.body_eq,
      ← run.steps_eq narrower first] at reached
    refine ⟨.leave ?_ ?_, ?_⟩
    · rwa [width_fixUnit]
    · rwa [outline_fixUnit, body_fixUnit]
    · intro column multiple positiveColumn bounded
      exact offside.occupied column multiple positiveColumn (by omega)
  · refine ⟨?_, ?_⟩
    · have stays := @Enters.stay (nesting.fixUnit line.width) line.width (by simpa using same)
      rwa [body_fixUnit, offside.body_eq, ← same] at stays
    · rw [same]
      exact offside.occupied
  · cases last : (placements.map Placement.line).getLast? with
    | none =>
        have empty := flush (List.getLast?_eq_none_iff.mp last)
        omega
    | some previous =>
        have widthLast := run.width_of_getLast? last
        have lower : previous.width < line.width := widthLast ▸ wider
        obtain ⟨oneUnit, opening⟩ := stepped previous last lower
        obtain ⟨id, latest, present, nearest⟩ := run.nearest?_of_opens last opening lower
        refine ⟨?_, ?_⟩
        · rw [nearest]
          exact .enter (by rwa [width_fixUnit]) (by rwa [latest_fixUnit])
        · intro column multiple positiveColumn bounded
          rcases Nat.lt_or_ge nesting.width column with above | below
          · -- Between the two widths lies one multiple of the unit, the new width itself.
            have gap : unit ≤ column - previous.width :=
              Nat.le_of_dvd (by omega)
                (Nat.dvd_sub multiple (before.aligned previous (List.mem_of_getLast? last)))
            have top : column = line.width := by omega
            rw [top]
            exact ⟨id, previous.position, nearest, present, oneUnit.symm⟩
          · exact offside.occupied column multiple positiveColumn below

/-- Taking in a line that was placed where layout suggests keeps the invariant.
The block that the line opens changes none of the searches: it is not above any
line read so far, and not narrower than the present width. -/
theorem absorb (offside : Offside unit placements nesting) (run : Run placements nesting)
    {line : Line} (later : ∀ placement ∈ placements, placement.line.number < line.number)
    (aligned : unit ∣ line.width)
    (occupied : ∀ column, unit ∣ column → 0 < column → column ≤ line.width →
      Occupied nesting.outline unit column) :
    Offside unit (placements ++ [⟨line, nesting.outline.nearest? line.width⟩])
      ({ nesting.fixUnit line.width with
        body := nesting.outline.nearest? line.width }.absorb line) := by
  constructor
  · intro placement member
    rcases List.mem_append.mp member with old | new
    · rw [offside.placed placement old, enclosing?_line_of_lt nesting _ (later placement old)]
    · cases List.mem_singleton.mp new
      exact (run.enclosing?_line _ later).symm
  · intro placement member positive
    rcases List.mem_append.mp member with old | new
    · obtain ⟨id, position, inBody, present, below⟩ := offside.inner placement old positive
      exact ⟨id, position, inBody, position?_line line _ present, below⟩
    · cases List.mem_singleton.mp new
      obtain ⟨id, position, nearest, present, below⟩ :=
        occupied line.width aligned positive (Nat.le_refl _)
      exact ⟨id, position, nearest, position?_line line _ present, below⟩
  · obtain ⟨bodyKept, -, width⟩ := absorb_kept
      { nesting.fixUnit line.width with body := nesting.outline.nearest? line.width } line
    rw [bodyKept, width, nearest?_line nesting _ (Nat.le_refl _)]
  · intro column multiple positive bounded
    rw [(absorb_kept _ line).2.2] at bounded
    exact (occupied column multiple positive bounded).line _ bounded

theorem start (unit : Nat) : Offside unit [] Nesting.start where
  placed _ member := by cases member
  inner _ member := by cases member
  body_eq := rfl
  occupied column _ positive bounded := absurd bounded (Nat.not_le.mpr positive)

/-- The depth of a block is its column in units. -/
theorem depth_mul_unit (offside : Offside unit placements nesting) (run : Run placements nesting)
    (id : Nat) (position : Position) (present : nesting.outline.position? id = some position) :
    nesting.outline.depth id * unit = position.column := by
  induction id using Nat.strongRecOn generalizing position with
  | ind id inductionHypothesis =>
      obtain ⟨placement, member, -, rfl, parent⟩ := run.exists_placement present
      rcases Nat.eq_zero_or_pos placement.line.width with margin | indented
      · rw [offside.placed placement member, Outline.enclosing?_eq_none margin] at parent
        rw [Outline.depth_of_no_parent? parent, Nat.zero_mul]
        exact margin.symm
      · obtain ⟨enclosing, outer, inBody, outerPresent, below⟩ :=
          offside.inner placement member indented
        rw [inBody] at parent
        have descends := run.sound.linked.parent_lt id enclosing parent
        rw [Outline.depth_of_parent? run.sound.linked parent, Nat.succ_mul,
          inductionHypothesis enclosing descends outer outerPresent]
        exact below

end Offside

/-- A sheet that steps by its unit can be read, and is placed as its layout suggests. -/
theorem exists_offside_run {unit : Nat} (positive : 0 < unit) {lines : List Line}
    (numbered : lines.Pairwise fun line later => line.number < later.number)
    (first : ∀ indent, Line.firstIndent? lines = some indent → indent = unit)
    (steps : Line.StepsBy unit lines) :
    ∃ placements nesting, Run placements nesting ∧ placements.map Placement.line = lines ∧
      Offside unit placements nesting := by
  induction lines using List.reverseRecOn with
  | nil => exact ⟨[], Nesting.start, Run.start, rfl, Offside.start unit⟩
  | append_singleton lines line inductionHypothesis =>
      obtain ⟨numberedBefore, -, later⟩ := List.pairwise_append.mp numbered
      have firstBefore : ∀ indent, Line.firstIndent? lines = some indent → indent = unit :=
        fun indent found => first indent (Line.firstIndent?_of_concat found)
      obtain ⟨placements, nesting, run, rfl, offside⟩ :=
        inductionHypothesis numberedBefore firstBefore steps.of_concat.1
      obtain ⟨enters, occupied⟩ := offside.enters run positive numberedBefore firstBefore steps
      refine ⟨_, _, run.line line enters, by simp, offside.absorb run ?_ ?_ occupied⟩
      · intro placement member
        exact later placement.line (List.mem_map_of_mem member) line (by simp)
      · exact steps.aligned line (by simp)

end Nesting

namespace Outline

open Sheet (Line)

/-- An outline nests as the layout of the lines suggests, with nothing added or
lost except the entries of lines at the margin. -/
structure FollowsLayout (outline : Outline) (lines : List Line) : Prop where
  /-- The blocks are the lines that open one. -/
  positions : outline.blocks.map Block.position = (lines.filter Line.opens).map Line.position
  /-- The parent of a block is the nearest block before it that is narrower. -/
  parent : ∀ id block, outline.block? id = some block →
    block.parent = outline.enclosing? block.position
  top : ∀ id block, outline.block? id = some block →
    (block.parent = none ↔ block.position.column = 0)
  depth : ∀ id block, outline.block? id = some block →
    outline.depth id * Line.unit lines = block.position.column
  /-- The body of a block is made of the lines whose nearest narrower block it is. -/
  entries : ∀ id block, outline.block? id = some block →
    block.entries =
      (lines.filter fun line => outline.enclosing? line.position = some id).flatMap Line.entries
  held : ∀ line ∈ lines, 0 < line.width → ∀ entry ∈ line.entries,
    ∃ id block, outline.enclosing? line.position = some id ∧ outline.block? id = some block ∧
      entry ∈ block.entries
  dropped : ∀ line ∈ lines, line.width = 0 → ∀ block ∈ outline.blocks, ∀ entry ∈ block.entries,
    entry.position.line ≠ line.number

section

variable {placements : List Nesting.Placement} {nesting : Nesting}

/-- Lines that were placed where layout suggests fill the bodies accordingly. -/
theorem entries_of_placed (run : Nesting.Run placements nesting)
    (placed : ∀ placement ∈ placements,
      placement.body = nesting.outline.enclosing? placement.line.position) (id : Nat) :
    nesting.outline.entries id =
      ((placements.map Nesting.Placement.line).filter fun line =>
        nesting.outline.enclosing? line.position = some id).flatMap Line.entries := by
  have same : placements.filter (fun placement => decide (placement.body = some id)) =
      placements.filter ((fun line =>
        decide (nesting.outline.enclosing? line.position = some id)) ∘ Nesting.Placement.line) := by
    apply List.filter_congr
    intro placement member
    rw [placed placement member]
    rfl
  rw [run.entries_eq, same, List.filter_map, List.flatMap_map]

theorem followsLayout_of_offside {unit : Nat} (run : Nesting.Run placements nesting)
    (numbered : (placements.map Nesting.Placement.line).Pairwise fun line later =>
      line.number < later.number)
    (sameUnit : Line.unit (placements.map Nesting.Placement.line) = unit)
    (offside : Nesting.Offside unit placements nesting) :
    nesting.outline.FollowsLayout (placements.map Nesting.Placement.line) := by
  have body : ∀ id block, nesting.outline.block? id = some block → block.entries =
      ((placements.map Nesting.Placement.line).filter fun line =>
        nesting.outline.enclosing? line.position = some id).flatMap Line.entries := by
    intro id block present
    rw [← entries_of_block? present]
    exact entries_of_placed run offside.placed id
  refine ⟨?_, ?_, ?_, ?_, body, ?_, ?_⟩
  · rw [← map_fst_headings, run.positions_eq]
  · intro id block present
    rw [← parent?_of_block? present]
    exact offside.parents run id block.position (position?_of_block? present)
  · intro id block present
    obtain ⟨placement, member, -, atLine, parent⟩ :=
      run.exists_placement (position?_of_block? present)
    rw [← parent?_of_block? present, parent, ← atLine]
    constructor
    · intro top
      rcases Nat.eq_zero_or_pos placement.line.width with margin | indented
      · exact margin
      · obtain ⟨enclosing, outer, inBody, -, -⟩ := offside.inner placement member indented
        rw [top] at inBody
        cases inBody
    · intro margin
      rw [offside.placed placement member, enclosing?_eq_none margin]
  · intro id block present
    rw [sameUnit]
    exact offside.depth_mul_unit run id block.position (position?_of_block? present)
  · intro line member indented entry added
    obtain ⟨placement, placed, rfl⟩ := List.mem_map.mp member
    obtain ⟨id, outer, inBody, present, -⟩ := offside.inner placement placed indented
    obtain ⟨block, found, -⟩ := Option.map_eq_some_iff.mp present
    rw [offside.placed placement placed] at inBody
    refine ⟨id, block, inBody, found, ?_⟩
    rw [body id block found]
    exact List.mem_flatMap.mpr
      ⟨placement.line, List.mem_filter.mpr ⟨member, decide_eq_true inBody⟩, added⟩
  · intro line member margin block blockMember entry added onLine
    obtain ⟨id, present⟩ := exists_block?_of_mem blockMember
    rw [body id block present] at added
    obtain ⟨other, otherMember, otherAdded⟩ := List.mem_flatMap.mp added
    obtain ⟨otherRead, enclosed⟩ := List.mem_filter.mp otherMember
    have sameLine : other = line := by
      apply Line.eq_of_number_eq numbered otherRead member
      rw [← onLine, Line.position_of_mem_entries otherAdded]
      rfl
    rw [sameLine, enclosing?_eq_none margin] at enclosed
    simp at enclosed

end

/-- A source that steps by its unit is parsed into the outline that its layout
suggests. -/
theorem parse_followsLayout (source : String)
    (steps : Line.StepsBy (Line.unit (Line.ofSource source)) (Line.ofSource source)) :
    ∃ outline, Outline.parse source = .ok outline ∧
      outline.FollowsLayout (Line.ofSource source) := by
  obtain ⟨placements, nesting, run, read, offside⟩ := Nesting.exists_offside_run
    (Line.unit_pos _) (Line.ofSource_ascends source)
    (fun _ found => Line.eq_unit_of_firstIndent? found) steps
  refine ⟨nesting.outline, ?_, ?_⟩
  · exact (parse_eq_ok_iff source nesting.outline).mpr ⟨placements, nesting, run, read, rfl⟩
  · rw [← read]
    refine followsLayout_of_offside run ?_ ?_ offside
    · rw [read]
      exact Line.ofSource_ascends source
    · rw [read]

/-- Two levels left at once, lines that open no block, and a declaration at the margin. -/
theorem stepped_followsLayout :
    let source :=
      ".a\n  +m\n  .b\n    color: red\n    > c\n      top: 0\n  left: 0\n:root\ntop: 0\n"
    Line.StepsBy (Line.unit (Line.ofSource source)) (Line.ofSource source) ∧
      ∃ outline, Outline.parse source = .ok outline ∧
        outline.FollowsLayout (Line.ofSource source) := by
  intro source
  have steps : Line.StepsBy (Line.unit (Line.ofSource source)) (Line.ofSource source) := by
    decide +kernel
  exact ⟨steps, parse_followsLayout source steps⟩

end Outline
end StyleOrder
