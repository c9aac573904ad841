import StyleOrder.Outline.Nesting
import StyleOrder.Proofs.Outline.Links
import StyleOrder.Proofs.Sheet.Indentation

namespace StyleOrder

/-!
# Runs

Taking in a line has two halves.  First the line is placed: its width decides
which block it stands in.  Then its marks are applied, which opens a block
inside that one or adds to its body, and never moves the place.  A run lists the
lines read so far, each with the block it was placed in.

The outline is a function of that list.  The blocks are the opening lines in
order, each with the block it was placed in as its parent, and the body of a
block holds the entries of the lines placed in it.  Statements about the tree
are therefore statements about where lines are placed.
-/

namespace Nesting

/-! ## Placing a line -/

/-- The block that a line of the given width is placed in. -/
inductive Enters (nesting : Nesting) (width : Nat) : Option Nat → Prop where
  | leave {body : Option Nat} (narrower : width < nesting.width)
      (reached : leave nesting.outline (nesting.steps width) nesting.body = some body) :
      Enters nesting width body
  | stay (same : width = nesting.width) : Enters nesting width nesting.body
  | enter {id : Nat} (wider : nesting.width < width) (opened : nesting.latest = some id) :
      Enters nesting width (some id)

theorem Enters.of_wider {nesting : Nesting} {width : Nat} {body : Option Nat}
    (enters : nesting.Enters width body) (wider : nesting.width < width) :
    ∃ id, nesting.latest = some id ∧ body = some id := by
  cases enters with
  | leave narrower _ => omega
  | stay same => omega
  | enter _ opened => exact ⟨_, opened, rfl⟩

theorem place_of_enters {nesting : Nesting} {line : Sheet.Line} {body : Option Nat}
    (enters : nesting.Enters line.width body) :
    nesting.place line = .ok { nesting with body } := by
  unfold place
  cases enters with
  | leave narrower reached => rw [if_pos narrower, reached]
  | stay same =>
      rw [if_neg (by omega), if_neg (by omega)]
  | enter wider opened =>
      rw [if_neg (by omega), if_pos wider, opened]

/-- Placing a line changes nothing but the body. -/
theorem enters_of_place {nesting placed : Nesting} {line : Sheet.Line}
    (accepted : nesting.place line = .ok placed) :
    placed = { nesting with body := placed.body } ∧ nesting.Enters line.width placed.body := by
  unfold place at accepted
  split at accepted
  · rename_i narrower
    split at accepted
    · rename_i body reached
      cases accepted
      exact ⟨rfl, .leave narrower reached⟩
    · cases accepted
  · split at accepted
    · rename_i wider
      split at accepted
      · rename_i id opened
        cases accepted
        exact ⟨rfl, .enter wider opened⟩
      · cases accepted
    · cases accepted
      exact ⟨rfl, .stay (by omega)⟩

/-- Why a line of the given width cannot be placed. -/
inductive Fails (nesting : Nesting) (width : Nat) : Fault → Prop where
  | leave (narrower : width < nesting.width)
      (outside : leave nesting.outline (nesting.steps width) nesting.body = none) :
      Fails nesting width .pastTopLevel
  | enter (wider : nesting.width < width) (unopened : nesting.latest = none) :
      Fails nesting width .noEnclosingBlock

theorem place_of_fails {nesting : Nesting} {line : Sheet.Line} {fault : Fault}
    (fails : nesting.Fails line.width fault) :
    nesting.place line = .error (.ofLine line fault) := by
  unfold place
  cases fails with
  | leave narrower outside => rw [if_pos narrower, outside]
  | enter wider unopened => rw [if_neg (by omega), if_pos wider, unopened]

/-- A line that cannot be placed is named by the fault. -/
theorem fails_of_place {nesting : Nesting} {line : Sheet.Line} {malformed : Malformed}
    (refused : nesting.place line = .error malformed) :
    ∃ fault, malformed = .ofLine line fault ∧ nesting.Fails line.width fault := by
  unfold place at refused
  split at refused
  · rename_i narrower
    split at refused
    · cases refused
    · rename_i outside
      cases refused
      exact ⟨.pastTopLevel, rfl, .leave narrower outside⟩
  · split at refused
    · rename_i wider
      split at refused
      · cases refused
      · rename_i unopened
        cases refused
        exact ⟨.noEnclosingBlock, rfl, .enter wider unopened⟩
    · cases refused

/-- Fixing the unit changes nothing else, and changes the unit only once. -/
theorem fixUnit_eq (nesting : Nesting) (width : Nat) :
    nesting.fixUnit width =
      { nesting with
        unit := nesting.unit.or (if width != 0 then some width else none) } := by
  obtain ⟨outline, unit, before, body, latest⟩ := nesting
  unfold fixUnit
  cases unit with
  | none => cases indented : width != 0 <;> rfl
  | some unit => rfl

@[simp]
theorem outline_fixUnit (nesting : Nesting) (width : Nat) :
    (nesting.fixUnit width).outline = nesting.outline := by
  rw [fixUnit_eq]

@[simp]
theorem width_fixUnit (nesting : Nesting) (width : Nat) :
    (nesting.fixUnit width).width = nesting.width := by
  rw [fixUnit_eq]

@[simp]
theorem body_fixUnit (nesting : Nesting) (width : Nat) :
    (nesting.fixUnit width).body = nesting.body := by
  rw [fixUnit_eq]

@[simp]
theorem latest_fixUnit (nesting : Nesting) (width : Nat) :
    (nesting.fixUnit width).latest = nesting.latest := by
  rw [fixUnit_eq]

/-! ## Applying marks -/

/-- A mark either is an entry, which is added to the body, or opens a block at
the position of its line. -/
theorem apply_cases (position : Position) (nesting : Nesting) (mark : Sheet.Mark) :
    (∃ entry, mark.entry? position = some entry ∧ mark.opens = false ∧
        nesting.apply position mark = nesting.addEntry entry) ∨
      (mark.entry? position = none ∧ mark.opens = true ∧ ∃ kind name selector,
        nesting.apply position mark = nesting.openBlock kind name selector position) := by
  cases mark with
  | selector fragment => exact Or.inr ⟨rfl, rfl, _, _, _, rfl⟩
  | mixin => exact Or.inl ⟨_, rfl, rfl, rfl⟩
  | atRule name => exact Or.inr ⟨rfl, rfl, _, _, _, rfl⟩
  | placeholder name => exact Or.inr ⟨rfl, rfl, _, _, _, rfl⟩
  | property name value => exact Or.inl ⟨_, rfl, rfl, rfl⟩

/-- What holds between any two changes.  The outline is linked, and the two blocks
that are remembered are blocks of the outline, the second of them its last. -/
structure Sound (nesting : Nesting) : Prop where
  linked : nesting.outline.Linked
  body_lt : ∀ id, nesting.body = some id → id < nesting.outline.size
  latest_eq : nesting.latest = (List.range nesting.outline.size).getLast?

namespace Sound

theorem start : Sound Nesting.start where
  linked := Outline.Linked.empty
  body_lt _ found := by cases found
  latest_eq := rfl

theorem latest_lt {nesting : Nesting} (sound : nesting.Sound) (id : Nat)
    (found : nesting.latest = some id) : id < nesting.outline.size := by
  rw [sound.latest_eq] at found
  exact List.mem_range.mp (List.mem_of_getLast? found)

/-- No block stands after the block opened last. -/
theorem le_latest {nesting : Nesting} (sound : nesting.Sound) {id other : Nat}
    (found : nesting.latest = some id) (inside : other < nesting.outline.size) : other ≤ id := by
  rw [sound.latest_eq] at found
  exact Outline.le_of_getLast? List.pairwise_lt_range found (List.mem_range.mpr inside)

theorem openBlock {nesting : Nesting} (sound : nesting.Sound) (kind : BlockKind)
    (name selector : String) (position : Position) :
    (nesting.openBlock kind name selector position).Sound where
  linked := sound.linked.push kind name selector position sound.body_lt
  body_lt id found := by
    have inside := sound.body_lt id found
    simp only [Nesting.openBlock, Outline.size_push]
    omega
  latest_eq := by
    simp only [Nesting.openBlock, Outline.size_push, List.range_succ, List.getLast?_concat]

theorem addEntry {nesting : Nesting} (sound : nesting.Sound) (entry : Entry) :
    (nesting.addEntry entry).Sound := by
  unfold Nesting.addEntry
  split
  · exact sound
  · rename_i target inBody
    exact
      { linked := sound.linked.addEntry target entry
        body_lt := by simpa using sound.body_lt
        latest_eq := by simpa using sound.latest_eq }

theorem apply {nesting : Nesting} (sound : nesting.Sound) (position : Position)
    (mark : Sheet.Mark) : (nesting.apply position mark).Sound := by
  rcases apply_cases position nesting mark with
    ⟨entry, -, -, applied⟩ | ⟨-, -, kind, name, selector, applied⟩
  · rw [applied]
    exact sound.addEntry entry
  · rw [applied]
    exact sound.openBlock kind name selector position

theorem foldl_apply {nesting : Nesting} (sound : nesting.Sound) (position : Position)
    (marks : List Sheet.Mark) : (marks.foldl (Nesting.apply position) nesting).Sound := by
  induction marks generalizing nesting with
  | nil => exact sound
  | cons mark others inductionHypothesis => exact inductionHypothesis (sound.apply position mark)

end Sound

/-- Marks leave the place alone. -/
theorem apply_kept (position : Position) (nesting : Nesting) (mark : Sheet.Mark) :
    (nesting.apply position mark).body = nesting.body ∧
      (nesting.apply position mark).unit = nesting.unit ∧
      (nesting.apply position mark).width = nesting.width := by
  rcases apply_cases position nesting mark with
    ⟨entry, -, -, applied⟩ | ⟨-, -, kind, name, selector, applied⟩
  · rw [applied]
    unfold addEntry
    split <;> exact ⟨rfl, rfl, rfl⟩
  · rw [applied]
    exact ⟨rfl, rfl, rfl⟩

theorem foldl_apply_kept (position : Position) (nesting : Nesting) (marks : List Sheet.Mark) :
    (marks.foldl (apply position) nesting).body = nesting.body ∧
      (marks.foldl (apply position) nesting).unit = nesting.unit ∧
      (marks.foldl (apply position) nesting).width = nesting.width := by
  induction marks generalizing nesting with
  | nil => exact ⟨rfl, rfl, rfl⟩
  | cons mark others inductionHypothesis =>
      obtain ⟨body, unit, width⟩ := apply_kept position nesting mark
      obtain ⟨bodyLater, unitLater, widthLater⟩ := inductionHypothesis (nesting.apply position mark)
      exact ⟨bodyLater.trans body, unitLater.trans unit, widthLater.trans width⟩

/-- Each opening mark adds a block to the present body; no other mark does. -/
theorem headings_foldl_apply (position : Position) (nesting : Nesting)
    (marks : List Sheet.Mark) :
    (marks.foldl (apply position) nesting).outline.headings =
      nesting.outline.headings ++
        List.replicate (marks.filter Sheet.Mark.opens).length (position, nesting.body) := by
  induction marks generalizing nesting with
  | nil => exact (List.append_nil _).symm
  | cons mark others inductionHypothesis =>
      rw [List.foldl_cons, inductionHypothesis, (apply_kept position nesting mark).1,
        List.filter_cons]
      rcases apply_cases position nesting mark with
        ⟨entry, -, closed, applied⟩ | ⟨-, opening, kind, name, selector, applied⟩
      · have kept : (nesting.addEntry entry).outline.headings = nesting.outline.headings := by
          unfold addEntry
          split
          · rfl
          · exact Outline.headings_addEntry _ _ _
        rw [applied, kept, closed]
        rfl
      · rw [applied, opening, openBlock, Outline.headings_push, List.append_assoc, if_pos rfl,
          List.length_cons, List.replicate_succ, List.singleton_append]

/-- The present body receives the entries among the marks, and no other body
receives anything. -/
theorem entries_foldl_apply (position : Position) {nesting : Nesting} (sound : nesting.Sound)
    (marks : List Sheet.Mark) (id : Nat) :
    (marks.foldl (apply position) nesting).outline.entries id =
      nesting.outline.entries id ++
        if nesting.body = some id then marks.filterMap (Sheet.Mark.entry? position) else [] := by
  induction marks generalizing nesting with
  | nil => split <;> exact (List.append_nil _).symm
  | cons mark others inductionHypothesis =>
      rw [List.foldl_cons, inductionHypothesis (sound.apply position mark),
        (apply_kept position nesting mark).1, List.filterMap_cons]
      rcases apply_cases position nesting mark with
        ⟨entry, isEntry, -, applied⟩ | ⟨noEntry, -, kind, name, selector, applied⟩
      · rw [applied, isEntry, addEntry]
        cases inBody : nesting.body with
        | none => rfl
        | some target =>
            dsimp only
            rw [Outline.entries_addEntry _ _ _ _ (sound.body_lt target inBody)]
            by_cases chosen : target = id <;> simp [chosen]
      · rw [applied, noEntry, openBlock, Outline.entries_push]

/-- Walking up from a block of a linked outline ends at a block or outside all. -/
theorem lt_size_of_leave {outline : Outline} (linked : outline.Linked) {count : Nat}
    {start : Option Nat} (inside : ∀ id, start = some id → id < outline.size) {id : Nat}
    (reached : leave outline count start = some (some id)) : id < outline.size := by
  induction count generalizing start with
  | zero => exact inside id (Option.some.inj reached)
  | succ count inductionHypothesis =>
      cases start with
      | none => cases reached
      | some first =>
          refine inductionHypothesis ?_ reached
          intro enclosing found
          exact Nat.lt_trans (linked.parent_lt first enclosing found) (inside first rfl)

theorem Sound.enters {nesting : Nesting} (sound : nesting.Sound) {width : Nat}
    {body : Option Nat} (enters : nesting.Enters width body) (id : Nat) (found : body = some id) :
    id < nesting.outline.size := by
  cases enters with
  | leave narrower reached => exact lt_size_of_leave sound.linked sound.body_lt (found ▸ reached)
  | stay same => exact sound.body_lt id found
  | enter wider opened =>
      cases found
      exact sound.latest_lt id opened

/-- Placing a line keeps what holds between changes. -/
theorem Sound.place {nesting : Nesting} (sound : nesting.Sound) {width : Nat}
    {body : Option Nat} (enters : (nesting.fixUnit width).Enters width body) :
    Sound { nesting.fixUnit width with body } := by
  have fixed : (nesting.fixUnit width).Sound := by
    rw [fixUnit_eq]
    exact ⟨sound.linked, sound.body_lt, sound.latest_eq⟩
  exact ⟨fixed.linked, fixed.enters enters, fixed.latest_eq⟩

/-! ## Runs -/

/-- Take in the marks of a line that has been placed. -/
def absorb (nesting : Nesting) (line : Sheet.Line) : Nesting :=
  (Sheet.Mark.ofText line.text).foldl (apply line.position) { nesting with width := line.width }

theorem absorb_kept (nesting : Nesting) (line : Sheet.Line) :
    (nesting.absorb line).body = nesting.body ∧ (nesting.absorb line).unit = nesting.unit ∧
      (nesting.absorb line).width = line.width :=
  foldl_apply_kept line.position { nesting with width := line.width } _

theorem headings_absorb (nesting : Nesting) (line : Sheet.Line) :
    (nesting.absorb line).outline.headings =
      nesting.outline.headings ++ if line.opens then [(line.position, nesting.body)] else [] := by
  rw [absorb, headings_foldl_apply, Sheet.Mark.length_filter_opens_ofText, Sheet.Line.opens]
  cases Sheet.Mark.begins line.text <;> rfl

theorem position?_absorb {nesting : Nesting} (line : Sheet.Line) {id : Nat} {position : Position}
    (present : nesting.outline.position? id = some position) :
    (nesting.absorb line).outline.position? id = some position := by
  have headings := headings_absorb nesting line
  cases opening : line.opens with
  | true =>
      rw [opening, if_pos rfl] at headings
      exact Outline.position?_concat headings present
  | false =>
      rw [opening, if_neg Bool.false_ne_true, List.append_nil] at headings
      rw [Outline.position?_eq_headings, headings, ← Outline.position?_eq_headings, present]

/-- Blocks stay where they are when a line is taken in. -/
theorem position?_line {nesting : Nesting} (line : Sheet.Line) (body : Option Nat) {id : Nat}
    {position : Position} (present : nesting.outline.position? id = some position) :
    ({ nesting.fixUnit line.width with body }.absorb line).outline.position? id =
      some position :=
  position?_absorb line (outline_fixUnit nesting line.width ▸ present)

theorem Sound.withWidth {nesting : Nesting} (sound : nesting.Sound) (width : Nat) :
    Sound { nesting with width } :=
  ⟨sound.linked, sound.body_lt, sound.latest_eq⟩

theorem Sound.absorb {nesting : Nesting} (sound : nesting.Sound) (line : Sheet.Line) :
    (nesting.absorb line).Sound :=
  (sound.withWidth line.width).foldl_apply line.position _

theorem entries_absorb {nesting : Nesting} (sound : nesting.Sound) (line : Sheet.Line) (id : Nat) :
    (nesting.absorb line).outline.entries id =
      nesting.outline.entries id ++ if nesting.body = some id then line.entries else [] :=
  entries_foldl_apply line.position (sound.withWidth line.width) _ id

/-- A line with the block that it was placed in. -/
structure Placement where
  line : Sheet.Line
  body : Option Nat
deriving DecidableEq, Repr

/-- The lines read so far, where each was placed, and what they led to. -/
inductive Run : List Placement → Nesting → Prop where
  | start : Run [] Nesting.start
  | line {placements : List Placement} {nesting : Nesting} (read : Run placements nesting)
      (line : Sheet.Line) {body : Option Nat}
      (enters : (nesting.fixUnit line.width).Enters line.width body) :
      Run (placements ++ [⟨line, body⟩])
        ({ nesting.fixUnit line.width with body }.absorb line)

theorem step_eq (nesting : Nesting) (line : Sheet.Line) :
    nesting.step line = ((nesting.fixUnit line.width).place line).map (absorb · line) := by
  unfold step
  cases (nesting.fixUnit line.width).place line <;> rfl

theorem step_of_enters {nesting : Nesting} {line : Sheet.Line} {body : Option Nat}
    (enters : (nesting.fixUnit line.width).Enters line.width body) :
    nesting.step line = .ok ({ nesting.fixUnit line.width with body }.absorb line) := by
  rw [step_eq, place_of_enters enters]
  rfl

theorem enters_of_step {nesting next : Nesting} {line : Sheet.Line}
    (accepted : nesting.step line = .ok next) :
    ∃ body, (nesting.fixUnit line.width).Enters line.width body ∧
      next = { nesting.fixUnit line.width with body }.absorb line := by
  rw [step_eq] at accepted
  cases placing : (nesting.fixUnit line.width).place line with
  | error malformed =>
      rw [placing] at accepted
      cases accepted
  | ok placed =>
      obtain ⟨kept, enters⟩ := enters_of_place placing
      rw [placing] at accepted
      cases accepted
      exact ⟨placed.body, enters, by rw [← kept]⟩

theorem step_of_fails {nesting : Nesting} {line : Sheet.Line} {fault : Fault}
    (fails : (nesting.fixUnit line.width).Fails line.width fault) :
    nesting.step line = .error (.ofLine line fault) := by
  rw [step_eq, place_of_fails fails]
  rfl

theorem fails_of_step {nesting : Nesting} {line : Sheet.Line} {malformed : Malformed}
    (refused : nesting.step line = .error malformed) :
    ∃ fault, malformed = .ofLine line fault ∧
      (nesting.fixUnit line.width).Fails line.width fault := by
  rw [step_eq] at refused
  cases placing : (nesting.fixUnit line.width).place line with
  | ok placed =>
      rw [placing] at refused
      cases refused
  | error fault =>
      rw [placing] at refused
      cases refused
      exact fails_of_place placing

/-- Reading on from the end of a run extends the run. -/
theorem Run.extend {placements : List Placement} {nesting next : Nesting}
    (read : Run placements nesting) {lines : List Sheet.Line}
    (accepted : lines.foldlM step nesting = .ok next) :
    ∃ more, more.map Placement.line = lines ∧ Run (placements ++ more) next := by
  induction lines generalizing placements nesting with
  | nil =>
      cases accepted
      exact ⟨[], rfl, by rwa [List.append_nil]⟩
  | cons line others inductionHypothesis =>
      rw [List.foldlM_cons] at accepted
      cases first : nesting.step line with
      | error malformed =>
          rw [first] at accepted
          cases accepted
      | ok middle =>
          rw [first] at accepted
          obtain ⟨body, enters, rfl⟩ := enters_of_step first
          obtain ⟨more, same, run⟩ := inductionHypothesis (read.line line enters) accepted
          refine ⟨⟨line, body⟩ :: more, ?_, ?_⟩
          · rw [List.map_cons, same]
          · rwa [List.append_assoc] at run

theorem Run.foldlM_eq {placements : List Placement} {nesting : Nesting}
    (read : Run placements nesting) :
    (placements.map Placement.line).foldlM step Nesting.start = .ok nesting := by
  induction read with
  | start => rfl
  | line read line enters inductionHypothesis =>
      rw [List.map_append, List.foldlM_append, inductionHypothesis]
      have last := step_of_enters enters
      simp only [List.map_cons, List.map_nil, List.foldlM_cons, List.foldlM_nil]
      change (step _ line >>= pure) = _
      rw [last]
      rfl

namespace Run

variable {placements : List Placement} {nesting : Nesting}

theorem sound (run : Run placements nesting) : nesting.Sound := by
  induction run with
  | start => exact Sound.start
  | line read line enters inductionHypothesis =>
      exact (inductionHypothesis.place enters).absorb line

theorem eq_start (run : Run placements nesting) (unread : placements = []) :
    nesting = Nesting.start := by
  cases run with
  | start => rfl
  | line read line enters => simp at unread

/-- The unit is the first width other than zero among the lines read. -/
theorem unit_eq (run : Run placements nesting) :
    nesting.unit = Sheet.Line.firstIndent? (placements.map Placement.line) := by
  induction run with
  | start => rfl
  | line read line enters inductionHypothesis =>
      rw [(absorb_kept _ line).2.1, List.map_append, List.map_singleton,
        Sheet.Line.firstIndent?_append, ← inductionHypothesis, fixUnit_eq]

/-- The width is that of the line read last. -/
theorem width_eq (run : Run placements nesting) :
    nesting.width = ((placements.map Placement.line).getLast?.map Sheet.Line.width).getD 0 := by
  cases run with
  | start => rfl
  | line read line enters =>
      rw [(absorb_kept _ line).2.2, List.map_append, List.map_singleton, List.getLast?_concat]
      rfl

theorem width_of_getLast? (run : Run placements nesting) {previous : Sheet.Line}
    (last : (placements.map Placement.line).getLast? = some previous) :
    nesting.width = previous.width := by
  rw [run.width_eq, last, Option.map_some, Option.getD_some]

theorem dvd_width (run : Run placements nesting) {unit : Nat}
    (aligned : ∀ line ∈ placements.map Placement.line, unit ∣ line.width) :
    unit ∣ nesting.width := by
  rw [run.width_eq]
  cases last : (placements.map Placement.line).getLast? with
  | none => exact Nat.dvd_zero unit
  | some line => exact aligned line (List.mem_of_getLast? last)

/-- Once a line is indented, the unit is known. -/
theorem unit_of_width_pos (run : Run placements nesting) (indented : 0 < nesting.width) :
    ∃ indent, nesting.unit = some indent ∧
      Sheet.Line.firstIndent? (placements.map Placement.line) = some indent := by
  cases known : nesting.unit with
  | some indent => exact ⟨indent, rfl, run.unit_eq.symm.trans known⟩
  | none =>
      have flat := run.unit_eq.symm.trans known
      rw [run.width_eq] at indented
      cases last : (placements.map Placement.line).getLast? with
      | none =>
          rw [last] at indented
          exact absurd indented (Nat.lt_irrefl 0)
      | some line =>
          rw [last] at indented
          have zero := List.find?_eq_none.mp flat line.width
            (List.mem_map_of_mem (List.mem_of_getLast? last))
          have nonzero : 0 < line.width := indented
          simp only [bne_iff_ne, ne_eq, Decidable.not_not] at zero
          omega

/-- A narrower line leaves one block for every unit that it is narrower by. -/
theorem steps_eq (run : Run placements nesting) {width unit : Nat}
    (narrower : width < nesting.width)
    (first : ∀ indent, Sheet.Line.firstIndent? (placements.map Placement.line) = some indent →
      indent = unit) :
    (nesting.fixUnit width).steps width = (nesting.width - width) / unit := by
  obtain ⟨indent, known, found⟩ := run.unit_of_width_pos (Nat.zero_lt_of_lt narrower)
  rw [fixUnit_eq, steps, known, Option.some_or, Option.getD_some, first indent found]

/-- The blocks are the opening lines in order, and what encloses a block is what
its line was placed in. -/
theorem headings_eq (run : Run placements nesting) :
    nesting.outline.headings =
      (placements.filter (·.line.opens)).map fun placement =>
        (placement.line.position, placement.body) := by
  induction run with
  | start => rfl
  | line read line enters inductionHypothesis =>
      rw [headings_absorb, List.filter_append, List.map_append, ← inductionHypothesis]
      simp only [fixUnit_eq]
      cases opening : line.opens <;> simp [opening]

/-- A block stands on a line that opens it and was placed in its parent. -/
theorem exists_placement (run : Run placements nesting) {id : Nat} {position : Position}
    (present : nesting.outline.position? id = some position) :
    ∃ placement ∈ placements, placement.line.opens = true ∧
      placement.line.position = position ∧ nesting.outline.parent? id = placement.body := by
  rw [Outline.position?_eq_headings, run.headings_eq, List.getElem?_map, Option.map_map] at present
  obtain ⟨placement, found, rfl⟩ := Option.map_eq_some_iff.mp present
  have member := List.mem_of_getElem? found
  refine ⟨placement, (List.mem_filter.mp member).1, (List.mem_filter.mp member).2, rfl, ?_⟩
  rw [Outline.parent?_eq_headings, run.headings_eq, List.getElem?_map, found]
  rfl

theorem exists_block_of_opens (run : Run placements nesting) {placement : Placement}
    (member : placement ∈ placements) (opening : placement.line.opens = true) :
    ∃ id, nesting.outline.position? id = some placement.line.position ∧
      nesting.outline.parent? id = placement.body := by
  have listed : placement ∈ placements.filter (·.line.opens) :=
    List.mem_filter.mpr ⟨member, opening⟩
  obtain ⟨id, found⟩ := List.mem_iff_getElem?.mp listed
  refine ⟨id, ?_, ?_⟩
  · rw [Outline.position?_eq_headings, run.headings_eq, List.getElem?_map, found]
    rfl
  · rw [Outline.parent?_eq_headings, run.headings_eq, List.getElem?_map, found]
    rfl

/-- The next line is placed in a block that is already there. -/
theorem position?_of_enters (run : Run placements nesting) {width id : Nat} {body : Option Nat}
    (enters : (nesting.fixUnit width).Enters width body) (inBody : body = some id) :
    ∃ position, nesting.outline.position? id = some position := by
  have inside := (run.sound.place enters).body_lt id inBody
  rw [outline_fixUnit] at inside
  exact Outline.exists_position?_of_lt inside

/-- A line is placed in a block that there is. -/
theorem exists_position? (run : Run placements nesting) {placement : Placement}
    (member : placement ∈ placements) {id : Nat} (inBody : placement.body = some id) :
    ∃ position, nesting.outline.position? id = some position := by
  induction run with
  | start => cases member
  | @line placements nesting read line body enters inductionHypothesis =>
      have present : ∃ position, nesting.outline.position? id = some position := by
        rcases List.mem_append.mp member with old | new
        · exact inductionHypothesis old
        · cases List.mem_singleton.mp new
          exact read.position?_of_enters enters inBody
      obtain ⟨position, found⟩ := present
      exact ⟨position, position?_line line body found⟩

theorem positions_eq (run : Run placements nesting) :
    nesting.outline.headings.map Prod.fst =
      ((placements.map Placement.line).filter Sheet.Line.opens).map Sheet.Line.position := by
  rw [run.headings_eq, List.map_map, List.filter_map, List.map_map]
  rfl

/-- The block opened last stands on the last opening line. -/
theorem position?_latest (run : Run placements nesting) :
    nesting.latest.bind nesting.outline.position? =
      ((placements.map Placement.line).filter Sheet.Line.opens).getLast?.map
        Sheet.Line.position := by
  rw [← List.getLast?_map, ← run.positions_eq, List.getLast?_map, run.sound.latest_eq,
    Outline.size_eq_length_headings]
  cases headings : nesting.outline.headings.length with
  | zero => rw [List.length_eq_zero_iff.mp headings]; rfl
  | succ count =>
      rw [List.range_succ, List.getLast?_concat, Option.bind_some, Outline.position?_eq_headings,
        List.getLast?_eq_getElem?, headings, Nat.add_sub_cancel]

/-- As long as no line opens a block, there is none that a wider line could enter. -/
theorem latest_eq_none_iff (run : Run placements nesting) :
    nesting.latest = none ↔ ∀ placement ∈ placements, placement.line.opens = false := by
  rw [run.sound.latest_eq, List.getLast?_eq_none_iff, List.range_eq_nil,
    Outline.size_eq_length_headings, run.headings_eq, List.length_map, List.length_eq_zero_iff,
    List.filter_eq_nil_iff]
  simp only [Bool.not_eq_true]

theorem latest_of_opens (run : Run placements nesting) {previous : Sheet.Line}
    (last : (placements.map Placement.line).getLast? = some previous)
    (opening : previous.opens = true) :
    ∃ id, nesting.latest = some id ∧ nesting.outline.position? id = some previous.position := by
  obtain ⟨others, split⟩ := List.getLast?_eq_some_iff.mp last
  have found := run.position?_latest
  rw [split, List.filter_append, List.filter_cons_of_pos opening, List.filter_nil,
    List.getLast?_concat, Option.map_some] at found
  exact Option.bind_eq_some_iff.mp found

/-- The state in which a line was placed.  Blocks that were there then are where
they were. -/
theorem split (run : Run placements nesting) {before after : List Placement}
    {placement : Placement} (read : placements = before ++ placement :: after) :
    ∃ middle, Run before middle ∧
      (middle.fixUnit placement.line.width).Enters placement.line.width placement.body ∧
      ∀ id position, middle.outline.position? id = some position →
        nesting.outline.position? id = some position := by
  induction run generalizing after with
  | start => cases before <;> cases read
  | @line placements nesting earlier line body enters inductionHypothesis =>
      rcases List.eq_nil_or_concat after with rfl | ⟨others, last, rfl⟩
      · obtain ⟨rfl, same⟩ := List.append_inj' read rfl
        cases same
        exact ⟨nesting, earlier, enters, fun id position => position?_line line _⟩
      · rw [List.concat_eq_append, ← List.cons_append, ← List.append_assoc] at read
        obtain ⟨middle, readBefore, entered, present⟩ :=
          inductionHypothesis (List.append_inj' read rfl).1
        exact ⟨middle, readBefore, entered, fun id position found =>
          position?_line line _ (present id position found)⟩

/-- The body of a block holds the entries of the lines placed in it. -/
theorem entries_eq (run : Run placements nesting) (id : Nat) :
    nesting.outline.entries id =
      (placements.filter fun placement => placement.body = some id).flatMap
        fun placement => placement.line.entries := by
  induction run with
  | start => rfl
  | @line placements nesting read line body enters inductionHypothesis =>
      rw [entries_absorb (read.sound.place enters), List.filter_append, List.flatMap_append,
        ← inductionHypothesis]
      by_cases chosen : body = some id <;> simp [chosen]

end Run
end Nesting

/-- A source is parsed exactly when there is a run over its lines. -/
theorem Outline.parse_eq_ok_iff (source : String) (outline : Outline) :
    Outline.parse source = .ok outline ↔
      ∃ placements nesting, Nesting.Run placements nesting ∧
        placements.map Nesting.Placement.line = Sheet.Line.ofSource source ∧
        nesting.outline = outline := by
  unfold Outline.parse Outline.ofLines
  constructor
  · intro parsed
    cases reading : (Sheet.Line.ofSource source).foldlM Nesting.step Nesting.start with
    | error malformed =>
        rw [reading] at parsed
        cases parsed
    | ok nesting =>
        rw [reading] at parsed
        cases parsed
        obtain ⟨placements, same, run⟩ := Nesting.Run.start.extend reading
        exact ⟨placements, nesting, run, same, rfl⟩
  · rintro ⟨placements, nesting, run, same, rfl⟩
    rw [← same, run.foldlM_eq]
    rfl

/-- What can be computed from a parsed source holds of its outline. -/
theorem Outline.exists_of_view {α : Type} (view : Outline → α) {source : String} {value : α}
    (seen : (Outline.parse source).toOption.map view = some value) :
    ∃ outline, Outline.parse source = .ok outline ∧ view outline = value := by
  cases result : Outline.parse source with
  | error malformed =>
      rw [result] at seen
      cases seen
  | ok outline =>
      rw [result] at seen
      exact ⟨outline, rfl, Option.some.inj seen⟩

end StyleOrder
