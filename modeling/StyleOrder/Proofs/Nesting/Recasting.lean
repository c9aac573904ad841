import Mathlib.Data.List.Forall2
import StyleOrder.Proofs.Nesting.Growth
import StyleOrder.Proofs.Outline.Relocation

namespace StyleOrder

/-!
# Two sheets read side by side

Reading compares widths with each other and divides one by another.  It never looks
at the number of a line, and an entry, once added, is not looked at either.  So let
two sheets be given, line for line, where the widths in the second are those in the
first multiplied by a common factor, and where the marks of two lines that belong
together open the same block or are the same entry up to an edit.  Then every step of
reading is the same step: the same blocks are entered and left, and a line that cannot
be placed cannot be placed for the same reason.

This holds for every sheet, also for one whose widths fit no unit.  A quotient is
rounded down, but multiplying both of its parts does not change it.
-/

/-- A change of positions under which columns are multiplied by a factor. -/
structure Position.Scales (factor : Nat) (move : Position → Position) : Prop where
  positive : 0 < factor
  column : ∀ position, (move position).column = position.column * factor

namespace Sheet

/-- What a mark at one position does, another one does elsewhere: both open the same
block, or both are entries, and the second is the first one edited. -/
inductive Mark.Recast (edit : Entry → Entry) (position moved : Position) : Mark → Mark → Prop where
  | opening {mark : Mark} (opens : mark.opens = true) : Recast edit position moved mark mark
  | entry {mark other : Mark} {entry : Entry} (adds : mark.entry? position = some entry)
      (edited : other.entry? moved = some (edit entry)) : Recast edit position moved mark other

theorem Mark.Recast.of_map {edit : Entry → Entry} {position moved : Position} {mark other : Mark}
    (opening : mark.opens = true → other = mark)
    (edited : other.entry? moved = (mark.entry? position).map edit) :
    Recast edit position moved mark other := by
  cases adds : mark.entry? position with
  | some entry =>
      rw [adds] at edited
      exact .entry adds edited
  | none =>
      have opens : mark.opens = true := by
        cases mark with
        | mixin => cases adds
        | property name value => cases adds
        | _ => rfl
      rw [opening opens]
      exact .opening opens

/-- A line that reads like another one, moved and with its entries edited. -/
structure Line.Recast (move : Position → Position) (edit : Entry → Entry)
    (blame : Malformed → Malformed) (line other : Line) : Prop where
  position : other.position = move line.position
  marks : List.Forall₂ (Mark.Recast edit line.position other.position) (Mark.ofText line.text)
    (Mark.ofText other.text)
  fault : ∀ fault, Malformed.ofLine other fault = blame (Malformed.ofLine line fault)

end Sheet

namespace Nesting

open Sheet (Mark Line)

/-- The same state of reading, in the other sheet. -/
def recast (move : Position → Position) (edit : Entry → Entry) (factor : Nat) (nesting : Nesting) :
    Nesting where
  outline := nesting.outline.recast move edit
  unit := nesting.unit.map (· * factor)
  width := nesting.width * factor
  body := nesting.body
  latest := nesting.latest

/-! ## Marks -/

section Marks

variable {move : Position → Position} {edit : Entry → Entry} {factor : Nat} (nesting : Nesting)

theorem selector_recast : (nesting.recast move edit factor).selector = nesting.selector := by
  unfold selector
  cases body : nesting.body with
  | none => simp [recast, body]
  | some id =>
      simp only [recast, body, Option.bind_some, Outline.block?_recast, Option.map_map]
      rfl

theorem openBlock_recast (kind : BlockKind) (name selector : String) (position : Position) :
    (nesting.recast move edit factor).openBlock kind name selector (move position) =
      (nesting.openBlock kind name selector position).recast move edit factor := by
  simp only [openBlock, recast, Outline.push_recast, Outline.size_recast]

theorem addEntry_recast (entry : Entry) :
    (nesting.recast move edit factor).addEntry (edit entry) =
      (nesting.addEntry entry).recast move edit factor := by
  cases body : nesting.body with
  | none => simp only [addEntry, recast, body]
  | some id => simp only [addEntry, recast, body, Outline.addEntry_recast]

theorem apply_of_adds {position : Position} {mark : Mark} {entry : Entry}
    (adds : mark.entry? position = some entry) :
    nesting.apply position mark = nesting.addEntry entry := by
  rcases apply_cases position nesting mark with ⟨other, found, -, same⟩ | ⟨none, -⟩
  · rw [same, Option.some.inj (found.symm.trans adds)]
  · rw [none] at adds
    cases adds

theorem apply_recast {position : Position} {mark other : Mark}
    (same : Mark.Recast edit position (move position) mark other) :
    (nesting.recast move edit factor).apply (move position) other =
      (nesting.apply position mark).recast move edit factor := by
  cases same with
  | opening opens =>
      cases mark with
      | selector fragment => simp only [apply, selector_recast, openBlock_recast]
      | atRule name => simp only [apply, selector_recast, openBlock_recast]
      | placeholder name => simp only [apply, openBlock_recast]
      | mixin => cases opens
      | property name value => cases opens
  | entry adds edited => rw [apply_of_adds _ adds, apply_of_adds _ edited, addEntry_recast]

theorem foldl_apply_recast {position : Position} {marks others : List Mark}
    (same : List.Forall₂ (Mark.Recast edit position (move position)) marks others) :
    others.foldl (apply (move position)) (nesting.recast move edit factor) =
      (marks.foldl (apply position) nesting).recast move edit factor := by
  induction same generalizing nesting with
  | nil => rfl
  | cons here _ ih => rw [List.foldl_cons, apply_recast nesting here, ih, List.foldl_cons]

theorem leave_recast (outline : Outline) (count : Nat) (body : Option Nat) :
    leave (outline.recast move edit) count body = leave outline count body := by
  induction count generalizing body with
  | zero => rfl
  | succ count ih =>
      cases body with
      | none => rfl
      | some id => rw [leave, Outline.parent?_recast, ih, leave]

end Marks

/-! ## Widths -/

section Widths

variable {move : Position → Position} {edit : Entry → Entry} {blame : Malformed → Malformed}
  {factor : Nat} (scales : Position.Scales factor move) (nesting : Nesting)

include scales

theorem width_recast {line other : Line} (same : Line.Recast move edit blame line other) :
    other.width = line.width * factor :=
  (congrArg Position.column same.position).trans (scales.column line.position)

theorem fixUnit_recast (width : Nat) :
    (nesting.recast move edit factor).fixUnit (width * factor) =
      (nesting.fixUnit width).recast move edit factor := by
  have zero : width * factor = 0 ↔ width = 0 :=
    Nat.mul_eq_zero.trans (or_iff_left (Nat.ne_of_gt scales.positive))
  have indented : (width * factor != 0) = (width != 0) := by
    rw [Bool.eq_iff_iff, bne_iff_ne, bne_iff_ne, Ne, zero]
  rw [fixUnit_eq, fixUnit_eq, indented]
  cases known : nesting.unit <;> cases width != 0 <;> simp [recast, known]

/-- A quotient of widths is a quotient of what they are multiples of. -/
theorem steps_recast (width : Nat) :
    (nesting.recast move edit factor).steps (width * factor) = nesting.steps width := by
  have divisor : (nesting.unit.map (· * factor)).getD (nesting.width * factor) =
      nesting.unit.getD nesting.width * factor := by
    cases nesting.unit <;> rfl
  simp only [steps, recast]
  rw [divisor, ← Nat.sub_mul, Nat.mul_div_mul_right _ _ scales.positive]

/-- A line is placed where it was, or cannot be placed for the same reason. -/
theorem place_recast {line other : Line} (same : Line.Recast move edit blame line other) :
    (nesting.recast move edit factor).place other =
      ((nesting.place line).map (recast move edit factor)).mapError blame := by
  have less : ∀ first second, first * factor < second * factor ↔ first < second :=
    fun _ _ => Nat.mul_lt_mul_right scales.positive
  unfold place
  simp only [width_recast scales same, steps_recast scales, same.fault]
  simp only [recast, less, leave_recast]
  split
  · cases leave nesting.outline (nesting.steps line.width) nesting.body <;> rfl
  · split
    · cases nesting.latest <;> rfl
    · rfl

theorem absorb_recast {line other : Line} (same : Line.Recast move edit blame line other) :
    (nesting.recast move edit factor).absorb other =
      (nesting.absorb line).recast move edit factor := by
  have widened : { nesting.recast move edit factor with width := other.width } =
      { nesting with width := line.width }.recast move edit factor := by
    rw [width_recast scales same]
    rfl
  have marks := same.marks
  rw [same.position] at marks
  unfold absorb
  rw [widened, same.position]
  exact foldl_apply_recast _ marks

theorem step_recast {line other : Line} (same : Line.Recast move edit blame line other) :
    (nesting.recast move edit factor).step other =
      ((nesting.step line).map (recast move edit factor)).mapError blame := by
  rw [step_eq, step_eq, width_recast scales same, fixUnit_recast scales, place_recast scales _ same]
  cases (nesting.fixUnit line.width).place line with
  | error malformed => rfl
  | ok placed => exact congrArg Except.ok (absorb_recast scales placed same)

/-- Reading one sheet comes to what reading the other one comes to, in other terms. -/
theorem foldlM_recast {lines others : List Line}
    (same : List.Forall₂ (Line.Recast move edit blame) lines others) :
    others.foldlM step (nesting.recast move edit factor) =
      ((lines.foldlM step nesting).map (recast move edit factor)).mapError blame := by
  induction same generalizing nesting with
  | nil => rfl
  | @cons line other _ _ here _ ih =>
      rw [List.foldlM_cons, List.foldlM_cons, step_recast scales nesting here]
      cases nesting.step line with
      | error malformed => rfl
      | ok next => exact ih next

end Widths
end Nesting

namespace Outline

open Sheet (Line)

/-- A source whose lines read like those of another one is parsed like the other. -/
theorem parse_recast {move : Position → Position} {edit : Entry → Entry}
    {blame : Malformed → Malformed} {factor : Nat} (scales : Position.Scales factor move)
    {source other : String}
    (same : List.Forall₂ (Line.Recast move edit blame) (Line.ofSource source)
      (Line.ofSource other)) :
    Outline.parse other = ((Outline.parse source).map (recast move edit)).mapError blame := by
  have fresh : Nesting.start.recast move edit factor = Nesting.start := by
    simp [Nesting.start, Nesting.recast, recast, Outline.empty]
  have reading := Nesting.foldlM_recast scales Nesting.start same
  rw [fresh] at reading
  rw [parse_eq_map, parse_eq_map, reading]
  cases (Line.ofSource source).foldlM Nesting.step Nesting.start <;> rfl

end Outline
end StyleOrder
