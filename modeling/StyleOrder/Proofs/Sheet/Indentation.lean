import Mathlib.Data.List.Chain
import StyleOrder.Proofs.Sheet.Lines

namespace StyleOrder
namespace Sheet
namespace Line

/-!
# Kinds of indentation

The first width other than zero is the unit in which a sheet is indented.  What
can be said of the outline of a sheet depends on how its widths go up: by one
unit at a time or not, and below lines that open a block or below any line.
How far a width goes down is never restricted.
-/

/-- The first width other than zero. -/
def firstIndent? (lines : List Line) : Option Nat :=
  (lines.map width).find? (· != 0)

/-- The unit of indentation, which is one where no line is indented. -/
def unit (lines : List Line) : Nat :=
  (firstIndent? lines).getD 1

theorem firstIndent?_or (lines more : List Line) :
    firstIndent? (lines ++ more) = (firstIndent? lines).or (firstIndent? more) := by
  rw [firstIndent?, List.map_append, List.find?_append]
  rfl

theorem firstIndent?_append (lines : List Line) (line : Line) :
    firstIndent? (lines ++ [line]) =
      (firstIndent? lines).or (if line.width != 0 then some line.width else none) := by
  rw [firstIndent?_or]
  cases indented : line.width != 0 <;> simp [firstIndent?, indented]

theorem firstIndent?_pos {lines : List Line} {indent : Nat}
    (found : firstIndent? lines = some indent) : 0 < indent := by
  have nonzero := List.find?_some found
  simp only [bne_iff_ne] at nonzero
  omega

/-- More lines do not change the first indentation. -/
theorem firstIndent?_of_concat {lines : List Line} {line : Line} {indent : Nat}
    (found : firstIndent? lines = some indent) :
    firstIndent? (lines ++ [line]) = some indent := by
  rw [firstIndent?_append, found, Option.some_or]

theorem eq_unit_of_firstIndent? {lines : List Line} {indent : Nat}
    (found : firstIndent? lines = some indent) : indent = unit lines := by
  rw [unit, found, Option.getD_some]

theorem unit_pos (lines : List Line) : 0 < unit lines := by
  unfold unit
  cases found : firstIndent? lines with
  | none => exact Nat.one_pos
  | some indent => exact firstIndent?_pos found

/-- The first line stands at the margin, all widths are multiples of the unit, and a
line that is wider than the line before it is so by one unit and below a line that
opens a block. -/
structure StepsBy (unit : Nat) (lines : List Line) : Prop where
  flush : ∀ line, lines.head? = some line → line.width = 0
  aligned : ∀ line ∈ lines, unit ∣ line.width
  stepped : lines.IsChain fun previous line =>
    previous.width < line.width → line.width = previous.width + unit ∧ previous.opens = true

namespace StepsBy

theorem iff_and {unit : Nat} {lines : List Line} :
    StepsBy unit lines ↔
      (∀ line ∈ lines.head?, line.width = 0) ∧ (∀ line ∈ lines, unit ∣ line.width) ∧
        lines.IsChain fun previous line => previous.width < line.width →
          line.width = previous.width + unit ∧ previous.opens = true :=
  ⟨fun steps => ⟨steps.flush, steps.aligned, steps.stepped⟩,
    fun ⟨flush, aligned, stepped⟩ => ⟨flush, aligned, stepped⟩⟩

instance (unit : Nat) (lines : List Line) : Decidable (StepsBy unit lines) :=
  decidable_of_iff _ iff_and.symm

/-- What one more line has to satisfy. -/
theorem of_concat {unit : Nat} {lines : List Line} {line : Line}
    (steps : StepsBy unit (lines ++ [line])) :
    StepsBy unit lines ∧ (lines = [] → line.width = 0) ∧ unit ∣ line.width ∧
      ∀ previous, lines.getLast? = some previous → previous.width < line.width →
        line.width = previous.width + unit ∧ previous.opens = true := by
  obtain ⟨before, -, link⟩ := List.isChain_append.mp steps.stepped
  refine ⟨⟨?_, ?_, before⟩, ?_, steps.aligned line (by simp), ?_⟩
  · intro first found
    exact steps.flush first (by rw [List.head?_append, found]; rfl)
  · intro other member
    exact steps.aligned other (List.mem_append_left _ member)
  · intro empty
    exact steps.flush line (by rw [empty]; rfl)
  · intro previous found
    exact link previous found line rfl

/-- A line at the margin can always follow. -/
theorem concat_margin {unit : Nat} {lines : List Line} (steps : StepsBy unit lines) {line : Line}
    (margin : line.width = 0) : StepsBy unit (lines ++ [line]) where
  flush first found := by
    cases lines with
    | nil =>
        cases found
        exact margin
    | cons head others => exact steps.flush first found
  aligned other member := by
    rcases List.mem_append.mp member with old | new
    · exact steps.aligned other old
    · rw [List.mem_singleton.mp new, margin]
      exact Nat.dvd_zero unit
  stepped := by
    refine List.isChain_append.mpr ⟨steps.stepped, List.isChain_singleton _, ?_⟩
    intro previous _ other last wider
    cases last
    omega

/-- Where no line is indented, every unit will do. -/
theorem of_flat {unit : Nat} {lines : List Line} (steps : StepsBy unit lines)
    (flat : firstIndent? lines = none) (other : Nat) : StepsBy other lines := by
  have margin : ∀ line ∈ lines, line.width = 0 := by
    intro line member
    have zero := List.find?_eq_none.mp flat line.width (List.mem_map_of_mem member)
    simpa using zero
  refine ⟨steps.flush, ?_, ?_⟩
  · intro line member
    rw [margin line member]
    exact Nat.dvd_zero other
  · refine steps.stepped.imp_of_mem_imp ?_
    intro previous line _ member _ wider
    rw [margin line member] at wider
    omega

end StepsBy

/-- The first line stands at the margin, and a line that is wider than the line before
it is so by one unit at most and below a line that opens a block.  Widths need not be
multiples of the unit. -/
structure StepsWithin (unit : Nat) (lines : List Line) : Prop where
  flush : ∀ line, lines.head? = some line → line.width = 0
  stepped : lines.IsChain fun previous line =>
    previous.width < line.width → line.width ≤ previous.width + unit ∧ previous.opens = true

namespace StepsWithin

theorem iff_and {unit : Nat} {lines : List Line} :
    StepsWithin unit lines ↔
      (∀ line ∈ lines.head?, line.width = 0) ∧
        lines.IsChain fun previous line => previous.width < line.width →
          line.width ≤ previous.width + unit ∧ previous.opens = true :=
  ⟨fun steps => ⟨steps.flush, steps.stepped⟩, fun ⟨flush, stepped⟩ => ⟨flush, stepped⟩⟩

instance (unit : Nat) (lines : List Line) : Decidable (StepsWithin unit lines) :=
  decidable_of_iff _ iff_and.symm

/-- What one more line has to satisfy. -/
theorem of_concat {unit : Nat} {lines : List Line} {line : Line}
    (steps : StepsWithin unit (lines ++ [line])) :
    StepsWithin unit lines ∧ (lines = [] → line.width = 0) ∧
      ∀ previous, lines.getLast? = some previous → previous.width < line.width →
        line.width ≤ previous.width + unit ∧ previous.opens = true := by
  obtain ⟨before, -, link⟩ := List.isChain_append.mp steps.stepped
  refine ⟨⟨?_, before⟩, ?_, ?_⟩
  · intro first found
    exact steps.flush first (by rw [List.head?_append, found]; rfl)
  · intro empty
    exact steps.flush line (by rw [empty]; rfl)
  · intro previous found
    exact link previous found line rfl

end StepsWithin

/-- All widths are multiples of the unit, and none exceeds the one before it by more
than the unit. -/
structure EvenBy (unit : Nat) (lines : List Line) : Prop where
  aligned : ∀ line ∈ lines, unit ∣ line.width
  gradual : lines.IsChain fun previous line => line.width ≤ previous.width + unit

/-- If a line is wider than the line before it, it is also wider than the last of
the lines before it that opens a block. -/
def HeadedBy (before : List Line) (line : Line) : Prop :=
  ∀ previous ∈ before.getLast?, previous.width < line.width →
    ∀ opener ∈ (before.filter opens).getLast?, opener.width < line.width

instance (before : List Line) (line : Line) : Decidable (HeadedBy before line) :=
  inferInstanceAs (Decidable (∀ previous ∈ before.getLast?, previous.width < line.width →
    ∀ opener ∈ (before.filter opens).getLast?, opener.width < line.width))

/-- Every line that goes further in is wider than the last line that opens a block. -/
def Headed (lines : List Line) : Prop :=
  ∀ index < lines.length, ∀ line ∈ lines[index]?, HeadedBy (lines.take index) line

instance (lines : List Line) : Decidable (Headed lines) :=
  inferInstanceAs (Decidable (∀ index < lines.length, ∀ line ∈ lines[index]?,
    HeadedBy (lines.take index) line))

theorem headed_concat_iff (lines : List Line) (line : Line) :
    Headed (lines ++ [line]) ↔ Headed lines ∧ HeadedBy lines line := by
  constructor
  · intro headed
    refine ⟨?_, ?_⟩
    · intro index inside other found
      have earlier := headed index (by rw [List.length_append]; omega) other
        (by rwa [List.getElem?_append_left inside])
      rwa [List.take_append_of_le_length (Nat.le_of_lt inside)] at earlier
    · have last := headed lines.length (by simp) line List.getElem?_concat_length
      rwa [List.take_left] at last
  · rintro ⟨headed, last⟩ index inside other found
    rw [List.length_append, List.length_singleton] at inside
    rcases Nat.lt_or_ge index lines.length with earlier | end_
    · rw [List.getElem?_append_left earlier] at found
      rw [List.take_append_of_le_length (Nat.le_of_lt earlier)]
      exact headed index earlier other found
    · have same : index = lines.length := by omega
      subst same
      rw [List.getElem?_concat_length] at found
      cases found
      rwa [List.take_left]

end Line
end Sheet
end StyleOrder
