import Mathlib.Data.List.DropRight
import StyleOrder.Lint.Report
import StyleOrder.Proofs.Nesting.Concatenation
import StyleOrder.Proofs.Order.Findings

namespace StyleOrder

/-!
# Violations of a sheet that was moved

The order of entries depends on their names and not on where they stand.  When the
entries of a body are moved, the same ones are found to be late, and against the
same anchors.  A violation names two lines: its own, in its position, and the line
of its anchor, at the end of its message.  Both are moved along.

Together with what is known about the outlines of two sheets that follow one
another, this gives the violations of both sheets in one text.
-/

/-! ## The line at the end of a message -/

namespace Violation

/-- A message with the number that it ends in replaced. -/
def renumber (number : Nat → Nat) (message : String) : String :=
  String.ofList (message.toList.rdropWhile Char.isDigit) ++
    toString (number (Nat.ofDigitChars 10 (message.toList.rtakeWhile Char.isDigit) 0))

theorem renumber_append (number : Nat → Nat) (words : String) (line : Nat) :
    renumber number (words ++ " in line " ++ toString line) =
      words ++ " in line " ++ toString (number line) := by
  have digits : ∀ c ∈ (Nat.toDigits 10 line).reverse, c.isDigit = true := by
    intro c member
    exact Nat.isDigit_of_mem_toDigits (by decide) (by decide) (List.mem_reverse.mp member)
  have text : (words ++ " in line " ++ toString line).toList =
      (words.toList ++ " in line".toList ++ [' ']) ++ Nat.toDigits 10 line := by
    simp
  have rest : (words.toList ++ " in line".toList ++ [' ']).reverse =
      ' ' :: (words.toList ++ " in line".toList).reverse := by
    rw [List.reverse_append]
    rfl
  have kept : (words ++ " in line " ++ toString line).toList.rdropWhile Char.isDigit =
      words.toList ++ " in line".toList ++ [' '] := by
    rw [text, List.rdropWhile, List.reverse_append, List.dropWhile_append_of_pos digits, rest,
      List.dropWhile_cons_of_neg (by decide), ← rest, List.reverse_reverse]
  have final : (words ++ " in line " ++ toString line).toList.rtakeWhile Char.isDigit =
      Nat.toDigits 10 line := by
    rw [text, List.rtakeWhile, List.reverse_append, List.takeWhile_append_of_pos digits, rest,
      List.takeWhile_cons_of_neg (by decide), List.append_nil, List.reverse_reverse]
  rw [renumber, kept, final, Nat.ofDigitChars_ten_toDigits]
  congr 1
  apply String.toList_inj.mp
  simp

/-- The violation in a sheet whose lines were moved. -/
def relocate (move : Position → Position) (number : Nat → Nat) (violation : Violation) :
    Violation where
  file := violation.file
  position := move violation.position
  severity := violation.severity
  message := renumber number violation.message
  rule := violation.rule

/-- The violation in a text that has further lines above it. -/
def down (count : Nat) : Violation → Violation :=
  relocate (Position.down count) (· + count)

end Violation

/-! ## Findings among entries that were moved -/

namespace Entry

@[simp]
theorem rank_relocate (move : Position → Position) (entry : Entry) :
    (entry.relocate move).rank = entry.rank := by
  rw [rank, group, name?_relocate]
  rfl

end Entry

namespace Finding

def relocate (move : Position → Position) (finding : Finding) : Finding where
  entry := finding.entry.relocate move
  anchor := finding.anchor.relocate move

/-- The message about moved entries names the line to which the anchor was moved. -/
theorem message_relocate {move : Position → Position} {number : Nat → Nat}
    (lines : ∀ position, (move position).line = number position.line) (finding : Finding) :
    (finding.relocate move).message = Violation.renumber number finding.message := by
  have subjects : subject (finding.entry.relocate move) = subject finding.entry := by
    cases finding.entry <;> rfl
  have objects : object (finding.anchor.relocate move) = object finding.anchor := by
    cases finding.anchor <;> rfl
  rw [message, message, Violation.renumber_append]
  simp only [relocate, subjects, objects, Entry.position_relocate, lines]

theorem inBody_relocate (move : Position → Position) (entries : List Entry) :
    inBody (entries.map (Entry.relocate move)) = (inBody entries).map (relocate move) :=
  inBody_map (Entry.rank_relocate move) entries

end Finding

/-! ## Violations -/

section Moved

variable {move : Position → Position} (number : Nat → Nat)
  (lines : ∀ position, (move position).line = number position.line)

include lines

theorem Rule.check_relocate {rule : Rule} (known : rule ∈ Rule.all) (file : String)
    (block : Block) (shift : Nat) :
    rule.check file (block.relocate move shift) =
      (rule.check file block).map (Violation.relocate move number) := by
  rw [List.mem_singleton.mp known]
  simp only [propertyOrder, Block.relocate, Finding.inBody_relocate, List.map_map]
  apply List.map_congr_left
  intro finding _
  simp only [Function.comp_apply, Violation.relocate, Finding.message_relocate lines]
  simp only [Finding.relocate, Entry.position_relocate]

/-- The violations of two outlines together. -/
theorem Outline.lint_followedBy (first second : Outline) (file : String)
    (settings : RuleSettings) :
    (first.followedBy move second).lint file settings =
      first.lint file settings ++
        (second.lint file settings).map (Violation.relocate move number) := by
  simp only [lint, followedBy, List.flatMap_append, List.flatMap_map, List.map_flatMap]
  congr 1
  apply List.flatMap_congr
  intro block _
  apply List.flatMap_congr
  intro rule known
  split
  · rfl
  · rw [Rule.check_relocate number lines known, List.map_map, List.map_map]
    rfl

end Moved

open Sheet (Line)

theorem lintSource_of_parse {source : String} {outline : Outline}
    (parsed : Outline.parse source = .ok outline) (file : String) (settings : RuleSettings) :
    lintSource file source settings = .ok (outline.lint file settings) := by
  rw [lintSource, parsed]
  rfl

/-- A sheet that follows one which steps by its unit is read and judged as it would be
alone, counted on from the lines and the blocks of the first. -/
theorem lintSource_append (first second : String) (ended : Text.Ended first.toList)
    (steps : Line.StepsBy (Line.unit (Line.ofSource first)) (Line.ofSource first))
    (units : ∀ indent ∈ Line.firstIndent? (Line.ofSource first),
      ∀ other ∈ Line.firstIndent? (Line.ofSource second), indent = other)
    (below : Outline) (parsed : Outline.parse second = .ok below) :
    ∃ above, Outline.parse first = .ok above ∧
      Outline.parse (first ++ second) =
        .ok (above.followedBy (Position.down (Text.lines first.toList).length) below) ∧
      ∀ file settings, ∃ violations violationsBelow,
        lintSource file first settings = .ok violations ∧
        lintSource file second settings = .ok violationsBelow ∧
        lintSource file (first ++ second) settings =
          .ok (violations ++
            violationsBelow.map (Violation.down (Text.lines first.toList).length)) := by
  rcases Outline.parse_append ended steps units parsed with ⟨above, parsedFirst, parsedBoth⟩
  refine ⟨above, parsedFirst, parsedBoth, ?_⟩
  intro file settings
  refine ⟨_, _, lintSource_of_parse parsedFirst file settings,
    lintSource_of_parse parsed file settings, ?_⟩
  rw [lintSource_of_parse parsedBoth,
    Outline.lint_followedBy (· + (Text.lines first.toList).length) (fun _ => rfl)]
  rfl

/-- A first sheet that ends two levels deep, and a second one that begins with a line
that opens no block and goes back by less than the unit. -/
theorem lintSource_append_deep :
    let first := ".a\n  .b\n    color: red\n    top: 0\n"
    let second := ":root\n.c\n  width: 1px\n left: 0\n"
    ∃ above below, Outline.parse first = .ok above ∧ Outline.parse second = .ok below ∧
      Outline.parse (first ++ second) = .ok (above.followedBy (Position.down 4) below) ∧
      ∃ violations violationsBelow, lintSource "a" second {} = .ok violationsBelow ∧
        lintSource "a" (first ++ second) {} =
          .ok (violations ++ violationsBelow.map (Violation.down 4)) ∧
        (violationsBelow.map (Violation.down 4)).map Violation.text =
          ["a:8:1: Property `left` should not be defined after property `width` in line 7"] := by
  intro first second
  rcases Outline.exists_of_view Outline.size
    (show (Outline.parse second).toOption.map Outline.size = some 3 by decide +kernel) with
    ⟨below, parsed, -⟩
  rcases lintSource_append first second (by decide +kernel) (by decide +kernel)
    (by decide +kernel) below parsed with ⟨above, parsedFirst, parsedBoth, judged⟩
  rcases judged "a" {} with ⟨violations, violationsBelow, -, linted, lintedBoth⟩
  have four : (Text.lines first.toList).length = 4 := by decide +kernel
  rw [four] at parsedBoth lintedBoth
  have seen : (lintSource "a" second {}).toOption.map (fun found =>
      (found.map (Violation.down 4)).map Violation.text) =
      some ["a:8:1: Property `left` should not be defined after property `width` in line 7"] := by
    decide +kernel
  rw [linted] at seen
  exact ⟨above, below, parsedFirst, parsed, parsedBoth, violations, violationsBelow, linted,
    lintedBoth, Option.some.inj seen⟩

end StyleOrder
