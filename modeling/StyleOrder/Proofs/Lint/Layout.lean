import StyleOrder.Proofs.Lint.Anchors
import StyleOrder.Proofs.Lint.Renumbering
import StyleOrder.Proofs.Nesting.Repositioning

namespace StyleOrder

/-!
# Judgement does not depend on layout

What is found in a sheet is found again when the sheet is laid out anew: with other
indentations in the same proportions, with blanks at the ends of lines, or with lines
in between that are passed over.  Positions change as the lines do.  If lines change
their numbers, then so does the number at the end of a message, which is that of the
anchor and may change while that of the violation does not, or the other way round.
-/

namespace Violation

/-- The violation in a sheet whose indentations are wider by a factor. -/
def widen (factor : Nat) (violation : Violation) : Violation :=
  { violation with position := violation.position.widen factor }

/-- The violation in a sheet with one more line after the first `index` lines. -/
def makeRoom (index : Nat) : Violation → Violation :=
  relocate (Position.makeRoom index) (Text.pastInsertion index)

end Violation

namespace Outline

/-- Where lines keep their numbers, messages stay as they are. -/
theorem map_relocate_lint (outline : Outline) (file : String) (settings : RuleSettings)
    (factor : Nat) :
    (outline.lint file settings).map (Violation.relocate (Position.widen factor) id) =
      (outline.lint file settings).map (Violation.widen factor) := by
  apply List.map_congr_left
  intro violation member
  rcases exists_of_mem_lint member with ⟨_, finding, severity, -, rfl⟩
  have kept : Violation.renumber id finding.message = finding.message := by
    rw [Finding.message, Violation.renumber_append]
    rfl
  rw [Violation.relocate, Finding.violation, kept]
  rfl

theorem lint_reposition {move : Position → Position} {number : Nat → Nat}
    (lines : ∀ position, (move position).line = number position.line) (outline : Outline)
    (file : String) (settings : RuleSettings) :
    (outline.reposition move).lint file settings =
      (outline.lint file settings).map (Violation.relocate move number) := by
  rw [reposition_eq_followedBy, lint_followedBy number lines]
  rfl

end Outline

open Sheet (Line)

/-- A source whose lines are those of another one, moved, is judged like the other. -/
theorem lintSource_reposition {move : Position → Position} {factor : Nat}
    (scales : Position.Scales factor move) {number : Nat → Nat}
    (numbers : ∀ position, (move position).line = number position.line) {source moved : String}
    (lines : Line.ofSource moved = (Line.ofSource source).map (Line.reposition move))
    (file : String) (settings : RuleSettings) :
    lintSource file moved settings =
      ((lintSource file source settings).map
        (List.map (Violation.relocate move number))).mapError (Malformed.reposition move) := by
  rw [lintSource, lintSource, Outline.parse_reposition scales lines]
  cases Outline.parse source with
  | error malformed => rfl
  | ok outline => exact congrArg Except.ok (Outline.lint_reposition numbers outline file settings)

/-- Indentations may be replaced by others that are wider by a common factor, in
whatever blanks, and blanks may be appended to lines.  The source is then parsed and
judged as before, with every column multiplied by the factor. -/
theorem lintSource_relaid (factor : Nat) (positive : 0 < factor) (source : String)
    (relaid : List (List Char))
    (same : List.Forall₂ (Line.Relaid factor) (source.toList.splitOn '\n') relaid) :
    Outline.parse (Text.joined relaid) =
        ((Outline.parse source).map (Outline.reposition (Position.widen factor))).mapError
          (Malformed.reposition (Position.widen factor)) ∧
      ∀ file settings, lintSource file (Text.joined relaid) settings =
        ((lintSource file source settings).map (List.map (Violation.widen factor))).mapError
          (Malformed.reposition (Position.widen factor)) := by
  have scales := Position.Scales.widen positive
  have lines := Line.ofSource_relaid same
  have numbers : ∀ position, (Position.widen factor position).line = id position.line :=
    fun _ => rfl
  refine ⟨Outline.parse_reposition scales lines, ?_⟩
  intro file settings
  rw [lintSource_reposition scales numbers lines file settings, lintSource]
  cases Outline.parse source with
  | error malformed => rfl
  | ok outline => exact congrArg Except.ok (outline.map_relocate_lint file settings factor)

/-- Spaces become tabs and wide spaces, three for one, and lines end in carriage returns.
The third line goes back by half a unit. -/
theorem lintSource_relaid_tabs :
    let source := ".a\n  color: red\n top: 0\n // c"
    let relaid := [".a\r".toList, "\t\t\t\t\t\tcolor: red\r".toList,
      "\u2003 \u2003top: 0 ".toList, " // c\t".toList]
    List.Forall₂ (Line.Relaid 3) (source.toList.splitOn '\n') relaid ∧
      Text.joined relaid = ".a\r\n\t\t\t\t\t\tcolor: red\r\n\u2003 \u2003top: 0 \n // c\t" ∧
      (lintSource "a" source {}).toOption.map (List.map Violation.text) =
        some ["a:3:1: Property `top` should not be defined after property `color` in line 2"] ∧
      (lintSource "a" (Text.joined relaid) {}).toOption.map (List.map Violation.text) =
        some ["a:3:3: Property `top` should not be defined after property `color` in line 2"] := by
  intro source relaid
  have lines : source.toList.splitOn '\n' =
      [".a".toList, "  color: red".toList, " top: 0".toList, " // c".toList] := by decide +kernel
  have gap : ∀ text, Text.blank text = true → '\n' ∉ text → Text.Gap text :=
    fun _ blank single => ⟨blank, single⟩
  have same : List.Forall₂ (Line.Relaid 3) (source.toList.splitOn '\n') relaid := by
    rw [lines]
    refine .cons ?_ (.cons ?_ (.cons ?_ (.cons ?_ .nil)))
    · exact @Line.Relaid.taken 3 ".a".toList [] ['\r'] (by decide +kernel)
        (gap _ (by decide) (by decide)) (gap _ (by decide) (by decide)) (by decide +kernel)
    · exact @Line.Relaid.taken 3 "  color: red".toList (List.replicate 6 '\t') ['\r']
        (by decide +kernel) (gap _ (by decide) (by decide)) (gap _ (by decide) (by decide))
        (by decide +kernel)
    · exact @Line.Relaid.taken 3 " top: 0".toList ['\u2003', ' ', '\u2003'] [' ']
        (by decide +kernel) (gap _ (by decide) (by decide)) (gap _ (by decide) (by decide))
        (by decide +kernel)
    · exact @Line.Relaid.passed 3 " // c".toList ['\t'] (by decide +kernel)
        (gap _ (by decide) (by decide))
  refine ⟨same, by decide +kernel, by decide +kernel, ?_⟩
  rw [(lintSource_relaid 3 (by decide) source relaid same).2 "a" {}]
  decide +kernel

/-- A line that is passed over may be inserted anywhere.  The source is then parsed and
judged as before, with the lines below it counted on by one, in positions and in
messages. -/
theorem lintSource_insertIdx (raws : List (List Char)) (single : ∀ raw ∈ raws, '\n' ∉ raw)
    (skipped : List Char) (inside : '\n' ∉ skipped) (silent : Line.passedOver skipped = true)
    (index : Nat) :
    Outline.parse (Text.joined (raws.insertIdx index skipped)) =
        ((Outline.parse (Text.joined raws)).map
          (Outline.reposition (Position.makeRoom index))).mapError
            (Malformed.reposition (Position.makeRoom index)) ∧
      ∀ file settings, lintSource file (Text.joined (raws.insertIdx index skipped)) settings =
        ((lintSource file (Text.joined raws) settings).map
          (List.map (Violation.makeRoom index))).mapError
            (Malformed.reposition (Position.makeRoom index)) := by
  have scales := Position.Scales.makeRoom index
  have lines := Line.ofSource_insertIdx single inside silent index
  exact ⟨Outline.parse_reposition scales lines,
    lintSource_reposition scales (fun _ => rfl) lines⟩

/-- A comment at a width of its own between an anchor and what is reported about it, and
above a second body, where both move. -/
theorem lintSource_insertIdx_comment :
    let raws := [".a".toList, "  color: red".toList, "  top: 0".toList, ".b".toList,
      "  width: 0".toList, "  +m".toList]
    let inserted := raws.insertIdx 2 "       /* c".toList
    (lintSource "a" (Text.joined raws) {}).toOption.map (List.map Violation.text) =
        some ["a:3:2: Property `top` should not be defined after property `color` in line 2",
          "a:6:2: Mixin should not be defined after property `width` in line 5"] ∧
      (lintSource "a" (Text.joined inserted) {}).toOption.map (List.map Violation.text) =
        some ["a:4:2: Property `top` should not be defined after property `color` in line 2",
          "a:7:2: Mixin should not be defined after property `width` in line 6"] := by
  intro raws inserted
  rw [(lintSource_insertIdx raws (by decide +kernel) "       /* c".toList (by decide +kernel)
    (by decide +kernel) 2).2 "a" {}]
  exact ⟨by decide +kernel, by decide +kernel⟩

end StyleOrder
