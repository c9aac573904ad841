import Mathlib.Data.List.Forall2
import StyleOrder.Output.Print
import StyleOrder.Proofs.Lint.Anchors
import StyleOrder.Proofs.Lint.Scheduling
import StyleOrder.Proofs.Text.Records

namespace StyleOrder

/-!
# Lines of the classic output can be taken apart

In the classic output nothing is escaped, and the name of a file may contain colons
and digits.  So a line cannot be taken apart from its beginning.  It can be taken
apart from its end, since messages contain no colon: they consist of fixed words, of
names that are spelled with letters and hyphens, and of a number.
-/

/-! ## Messages -/

/-- If the entry has a name, then letters and hyphens are all that it contains. -/
def Entry.Spelled : Entry → Prop
  | .property name _ _ => ∀ c ∈ name.toList, Sheet.Mark.isPropertyChar c = true
  | .mixin _ => True

theorem Outline.ComesFrom.spelled {outline : Outline} {lines : List Sheet.Line}
    (comesFrom : outline.ComesFrom lines) {id : Nat} {entry : Entry}
    (held : entry ∈ outline.entries id) : entry.Spelled := by
  rcases exists_block?_of_mem_entries held with ⟨block, present, inBlock⟩
  rcases comesFrom.origin block (List.mem_of_getElem? present) entry inBlock with
    ⟨line, -, -, mark, marked, adds⟩
  have found := Sheet.Mark.mixin_or_property marked adds
  cases mark with
  | selector fragment => cases adds
  | atRule name => cases adds
  | placeholder name => cases adds
  | mixin =>
      cases adds
      trivial
  | property name value =>
      cases adds
      rcases found with call | declared
      · cases Sheet.Mark.eq_mixin_of_mixin? call
      · exact fun _ => Sheet.Mark.isPropertyChar_of_property? declared

section

variable {mark : Char} (divides : mark = ':' ∨ mark = '\n')

include divides

theorem Finding.not_mem_subject {entry : Entry} (spelled : entry.Spelled) :
    mark ∉ (subject entry).toList ∧ mark ∉ (object entry).toList := by
  cases entry with
  | mixin position => rcases divides with rfl | rfl <;> simp [subject, object]
  | property name value position =>
      have inside : mark ∉ name.toList := by
        intro member
        have letter := spelled mark member
        rcases divides with rfl | rfl <;> cases letter
      simp only [subject, object, String.toList_append, List.mem_append]
      rcases divides with rfl | rfl <;> simp [inside]

/-- Neither a colon nor a line feed stands in a message. -/
theorem Finding.not_mem_message {finding : Finding} (entry : finding.entry.Spelled)
    (anchor : finding.anchor.Spelled) : mark ∉ finding.message.toList := by
  have subject := (not_mem_subject divides entry).1
  have object := (not_mem_subject divides anchor).2
  have digits : mark.isDigit = false := by rcases divides with rfl | rfl <;> rfl
  have number := Text.not_mem_toDigits digits finding.anchor.position.line
  simp only [message, String.toList_append, List.mem_append]
  rcases divides with rfl | rfl <;> simp [subject, object, number]

theorem Outline.ComesFrom.not_mem_message {outline : Outline} {lines : List Sheet.Line}
    (comesFrom : outline.ComesFrom lines) {file : String} {settings : RuleSettings}
    {violation : Violation} (member : violation ∈ outline.lint file settings) :
    mark ∉ violation.message.toList := by
  rcases exists_of_mem_lint member with ⟨id, finding, severity, found, rfl⟩
  rcases Finding.anchor_above (comesFrom.body_ascends id) (mem_findings_iff.mp found).2 with
    ⟨here, there, -⟩
  exact Finding.not_mem_message divides (comesFrom.spelled here) (comesFrom.spelled there)

end

/-! ## Lines -/

namespace Violation

/-- The text of a violation, divided at its last three colons. -/
theorem splitLast_text {violation : Violation} (plain : ':' ∉ violation.message.toList) :
    Text.splitLast ':' 3 violation.text.toList =
      [violation.file.toList, (toString violation.position.line).toList,
        (toString violation.position.column).toList, ' ' :: violation.message.toList] := by
  have number : ∀ value : Nat, ':' ∉ (toString value).toList := by
    intro value
    rw [Nat.toString_eq_repr, Nat.toList_repr]
    exact Text.not_mem_toDigits rfl value
  have told : ':' ∉ ' ' :: violation.message.toList := by simp [plain]
  have divided : violation.text.toList =
      ((violation.file.toList ++ ':' :: (toString violation.position.line).toList) ++
        ':' :: (toString violation.position.column).toList) ++
        ':' :: ' ' :: violation.message.toList := by
    simp [text]
  rw [divided, Text.splitLast_append told, Text.splitLast_append (number _),
    Text.splitLast_append (number _)]
  rfl

theorem feed_not_mem_text {violation : Violation} (file : '\n' ∉ violation.file.toList)
    (message : '\n' ∉ violation.message.toList) : '\n' ∉ violation.text.toList := by
  have number := Text.not_mem_toDigits (show '\n'.isDigit = false from rfl)
  simp [text, file, message, number]

end Violation

/-! ## Whole reports -/

/-- A violation is reported for one of the inputs, which was read and parsed. -/
theorem Batch.exists_of_mem_violations {inputs : List Input} {settings : RuleSettings}
    {jobs : Nat} {violation : Violation}
    (member : violation ∈ (lint inputs settings jobs).violations) :
    ∃ input ∈ inputs, ∃ source outline, input.text = .ok source ∧
      Outline.parse source = .ok outline ∧ violation ∈ outline.lint input.name settings := by
  rw [Report.violations, lint_files, List.flatMap_map] at member
  rcases List.mem_flatMap.mp member with ⟨input, listed, reported⟩
  refine ⟨input, listed, ?_⟩
  simp only [Input.lint, FileReport.violations] at reported
  cases read : input.text with
  | error failure => simp [read] at reported
  | ok source =>
      cases parsed : Outline.parse source with
      | error malformed => simp [read, lintSource, parsed] at reported
      | ok outline =>
          simp only [read, lintSource_of_parse parsed] at reported
          exact ⟨source, outline, rfl, parsed, reported⟩

/-- Where the names of the inputs are single lines, so are the texts of the violations,
and the last colon of a text stands before its message. -/
theorem Batch.plain_of_mem_violations {inputs : List Input} {settings : RuleSettings} {jobs : Nat}
    (single : ∀ input ∈ inputs, '\n' ∉ input.name.toList) {violation : Violation}
    (member : violation ∈ (lint inputs settings jobs).violations) :
    '\n' ∉ violation.text.toList ∧ ':' ∉ violation.message.toList := by
  rcases exists_of_mem_violations member with ⟨input, listed, source, outline, -, parsed, found⟩
  have comesFrom := Outline.comesFrom_of_parse parsed
  have file : violation.file = input.name := by
    rcases Outline.exists_of_mem_lint found with ⟨id, finding, severity, -, rfl⟩
    rfl
  have named : '\n' ∉ violation.file.toList := by
    rw [file]
    exact single input listed
  exact ⟨Violation.feed_not_mem_text named (comesFrom.not_mem_message (.inr rfl) found),
    comesFrom.not_mem_message (.inl rfl) found⟩

namespace Output

theorem toList_render_classic (report : Report) (colour : Bool) :
    (render colour (classic report).out).toList =
      (report.violations.map fun violation => violation.text.toList).flatMap (· ++ ['\n']) := by
  simp [render, classic, List.flatMap_map, Piece.render]

/-- If no file name contains a line feed, then the output holds one line for each
violation, in the order of the report, and nothing else.  The last three colons of a
line divide it into the name of the file, the line and the column in decimal digits,
and the message after a space, even if the name contains colons and digits too. -/
theorem classic_divided (inputs : List Batch.Input) (settings : RuleSettings) (jobs : Nat)
    (quiet colour : Bool) (single : ∀ input ∈ inputs, '\n' ∉ input.name.toList) :
    let report := Batch.lint inputs settings jobs
    let output := render colour (print report .classic quiet).out
    ∃ lines, output.toList = lines.flatMap (· ++ ['\n']) ∧ Text.lines output.toList = lines ∧
      List.Forall₂ (fun line (violation : Violation) => '\n' ∉ line ∧
        Text.splitLast ':' 3 line =
          [violation.file.toList, (toString violation.position.line).toList,
            (toString violation.position.column).toList, ' ' :: violation.message.toList])
        lines report.violations := by
  intro report output
  have plain : ∀ violation ∈ report.violations,
      '\n' ∉ violation.text.toList ∧ ':' ∉ violation.message.toList :=
    fun _ => Batch.plain_of_mem_violations single
  have written : output.toList = _ := toList_render_classic report colour
  refine ⟨_, written, ?_, ?_⟩
  · rw [written]
    apply Text.lines_flatMap_feed
    intro line member
    rcases List.mem_map.mp member with ⟨violation, reported, rfl⟩
    exact (plain violation reported).1
  · apply List.forall₂_map_left_iff.mpr
    exact List.forall₂_same.mpr fun violation reported =>
      ⟨(plain violation reported).1, Violation.splitLast_text (plain violation reported).2⟩

/-- A file whose name looks like the beginning of a line, between one that cannot be
parsed and one that cannot be read. -/
theorem classic_divided_numbered :
    let inputs := [Batch.Input.ofText "b" "  .b\n",
      Batch.Input.ofText "a:1:2: x" ".a\n  color: red\n  top: 0\n",
      ⟨"c", .error ("c", .notFound)⟩]
    let output := render false (print (Batch.lint inputs {} 2) .classic false).out
    (∀ input ∈ inputs, '\n' ∉ input.name.toList) ∧
      (Text.lines output.toList).map (Text.splitLast ':' 3) =
        [["a:1:2: x".toList, ['3'], ['2'],
          " Property `top` should not be defined after property `color` in line 2".toList]] := by
  intro inputs output
  have single : ∀ input ∈ inputs, '\n' ∉ input.name.toList := by decide +kernel
  have reported : (Batch.lint inputs {} 2).violations = [⟨"a:1:2: x", ⟨3, 2⟩, .error,
      "Property `top` should not be defined after property `color` in line 2",
      Rule.propertyOrder.name⟩] := by
    decide +kernel
  refine ⟨single, ?_⟩
  rcases classic_divided inputs {} 2 false false single with ⟨lines, -, read, divided⟩
  rw [reported] at divided
  cases divided with
  | cons first none =>
      cases none
      rw [read, List.map_singleton, first.2]
      decide +kernel

end Output
end StyleOrder
