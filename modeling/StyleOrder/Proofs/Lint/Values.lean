import StyleOrder.Proofs.Lint.Renumbering
import StyleOrder.Proofs.Nesting.Provenance
import StyleOrder.Proofs.Nesting.Recasting
import StyleOrder.Proofs.Sheet.Declarations

namespace StyleOrder

/-!
# Judgement does not depend on values

A value is kept in an outline but not looked at.  When the value of one declaration
is replaced, the source is parsed to the same outline, in which one entry at most has
another value, and it is judged as before.  A value can be seen in one case only: if
the line of the declaration itself cannot be placed, its text is quoted.
-/

namespace Entry

/-- The entry with another value, if it is a property and stands on the line. -/
def revalue (number : Nat) (value : String) : Entry → Entry
  | property name old position =>
      if position.line = number then property name value position else property name old position
  | mixin position => mixin position

@[simp]
theorem position_revalue (number : Nat) (value : String) (entry : Entry) :
    (entry.revalue number value).position = entry.position := by
  cases entry with
  | property name old position =>
      rw [revalue]
      split <;> rfl
  | mixin position => rfl

@[simp]
theorem name?_revalue (number : Nat) (value : String) (entry : Entry) :
    (entry.revalue number value).name? = entry.name? := by
  cases entry with
  | property name old position =>
      rw [revalue]
      split <;> rfl
  | mixin position => rfl

end Entry

/-- The outline with another value of the property on the line. -/
def Outline.revalue (number : Nat) (value : String) (outline : Outline) : Outline where
  blocks := outline.blocks.map fun block =>
    { block with entries := block.entries.map (Entry.revalue number value) }

/-- The same fault, with the text of its line replaced if it is the line of this number. -/
def Malformed.retext (number : Nat) (text : String) (malformed : Malformed) : Malformed :=
  if malformed.position.line = number then { malformed with text := text } else malformed

/-! ## Reading -/

namespace Sheet

theorem Mark.recast_revalue {number : Nat} {position : Position} (here : position.line = number)
    (value : String) (mark : Mark) :
    Recast (Entry.revalue number value) position position mark (mark.revalue value) := by
  refine .of_map (revalue_of_opens value) ?_
  cases mark with
  | property name old => exact congrArg some (if_pos here).symm
  | _ => rfl

theorem Mark.recast_of_ne {number : Nat} {position : Position} (apart : position.line ≠ number)
    (value : String) (mark : Mark) :
    Recast (Entry.revalue number value) position position mark mark := by
  refine .of_map (fun _ => rfl) ?_
  cases mark with
  | property name old => exact congrArg some (if_neg apart).symm
  | _ => rfl

theorem Line.recast_retext {number : Nat} {value : String} {text : List Char} {line : Line}
    (marks : line.number = number →
      Mark.ofText text = (Mark.ofText line.text).map (Mark.revalue value)) :
    Recast id (Entry.revalue number value) (Malformed.retext number (String.ofList text)) line
      (line.retext number text) := by
  by_cases here : line.number = number
  · rw [retext, if_pos here]
    exact
      { position := rfl
        marks := by
          rw [marks here, List.forall₂_map_right_iff, List.forall₂_same]
          exact fun mark _ => Mark.recast_revalue here value mark
        fault := fun fault => (if_pos here).symm }
  · rw [retext, if_neg here]
    exact
      { position := rfl
        marks := List.forall₂_same.mpr fun mark _ => Mark.recast_of_ne here value mark
        fault := fun fault => (if_neg here).symm }

end Sheet

open Sheet (Line Mark Declaration)

namespace Outline

section Declared

variable {source : String} {index : Nat} {declaration : Declaration}
  (here : (source.toList.splitOn '\n')[index]? = some declaration.raw)

include here

theorem parse_withValue (value : List Char) (visible : Text.blank value = false)
    (single : '\n' ∉ value) :
    Outline.parse (Text.joined ((source.toList.splitOn '\n').set index
        (declaration.withValue value visible single).raw)) =
      ((Outline.parse source).map
        (revalue (index + 1) (String.ofList (Text.trim value)))).mapError
          (Malformed.retext (index + 1)
            (String.ofList (declaration.withValue value visible single).text)) := by
  have scales : Position.Scales 1 id :=
    ⟨Nat.one_pos, fun position => (Nat.mul_one position.column).symm⟩
  have lead : (declaration.withValue value visible single).lead = declaration.lead := rfl
  apply parse_recast scales
  rw [Line.ofSource_set lead here, List.forall₂_map_right_iff, List.forall₂_same]
  intro line member
  apply Line.recast_retext
  intro number
  rw [Line.eq_of_declared here member number]
  exact declaration.ofText_withValue value visible single

/-- The line of a declaration holds the property or, outside every block, nothing. -/
theorem entries_of_declared {outline : Outline} (parsed : Outline.parse source = .ok outline) :
    ((outline.blocks.flatMap Block.entries).filter
        fun entry => entry.position.line = index + 1).Sublist
      [.property (String.ofList declaration.name) (String.ofList (Text.trim declaration.value))
        ⟨index + 1, declaration.lead.length⟩] := by
  have comesFrom := comesFrom_of_parse parsed
  have declared : ∀ entry ∈ (outline.blocks.flatMap Block.entries).filter
      (fun entry => entry.position.line = index + 1),
      entry = .property (String.ofList declaration.name)
        (String.ofList (Text.trim declaration.value)) ⟨index + 1, declaration.lead.length⟩ := by
    intro entry member
    rcases List.mem_filter.mp member with ⟨within, number⟩
    rcases List.mem_flatMap.mp within with ⟨block, found, inBody⟩
    rcases comesFrom.origin block found entry inBody with ⟨line, read, position, mark, marked, adds⟩
    rw [position, decide_eq_true_eq] at number
    have declares := Line.eq_of_declared here read number
    subst declares
    rcases List.mem_append.mp (declaration.ofText_text ▸ marked) with opening | property
    · have opens := Mark.opens_of_selector? (Option.mem_toList.mp opening)
      rw [Mark.entry?_eq_none_of_opens _ opens] at adds
      cases adds
    · rw [List.mem_singleton.mp property] at adds
      exact (Option.some.inj adds).symm
  have once := comesFrom.once.filter fun entry => entry.position.line = index + 1
  cases held : (outline.blocks.flatMap Block.entries).filter
      fun entry => entry.position.line = index + 1 with
  | nil => exact List.nil_sublist _
  | cons entry others =>
      rw [held] at declared once
      rw [List.forall_mem_cons] at declared
      cases others with
      | nil => rw [declared.1]
      | cons other more =>
          have apart := (List.pairwise_cons.mp once).1 other List.mem_cons_self
          rw [declared.1, declared.2 other List.mem_cons_self] at apart
          exact absurd rfl apart

end Declared
end Outline

/-! ## Judging -/

namespace Finding

theorem subject_congr {entry other : Entry} (same : other.name? = entry.name?) :
    subject other = subject entry := by
  cases entry <;> cases other <;> simp_all [Entry.name?, subject]

theorem object_congr {entry other : Entry} (same : other.name? = entry.name?) :
    object other = object entry := by
  cases entry <;> cases other <;> simp_all [Entry.name?, object]

end Finding

section Edited

variable {edit : Entry → Entry} (names : ∀ entry, (edit entry).name? = entry.name?)
  (positions : ∀ entry, (edit entry).position = entry.position)

include names positions

theorem Finding.message_map (finding : Finding) : (finding.map edit).message = finding.message := by
  simp only [message, map, subject_congr (names _), object_congr (names _), positions]

/-- Rules look at the names and the positions of entries. -/
theorem Rule.check_recast {rule : Rule} (known : rule ∈ Rule.all) (file : String) (block : Block) :
    rule.check file (block.recast id edit) = rule.check file block := by
  have ranks : ∀ entry, (edit entry).rank = entry.rank := by
    intro entry
    rw [Entry.rank, Entry.group, names]
    rfl
  rw [List.mem_singleton.mp known]
  simp only [propertyOrder, Block.recast, Finding.inBody_map ranks, List.map_map]
  apply List.map_congr_left
  intro finding _
  simp only [Function.comp_apply, Finding.message_map names positions]
  simp only [Finding.map, positions]

theorem Outline.lint_recast (outline : Outline) (file : String) (settings : RuleSettings) :
    (outline.recast id edit).lint file settings = outline.lint file settings := by
  simp only [lint, recast, List.flatMap_map]
  apply List.flatMap_congr
  intro block _
  apply List.flatMap_congr
  intro rule known
  rw [Rule.check_recast names positions known]

end Edited

/-- The lines on which a property is found are the declarations.  The value of any of
them may be replaced by another one.  The source is then parsed to the same outline,
except for the value of the one entry that its line may hold, and judged as before.
If the line itself is the one that cannot be placed, the text that is quoted changes
and nothing else. -/
theorem lintSource_withValue (source : String) (index : Nat) (declaration : Declaration)
    (here : (source.toList.splitOn '\n')[index]? = some declaration.raw) (value : List Char)
    (visible : Text.blank value = false) (single : '\n' ∉ value) :
    let changed := declaration.withValue value visible single
    let revalued := Text.joined ((source.toList.splitOn '\n').set index changed.raw)
    let quoted := Malformed.retext (index + 1) (String.ofList (Text.trim changed.raw))
    (∀ raw ∈ source.toList.splitOn '\n', (Mark.property? (Text.trim raw)).isSome = true ↔
        ∃ declaration : Declaration, declaration.raw = raw) ∧
      Outline.parse revalued =
        ((Outline.parse source).map
          (Outline.revalue (index + 1) (String.ofList (Text.trim value)))).mapError quoted ∧
      (∀ outline, Outline.parse source = .ok outline →
        ((outline.blocks.flatMap Block.entries).filter
            fun entry => entry.position.line = index + 1).Sublist
          [.property (String.ofList declaration.name) (String.ofList (Text.trim declaration.value))
            ⟨index + 1, declaration.lead.length⟩]) ∧
      ∀ file settings, lintSource file revalued settings =
        (lintSource file source settings).mapError quoted := by
  intro changed revalued quoted
  have parsed : Outline.parse revalued = ((Outline.parse source).map
      (Outline.revalue (index + 1) (String.ofList (Text.trim value)))).mapError quoted := by
    have reading := Outline.parse_withValue here value visible single
    rwa [← Declaration.trim_raw] at reading
  refine ⟨fun raw member => Declaration.isSome_property?_iff (Text.single_of_mem_splitOn member),
    parsed, fun outline => Outline.entries_of_declared here, ?_⟩
  intro file settings
  rw [lintSource, lintSource, parsed]
  cases Outline.parse source with
  | error malformed => rfl
  | ok outline =>
      exact congrArg Except.ok
        (Outline.lint_recast (Entry.name?_revalue _ _) (Entry.position_revalue _ _) outline file
          settings)

/-- A value that looks like a call, a placeholder, a declaration and a comment, on a line
that is judged and on a line that cannot be placed. -/
theorem lintSource_withValue_disguised :
    let declaration : Declaration :=
      ⟨"  ".toList, "color".toList, " ".toList, "red".toList, ⟨by decide, by decide⟩, by decide,
        List.all_eq_true.mp (by decide), by decide, ⟨by decide, by decide⟩, by decide, by decide⟩
    let value := "\u2003@include: %a /* \"b\" */ \r".toList
    let changed := declaration.withValue value (by decide) (by decide)
    let placed := ".a\n  color: red\n  top: 0"
    let misplaced := "  color: red\n.a"
    let revalued := Text.joined ((placed.toList.splitOn '\n').set 1 changed.raw)
    revalued = ".a\n  color: \u2003@include: %a /* \"b\" */ \r\n  top: 0" ∧
      (lintSource "a" placed {}).toOption.map (List.map Violation.text) =
        some ["a:3:2: Property `top` should not be defined after property `color` in line 2"] ∧
      (lintSource "a" revalued {}).toOption.map (List.map Violation.text) =
        some ["a:3:2: Property `top` should not be defined after property `color` in line 2"] ∧
      lintSource "a" misplaced {} = .error ⟨⟨1, 2⟩, .noEnclosingBlock, "color: red"⟩ ∧
      lintSource "a" (Text.joined ((misplaced.toList.splitOn '\n').set 0 changed.raw)) {} =
        .error ⟨⟨1, 2⟩, .noEnclosingBlock, "color: \u2003@include: %a /* \"b\" */"⟩ := by
  intro declaration value changed placed misplaced revalued
  have judged := (lintSource_withValue placed 1 declaration (by decide +kernel) value (by decide)
    (by decide)).2.2.2 "a" {}
  have refused := (lintSource_withValue misplaced 0 declaration (by decide +kernel) value
    (by decide) (by decide)).2.2.2 "a" {}
  refine ⟨by decide +kernel, by decide +kernel, ?_, by decide +kernel, ?_⟩
  · rw [judged]
    decide +kernel
  · rw [refused]
    decide +kernel

end StyleOrder
