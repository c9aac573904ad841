import Mathlib.Data.List.Flatten
import StyleOrder.Proofs.Lint.Renumbering
import StyleOrder.Proofs.Nesting.Provenance
import StyleOrder.Proofs.Order.Findings
import StyleOrder.Sheet.Specimen

namespace StyleOrder

/-!
# What violations point at

A violation stands on a line of the source and names another one.  Its own line is
one that holds an entry, and no other violation stands there, however often a block
was left and entered again.  The line that it names is further up.  It holds a
property of the same block, since a call to a mixin belongs to the first group and
nothing falls behind it.

Blocks are judged in the order of their numbers and bodies are read downwards, which
is the order in which violations are listed.
-/

/-! ## Entries that are late, and their anchors -/

namespace Entry

theorem rank_mixin (position : Position) : (mixin position).rank = 0 := by
  rfl

theorem exists_property_of_rank_pos {entry : Entry} (ranked : 0 < entry.rank) :
    ∃ name value position, entry = property name value position := by
  cases entry with
  | property name value position => exact ⟨name, value, position, rfl⟩
  | mixin position =>
      rw [rank_mixin] at ranked
      exact absurd ranked (Nat.lt_irrefl 0)

theorem mem_of_crest? {entries : List Entry} {anchor : Entry}
    (found : crest? entries = some anchor) : anchor ∈ entries ∧ anchor.rank = peak entries := by
  have member := List.mem_filter.mp (List.mem_of_getLast? found)
  exact ⟨member.1, of_decide_eq_true member.2⟩

end Entry

/-- Findings are about some of the entries, in their order. -/
theorem Progress.findings_sublist (progress : Progress) (entries : List Entry) :
    ((progress.findings entries).map Finding.entry).Sublist entries := by
  induction entries generalizing progress with
  | nil => exact List.Sublist.slnil
  | cons entry rest ih =>
      have here : ((progress.finding? entry).toList.map Finding.entry).Sublist [entry] := by
        unfold Progress.finding?
        split
        · cases progress.anchor with
          | none => exact List.nil_sublist [entry]
          | some anchor => exact List.Sublist.refl [entry]
        · exact List.nil_sublist [entry]
      rw [findings, List.map_append]
      exact here.append (ih (progress.next entry))

namespace Finding

theorem exists_at {entries : List Entry} {finding : Finding} (member : finding ∈ inBody entries) :
    ∃ index, At entries index finding ∧ Entry.Late entries index := by
  rcases List.forall₂_iff_get.mp (forall₂_inBody entries) with ⟨length, placed⟩
  rcases List.mem_iff_get.mp member with ⟨place, rfl⟩
  have inside : place.1 < ((List.range entries.length).filter (Entry.Late entries)).length :=
    Nat.lt_of_lt_of_eq place.2 length.symm
  have late := (List.mem_filter.mp (List.get_mem _ ⟨place.1, inside⟩)).2
  exact ⟨_, placed place.1 inside place.2, of_decide_eq_true late⟩

/-- An anchor is a property, and it stands above the entry that it is reported for. -/
theorem anchor_above {entries : List Entry}
    (ascends : entries.Pairwise fun entry later => entry.position.line < later.position.line)
    {finding : Finding} (member : finding ∈ inBody entries) :
    finding.entry ∈ entries ∧ finding.anchor ∈ entries ∧
      finding.anchor.position.line < finding.entry.position.line ∧
      ∃ name value position, finding.anchor = .property name value position := by
  rcases exists_at member with ⟨index, ⟨here, crest⟩, late⟩
  rcases Entry.mem_of_crest? crest with ⟨above, rank⟩
  rcases List.getElem?_eq_some_iff.mp here with ⟨inside, entry⟩
  rcases List.mem_take_iff_getElem.mp above with ⟨place, before, anchor⟩
  rcases late with ⟨other, found, earlier, earlierAbove, behind⟩
  have ranked : 0 < finding.anchor.rank := by
    rw [rank]
    exact Nat.lt_of_le_of_lt (Nat.zero_le other.rank)
      ((Entry.lt_peak_iff _ _).mpr ⟨earlier, earlierAbove, behind⟩)
  have order := List.pairwise_iff_getElem.mp ascends place index (by omega) inside (by omega)
  rw [entry, anchor] at order
  exact ⟨List.mem_of_getElem? here, List.mem_of_mem_take above, order,
    Entry.exists_property_of_rank_pos ranked⟩

/-- The violation that tells a finding. -/
def violation (file : String) (severity : Severity) (finding : Finding) : Violation where
  file := file
  position := finding.entry.position
  severity := severity
  message := finding.message
  rule := Rule.propertyOrder.name

end Finding

/-! ## The findings of an outline -/

namespace Outline

/-- The findings of all bodies, each with the number of its block. -/
def findings (outline : Outline) : List (Nat × Finding) :=
  (List.range outline.size).flatMap fun id => (Finding.inBody (outline.entries id)).map (id, ·)

theorem mem_findings_iff {outline : Outline} {id : Nat} {finding : Finding} :
    (id, finding) ∈ outline.findings ↔
      id < outline.size ∧ finding ∈ Finding.inBody (outline.entries id) := by
  simp [findings]

theorem map_entries_range (outline : Outline) :
    (List.range outline.size).map outline.entries = outline.blocks.map Block.entries := by
  apply List.ext_getElem
  · simp [size]
  · intro id inside other
    rw [List.getElem_map, List.getElem_map, List.getElem_range]
    exact entries_of_block? (List.getElem?_eq_getElem _)

theorem flatMap_entries_range {α : Type} (outline : Outline) (f : List Entry → List α) :
    (List.range outline.size).flatMap (fun id => f (outline.entries id)) =
      outline.blocks.flatMap fun block => f block.entries := by
  rw [← List.flatMap_map outline.entries, map_entries_range, List.flatMap_map]

/-- Linting tells the findings at the severity that is set, or nothing. -/
theorem lint_eq_findings (outline : Outline) (file : String) (settings : RuleSettings) :
    outline.lint file settings =
      match settings.severity? Rule.propertyOrder.name Rule.propertyOrder.severity with
      | none => []
      | some severity => outline.findings.map fun found => found.2.violation file severity := by
  have rules : ∀ judge : Rule → List Violation, Rule.all.flatMap judge = judge Rule.propertyOrder :=
    fun _ => List.flatMap_singleton _ _
  simp only [lint, rules]
  cases settings.severity? Rule.propertyOrder.name Rule.propertyOrder.severity with
  | none => exact List.flatMap_eq_nil_iff.mpr fun _ _ => rfl
  | some severity =>
      have told : ∀ block, (Rule.propertyOrder.check file block).map (·.withSeverity severity) =
          (Finding.inBody block.entries).map (Finding.violation file severity) :=
        fun _ => List.map_map
      simp only [told, findings, List.map_flatMap, List.map_map]
      exact (flatMap_entries_range outline fun entries =>
        (Finding.inBody entries).map (Finding.violation file severity)).symm

theorem exists_of_mem_lint {outline : Outline} {file : String} {settings : RuleSettings}
    {violation : Violation} (member : violation ∈ outline.lint file settings) :
    ∃ id finding severity, (id, finding) ∈ outline.findings ∧
      violation = finding.violation file severity := by
  rw [lint_eq_findings] at member
  split at member
  · cases member
  · rename_i severity _
    rcases List.mem_map.mp member with ⟨⟨id, finding⟩, found, rfl⟩
    exact ⟨id, finding, severity, found, rfl⟩

/-- What holds of any two findings holds of the violations that tell them. -/
theorem pairwise_lint {outline : Outline} {related : Violation → Violation → Prop} {file : String}
    (settings : RuleSettings)
    (pairs : ∀ severity, outline.findings.Pairwise fun found later =>
      related (found.2.violation file severity) (later.2.violation file severity)) :
    (outline.lint file settings).Pairwise related := by
  rw [lint_eq_findings]
  split
  · exact List.Pairwise.nil
  · rename_i severity _
    exact List.pairwise_map.mpr (pairs severity)

namespace ComesFrom

variable {outline : Outline} {lines : List Sheet.Line} (comesFrom : outline.ComesFrom lines)

include comesFrom

theorem body_ascends (id : Nat) : (outline.entries id).Pairwise fun entry later =>
    entry.position.line < later.position.line := by
  cases present : outline.block? id with
  | none =>
      rw [entries, present]
      exact List.Pairwise.nil
  | some block =>
      rw [entries_of_block? present]
      exact comesFrom.entries_ascend block (List.mem_of_getElem? present)

/-- Findings are listed by blocks, and downwards in each. -/
theorem findings_ascend : outline.findings.Pairwise fun found later =>
    found.1 < later.1 ∨
      found.1 = later.1 ∧ found.2.entry.position.line < later.2.entry.position.line := by
  rw [findings, List.pairwise_flatMap]
  constructor
  · intro id _
    have downwards := (comesFrom.body_ascends id).sublist
      (Progress.findings_sublist Progress.start (outline.entries id))
    exact List.pairwise_map.mpr ((List.pairwise_map.mp downwards).imp fun below =>
      Or.inr ⟨rfl, below⟩)
  · apply List.pairwise_lt_range.imp
    intro id later before found member laterFound laterMember
    rcases List.mem_map.mp member with ⟨_, -, rfl⟩
    rcases List.mem_map.mp laterMember with ⟨_, -, rfl⟩
    exact Or.inl before

/-- No two findings are about one line. -/
theorem findings_once : outline.findings.Pairwise fun found other =>
    found.2.entry.position.line ≠ other.2.entry.position.line := by
  have among : (outline.findings.map fun found => found.2.entry).Sublist
      (outline.blocks.flatMap Block.entries) := by
    have bodies := flatMap_entries_range outline fun entries => entries
    rw [← bodies, findings, List.map_flatMap]
    simp only [List.map_map]
    exact List.Sublist.flatMap_right _ fun _ _ => Progress.findings_sublist Progress.start _
  exact (comesFrom.once.sublist among).of_map (fun found => found.2.entry) fun _ _ apart => apart

/-- A line is held by one block. -/
theorem id_eq_of_line_eq {id other : Nat} {entry otherEntry : Entry}
    (held : entry ∈ outline.entries id) (otherHeld : otherEntry ∈ outline.entries other)
    (same : entry.position.line = otherEntry.position.line) : id = other := by
  have apart : ∀ {id other : Nat} {entry otherEntry : Entry}, id < other →
      entry ∈ outline.entries id → otherEntry ∈ outline.entries other →
      entry.position.line ≠ otherEntry.position.line := by
    intro id other entry otherEntry before held otherHeld
    rcases exists_block?_of_mem_entries held with ⟨block, present, inBlock⟩
    rcases exists_block?_of_mem_entries otherHeld with ⟨otherBlock, otherPresent, inOther⟩
    rcases List.getElem?_eq_some_iff.mp present with ⟨inside, rfl⟩
    rcases List.getElem?_eq_some_iff.mp otherPresent with ⟨otherInside, rfl⟩
    have bodies := (List.pairwise_flatMap.mp comesFrom.once).2
    exact List.pairwise_iff_getElem.mp bodies id other inside otherInside before entry inBlock
      otherEntry inOther
  rcases Nat.lt_trichotomy id other with before | equal | after
  · exact absurd same (apart before held otherHeld)
  · exact equal
  · exact absurd same.symm (apart after otherHeld held)

end ComesFrom

/-- The body of a block has an entry where the violation stands, and the violation
names a property of that body which stands further up. -/
def Anchored (outline : Outline) (id : Nat) (violation : Violation) : Prop :=
  ∃ entry ∈ outline.entries id, entry.position = violation.position ∧
    ∃ name value position, Entry.property name value position ∈ outline.entries id ∧
      position.line < violation.position.line ∧
      violation.message = Finding.subject entry ++ " should not be defined after " ++
        ("property `" ++ name ++ "`") ++ " in line " ++ toString position.line

theorem ComesFrom.anchored {outline : Outline} {lines : List Sheet.Line}
    (comesFrom : outline.ComesFrom lines) {id : Nat} {finding : Finding}
    (found : (id, finding) ∈ outline.findings) (file : String) (severity : Severity) :
    outline.Anchored id (finding.violation file severity) := by
  rcases finding with ⟨entry, anchor⟩
  rcases Finding.anchor_above (comesFrom.body_ascends id) (mem_findings_iff.mp found).2 with
    ⟨here, there, above, name, value, position, rfl⟩
  exact ⟨entry, here, rfl, name, value, position, there, above, rfl⟩

theorem ComesFrom.anchored_unique {outline : Outline} {lines : List Sheet.Line}
    (comesFrom : outline.ComesFrom lines) {id other : Nat} {violation : Violation}
    (anchored : outline.Anchored id violation) (otherAnchored : outline.Anchored other violation) :
    id = other := by
  rcases anchored with ⟨entry, held, here, -⟩
  rcases otherAnchored with ⟨otherEntry, otherHeld, there, -⟩
  exact comesFrom.id_eq_of_line_eq held otherHeld (by rw [here, there])

end Outline

/-! ## Lines of the source -/

/-- What is found stands on a line of the source that holds an entry. -/
theorem Outline.ComesFrom.exists_raw_of_mem_findings {outline : Outline} {raws : List (List Char)}
    (comesFrom : outline.ComesFrom (Sheet.Line.readFrom 1 raws)) {id : Nat} {finding : Finding}
    (found : (id, finding) ∈ outline.findings) :
    ∃ index raw, raws[index]? = some raw ∧
      finding.entry.position = ⟨index + 1, Text.indentation raw⟩ ∧
      ((Sheet.Mark.mixin? (Text.trim raw)).isSome ∨
        (Sheet.Mark.property? (Text.trim raw)).isSome) := by
  have held := (Finding.anchor_above (comesFrom.body_ascends id) (mem_findings_iff.mp found).2).1
  rcases exists_block?_of_mem_entries held with ⟨block, present, inBlock⟩
  rcases comesFrom.origin block (List.mem_of_getElem? present) finding.entry inBlock with
    ⟨line, member, here, mark, marked, adds⟩
  rcases Sheet.Line.exists_raw_of_mem_readFrom member with ⟨index, raw, read, rfl⟩
  refine ⟨index, raw, read, ?_, ?_⟩
  · rw [here, Sheet.Line.position, Nat.add_comm 1]
  · rcases Sheet.Mark.mixin_or_property marked adds with call | declared
    · exact Or.inl (Option.isSome_of_eq_some call)
    · exact Or.inr (Option.isSome_of_eq_some declared)

open Sheet (Line Mark)

/-- A source that can be parsed is judged, and no line of it more than once.  Each
violation stands on a line that calls a mixin or declares a property, and belongs to
one block; the line that it names holds a property of that block, further up.
Violations are listed by blocks, and downwards in each. -/
theorem lintSource_anchored (file source : String) (settings : RuleSettings) (outline : Outline)
    (parsed : Outline.parse source = .ok outline) :
    ∃ violations, lintSource file source settings = .ok violations ∧
      (violations.Pairwise fun violation other =>
        violation.position.line ≠ other.position.line) ∧
      (∀ violation ∈ violations, ∃ index raw, (Text.lines source.toList)[index]? = some raw ∧
        violation.position = ⟨index + 1, Text.indentation raw⟩ ∧
        ((Mark.mixin? (Text.trim raw)).isSome ∨ (Mark.property? (Text.trim raw)).isSome)) ∧
      (∀ violation ∈ violations, ∃! id, outline.Anchored id violation) ∧
      violations.Pairwise fun violation later =>
        ∀ id laterId, outline.Anchored id violation → outline.Anchored laterId later →
          id < laterId ∨ id = laterId ∧ violation.position.line < later.position.line := by
  have comesFrom := Outline.comesFrom_of_parse parsed
  refine ⟨outline.lint file settings, lintSource_of_parse parsed file settings, ?_, ?_, ?_, ?_⟩
  · exact Outline.pairwise_lint settings fun _ => comesFrom.findings_once
  · intro violation member
    rcases Outline.exists_of_mem_lint member with ⟨id, finding, severity, found, rfl⟩
    exact comesFrom.exists_raw_of_mem_findings found
  · intro violation member
    rcases Outline.exists_of_mem_lint member with ⟨id, finding, severity, found, rfl⟩
    have anchored := comesFrom.anchored found file severity
    exact ⟨id, anchored, fun _ otherAnchored => comesFrom.anchored_unique otherAnchored anchored⟩
  · apply Outline.pairwise_lint settings
    intro severity
    apply comesFrom.findings_ascend.imp_of_mem
    intro found later member laterMember order id laterId anchored laterAnchored
    have first := comesFrom.anchored_unique anchored (comesFrom.anchored member file severity)
    have second :=
      comesFrom.anchored_unique laterAnchored (comesFrom.anchored laterMember file severity)
    rw [first, second]
    exact order

/-- A block that is entered again after a nested one.  Its call to a mixin stands below
what is reported for the nested block, and is listed above it. -/
theorem lintSource_anchored_reentered :
    let source := ".a\n  color: red\n  .b\n    width: 0\n    top: 0\n  +m\n"
    ∃ outline violations, Outline.parse source = .ok outline ∧
      lintSource "a" source {} = .ok violations ∧
      violations.map Violation.text =
        ["a:6:2: Mixin should not be defined after property `color` in line 2",
          "a:5:4: Property `top` should not be defined after property `width` in line 4"] ∧
      ∀ violation ∈ violations, ∃! id, outline.Anchored id violation := by
  intro source
  rcases Outline.exists_of_view Outline.size
    (show (Outline.parse source).toOption.map Outline.size = some 6 by decide +kernel) with
    ⟨outline, parsed, -⟩
  rcases lintSource_anchored "a" source {} outline parsed with
    ⟨violations, linted, -, -, anchored, -⟩
  have seen : (lintSource "a" source {}).toOption.map (List.map Violation.text) =
      some ["a:6:2: Mixin should not be defined after property `color` in line 2",
        "a:5:4: Property `top` should not be defined after property `width` in line 4"] := by
    decide +kernel
  rw [linted] at seen
  exact ⟨outline, violations, parsed, linted, Option.some.inj seen, anchored⟩

/-! The specimen sheets are reported as they say. -/

section Specimens

open Sheet

example : (lintSource "a" Specimen.disordered {}).toOption.map
    (List.map fun violation => (violation.message, violation.position.line)) =
      some (Specimen.disorderedMessages.zip Specimen.disorderedLines) := by
  decide +kernel

example : (lintSource "a" Specimen.ordered {}).toOption.map List.length = some 0 := by
  -- a long literal is slow to take apart as one
  unfold lintSource Outline.parse Line.ofSource Specimen.ordered
  simp only [String.toList_append]
  decide +kernel

example : lintSource "a" Specimen.commentsOnly {} = .ok [] := by
  rfl

example : lintSource "a" Specimen.malformed {} = .error ⟨⟨4, 0⟩, .pastTopLevel, ".d"⟩ := by
  rfl

end Specimens

end StyleOrder
