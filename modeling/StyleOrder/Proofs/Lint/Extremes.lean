import StyleOrder.Proofs.Lint.Anchors
import StyleOrder.Proofs.Order.Groups
import StyleOrder.Proofs.Text.Records

namespace StyleOrder

/-!
# The two ends of the ordering convention

What is reported about the first and the last group can be said without ranks.  A call
belongs to the first group, so it is late as soon as a property stands above it, and it
is never what another entry should have come before.  A property that only the last
group takes cannot be late, and nothing stands above the first entry of a body.

Entries are recognised in a report by where they stand, since no two of them share a
line.
-/

namespace Entry

/-- Some violation stands where the entry stands. -/
def Flagged (violations : List Violation) (entry : Entry) : Prop :=
  ∃ violation ∈ violations, violation.position = entry.position

theorem rank_property_pos (name value : String) (position : Position) :
    0 < (property name value position).rank :=
  Group.rank_of_some_pos name

/-- A call is late if a property stands above it. -/
theorem late_mixin_iff (before : List Entry) (position : Position) (after : List Entry) :
    Late (before ++ mixin position :: after) before.length ↔
      ∃ name value above, property name value above ∈ before := by
  rw [late_append_cons, lt_peak_iff, rank_mixin]
  constructor
  · rintro ⟨earlier, member, ranked⟩
    rcases exists_property_of_rank_pos ranked with ⟨name, value, above, rfl⟩
    exact ⟨name, value, above, member⟩
  · rintro ⟨name, value, above, member⟩
    exact ⟨_, member, rank_property_pos name value above⟩

theorem not_late_of_others {entries : List Entry} {index : Nat} {entry : Entry}
    (here : entries[index]? = some entry) (last : entry.group = .others) :
    ¬ Late entries index := by
  rintro ⟨other, found, earlier, -, behind⟩
  rw [here] at found
  cases found
  rw [rank, last] at behind
  exact Nat.not_lt_of_le earlier.group.rank_le behind

theorem not_late_zero (entries : List Entry) : ¬ Late entries 0 := by
  rintro ⟨_, -, earlier, above, -⟩
  rw [List.take_zero] at above
  cases above

end Entry

/-! ## Entries in a report -/

namespace Finding

theorem mem_inBody_of_late {entries : List Entry} {index : Nat}
    (late : Entry.Late entries index) : ∃ finding ∈ inBody entries, At entries index finding := by
  rcases late.imp fun _ found => found.1 with ⟨entry, here⟩
  have inside : index < entries.length := (List.getElem?_eq_some_iff.mp here).1
  have member : index ∈ (List.range entries.length).filter (Entry.Late entries) :=
    List.mem_filter.mpr ⟨List.mem_range.mpr inside, decide_eq_true late⟩
  rcases List.mem_iff_get.mp member with ⟨place, same⟩
  rcases List.forall₂_iff_get.mp (forall₂_inBody entries) with ⟨length, placed⟩
  have bound : place.1 < (inBody entries).length := Nat.lt_of_lt_of_eq place.2 length
  refine ⟨_, List.get_mem _ ⟨place.1, bound⟩, ?_⟩
  rw [← same]
  exact placed place.1 place.2 bound

end Finding

/-- A rule that is not off reports at some severity. -/
theorem RuleSettings.exists_severity? {settings : RuleSettings} {rule : String}
    (on : settings.level? rule ≠ some .off) (default : Severity) :
    ∃ severity, settings.severity? rule default = some severity := by
  unfold severity?
  cases set : settings.level? rule with
  | none => exact ⟨default, rfl⟩
  | some level =>
      cases level with
      | off => exact absurd set on
      | warn => exact ⟨.warning, rfl⟩
      | error => exact ⟨.error, rfl⟩

namespace Outline
namespace ComesFrom

variable {outline : Outline} {lines : List Sheet.Line} (comesFrom : outline.ComesFrom lines)

include comesFrom

theorem index_eq_of_line_eq {id index other : Nat} {entry otherEntry : Entry}
    (here : (outline.entries id)[index]? = some entry)
    (there : (outline.entries id)[other]? = some otherEntry)
    (same : entry.position.line = otherEntry.position.line) : index = other := by
  rcases List.getElem?_eq_some_iff.mp here with ⟨inside, rfl⟩
  rcases List.getElem?_eq_some_iff.mp there with ⟨otherInside, rfl⟩
  have ascends := List.pairwise_iff_getElem.mp (comesFrom.body_ascends id)
  rcases Nat.lt_trichotomy index other with before | equal | after
  · exact absurd same (Nat.ne_of_lt (ascends index other inside otherInside before))
  · exact equal
  · exact absurd same.symm (Nat.ne_of_lt (ascends other index otherInside inside after))

/-- Where the rule is on, the entries at which violations stand are the late ones. -/
theorem flagged_iff_late {settings : RuleSettings}
    (on : settings.level? Rule.propertyOrder.name ≠ some .off) (file : String) {id index : Nat}
    {entry : Entry} (here : (outline.entries id)[index]? = some entry) :
    entry.Flagged (outline.lint file settings) ↔ Entry.Late (outline.entries id) index := by
  constructor
  · rintro ⟨violation, member, stands⟩
    rcases exists_of_mem_lint member with ⟨other, finding, severity, found, rfl⟩
    have inBody := (mem_findings_iff.mp found).2
    rcases Finding.exists_at inBody with ⟨place, placed, late⟩
    have same : finding.entry.position.line = entry.position.line := congrArg Position.line stands
    have block : other = id :=
      comesFrom.id_eq_of_line_eq (List.mem_of_getElem? placed.entry) (List.mem_of_getElem? here)
        same
    subst block
    rwa [comesFrom.index_eq_of_line_eq here placed.entry same.symm]
  · intro late
    rcases Finding.mem_inBody_of_late late with ⟨finding, member, placed⟩
    rcases RuleSettings.exists_severity? on Rule.propertyOrder.severity with ⟨severity, set⟩
    rcases exists_block?_of_mem_entries (List.mem_of_getElem? here) with ⟨block, present, -⟩
    have found : (id, finding) ∈ outline.findings :=
      mem_findings_iff.mpr ⟨(exists_block?_iff outline id).mp ⟨block, present⟩, member⟩
    have same : finding.entry = entry := Option.some.inj (placed.entry.symm.trans here)
    refine ⟨finding.violation file severity, ?_, congrArg Entry.position same⟩
    rw [lint_eq_findings, set]
    exact List.mem_map.mpr ⟨(id, finding), found, rfl⟩

end ComesFrom
end Outline

/-! ## Anchors in messages -/

/-- The word before the number of the line tells what kind of entry the anchor is. -/
theorem Outline.Anchored.message_ne {outline : Outline} {id : Nat} {violation : Violation}
    (anchored : outline.Anchored id violation) (words : String) (line : Nat) :
    violation.message ≠ words ++ "mixin in line " ++ toString line := by
  rcases anchored with ⟨entry, -, -, name, value, position, -, -, message⟩
  intro same
  have divided : ∀ (front : String) (number : Nat),
      Text.splitLast ' ' 1 (front ++ " in line " ++ toString number).toList =
        [front.toList ++ " in line".toList, Nat.toDigits 10 number] := by
    intro front number
    have text : (front ++ " in line " ++ toString number).toList =
        front.toList ++ " in line".toList ++ ' ' :: Nat.toDigits 10 number := by
      simp
    rw [text]
    exact Text.splitLast_append (Text.not_mem_toDigits (by decide) number) 0 _
  have split : words ++ "mixin in line " = words ++ "mixin" ++ " in line " := by
    rw [String.append_assoc]
    rfl
  rw [message, split] at same
  have parts := congrArg (fun text => Text.splitLast ' ' 1 text.toList) same
  simp only [divided, List.cons.injEq] at parts
  -- A name ends in a backquote, and the word for a call does not.
  have quoted : ∀ front : String, (front ++ ("property `" ++ name ++ "`")).toList =
      (front ++ ("property `" ++ name)).toList ++ ['`'] := by
    simp
  have called : (words ++ "mixin").toList = (words ++ "mixi").toList ++ ['n'] := by
    simp
  have ends := congrArg List.getLast? (List.append_cancel_right parts.1)
  rw [quoted, called, List.getLast?_concat, List.getLast?_concat] at ends
  cases ends

/-- For every source that can be parsed and all settings that leave the rule on: a call is
reported if and only if a property stands above it in its block; a property that only the
last group takes is never reported, nor is the first entry of a block; and what an entry
should have come before is always a property.  Properties have ranks from one to eight,
whatever they are called, and the rank is the first place at which a group takes the
property. -/
theorem lintSource_extremes (file source : String) (settings : RuleSettings) (outline : Outline)
    (parsed : Outline.parse source = .ok outline)
    (on : settings.level? Rule.propertyOrder.name ≠ some .off) :
    ∃ violations, lintSource file source settings = .ok violations ∧
      (∀ id before position after,
        outline.entries id = before ++ Entry.mixin position :: after →
        ((Entry.mixin position).Flagged violations ↔
          ∃ name value above, Entry.property name value above ∈ before)) ∧
      (∀ id name value position, Entry.property name value position ∈ outline.entries id →
        (∀ group : Group, group.takes (some name) = true → group = .others) →
        ¬ (Entry.property name value position).Flagged violations) ∧
      (∀ id entry, (outline.entries id).head? = some entry → ¬ entry.Flagged violations) ∧
      (∀ violation ∈ violations, (∃ id, outline.Anchored id violation) ∧
        ∀ words (line : Nat), violation.message ≠ words ++ "mixin in line " ++ toString line) ∧
      ∀ name value position,
        let rank := (Entry.property name value position).rank
        1 ≤ rank ∧ rank ≤ 8 ∧ IsLeast (Group.places (some name)) rank := by
  have comesFrom := Outline.comesFrom_of_parse parsed
  refine ⟨outline.lint file settings, lintSource_of_parse parsed file settings, ?_, ?_, ?_, ?_, ?_⟩
  · intro id before position after body
    have here : (outline.entries id)[before.length]? = some (.mixin position) := by simp [body]
    rw [comesFrom.flagged_iff_late on file here, body, Entry.late_mixin_iff]
  · intro id name value position member unlisted flagged
    rcases List.getElem?_of_mem member with ⟨index, here⟩
    exact Entry.not_late_of_others here (Group.of_eq_others unlisted)
      ((comesFrom.flagged_iff_late on file here).mp flagged)
  · intro id entry first flagged
    rw [List.head?_eq_getElem?] at first
    exact Entry.not_late_zero _ ((comesFrom.flagged_iff_late on file first).mp flagged)
  · intro violation member
    rcases Outline.exists_of_mem_lint member with ⟨id, finding, severity, found, rfl⟩
    have anchored := comesFrom.anchored found file severity
    exact ⟨⟨id, anchored⟩, anchored.message_ne⟩
  · intro name value position
    exact ⟨Entry.rank_property_pos name value position, Group.rank_le _, Group.isLeast_rank_of _⟩

/-- A call above every property and one below, an entry that only the last group takes, and
settings that turn the rule down. -/
theorem lintSource_extremes_mixed :
    let source := ".a\n  +m\n  marGIN: 0\n  Top: 0\n  @include n\n  color: red\n"
    let settings : RuleSettings := ⟨[("property_order", .warn)]⟩
    ∃ outline violations, Outline.parse source = .ok outline ∧
      settings.level? Rule.propertyOrder.name ≠ some .off ∧
      lintSource "a" source settings = .ok violations ∧
      ¬ (Entry.mixin ⟨2, 2⟩).Flagged violations ∧
      ¬ (Entry.property "Top" "0" ⟨4, 2⟩).Flagged violations ∧
      (Entry.mixin ⟨5, 2⟩).Flagged violations := by
  intro source settings
  rcases Outline.exists_of_view (fun outline => outline.entries 0)
    (show (Outline.parse source).toOption.map (fun outline => outline.entries 0) =
      some [.mixin ⟨2, 2⟩, .property "marGIN" "0" ⟨3, 2⟩, .property "Top" "0" ⟨4, 2⟩,
        .mixin ⟨5, 2⟩, .property "color" "red" ⟨6, 2⟩] by decide +kernel) with
    ⟨outline, parsed, body⟩
  have on : settings.level? Rule.propertyOrder.name ≠ some .off := by decide
  rcases lintSource_extremes "a" source settings outline parsed on with
    ⟨violations, linted, calls, unlisted, first, -⟩
  refine ⟨outline, violations, parsed, on, linted, ?_, ?_, ?_⟩
  · exact first 0 _ (by rw [body]; rfl)
  · refine unlisted 0 "Top" "0" ⟨4, 2⟩ (by rw [body]; decide +kernel) ?_
    intro group taken
    cases group with
    | others => rfl
    | _ => exact absurd taken (by decide +kernel)
  · exact (calls 0 [.mixin ⟨2, 2⟩, .property "marGIN" "0" ⟨3, 2⟩, .property "Top" "0" ⟨4, 2⟩] ⟨5, 2⟩
      [.property "color" "red" ⟨6, 2⟩] body).mpr ⟨"Top", "0", ⟨4, 2⟩, by decide +kernel⟩

end StyleOrder
