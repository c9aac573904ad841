import Mathlib.Data.List.Sort
import Mathlib.Data.String.Basic
import StyleOrder.Proofs.Settings.Usable
import StyleOrder.Proofs.Text.Records

namespace StyleOrder

/-!
# Complaints about names of rules

Levels are given by name, and the order in which names are met means nothing.  Names that
no rule has are sorted before they are mentioned.  Sorting gives the same list for every
order, and as no name is given twice, the list ascends strictly.  Everything in the
complaint is made from that list, so there is one complaint for each set of names.
-/

namespace Similarity

/-- Where each entry is either taken or passed over, the last choice is the first one or an
entry. -/
theorem mem_of_mem_foldl {α : Type} {choose : Option α → α → Option α}
    (either : ∀ best entry, choose best entry = best ∨ choose best entry = some entry)
    {entries : List α} {best : Option α} {entry : α} (chosen : entry ∈ entries.foldl choose best) :
    best = some entry ∨ entry ∈ entries := by
  induction entries generalizing best with
  | nil => exact .inl chosen
  | cons head rest ih =>
      rcases ih chosen with same | later
      · rcases either best head with passed | taken
        · rw [passed] at same
          exact .inl same
        · rw [taken] at same
          exact .inr (List.mem_cons.mpr (.inl (Option.some.inj same).symm))
      · exact .inr (List.mem_cons_of_mem head later)

/-- A suggestion is one of the candidates. -/
theorem mem_of_closest {word rule : String} {candidates : List String}
    (found : closest word candidates = some rule) : rule ∈ candidates := by
  rcases Option.map_eq_some_iff.mp found with ⟨entry, chosen, rfl⟩
  refine Or.elim (mem_of_mem_foldl ?either chosen) ?first ?listed
  case either =>
    intro best entry
    cases best with
    | none => exact .inr rfl
    | some before =>
        dsimp only
        split
        · exact .inl rfl
        · exact .inr rfl
  case first =>
    intro never
    cases never
  case listed =>
    intro listed
    rcases List.mem_map.mp (List.mem_filter.mp listed).1 with ⟨candidate, member, rfl⟩
    exact member

end Similarity

namespace RuleSettings

/-! ## Sorted names -/

section Sorted

variable {rules other : RuleSettings}

/-- The names that levels are given for. -/
def names (rules : RuleSettings) : List String :=
  rules.levels.map Prod.fst

theorem pairwise_unknown (rules : RuleSettings) : rules.unknown.Pairwise (· ≤ ·) :=
  List.pairwise_mergeSort' (· ≤ ·) _

theorem unknown_perm (rules : RuleSettings) :
    rules.unknown.Perm (rules.names.filter (· ∉ Rule.names)) :=
  List.mergeSort_perm _ _

theorem mem_unknown {name : String} :
    name ∈ rules.unknown ↔ name ∈ rules.names ∧ name ∉ Rule.names := by
  rw [(unknown_perm rules).mem_iff, List.mem_filter, decide_eq_true_eq]

/-- The order of levels makes no difference to the names that no rule has. -/
theorem unknown_of_perm (turned : other.levels.Perm rules.levels) :
    other.unknown = rules.unknown := by
  have same : other.unknown.Perm rules.unknown :=
    (unknown_perm other).trans (((turned.map Prod.fst).filter _).trans (unknown_perm rules).symm)
  exact same.eq_of_pairwise' (pairwise_unknown other) (pairwise_unknown rules)

/-- Each name is mentioned once if it is given once. -/
theorem unknown_ascends (distinct : rules.names.Nodup) : rules.unknown.Pairwise (· < ·) := by
  have once : rules.unknown.Nodup := (unknown_perm rules).nodup_iff.mpr (distinct.filter _)
  exact (pairwise_unknown rules).imp₂ (fun _ _ => lt_of_le_of_ne) once

end Sorted

/-! ## Lines of a complaint -/

/-- The first line of a complaint. -/
def heading (unknown : List String) : String :=
  "Invalid lint rule name(s): " ++ ", ".intercalate unknown

/-- A name and the rule that may have been meant, as a line. -/
def suggestion (meant : String × String) : String :=
  "  '" ++ meant.1 ++ "': did you mean '" ++ meant.2 ++ "'?"

/-- The lines of a complaint, given its suggestions. -/
def complaintLines (unknown : List String) (suggestions : List (String × String)) : List String :=
  heading unknown :: suggestions.map suggestion ++
    "" :: "Valid rule names are:" :: Rule.names.map ("  - " ++ ·)

/-- Names with the rules that may have been meant by them, where there is one. -/
def suggestions (unknown : List String) : List (String × String) :=
  unknown.filterMap fun name => (Similarity.closest name Rule.names).map (name, ·)

theorem mem_suggestions {unknown : List String} {name rule : String} :
    (name, rule) ∈ suggestions unknown ↔
      name ∈ unknown ∧ Similarity.closest name Rule.names = some rule := by
  simp only [suggestions, List.mem_filterMap, Option.map_eq_some_iff, Prod.mk.injEq]
  constructor
  · rintro ⟨_, member, _, found, rfl, rfl⟩
    exact ⟨member, found⟩
  · rintro ⟨member, found⟩
    exact ⟨name, member, rule, found, rfl, rfl⟩

/-- Suggestions come in the order of the names, one for each name at most. -/
theorem map_fst_suggestions (unknown : List String) :
    ((suggestions unknown).map Prod.fst).Sublist unknown := by
  induction unknown with
  | nil => exact List.Sublist.refl _
  | cons name rest ih =>
      unfold suggestions at ih ⊢
      rw [List.filterMap_cons]
      cases Similarity.closest name Rule.names with
      | none => exact ih.cons name
      | some rule => exact ih.cons_cons name

/-- Texts that end their lines, put together. -/
theorem toList_join_lines (lines : List String) :
    (String.join (lines.map (· ++ "\n"))).toList =
      lines.flatMap fun line => line.toList ++ ['\n'] := by
  rw [String.toList_join, List.flatMap_map]
  exact List.flatMap_congr fun line _ => String.toList_append

/-- A complaint consists of its lines. -/
theorem toList_complaint (unknown : List String) :
    (complaint unknown).toList =
      (complaintLines unknown (suggestions unknown)).flatMap fun line => line.toList ++ ['\n'] := by
  have suggested : (unknown.filterMap fun name =>
      (Similarity.closest name Rule.names).map fun rule =>
        "  '" ++ name ++ "': did you mean '" ++ rule ++ "'?\n") =
      ((suggestions unknown).map suggestion).map (· ++ "\n") := by
    rw [suggestions, List.map_filterMap, List.map_filterMap]
    refine List.filterMap_congr fun name _ => ?_
    cases Similarity.closest name Rule.names with
    | none => rfl
    | some rule => simp [suggestion, String.append_assoc]
  have listed : (Rule.names.map fun rule => "  - " ++ rule ++ "\n") =
      (Rule.names.map ("  - " ++ ·)).map (· ++ "\n") := by
    rw [List.map_map]
    rfl
  have between : "\nValid rule names are:\n".toList =
      "".toList ++ ['\n'] ++ ("Valid rule names are:".toList ++ ['\n']) := by decide
  unfold complaint complaintLines heading
  simp only [suggested, listed, String.toList_append, toList_join_lines, between,
    List.cons_append, List.flatMap_cons, List.flatMap_append, List.append_assoc]
  rfl

/-- If no name contains a line feed, these are the lines of the text. -/
theorem lines_complaint {unknown : List String} (single : ∀ name ∈ unknown, '\n' ∉ name.toList) :
    Text.lines (complaint unknown).toList =
      (complaintLines unknown (suggestions unknown)).map String.toList := by
  have registered : ∀ rule ∈ Rule.names, '\n' ∉ rule.toList := by decide +kernel
  have each : ∀ line ∈ complaintLines unknown (suggestions unknown), '\n' ∉ line.toList := by
    unfold complaintLines
    simp only [List.cons_append, List.forall_mem_cons, List.forall_mem_append, List.forall_mem_map]
    refine ⟨?_, ?_, by decide, by decide, ?_⟩
    · unfold heading
      rw [String.toList_append, String.toList_intercalate, List.mem_append, not_or]
      exact ⟨by decide, Text.not_mem_intercalate (by decide) (List.forall_mem_map.mpr single)⟩
    · rintro ⟨name, rule⟩ suggested
      rcases mem_suggestions.mp suggested with ⟨member, found⟩
      simp [suggestion, single name member, registered rule (Similarity.mem_of_closest found)]
    · intro rule member
      simp [registered rule member]
  rw [toList_complaint, ← Text.lines_flatMap_feed (List.forall_mem_map.mpr each), List.flatMap_map]

/-- Validation accepts exactly the names that rules have, and what it says does not depend
on the order of the names.  A complaint lists, on its first line, every name that no rule has,
once and in ascending order, and no other name.  Suggestions follow in the same order, one
for each of these names at most.  The text is the lines one after another, whatever the names
are.  Split again, it gives these lines if no name that is listed contains a line feed. -/
theorem validate_in_any_order (rules : RuleSettings) (distinct : rules.names.Nodup) :
    (∀ other : RuleSettings, other.levels.Perm rules.levels →
      other.validate = rules.validate) ∧
    (rules.validate = .ok () ↔ ∀ name ∈ rules.names, ∃ rule ∈ Rule.all, rule.name = name) ∧
    (rules.validate ≠ .ok () →
      ∃ complaint unknown suggested,
        rules.validate = .error complaint ∧
        unknown.Pairwise (· < ·) ∧
        (∀ name, name ∈ unknown ↔
          name ∈ rules.names ∧ ¬∃ rule ∈ Rule.all, rule.name = name) ∧
        (suggested.map Prod.fst).Sublist unknown ∧
        (∀ name rule, (name, rule) ∈ suggested ↔
          name ∈ unknown ∧ Similarity.closest name Rule.names = some rule) ∧
        complaint.toList =
          (complaintLines unknown suggested).flatMap (fun line => line.toList ++ ['\n']) ∧
        ((∀ name ∈ unknown, '\n' ∉ name.toList) →
          Text.lines complaint.toList =
            (complaintLines unknown suggested).map String.toList)) := by
  refine ⟨?_, ?_, ?_⟩
  · intro other turned
    rw [validate, validate, unknown_of_perm turned]
  · rw [validate_eq_ok_iff, names, List.forall_mem_map]
  · intro refused
    have registered : ∀ name, name ∈ Rule.names ↔ ∃ rule ∈ Rule.all, rule.name = name := by
      intro name
      rw [Rule.names, List.mem_mergeSort, List.mem_map]
    refine ⟨complaint rules.unknown, rules.unknown, suggestions rules.unknown, ?_,
      unknown_ascends distinct, fun name => ?_, map_fst_suggestions _, fun _ _ => mem_suggestions,
      toList_complaint _, lines_complaint⟩
    · unfold validate at refused ⊢
      split
      · rename_i empty
        exact absurd (if_pos empty) refused
      · rfl
    · rw [mem_unknown, registered]

/-- Two misspelt names around a name that a rule has, in descending order. -/
theorem validate_in_any_order_misspelt :
    let rules : RuleSettings :=
      ⟨[("zero_units", .off), ("property_order", .warn), ("property_oder", .error)]⟩
    rules.names.Nodup ∧
      RuleSettings.validate ⟨rules.levels.reverse⟩ = rules.validate ∧
      ∃ complaint suggested,
        rules.validate = .error complaint ∧
        (suggested.map Prod.fst).Sublist ["property_oder", "zero_units"] ∧
        Text.lines complaint.toList =
          (complaintLines ["property_oder", "zero_units"] suggested).map String.toList := by
  intro rules
  have distinct : rules.names.Nodup := by decide
  rcases validate_in_any_order rules distinct with ⟨turned, accepted, refused⟩
  have unaccepted : rules.validate ≠ .ok () := by
    rw [Ne, accepted]
    decide
  rcases refused unaccepted with
    ⟨complaint, unknown, suggested, same, ascends, member, order, -, -, lines⟩
  have listed : unknown = ["property_oder", "zero_units"] := by
    have registered : (∃ rule ∈ Rule.all, rule.name = "property_order") := by decide
    refine ascends.eq_of_mem_iff (by decide) fun name => ?_
    rw [member]
    constructor
    · rintro ⟨given, unknown⟩
      rcases List.mem_cons.mp given with rfl | given
      · decide
      · rcases List.mem_cons.mp given with rfl | given
        · exact absurd registered unknown
        · exact List.mem_cons.mpr (.inl (List.mem_singleton.mp given))
    · intro listed
      rcases List.mem_pair.mp listed with rfl | rfl
      · decide
      · decide
  subst listed
  exact ⟨distinct, turned _ (List.reverse_perm _), complaint, suggested, same, order,
    lines (by decide)⟩

end RuleSettings
end StyleOrder
