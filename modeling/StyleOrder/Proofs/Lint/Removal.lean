import Mathlib.Data.Finset.Filter
import Mathlib.Data.Finset.Range
import StyleOrder.Proofs.Lint.Anchors

namespace StyleOrder

/-!
# Entries taken out of a body

An entry that falls behind leaves no trace: what is remembered after it is what was
remembered before it.  So it can be taken out of its body, and every other entry is
judged as before, against the same anchor.  The same goes for any number of such
entries at once, in whatever way they stand between entries that raise the group and
entries that hold it.  With all of them taken out nothing is left to report.
-/

/-- A finding changes nothing of what is remembered. -/
theorem Progress.next_of_finding? {progress : Progress} {entry : Entry}
    (late : (progress.finding? entry).isSome) : progress.next entry = progress := by
  unfold finding? at late
  split at late
  · rename_i behind
    exact if_pos behind
  · cases late

theorem Progress.after_concat (before : List Entry) (entry : Entry) :
    after (before ++ [entry]) = (after before).next entry := by
  rw [after, List.foldl_append]
  rfl

namespace Finding

/-- The finding at the entry of an index, if there is one. -/
def at? (entries : List Entry) (index : Nat) : Option Finding :=
  entries[index]?.bind (Progress.after (entries.take index)).finding?

/-- What is found at an entry does not depend on the entries below it. -/
theorem at?_concat_of_lt {before : List Entry} (entry : Entry) {index : Nat}
    (above : index < before.length) : at? (before ++ [entry]) index = at? before index := by
  rw [at?, List.getElem?_append_left above, List.take_append_of_le_length (Nat.le_of_lt above), at?]

theorem at?_concat_length (before : List Entry) (entry : Entry) :
    at? (before ++ [entry]) before.length = (Progress.after before).finding? entry := by
  rw [at?, List.getElem?_concat_length, List.take_left]
  rfl

end Finding

namespace Entry

/-- Entries without those of some indices; the others stay where they stand. -/
def without (removed : Finset Nat) (entries : List Entry) : List Entry :=
  (entries.zipIdx.filter fun entry => entry.2 ∉ removed).map Prod.fst

theorem without_concat (removed : Finset Nat) (before : List Entry) (entry : Entry) :
    without removed (before ++ [entry]) =
      without removed before ++ if before.length ∈ removed then [] else [entry] := by
  rw [without, List.zipIdx_append, List.filter_append, List.map_append, without]
  by_cases taken : before.length ∈ removed <;> simp [taken]

end Entry

/-! ## What late entries leave behind -/

/-- At the indices that are removed stand late entries. -/
def Finding.AllLate (removed : Finset Nat) (entries : List Entry) : Prop :=
  ∀ index ∈ removed, index < entries.length → (at? entries index).isSome

namespace Finding.AllLate

variable {removed : Finset Nat} {before : List Entry} {entry : Entry}

theorem of_concat (late : AllLate removed (before ++ [entry])) : AllLate removed before := by
  intro index member above
  rw [← at?_concat_of_lt entry above]
  exact late index member (by rw [List.length_append]; omega)

theorem last (late : AllLate removed (before ++ [entry])) (taken : before.length ∈ removed) :
    ((Progress.after before).finding? entry).isSome := by
  rw [← at?_concat_length]
  exact late before.length taken (by simp)

/-- Without late entries the scan remembers what it remembers with them. -/
theorem after_without {entries : List Entry} (late : AllLate removed entries) :
    Progress.after (Entry.without removed entries) = Progress.after entries := by
  induction entries using List.reverseRecOn with
  | nil => rfl
  | append_singleton before entry ih =>
      have same := ih late.of_concat
      rw [Entry.without_concat, Progress.after_concat]
      split
      · rename_i taken
        rw [List.append_nil, same, Progress.next_of_finding? (late.last taken)]
      · rw [Progress.after_concat, same]

/-- What is found without late entries is what is found at the entries that stay. -/
theorem inBody_without {entries : List Entry} (late : AllLate removed entries) :
    inBody (Entry.without removed entries) =
      ((List.range entries.length).filter (· ∉ removed)).filterMap (at? entries) := by
  induction entries using List.reverseRecOn with
  | nil => rfl
  | append_singleton before entry ih =>
      have above : ((List.range before.length).filter (· ∉ removed)).filterMap
          (at? (before ++ [entry])) = inBody (Entry.without removed before) := by
        rw [ih late.of_concat]
        apply List.filterMap_congr
        intro index member
        exact at?_concat_of_lt entry (List.mem_range.mp (List.mem_filter.mp member).1)
      rw [Entry.without_concat, List.length_append, List.length_singleton, List.range_succ,
        List.filter_append, List.filterMap_append, above]
      by_cases taken : before.length ∈ removed
      · simp [taken]
      · have here : [before.length].filterMap (at? (before ++ [entry])) =
            ((Progress.after before).finding? entry).toList := by
          rw [← at?_concat_length]
          cases found : at? (before ++ [entry]) before.length <;> simp [found]
        have stays : [before.length].filter (· ∉ removed) = [before.length] := by simp [taken]
        rw [if_neg taken, inBody_append, late.of_concat.after_without, stays, here]
        exact congrArg _ (List.append_nil _)

end Finding.AllLate

/-- A block without the entries of some indices. -/
def Block.without (removed : Finset Nat) (block : Block) : Block :=
  { block with entries := Entry.without removed block.entries }

namespace Rule

/-- What the ordering rule reports at the entry of an index. -/
def violationAt? (file : String) (block : Block) (index : Nat) : Option Violation :=
  (Finding.at? block.entries index).map (Finding.violation file propertyOrder.severity)

theorem position_of_violationAt? {file : String} {block : Block} {index : Nat}
    {violation : Violation} (reported : violationAt? file block index = some violation) :
    block.entries[index]?.map Entry.position = some violation.position := by
  rcases Option.map_eq_some_iff.mp reported with ⟨finding, found, rfl⟩
  rcases Option.bind_eq_some_iff.mp found with ⟨entry, here, late⟩
  unfold Progress.finding? at late
  split at late
  · rcases Option.map_eq_some_iff.mp late with ⟨anchor, -, rfl⟩
    rw [here]
    rfl
  · cases late

theorem check_without {file : String} {block : Block} {removed : Finset Nat}
    (late : ∀ index ∈ removed, (violationAt? file block index).isSome) :
    propertyOrder.check file (block.without removed) =
      ((List.range block.entries.length).filter (· ∉ removed)).filterMap
        (violationAt? file block) := by
  have allLate : Finding.AllLate removed block.entries := by
    intro index member _
    rw [← Option.isSome_map]
    exact late index member
  change (Finding.inBody (Entry.without removed block.entries)).map
    (Finding.violation file propertyOrder.severity) = _
  rw [allLate.inBody_without, List.map_filterMap]
  rfl

/-- The ordering rule reports at late entries, each at its own.  They can be taken out of
the block without any effect on what is reported at the entries that stay, and with all of
them taken out nothing is reported. -/
theorem propertyOrder_without (file : String) (block : Block) :
    propertyOrder.check file block =
        (List.range block.entries.length).filterMap (violationAt? file block) ∧
      (∀ index violation, violationAt? file block index = some violation →
        block.entries[index]?.map Entry.position = some violation.position) ∧
      (∀ removed : Finset Nat, (∀ index ∈ removed, (violationAt? file block index).isSome) →
        propertyOrder.check file (block.without removed) =
          ((List.range block.entries.length).filter (· ∉ removed)).filterMap
            (violationAt? file block)) ∧
      propertyOrder.check file (block.without ((Finset.range block.entries.length).filter
        fun index => (violationAt? file block index).isSome)) = [] := by
  refine ⟨?_, fun index violation => position_of_violationAt?, fun removed => check_without, ?_⟩
  · have whole : block.without ∅ = block := by
      simp [Block.without, Entry.without]
    have kept : propertyOrder.check file (block.without ∅) = _ := check_without (by simp)
    simpa [whole] using kept
  · rw [check_without fun index member => (Finset.mem_filter.mp member).2]
    apply List.filterMap_eq_nil_iff.mpr
    intro index member
    rcases List.mem_filter.mp member with ⟨inside, stays⟩
    by_contra reported
    refine absurd stays ?_
    simpa [List.mem_range.mp inside, Option.isSome_iff_ne_none] using reported

/-- Late entries before, between and after entries that raise or hold the group.  Two of
the four are taken out, and the other two are reported as before. -/
theorem propertyOrder_without_two :
    let block : Block :=
      { kind := .selector, name := ".a", selector := ".a", position := ⟨1, 0⟩, parent := none,
        entries := [.property "width" "0" ⟨2, 2⟩, .mixin ⟨3, 2⟩, .property "color" "red" ⟨4, 2⟩,
          .property "clip" "0" ⟨5, 2⟩, .property "top" "0" ⟨6, 2⟩, .property "color" "blue" ⟨7, 2⟩,
          .property "height" "0" ⟨8, 2⟩] }
    (∀ index ∈ ({1, 4} : Finset Nat), (violationAt? "a" block index).isSome) ∧
      (propertyOrder.check "a" (block.without {1, 4})).map Violation.text =
        ["a:5:2: Property `clip` should not be defined after property `color` in line 4",
          "a:8:2: Property `height` should not be defined after property `color` in line 7"] := by
  intro block
  have late : ∀ index ∈ ({1, 4} : Finset Nat), (violationAt? "a" block index).isSome := by
    decide +kernel
  refine ⟨late, ?_⟩
  rw [(propertyOrder_without "a" block).2.2.1 {1, 4} late]
  decide +kernel

end Rule
end StyleOrder
