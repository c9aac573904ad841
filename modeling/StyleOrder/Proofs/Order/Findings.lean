import Mathlib.Data.List.Forall2
import Mathlib.Data.List.Induction
import Mathlib.Order.MinMax
import StyleOrder.Lint.Rule

namespace StyleOrder

/-!
# What the ordering rule reports

The scan of a body remembers one group and one entry, and passes over the
entries that fall behind.  What it remembers is nevertheless a fact about all
entries read so far, the ones passed over included: the group is the furthest
that any of them has, and the anchor is the last one that has it.  So an entry
is reported exactly if some entry above it has a later group, and it is always
reported against an anchor.
-/

namespace Entry

/-- The furthest group among some entries. -/
def peak (entries : List Entry) : Nat :=
  (entries.map rank).foldl max 0

/-- The last of some entries that has their furthest group. -/
def crest? (entries : List Entry) : Option Entry :=
  (entries.filter fun entry => entry.rank = peak entries).getLast?

/-- An entry above the one at this index has a later group. -/
def Late (entries : List Entry) (index : Nat) : Prop :=
  ∃ entry ∈ entries[index]?, ∃ earlier ∈ entries.take index, entry.rank < earlier.rank

instance (entries : List Entry) (index : Nat) : Decidable (Late entries index) :=
  inferInstanceAs
    (Decidable (∃ entry ∈ entries[index]?, ∃ earlier ∈ entries.take index,
      entry.rank < earlier.rank))

theorem peak_concat (before : List Entry) (entry : Entry) :
    peak (before ++ [entry]) = max (peak before) entry.rank := by
  simp only [peak, List.map_append, List.map_cons, List.map_nil, List.foldl_append,
    List.foldl_cons, List.foldl_nil]

theorem lt_peak_iff (bound : Nat) (entries : List Entry) :
    bound < peak entries ↔ ∃ earlier ∈ entries, bound < earlier.rank := by
  induction entries using List.reverseRecOn with
  | nil => simp [peak]
  | append_singleton before entry inductionHypothesis =>
      rw [peak_concat, lt_max_iff, inductionHypothesis]
      simp only [List.mem_append, List.mem_singleton, or_and_right, exists_or, exists_eq_left]

/-- An entry that falls behind is not the crest, and leaves it where it was. -/
theorem crest?_concat_of_lt {before : List Entry} {entry : Entry}
    (behind : entry.rank < peak before) : crest? (before ++ [entry]) = crest? before := by
  have kept : peak (before ++ [entry]) = peak before := by
    rw [peak_concat, Nat.max_eq_left (Nat.le_of_lt behind)]
  rw [crest?, kept, List.filter_append,
    List.filter_cons_of_neg (by simpa using Nat.ne_of_lt behind), List.filter_nil,
    List.append_nil, crest?]

/-- An entry that raises or holds the furthest group is the new crest. -/
theorem crest?_concat_of_le {before : List Entry} {entry : Entry}
    (ahead : peak before ≤ entry.rank) : crest? (before ++ [entry]) = some entry := by
  have raised : peak (before ++ [entry]) = entry.rank := by
    rw [peak_concat, Nat.max_eq_right ahead]
  rw [crest?, raised, List.filter_append, List.filter_cons_of_pos (by simp), List.filter_nil,
    List.getLast?_concat]

theorem exists_crest?_of_lt {before : List Entry} {bound : Nat} (below : bound < peak before) :
    ∃ anchor, crest? before = some anchor := by
  induction before using List.reverseRecOn with
  | nil => exact absurd below (Nat.not_lt_zero bound)
  | append_singleton before entry inductionHypothesis =>
      rcases Nat.lt_or_ge entry.rank (peak before) with behind | ahead
      · rw [peak_concat, Nat.max_eq_left (Nat.le_of_lt behind)] at below
        rw [crest?_concat_of_lt behind]
        exact inductionHypothesis below
      · exact ⟨entry, crest?_concat_of_le ahead⟩

theorem late_append_cons (before : List Entry) (entry : Entry) (rest : List Entry) :
    Late (before ++ entry :: rest) before.length ↔ entry.rank < peak before := by
  rw [lt_peak_iff]
  simp [Late]

/-- No entry is late exactly if the groups never go back. -/
theorem forall_not_late_iff (entries : List Entry) :
    (∀ index < entries.length, ¬ Late entries index) ↔
      entries.Pairwise fun above below => above.rank ≤ below.rank := by
  rw [List.pairwise_iff_getElem]
  constructor
  · intro timely first second firstBound secondBound order
    by_contra back
    refine timely second secondBound
      ⟨entries[second], List.getElem?_eq_getElem secondBound, entries[first], ?_,
        Nat.lt_of_not_le back⟩
    exact List.mem_take_iff_getElem.mpr ⟨first, Nat.lt_min.mpr ⟨order, firstBound⟩, rfl⟩
  · rintro ordered index bound ⟨entry, found, earlier, member, back⟩
    obtain ⟨first, firstBound, rfl⟩ := List.mem_take_iff_getElem.mp member
    obtain ⟨_, rfl⟩ := List.getElem?_eq_some_iff.mp found
    have order := ordered first index (by omega) bound (by omega)
    exact Nat.not_lt_of_le order back

end Entry

namespace Progress

/-- What is remembered is the furthest group of the entries read so far, and the
last entry that has it. -/
structure Recalls (progress : Progress) (before : List Entry) : Prop where
  reached : progress.reached = Entry.peak before
  anchor : progress.anchor = Entry.crest? before

theorem start_recalls : start.Recalls [] where
  reached := rfl
  anchor := rfl

namespace Recalls

variable {progress : Progress} {before : List Entry}

theorem next (recalls : progress.Recalls before) (entry : Entry) :
    (progress.next entry).Recalls (before ++ [entry]) := by
  rcases Nat.lt_or_ge entry.rank (Entry.peak before) with behind | ahead
  · have passed : progress.next entry = progress := by
      rw [Progress.next, recalls.reached, if_pos behind]
    rw [passed]
    exact
      { reached := by
          rw [recalls.reached, Entry.peak_concat, Nat.max_eq_left (Nat.le_of_lt behind)]
        anchor := by rw [recalls.anchor, Entry.crest?_concat_of_lt behind] }
  · have taken : progress.next entry = { reached := entry.rank, anchor := some entry } := by
      rw [Progress.next, recalls.reached, if_neg (Nat.not_lt_of_le ahead)]
    rw [taken]
    exact
      { reached := by rw [Entry.peak_concat, Nat.max_eq_right ahead]
        anchor := (Entry.crest?_concat_of_le ahead).symm }

theorem foldl_next (recalls : progress.Recalls before) (entries : List Entry) :
    (entries.foldl Progress.next progress).Recalls (before ++ entries) := by
  induction entries generalizing progress before with
  | nil => simpa using recalls
  | cons entry rest inductionHypothesis =>
      have later := inductionHypothesis (recalls.next entry)
      rwa [List.append_assoc] at later

theorem finding?_of_lt (recalls : progress.Recalls before) {entry : Entry}
    (behind : entry.rank < Entry.peak before) :
    ∃ anchor, Entry.crest? before = some anchor ∧
      progress.finding? entry = some { entry, anchor } := by
  obtain ⟨anchor, found⟩ := Entry.exists_crest?_of_lt behind
  refine ⟨anchor, found, ?_⟩
  rw [finding?, recalls.reached, if_pos behind, recalls.anchor, found, Option.map_some]

theorem finding?_of_le (recalls : progress.Recalls before) {entry : Entry}
    (ahead : Entry.peak before ≤ entry.rank) : progress.finding? entry = none := by
  rw [finding?, recalls.reached, if_neg (Nat.not_lt_of_le ahead)]

end Recalls

/-- What is remembered after some entries from the top of a body. -/
def after (before : List Entry) : Progress :=
  before.foldl next start

theorem after_recalls (before : List Entry) : (after before).Recalls before :=
  start_recalls.foldl_next before

theorem findings_append (progress : Progress) (before rest : List Entry) :
    progress.findings (before ++ rest) =
      progress.findings before ++ (before.foldl next progress).findings rest := by
  induction before generalizing progress with
  | nil => rfl
  | cons entry before inductionHypothesis =>
      simp only [List.cons_append, findings, inductionHypothesis, List.append_assoc,
        List.foldl_cons]

end Progress

namespace Finding

/-- The finding is about the entry at this index, and its anchor is the crest of
the entries above. -/
structure At (entries : List Entry) (index : Nat) (finding : Finding) : Prop where
  entry : entries[index]? = some finding.entry
  anchor : Entry.crest? (entries.take index) = some finding.anchor

theorem at_append_cons {before : List Entry} {entry anchor : Entry} (rest : List Entry)
    (found : Entry.crest? before = some anchor) :
    At (before ++ entry :: rest) before.length { entry, anchor } where
  entry := by simp
  anchor := by simpa using found

end Finding

/-- The entries still to come give one finding for each that is late, in their
order. -/
theorem Progress.Recalls.forall₂_findings {progress : Progress} {before : List Entry}
    (recalls : progress.Recalls before) (rest : List Entry) :
    List.Forall₂ (Finding.At (before ++ rest))
      ((List.range' before.length rest.length).filter (Entry.Late (before ++ rest)))
      (progress.findings rest) := by
  induction rest generalizing progress before with
  | nil => exact List.Forall₂.nil
  | cons entry rest inductionHypothesis =>
      have later := inductionHypothesis (recalls.next entry)
      rw [List.append_assoc, List.singleton_append, List.length_append,
        List.length_singleton] at later
      rw [List.length_cons, List.range'_succ, Progress.findings]
      rcases Nat.lt_or_ge entry.rank (Entry.peak before) with behind | ahead
      · obtain ⟨anchor, found, reported⟩ := recalls.finding?_of_lt behind
        have late := (Entry.late_append_cons before entry rest).mpr behind
        rw [List.filter_cons, if_pos (decide_eq_true late), reported]
        exact List.Forall₂.cons (Finding.at_append_cons rest found) later
      · have timely : ¬ Entry.Late (before ++ entry :: rest) before.length := fun late =>
          Nat.not_lt_of_le ahead ((Entry.late_append_cons before entry rest).mp late)
        rw [List.filter_cons, if_neg (by simpa using timely), recalls.finding?_of_le ahead]
        exact later

theorem Finding.forall₂_inBody (entries : List Entry) :
    List.Forall₂ (At entries) ((List.range entries.length).filter (Entry.Late entries))
      (inBody entries) := by
  rw [List.range_eq_range']
  exact Progress.start_recalls.forall₂_findings entries

theorem Finding.inBody_append (before rest : List Entry) :
    inBody (before ++ rest) = inBody before ++ (Progress.after before).findings rest :=
  Progress.findings_append Progress.start before rest

theorem Finding.inBody_eq_nil_iff (entries : List Entry) :
    inBody entries = [] ↔ entries.Pairwise fun above below => above.rank ≤ below.rank := by
  have counted := (forall₂_inBody entries).length_eq
  rw [← Entry.forall_not_late_iff, ← List.length_eq_zero_iff, ← counted,
    List.length_eq_zero_iff, List.filter_eq_nil_iff]
  simp only [List.mem_range, decide_eq_true_eq]

/-! ## Entries that keep their groups -/

/-- The finding about edited entries. -/
def Finding.map (edit : Entry → Entry) (finding : Finding) : Finding where
  entry := edit finding.entry
  anchor := edit finding.anchor

/-- What is remembered of edited entries. -/
def Progress.map (edit : Entry → Entry) (progress : Progress) : Progress where
  reached := progress.reached
  anchor := progress.anchor.map edit

section Map

variable {edit : Entry → Entry} (ranks : ∀ entry, (edit entry).rank = entry.rank)

include ranks

theorem Progress.next_map (progress : Progress) (entry : Entry) :
    (progress.map edit).next (edit entry) = (progress.next entry).map edit := by
  simp only [next, ranks]
  change (if entry.rank < progress.reached then _ else _) = _
  split <;> rfl

theorem Progress.finding?_map (progress : Progress) (entry : Entry) :
    (progress.map edit).finding? (edit entry) =
      (progress.finding? entry).map (Finding.map edit) := by
  simp only [finding?, ranks]
  change (if entry.rank < progress.reached then _ else _) = _
  split
  · cases anchor : progress.anchor <;> simp [map, anchor, Finding.map]
  · rfl

theorem Progress.findings_map (progress : Progress) (entries : List Entry) :
    (progress.map edit).findings (entries.map edit) =
      (progress.findings entries).map (Finding.map edit) := by
  induction entries generalizing progress with
  | nil => rfl
  | cons entry rest inductionHypothesis =>
      rw [List.map_cons, findings, findings, finding?_map ranks, next_map ranks,
        inductionHypothesis, List.map_append]
      cases progress.finding? entry <;> rfl

/-- Entries that are edited within their groups are late when they were before. -/
theorem Finding.inBody_map (entries : List Entry) :
    inBody (entries.map edit) = (inBody entries).map (map edit) :=
  Progress.findings_map ranks Progress.start entries

end Map

namespace Rule

/-- The ordering rule reports the late entries of a block, each once and in
their order, against the last entry above that has the furthest group.  It is
silent exactly on the bodies whose groups never go back.  Wherever the scan
stands when an entry falls behind, it has an anchor. -/
theorem propertyOrder_reports_late (file : String) (block : Block) :
    List.Forall₂
      (fun index violation =>
        ∃ entry anchor, block.entries[index]? = some entry ∧
          Entry.crest? (block.entries.take index) = some anchor ∧
          violation =
            { file
              position := entry.position
              severity := .error
              message := Finding.subject entry ++ " should not be defined after " ++
                Finding.object anchor ++ " in line " ++ toString anchor.position.line
              rule := "property_order" })
      ((List.range block.entries.length).filter (Entry.Late block.entries))
      (propertyOrder.check file block) ∧
    (propertyOrder.check file block = [] ↔
      block.entries.Pairwise fun above below => above.rank ≤ below.rank) ∧
    ∀ before entry rest, block.entries = before ++ entry :: rest →
      Finding.inBody block.entries =
        Finding.inBody before ++ (Progress.after before).findings (entry :: rest) ∧
      (entry.rank < (Progress.after before).reached → (Progress.after before).anchor ≠ none) := by
  refine ⟨?_, ?_, ?_⟩
  · refine List.forall₂_map_right_iff.mpr ((Finding.forall₂_inBody block.entries).imp ?_)
    intro index finding placed
    exact ⟨finding.entry, finding.anchor, placed.entry, placed.anchor, rfl⟩
  · exact List.map_eq_nil_iff.trans (Finding.inBody_eq_nil_iff block.entries)
  · intro before entry rest split
    refine ⟨split ▸ Finding.inBody_append before (entry :: rest), fun behind missing => ?_⟩
    have recalls := Progress.after_recalls before
    rw [recalls.reached] at behind
    obtain ⟨anchor, found⟩ := Entry.exists_crest?_of_lt behind
    rw [recalls.anchor, found] at missing
    cases missing

/-- A group held over two lines, and an entry that falls behind both. -/
theorem propertyOrder_reports_below_tie :
    let body : List Entry :=
      [.property "color" "red" ⟨2, 2⟩, .property "color" "blue" ⟨3, 2⟩,
        .property "top" "0" ⟨4, 2⟩, .mixin ⟨5, 2⟩]
    let block : Block :=
      { kind := .selector, name := ".a", selector := ".a", position := ⟨1, 0⟩, parent := none,
        entries := body }
    propertyOrder.check "a.sass" block ≠ [] ∧
      (Entry.property "top" "0" ⟨4, 2⟩).rank < (Progress.after (body.take 2)).reached ∧
      (Progress.after (body.take 2)).anchor ≠ none := by
  intro body block
  have reports := propertyOrder_reports_late "a.sass" block
  have back : ¬ body.Pairwise fun above below => above.rank ≤ below.rank := by decide +kernel
  have behind : (Entry.property "top" "0" ⟨4, 2⟩).rank <
      (Progress.after (body.take 2)).reached := by decide +kernel
  exact ⟨fun silent => back (reports.2.1.mp silent), behind,
    (reports.2.2 (body.take 2) _ [.mixin ⟨5, 2⟩] rfl).2 behind⟩

end Rule
end StyleOrder
