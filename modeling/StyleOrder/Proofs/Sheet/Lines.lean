import Mathlib.Data.List.TakeWhile
import StyleOrder.Outline.Basic
import StyleOrder.Sheet.Line
import StyleOrder.Sheet.Mark

namespace StyleOrder
namespace Sheet

/-!
# Lines by what they contribute

A line opens a block or it does not, and the first character of its text
decides.  Besides, it contributes the entries that its marks stand for.  The
marks of a line contain one that opens a block exactly when the first character
says so, and never two.  There is one entry at most, since a mixin call and a
property begin with different characters.

The lines of a source are numbered upwards, so a line is identified by its
number.
-/

namespace Mark

/-- A mark opens a block or is an entry. -/
def opens : Mark → Bool
  | selector _ | atRule _ | placeholder _ => true
  | mixin | property _ _ => false

def entry? (position : Position) : Mark → Option Entry
  | mixin => some (.mixin position)
  | property name value => some (.property name value position)
  | selector _ | atRule _ | placeholder _ => none

theorem opens_of_selector? {text : List Char} {mark : Mark} (found : selector? text = some mark) :
    mark.opens = true := by
  unfold selector? at found
  split at found
  · split at found
    · cases found
    · split at found
      · cases found
        rfl
      · cases found
  · cases found
    rfl

theorem opens_of_atRule? {text : List Char} {mark : Mark} (found : atRule? text = some mark) :
    mark.opens = true := by
  unfold atRule? at found
  split at found
  · cases found
    rfl
  · cases found

theorem opens_of_placeholder? {text : List Char} {mark : Mark}
    (found : placeholder? text = some mark) : mark.opens = true := by
  unfold placeholder? at found
  split at found
  · cases found
    rfl
  · cases found

theorem eq_mixin_of_mixin? {text : List Char} {mark : Mark} (found : mixin? text = some mark) :
    mark = mixin := by
  unfold mixin? at found
  rw [Option.ite_none_right_eq_some] at found
  exact (Option.some.inj found.2).symm

theorem not_opens_of_mixin? {text : List Char} {mark : Mark} (found : mixin? text = some mark) :
    mark.opens = false := by
  rw [eq_mixin_of_mixin? found]
  rfl

theorem not_opens_of_property? {text : List Char} {mark : Mark}
    (found : property? text = some mark) : mark.opens = false := by
  simp only [property?] at found
  split at found
  · split at found
    · cases found
      rfl
    · cases found
  · cases found

theorem ofText_eq_append (text : List Char) :
    ofText text = (selector? text).toList ++ (mixin? text).toList ++ (atRule? text).toList ++
      (placeholder? text).toList ++ (property? text).toList := by
  simp only [ofText, List.filterMap_cons, List.filterMap_nil, id_eq]
  cases selector? text <;> cases mixin? text <;> cases atRule? text <;>
    cases placeholder? text <;> cases property? text <;> rfl

/-- The marks that open a block, one kind of block after the other. -/
theorem filter_opens_ofText (text : List Char) :
    (ofText text).filter opens =
      (selector? text).toList ++ (atRule? text).toList ++ (placeholder? text).toList := by
  have all : ∀ found : Option Mark, (∀ mark, found = some mark → mark.opens = true) →
      found.toList.filter opens = found.toList := by
    intro found opening
    exact List.filter_eq_self.mpr fun mark member => opening mark (Option.mem_toList.mp member)
  have no : ∀ found : Option Mark, (∀ mark, found = some mark → mark.opens = false) →
      found.toList.filter opens = [] := by
    intro found closed
    apply List.filter_eq_nil_iff.mpr
    intro mark member
    rw [closed mark (Option.mem_toList.mp member)]
    exact Bool.false_ne_true
  rw [ofText_eq_append, List.filter_append, List.filter_append, List.filter_append,
    List.filter_append, all _ fun _ => opens_of_selector?, no _ fun _ => not_opens_of_mixin?,
    all _ fun _ => opens_of_atRule?, all _ fun _ => opens_of_placeholder?,
    no _ fun _ => not_opens_of_property?, List.append_nil, List.append_nil]

theorem isSome_selector? (c : Char) (rest : List Char) :
    (selector? (c :: rest)).isSome = (Text.isWord c || decide (c ∈ selectorSigns)) := by
  unfold selector?
  cases word : Text.isWord c with
  | true => simp [word]
  | false =>
      by_cases sign : c ∈ selectorSigns <;> simp [word, sign]

/-- Signs that begin a line which opens a block. -/
def openingSigns : List Char := ['&', '#', '*', '.', '[', '>', '+', '@', '%']

/-- Whether the first character of a text is one that opens a block. -/
def begins (text : List Char) : Bool :=
  text.head?.any fun c => Text.isWord c || openingSigns.contains c

/-- A text has one opening mark or none, as its first character decides. -/
theorem length_filter_opens_ofText (text : List Char) :
    ((ofText text).filter opens).length = if begins text then 1 else 0 := by
  rw [filter_opens_ofText]
  cases text with
  | nil => rfl
  | cons c rest =>
      have selectorCount : (selector? (c :: rest)).toList.length =
          if Text.isWord c || decide (c ∈ selectorSigns) then 1 else 0 := by
        rw [← isSome_selector? c rest]
        cases selector? (c :: rest) <;> rfl
      rw [List.length_append, List.length_append, selectorCount]
      -- A text that begins with one of the two remaining signs is no selector.
      by_cases at_sign : c = '@'
      · subst at_sign
        rfl
      · by_cases percent : c = '%'
        · subst percent
          rfl
        · have noAtRule : atRule? (c :: rest) = none := by simp [atRule?, at_sign]
          have noPlaceholder : placeholder? (c :: rest) = none := by simp [placeholder?, percent]
          have same : openingSigns.contains c = decide (c ∈ selectorSigns) := by
            simp [openingSigns, selectorSigns, at_sign, percent]
          rw [noAtRule, noPlaceholder]
          simp only [begins, List.head?_cons, Option.any_some, same, Option.toList_none,
            List.length_nil, Nat.add_zero]

/-! ## Mixin calls and properties -/

/-- No letter becomes the at sign in lower case. -/
theorem lower_ne_at {c : Char} (letter : isPropertyChar c = true) : Text.lower c ≠ '@' := by
  intro same
  unfold Text.lower at same
  split at same
  · rename_i upper
    have bounds : 65 ≤ c.toNat ∧ c.toNat ≤ 90 := by
      simpa [Char.le_def, UInt32.le_iff_toNat_le] using upper
    have valid : (c.toNat + 32).isValidChar := Or.inl (by omega)
    have code := congrArg Char.toNat same
    rw [Char.ofNat, dif_pos valid] at code
    change c.toNat + 32 = 64 at code
    omega
  · rw [same] at letter
    exact absurd letter (by decide)

/-- The first character tells a mixin call from a property. -/
theorem property?_eq_none_of_mixin? {text : List Char} {mark : Mark}
    (found : mixin? text = some mark) : property? text = none := by
  have noName : text.takeWhile isPropertyChar = [] := by
    cases text with
    | nil => rfl
    | cons c rest =>
        have foreign : isPropertyChar c = false := by
          unfold mixin? at found
          rw [Option.ite_none_right_eq_some, Bool.or_eq_true] at found
          rcases found.1 with spelled | short
          · cases letter : isPropertyChar c with
            | false => rfl
            | true =>
                rcases List.isPrefixOf_iff_prefix.mp spelled with ⟨others, same⟩
                have first : '@' = Text.lower c := by simpa using congrArg List.head? same
                exact absurd first.symm (lower_ne_at letter)
          · split at short
            · rename_i same
              cases same
              rfl
            · cases short
        rw [List.takeWhile_cons, foreign, if_neg Bool.false_ne_true]
  simp only [property?, noName]

theorem entry?_eq_none_of_opens (position : Position) {mark : Mark} (opening : mark.opens = true) :
    mark.entry? position = none := by
  cases mark with
  | selector fragment => rfl
  | atRule name => rfl
  | placeholder name => rfl
  | mixin => cases opening
  | property name value => cases opening

/-- A mark that is an entry comes from a call or from a declaration. -/
theorem mixin_or_property {text : List Char} {mark : Mark} (member : mark ∈ ofText text)
    {position : Position} {entry : Entry} (adds : mark.entry? position = some entry) :
    mixin? text = some mark ∨ property? text = some mark := by
  have stays : ∀ found : Option Mark, (∀ mark, found = some mark → mark.opens = true) →
      mark ∉ found.toList := by
    intro found opening here
    have none := entry?_eq_none_of_opens position (opening mark (Option.mem_toList.mp here))
    rw [none] at adds
    cases adds
  rw [ofText_eq_append] at member
  simp only [List.mem_append, stays _ fun _ => opens_of_selector?,
    stays _ fun _ => opens_of_atRule?, stays _ fun _ => opens_of_placeholder?, false_or, or_false,
    Option.mem_toList] at member
  exact member

/-- The name of a property is made of letters and hyphens. -/
theorem isPropertyChar_of_property? {text : List Char} {name value : String}
    (found : property? text = some (property name value)) {c : Char} (member : c ∈ name.toList) :
    isPropertyChar c = true := by
  simp only [property?] at found
  split at found
  · split at found
    · cases found
      rw [String.toList_ofList] at member
      exact List.mem_takeWhile_imp member
    · cases found
  · cases found

end Mark

namespace Line

/-- Whether a line opens a block. -/
def opens (line : Line) : Bool :=
  Mark.begins line.text

/-- What a line adds to the body that it stands in. -/
def entries (line : Line) : List Entry :=
  (Mark.ofText line.text).filterMap (Mark.entry? line.position)

/-- The entries of a line stand where the line stands. -/
theorem position_of_mem_entries {line : Line} {entry : Entry} (member : entry ∈ line.entries) :
    entry.position = line.position := by
  obtain ⟨mark, -, found⟩ := List.mem_filterMap.mp member
  cases mark with
  | mixin =>
      cases found
      rfl
  | property name value =>
      cases found
      rfl
  | selector fragment => cases found
  | atRule name => cases found
  | placeholder name => cases found

/-- A line adds one entry at most. -/
theorem length_entries_le (line : Line) : line.entries.length ≤ 1 := by
  have no : ∀ found : Option Mark, (∀ mark, found = some mark → mark.opens = true) →
      found.toList.filterMap (Mark.entry? line.position) = [] := by
    intro found opening
    apply List.filterMap_eq_nil_iff.mpr
    intro mark member
    exact Mark.entry?_eq_none_of_opens _ (opening mark (Option.mem_toList.mp member))
  have single : ∀ found : Option Mark,
      (found.toList.filterMap (Mark.entry? line.position)).length ≤ 1 := fun found =>
    Nat.le_trans (List.length_filterMap_le _ _) Option.length_toList_le
  rw [entries, Mark.ofText_eq_append]
  simp only [List.filterMap_append]
  rw [no _ fun _ => Mark.opens_of_selector?, no _ fun _ => Mark.opens_of_atRule?,
    no _ fun _ => Mark.opens_of_placeholder?]
  simp only [List.nil_append, List.append_nil]
  cases call : Mark.mixin? line.text with
  | none => simpa using single (Mark.property? line.text)
  | some mark =>
      rw [Mark.property?_eq_none_of_mixin? call]
      simpa using single (some mark)

/-! ## Line numbers -/

/-- Where numbers ascend, a number belongs to one line. -/
theorem eq_of_number_eq {lines : List Line}
    (ascends : lines.Pairwise fun line later => line.number < later.number) {line other : Line}
    (member : line ∈ lines) (otherMember : other ∈ lines) (same : line.number = other.number) :
    line = other := by
  induction lines with
  | nil => cases member
  | cons first others inductionHypothesis =>
      obtain ⟨least, rest⟩ := List.pairwise_cons.mp ascends
      rcases List.mem_cons.mp member with rfl | inRest <;>
        rcases List.mem_cons.mp otherMember with rfl | otherInRest
      · rfl
      · exact absurd same (Nat.ne_of_lt (least other otherInRest))
      · exact absurd same (Nat.ne_of_gt (least line inRest))
      · exact inductionHypothesis rest inRest otherInRest

theorem number_of_mem_readFrom {first : Nat} {raws : List (List Char)} {line : Line}
    (member : line ∈ readFrom first raws) :
    first ≤ line.number ∧ line.number < first + raws.length := by
  induction raws generalizing first with
  | nil => cases member
  | cons raw others inductionHypothesis =>
      rw [readFrom] at member
      rcases List.mem_append.mp member with here | later
      · have found := Option.mem_toList.mp here
        unfold read? at found
        split at found
        · cases found
        · split at found
          · cases found
          · cases found
            simp
      · have bounds := inductionHypothesis later
        rw [List.length_cons]
        omega

theorem readFrom_ascends (first : Nat) (raws : List (List Char)) :
    (readFrom first raws).Pairwise fun line later => line.number < later.number := by
  induction raws generalizing first with
  | nil => exact List.Pairwise.nil
  | cons raw others inductionHypothesis =>
      rw [readFrom]
      apply List.pairwise_append.mpr
      refine ⟨?_, inductionHypothesis (first + 1), ?_⟩
      · cases read? first raw with
        | none => exact List.Pairwise.nil
        | some line => exact List.pairwise_singleton _ _
      · intro line here later below
        have single : line ∈ readFrom first [raw] := by simpa [readFrom] using here
        have bounds := number_of_mem_readFrom single
        have boundsLater := number_of_mem_readFrom below
        simp only [List.length_singleton] at bounds
        omega

/-- The lines of a source are numbered upwards. -/
theorem ofSource_ascends (source : String) :
    (ofSource source).Pairwise fun line later => line.number < later.number :=
  readFrom_ascends 1 _

theorem length_readFrom_le (first : Nat) (raws : List (List Char)) :
    (readFrom first raws).length ≤ raws.length := by
  induction raws generalizing first with
  | nil => exact Nat.le_refl 0
  | cons raw others inductionHypothesis =>
      have tail := inductionHypothesis (first + 1)
      have single : (read? first raw).toList.length ≤ 1 := Option.length_toList_le
      rw [readFrom, List.length_append, List.length_cons]
      omega

end Line
end Sheet
end StyleOrder
