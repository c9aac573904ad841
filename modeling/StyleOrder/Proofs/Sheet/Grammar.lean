import StyleOrder.Proofs.Nesting.Selectors
import StyleOrder.Proofs.Sheet.Declarations

namespace StyleOrder
namespace Sheet

/-!
# The grammar of lines

Five recognisers look at the text of a line, and each of them knows nothing of the
others.  What they find together is nevertheless one of eight things.  The grammar
below says which, by the form of the text alone: its first character decides most, and
what remains is whether a plus sign or an at sign begins a call, and whether the text
declares a property.

A declaration is a name, a colon, a gap and a value.  The value begins where the gap
ends, so a text can be taken apart in one way at most, and a line that was put together
from these parts gives them back.
-/

/-! ## Spelling of a declaration -/

/-- The parts of a text that declares a property.  The gap takes all blanks after the
colon. -/
structure Spelling where
  name : List Char
  gap : List Char
  value : List Char
  named : name ≠ []
  spelled : ∀ c ∈ name, Mark.isPropertyChar c = true
  parted : gap ≠ []
  blanks : ∀ c ∈ gap, Text.isBlank c = true
  valued : value ≠ []
  begins : ∀ c ∈ value.head?, Text.isBlank c = false

namespace Spelling

/-- The text that is made of the parts. -/
def text (spelling : Spelling) : List Char :=
  spelling.name ++ ':' :: (spelling.gap ++ spelling.value)

/-- The property that is declared. -/
def mark (spelling : Spelling) : Mark :=
  .property (String.ofList spelling.name) (String.ofList spelling.value)

/-- The name ends at the colon and the gap at the value, so the parts can be told from
the text. -/
theorem text_injective : Function.Injective text := by
  intro spelling other same
  have name : ∀ spelling : Spelling,
      spelling.text.takeWhile Mark.isPropertyChar = spelling.name := by
    intro spelling
    rw [text, List.takeWhile_append_of_pos spelling.spelled,
      List.takeWhile_cons_of_neg (by decide), List.append_nil]
  have gap : ∀ spelling : Spelling,
      (spelling.gap ++ spelling.value).takeWhile Text.isBlank = spelling.gap := by
    intro spelling
    rcases List.exists_cons_of_ne_nil spelling.valued with ⟨c, rest, value⟩
    have seen : ¬ Text.isBlank c = true := by simp [spelling.begins c (by simp [value])]
    rw [List.takeWhile_append_of_pos spelling.blanks, value, List.takeWhile_cons_of_neg seen,
      List.append_nil]
  have names : spelling.name = other.name := by
    rw [← name spelling, same, name other]
  have rests : spelling.gap ++ spelling.value = other.gap ++ other.value := by
    rw [text, text, names] at same
    exact List.cons.inj (List.append_cancel_left same) |>.2
  have gaps : spelling.gap = other.gap := by
    rw [← gap spelling, rests, gap other]
  rw [gaps] at rests
  have values := List.append_cancel_left rests
  cases spelling
  cases other
  cases names
  cases gaps
  cases values
  rfl

variable (spelling : Spelling)

/-- A text spells no name with another first character. -/
theorem head?_text : ∃ c, spelling.text.head? = some c ∧ Mark.isPropertyChar c = true := by
  rcases List.exists_cons_of_ne_nil spelling.named with ⟨c, others, name⟩
  exact ⟨c, by simp [text, name], spelling.spelled c (by simp [name])⟩

/-- The declaration on a line without indentation. -/
def declaration (single : '\n' ∉ spelling.text) : Declaration where
  lead := []
  name := spelling.name
  gap := spelling.gap
  value := spelling.value
  indents := ⟨rfl, List.not_mem_nil⟩
  named := spelling.named
  spelled := spelling.spelled
  parted := spelling.parted
  parts := ⟨List.all_eq_true.mpr spelling.blanks, fun member => single (by simp [text, member])⟩
  visible := by
    rcases List.exists_cons_of_ne_nil spelling.valued with ⟨c, rest, value⟩
    exact (Text.blank_eq_false_iff _).mpr ⟨c, by simp [value], spelling.begins c (by simp [value])⟩
  single := fun member => single (by simp [text, member])

section Line

variable (trimmed : Text.trim spelling.text = spelling.text) (single : '\n' ∉ spelling.text)

include trimmed

theorem text_declaration : (spelling.declaration single).text = spelling.text := by
  rw [← Declaration.trim_raw]
  exact trimmed

theorem trim_value_declaration :
    Text.trim (spelling.declaration single).value = spelling.value := by
  have ends : Text.trimEnd spelling.value = spelling.value := by
    have same := spelling.text_declaration trimmed single
    exact List.append_cancel_left (List.cons.inj (List.append_cancel_left same)).2
  have start : Text.trimStart spelling.value = spelling.value := by
    rcases List.exists_cons_of_ne_nil spelling.valued with ⟨c, rest, value⟩
    rw [value]
    exact List.dropWhile_cons_of_neg (by simp [spelling.begins c (by simp [value])])
  change Text.trim spelling.value = spelling.value
  rw [Text.trim, start, ends]

include single

/-- The marks of a declaration: what its name begins, and the property. -/
theorem ofText_text :
    Mark.ofText spelling.text =
      (Mark.selector? spelling.text).toList ++ [spelling.mark] := by
  have marks := (spelling.declaration single).ofText_text
  rw [spelling.text_declaration trimmed single,
    spelling.trim_value_declaration trimmed single] at marks
  rw [marks]
  exact congrArg (·.toList ++ [spelling.mark])
    (Mark.selector?_append_colon spelling.named _).symm

end Line

end Spelling

/-- What the recogniser takes for a property of a line is spelled out in the line. -/
theorem Mark.exists_spelling {text : List Char} (trimmed : Text.trim text = text)
    (single : '\n' ∉ text) (found : (property? text).isSome = true) :
    ∃ spelling : Spelling, spelling.text = text := by
  rcases exists_of_property? found with ⟨name, c, rest, rfl, named, spelled, blank⟩
  simp only [List.mem_append, List.mem_cons, not_or] at single
  rcases single with ⟨-, -, feed, inRest⟩
  have gap : Text.Gap [c] := ⟨by simp [Text.blank, blank], by simpa using feed⟩
  have visible : Text.blank rest = false :=
    Text.blank_of_trim (trimmed.trans (List.append_cons _ _ _)) gap inRest
  have valued : Text.trimStart rest ≠ [] := by
    intro gone
    have blanks : Text.blank rest = true := by
      simpa [Text.trimStart, List.dropWhile_eq_nil_iff, Text.blank] using gone
    rw [visible] at blanks
    cases blanks
  refine ⟨⟨name, c :: rest.takeWhile Text.isBlank, Text.trimStart rest, named, spelled,
    List.cons_ne_nil _ _, ?_, valued, Text.isBlank_head_trimStart rest⟩, ?_⟩
  · rw [List.forall_mem_cons]
    exact ⟨blank, fun _ => List.mem_takeWhile_imp⟩
  · simp [Spelling.text, Text.trimStart]

/-! ## Calls -/

namespace Mark

/-- Only the at sign is the at sign in lower case. -/
theorem eq_at_of_lower {c : Char} (same : Text.lower c = '@') : c = '@' := by
  by_cases letter : isPropertyChar c = true
  · exact absurd same (lower_ne_at letter)
  · have kept : ¬ ('A' ≤ c && c ≤ 'Z') = true := by
      intro upper
      exact letter (by simp [isPropertyChar, Text.isLetter, upper])
    rwa [Text.lower, if_neg kept] at same

/-- After an at sign, a call is told by the word that follows. -/
theorem mixin?_at (name : List Char) :
    mixin? ('@' :: name) =
      if Text.startsWithIgnoringCase "include".toList name then some mixin else none := by
  change (if Text.startsWithIgnoringCase "include".toList name || false then some mixin
    else none) = _
  rw [Bool.or_false]

/-- After a plus sign, a call is told by the next character. -/
theorem mixin?_plus (c : Char) (rest : List Char) :
    mixin? ('+' :: c :: rest) = if Text.foldsToLetter c || c == '-' then some mixin else none := by
  change (if false || (Text.foldsToLetter c || c == '-') then some mixin else none) = _
  rw [Bool.false_or]

/-- Calls begin with one of the two signs. -/
theorem mixin?_eq_none {text : List Char} (atSign : text.head? ≠ some '@')
    (plus : ∀ c rest, text = '+' :: c :: rest →
      (Text.foldsToLetter c || c == '-') = false) : mixin? text = none := by
  have word : Text.startsWithIgnoringCase "@include".toList text = false := by
    cases text with
    | nil => rfl
    | cons c rest =>
        cases spelled : Text.startsWithIgnoringCase "@include".toList (c :: rest) with
        | false => rfl
        | true =>
            rcases List.isPrefixOf_iff_prefix.mp spelled with ⟨others, same⟩
            have first : '@' = Text.lower c := by simpa using congrArg List.head? same
            exact absurd (congrArg some (eq_at_of_lower first.symm)) atSign
  unfold mixin?
  rw [word]
  split
  · rename_i c rest
    rw [plus c rest rfl]
    rfl
  · rfl

end Mark

/-! ## The grammar -/

/-- Whether a selector can begin with the first character of a text. -/
def Mark.beginsSelector (text : List Char) : Bool :=
  text.head?.any fun c => Text.isWord c || decide (c ∈ selectorSigns)

/-- The marks of a text by its form. -/
inductive Reading : List Char → List Mark → Prop where
  | nothing {text : List Char} (closed : Mark.begins text = false)
      (undeclared : ∀ spelling : Spelling, spelling.text ≠ text) : Reading text []
  | selector {text : List Char} (opens : Mark.beginsSelector text = true)
      (uncalled : ∀ c rest, text = '+' :: c :: rest →
        (Text.foldsToLetter c || c == '-') = false)
      (undeclared : ∀ spelling : Spelling, spelling.text ≠ text) :
      Reading text [.selector (String.ofList (Mark.fragment text))]
  | call {c : Char} {rest : List Char} (called : (Text.foldsToLetter c || c == '-') = true) :
      Reading ('+' :: c :: rest) [.selector "+", .mixin]
  | inclusion {name : List Char}
      (called : Text.startsWithIgnoringCase "include".toList name = true) :
      Reading ('@' :: name) [.mixin, .atRule (String.ofList name)]
  | atRule {name : List Char}
      (uncalled : Text.startsWithIgnoringCase "include".toList name = false) :
      Reading ('@' :: name) [.atRule (String.ofList name)]
  | placeholder {name : List Char} : Reading ('%' :: name) [.placeholder (String.ofList name)]
  | declaration {spelling : Spelling} (letter : spelling.text.head? ≠ some '-') :
      Reading spelling.text
        [.selector (String.ofList (Mark.fragment spelling.text)), spelling.mark]
  | hyphened {spelling : Spelling} (hyphen : spelling.text.head? = some '-') :
      Reading spelling.text [spelling.mark]

namespace Mark

theorem selector?_of_begins {text : List Char} (opens : beginsSelector text = true) :
    selector? text = some (selector (String.ofList (fragment text))) := by
  cases text with
  | nil => cases opens
  | cons c rest =>
      have found : (selector? (c :: rest)).isSome = true := by
        rw [isSome_selector?]
        exact opens
      rcases Option.isSome_iff_exists.mp found with ⟨mark, here⟩
      rw [here, eq_of_selector? here]

theorem selector?_of_not_begins {text : List Char} (closed : beginsSelector text = false) :
    selector? text = none := by
  cases text with
  | nil => rfl
  | cons c rest =>
      rw [← Option.not_isSome_iff_eq_none, isSome_selector?]
      simpa [beginsSelector] using closed

/-- The first characters of blocks are those of selectors and two signs. -/
theorem begins_eq (text : List Char) :
    begins text =
      (beginsSelector text || text.head? == some '@' || text.head? == some '%') := by
  cases text with
  | nil => rfl
  | cons c rest =>
      simp only [begins, beginsSelector, openingSigns, selectorSigns, List.head?_cons,
        Option.any_some]
      by_cases atSign : c = '@'
      · simp [atSign]
      · by_cases percent : c = '%'
        · simp [percent]
        · have noAtSign : (some c == some '@') = false := by simpa using atSign
          have noPercent : (some c == some '%') = false := by simpa using percent
          rw [noAtSign, noPercent]
          simp [atSign, percent]

theorem atRule?_eq_none {text : List Char} (other : text.head? ≠ some '@') :
    atRule? text = none := by
  cases found : atRule? text with
  | none => rfl
  | some mark => exact absurd (eq_of_atRule? found).1 other

theorem placeholder?_eq_none {text : List Char} (other : text.head? ≠ some '%') :
    placeholder? text = none := by
  cases found : placeholder? text with
  | none => rfl
  | some mark => exact absurd (eq_of_placeholder? found).1 other

end Mark

namespace Reading

variable {text : List Char} (trimmed : Text.trim text = text) (single : '\n' ∉ text)

include trimmed single

theorem property?_eq_none (undeclared : ∀ spelling : Spelling, spelling.text ≠ text) :
    Mark.property? text = none := by
  cases found : Mark.property? text with
  | none => rfl
  | some mark =>
      rcases Mark.exists_spelling trimmed single (Option.isSome_of_eq_some found) with
        ⟨spelling, same⟩
      exact absurd same (undeclared spelling)

/-- What the grammar says of a text is what the recognisers find in it. -/
theorem ofText_eq {marks : List Mark} (reading : Reading text marks) :
    Mark.ofText text = marks := by
  cases reading with
  | nothing closed undeclared =>
      rw [Mark.begins_eq, Bool.or_eq_false_iff, Bool.or_eq_false_iff] at closed
      rcases closed with ⟨⟨noSelector, noAtSign⟩, noPercent⟩
      have atSign : text.head? ≠ some '@' := by simpa using noAtSign
      have percent : text.head? ≠ some '%' := by simpa using noPercent
      have uncalled : Mark.mixin? text = none := by
        apply Mark.mixin?_eq_none atSign
        rintro c rest rfl
        cases noSelector
      rw [Mark.ofText_eq_append, Mark.selector?_of_not_begins noSelector, uncalled,
        Mark.atRule?_eq_none atSign, Mark.placeholder?_eq_none percent,
        property?_eq_none trimmed single undeclared]
      rfl
  | selector opens uncalled undeclared =>
      have sign : ∀ c, Mark.beginsSelector [c] = false → text.head? ≠ some c := by
        intro c foreign first
        rw [Mark.beginsSelector, first] at opens
        exact Bool.false_ne_true (foreign.symm.trans opens)
      rw [Mark.ofText_eq_append, Mark.selector?_of_begins opens,
        Mark.mixin?_eq_none (sign '@' (by decide)) uncalled,
        Mark.atRule?_eq_none (sign '@' (by decide)),
        Mark.placeholder?_eq_none (sign '%' (by decide)),
        property?_eq_none trimmed single undeclared]
      rfl
  | call called =>
      rw [Mark.ofText_eq_append, Mark.mixin?_plus, if_pos called]
      rfl
  | inclusion called =>
      rw [Mark.ofText_eq_append, Mark.mixin?_at, if_pos called]
      rfl
  | atRule uncalled =>
      rw [Mark.ofText_eq_append, Mark.mixin?_at, uncalled]
      rfl
  | placeholder =>
      rw [Mark.ofText_eq_append, Mark.mixin?_eq_none (by simp) (by simp)]
      rfl
  | @declaration spelling letter =>
      rcases spelling.head?_text with ⟨c, first, spelled⟩
      have opens : Mark.beginsSelector spelling.text = true := by
        have noHyphen : c ≠ '-' := by
          rintro rfl
          exact letter first
        rw [Mark.beginsSelector, first]
        simp_all [Mark.isPropertyChar, Text.isWord]
      rw [spelling.ofText_text trimmed single, Mark.selector?_of_begins opens]
      rfl
  | @hyphened spelling hyphen =>
      have closed : Mark.beginsSelector spelling.text = false := by
        rw [Mark.beginsSelector, hyphen]
        rfl
      rw [spelling.ofText_text trimmed single, Mark.selector?_of_not_begins closed]
      rfl

end Reading

/-- Every text has a form. -/
theorem exists_reading (text : List Char) : ∃ marks, Reading text marks := by
  by_cases declared : ∃ spelling : Spelling, spelling.text = text
  · rcases declared with ⟨spelling, rfl⟩
    by_cases hyphen : spelling.text.head? = some '-'
    · exact ⟨_, .hyphened hyphen⟩
    · exact ⟨_, .declaration hyphen⟩
  have undeclared : ∀ spelling : Spelling, spelling.text ≠ text := not_exists.mp declared
  cases opens : Mark.beginsSelector text with
  | true =>
      by_cases called : ∃ c rest, text = '+' :: c :: rest ∧
          (Text.foldsToLetter c || c == '-') = true
      · rcases called with ⟨c, rest, rfl, called⟩
        exact ⟨_, .call called⟩
      · refine ⟨_, .selector opens ?_ undeclared⟩
        intro c rest same
        exact Bool.eq_false_iff.mpr fun letter => called ⟨c, rest, same, letter⟩
  | false =>
      cases text with
      | nil => exact ⟨_, .nothing rfl undeclared⟩
      | cons c rest =>
          by_cases atSign : c = '@'
          · subst atSign
            cases called : Text.startsWithIgnoringCase "include".toList rest with
            | true => exact ⟨_, .inclusion called⟩
            | false => exact ⟨_, .atRule called⟩
          · by_cases percent : c = '%'
            · subst percent
              exact ⟨_, .placeholder⟩
            · refine ⟨_, .nothing ?_ undeclared⟩
              rw [Mark.begins_eq, opens]
              simp [atSign, percent]

/-- A text has one mark at most that opens a block, and one at most that is an entry. -/
theorem Reading.length_le {text : List Char} {marks : List Mark} (reading : Reading text marks) :
    (marks.filter Mark.opens).length ≤ 1 ∧
      (marks.filter fun mark => !mark.opens).length ≤ 1 := by
  cases reading <;> simp [List.filter, Mark.opens, Spelling.mark]

theorem Spelling.filter_not_opens (spelling : Spelling)
    (trimmed : Text.trim spelling.text = spelling.text) (single : '\n' ∉ spelling.text) :
    (Mark.ofText spelling.text).filter (fun mark => !mark.opens) = [spelling.mark] := by
  have passed : (Mark.selector? spelling.text).toList.filter (fun mark => !mark.opens) = [] := by
    apply List.filter_eq_nil_iff.mpr
    intro mark member
    simp [Mark.opens_of_selector? (Option.mem_toList.mp member)]
  rw [spelling.ofText_text trimmed single, List.filter_append, passed]
  rfl

/-- A trimmed text within one line has the marks that the grammar gives it, and no others:
one at most that opens a block, and one at most that is an entry.  It declares the
property that is spelled out in it.  A text has one spelling at most, so a text that was
put together from a name, a gap and a value gives back the name and the value. -/
theorem ofText_eq_iff_reading (text : List Char) (trimmed : Text.trim text = text)
    (single : '\n' ∉ text) :
    (∀ marks, Mark.ofText text = marks ↔ Reading text marks) ∧
      ((Mark.ofText text).filter Mark.opens).length ≤ 1 ∧
      ((Mark.ofText text).filter fun mark => !mark.opens).length ≤ 1 ∧
      (∀ name value, Mark.property name value ∈ Mark.ofText text ↔
        ∃ spelling : Spelling, spelling.text = text ∧ String.ofList spelling.name = name ∧
          String.ofList spelling.value = value) ∧
      (∀ spelling other : Spelling, spelling.text = text → other.text = text →
        spelling = other) ∧
      ∀ spelling : Spelling, spelling.text = text →
        (Mark.ofText text).filter (fun mark => !mark.opens) =
          [.property (String.ofList spelling.name) (String.ofList spelling.value)] := by
  have reads : ∀ marks, Mark.ofText text = marks ↔ Reading text marks := by
    intro marks
    refine ⟨?_, Reading.ofText_eq trimmed single⟩
    rintro rfl
    rcases exists_reading text with ⟨marks, reading⟩
    rwa [reading.ofText_eq trimmed single]
  have gives : ∀ spelling : Spelling, spelling.text = text →
      (Mark.ofText text).filter (fun mark => !mark.opens) = [spelling.mark] := by
    rintro spelling rfl
    exact spelling.filter_not_opens trimmed single
  have counts := ((reads _).mp rfl).length_le
  refine ⟨reads, counts.1, counts.2, ?_, fun spelling other here there =>
    Spelling.text_injective (here.trans there.symm), gives⟩
  intro name value
  constructor
  · intro member
    have entry : Mark.property name value ∈ (Mark.ofText text).filter fun mark => !mark.opens :=
      List.mem_filter.mpr ⟨member, rfl⟩
    have found : (Mark.property? text).isSome = true := by
      have adds : Mark.entry? ⟨1, 0⟩ (.property name value) =
          some (.property name value ⟨1, 0⟩) := rfl
      rcases Mark.mixin_or_property member adds with call | declared
      · cases Mark.eq_mixin_of_mixin? call
      · exact Option.isSome_of_eq_some declared
    rcases Mark.exists_spelling trimmed single found with ⟨spelling, same⟩
    rw [gives spelling same, List.mem_singleton] at entry
    cases entry
    exact ⟨spelling, same, rfl, rfl⟩
  · rintro ⟨spelling, same, rfl, rfl⟩
    have entry : spelling.mark ∈ (Mark.ofText text).filter fun mark => !mark.opens := by
      rw [gives spelling same]
      exact List.mem_singleton_self _
    exact (List.mem_filter.mp entry).1

/-- A name that begins with a hyphen, a gap of two kinds of blanks, and a value that looks
like another declaration. -/
theorem ofText_eq_iff_reading_hyphened :
    let text := "-moz-Flex:\u2003 a: \u00a0b".toList
    Text.trim text = text ∧ '\n' ∉ text ∧
      Mark.ofText text = [.property "-moz-Flex" "a: \u00a0b"] ∧
      Reading text [.property "-moz-Flex" "a: \u00a0b"] ∧
      ∃! spelling : Spelling, spelling.text = text := by
  intro text
  have trimmed : Text.trim text = text := by decide +kernel
  have single : '\n' ∉ text := by decide +kernel
  have marks : Mark.ofText text = [.property "-moz-Flex" "a: \u00a0b"] := by decide +kernel
  rcases ofText_eq_iff_reading text trimmed single with ⟨reads, -, -, declares, unique, -⟩
  have member : Mark.property "-moz-Flex" "a: \u00a0b" ∈ Mark.ofText text := by
    rw [marks]
    exact List.mem_singleton_self _
  rcases (declares _ _).mp member with ⟨spelling, same, -⟩
  exact ⟨trimmed, single, marks, (reads _).mp marks, spelling, same,
    fun other there => unique other spelling there same⟩

end Sheet
end StyleOrder
