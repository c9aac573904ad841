import StyleOrder.Proofs.Sheet.Layout

namespace StyleOrder

/-!
# Lines that declare a property

A line declares a property if its text is a name, a colon, a gap and a value.  The
colon is no part of a word and the name begins with a letter or a hyphen, so what the
line is besides a declaration is settled before the value begins.  Of its marks, the
value occurs in one and in no other.

When the value of a declaration is replaced, the line that is read keeps its number
and its width, and all other lines are read as before.
-/

namespace Text

/-! ## Blanks at the end of a text -/

theorem blank_eq_false_iff (text : List Char) :
    blank text = false ↔ ∃ c ∈ text, isBlank c = false := by
  simp [blank]

theorem trimEnd_cons (c : Char) (rest : List Char) :
    trimEnd (c :: rest) = if blank (c :: rest) then [] else c :: trimEnd rest := by
  rw [trimEnd, List.reverse_cons, List.dropWhile_append]
  by_cases blanks : blank rest = true
  · have gone : rest.reverse.dropWhile isBlank = [] := by
      simpa [List.dropWhile_eq_nil_iff, blank] using blanks
    cases first : isBlank c <;> simp_all [trimEnd, blank]
  · have stays : (rest.reverse.dropWhile isBlank).isEmpty = false := by
      simpa [blank] using blanks
    have whole : blank (c :: rest) = false := by
      simp_all [blank]
    rw [stays, whole, if_neg Bool.false_ne_true, if_neg Bool.false_ne_true, List.reverse_append]
    rfl

/-- What stands before a visible text is not trimmed with its end. -/
theorem trimEnd_append {text : List Char} (visible : blank text = false) (front : List Char) :
    trimEnd (front ++ text) = front ++ trimEnd text := by
  induction front with
  | nil => rfl
  | cons c others ih =>
      have whole : blank (c :: (others ++ text)) = false := by
        rcases (blank_eq_false_iff text).mp visible with ⟨d, member, seen⟩
        exact (blank_eq_false_iff _).mpr
          ⟨d, List.mem_cons_of_mem c (List.mem_append_right others member), seen⟩
      rw [List.cons_append, trimEnd_cons, whole, if_neg Bool.false_ne_true, ih, List.cons_append]

/-- The two ends of a text are trimmed in either order. -/
theorem trimStart_trimEnd (text : List Char) : trimStart (trimEnd text) = trim text := by
  induction text with
  | nil => rfl
  | cons c rest ih =>
      rw [trimEnd_cons, trim]
      cases first : isBlank c with
      | true =>
          have start : trimStart (c :: rest) = trimStart rest := List.dropWhile_cons_of_pos first
          rw [start, ← trim, ← ih]
          split
          · rename_i blanks
            have gone : trimEnd rest = [] := by
              have blankRest : rest.reverse.dropWhile isBlank = [] := by
                simp_all [blank]
              rw [trimEnd, blankRest, List.reverse_nil]
            rw [gone]
          · exact List.dropWhile_cons_of_pos first
      | false =>
          have seen : ¬ isBlank c = true := by simp [first]
          have whole : blank (c :: rest) = false := by simp [blank, first]
          have start : trimStart (c :: rest) = c :: rest := List.dropWhile_cons_of_neg seen
          rw [start, trimEnd_cons, whole, if_neg Bool.false_ne_true]
          exact List.dropWhile_cons_of_neg seen

theorem trimEnd_trim (text : List Char) : trimEnd (trim text) = trim text :=
  List.rdropWhile_idempotent isBlank (trimStart text)

/-- A trimmed text does not end in a gap. -/
theorem blank_of_trim {raw front rest : List Char} {c : Char}
    (text : trim raw = front ++ c :: rest) (gap : Gap [c]) (inside : '\n' ∉ rest) :
    blank rest = false := by
  by_contra blanks
  have whole : Gap (c :: rest) :=
    ⟨by simpa [blank] using ⟨gap.isBlank List.mem_cons_self, by simpa [blank] using blanks⟩,
      by simpa [inside] using gap.single⟩
  have trimmed := trimEnd_trim raw
  rw [text, trimEnd_append_gap whole] at trimmed
  have short : (trimEnd front).length ≤ front.length :=
    (List.rdropWhile_prefix isBlank front).length_le
  rw [trimmed, List.length_append, List.length_cons] at short
  omega

/-- A line is its text between two gaps. -/
theorem exists_gaps {raw : List Char} (inside : '\n' ∉ raw) :
    ∃ lead tail, Gap lead ∧ Gap tail ∧ raw = lead ++ trim raw ++ tail := by
  have whole : raw = raw.takeWhile isBlank ++ trim raw ++ (trimStart raw).rtakeWhile isBlank := by
    have ends : trim raw ++ (trimStart raw).rtakeWhile isBlank = trimStart raw :=
      List.rdropWhile_append_rtakeWhile
    rw [List.append_assoc, ends]
    exact List.takeWhile_append_dropWhile.symm
  refine ⟨_, _, ⟨?_, ?_⟩, ⟨?_, ?_⟩, whole⟩
  · exact List.all_eq_true.mpr fun _ => List.mem_takeWhile_imp
  · exact fun member => inside ((List.takeWhile_sublist _).subset member)
  · exact List.all_eq_true.mpr fun _ => List.mem_rtakeWhile_imp
  · intro member
    rw [whole] at inside
    exact inside (List.mem_append_right _ member)

end Text

namespace Sheet
namespace Mark

theorem isBlank_of_isPropertyChar {c : Char} (letter : isPropertyChar c = true) :
    Text.isBlank c = false := by
  have bounds : 65 ≤ c.toNat ∧ c.toNat ≤ 90 ∨ 97 ≤ c.toNat ∧ c.toNat ≤ 122 ∨ c.toNat = 45 := by
    simp only [isPropertyChar, Text.isLetter, Bool.or_eq_true, Bool.and_eq_true,
      decide_eq_true_eq, Char.le_def, UInt32.le_iff_toNat_le, beq_iff_eq] at letter
    rcases letter with (lower | upper) | rfl
    · exact Or.inr (Or.inl lower)
    · exact Or.inl upper
    · exact Or.inr (Or.inr rfl)
  simp only [Text.isBlank, Bool.or_eq_false_iff, Bool.and_eq_false_iff, decide_eq_false_iff_not,
    beq_eq_false_iff_ne]
  omega

/-- What a selector begins with ends before a colon. -/
theorem selector?_append_colon {name : List Char} (named : name ≠ []) (rest : List Char) :
    selector? (name ++ ':' :: rest) = selector? (name ++ [':']) := by
  have word : ∀ others : List Char,
      (name ++ ':' :: others).takeWhile Text.isWord = name.takeWhile Text.isWord := by
    intro others
    have stops : (':' :: others).takeWhile Text.isWord = [] :=
      List.takeWhile_cons_of_neg (by decide)
    rw [List.takeWhile_append, stops, List.append_nil]
    split
    · rename_i whole
      exact (List.takeWhile_prefix _).eq_of_length whole |>.symm
    · rfl
  unfold selector?
  rw [word rest, word []]
  cases name with
  | nil => exact absurd rfl named
  | cons c others => rfl

theorem exists_of_property? {text : List Char} (found : (property? text).isSome = true) :
    ∃ name c rest, text = name ++ ':' :: c :: rest ∧ name ≠ [] ∧
      (∀ d ∈ name, isPropertyChar d = true) ∧ Text.isBlank c = true := by
  simp only [property?] at found
  split at found
  · rename_i first others c rest named after
    rw [Option.isSome_ite] at found
    refine ⟨text.takeWhile isPropertyChar, c, rest, ?_, ?_, fun _ => List.mem_takeWhile_imp, found⟩
    · rw [← after, List.takeWhile_append_dropWhile]
    · rw [named]
      exact List.cons_ne_nil _ _
  · cases found

/-- The mark with another value, if it is a declaration. -/
def revalue (value : String) : Mark → Mark
  | property name _ => property name value
  | mark => mark

theorem revalue_of_opens (value : String) {mark : Mark} (opening : mark.opens = true) :
    mark.revalue value = mark := by
  cases mark with
  | property name old => cases opening
  | _ => rfl

end Mark

/-! ## Declarations -/

/-- The parts of a raw line that declares a property. -/
structure Declaration where
  lead : List Char
  name : List Char
  gap : List Char
  value : List Char
  indents : Text.Gap lead
  named : name ≠ []
  spelled : ∀ c ∈ name, Mark.isPropertyChar c = true
  parted : gap ≠ []
  parts : Text.Gap gap
  visible : Text.blank value = false
  single : '\n' ∉ value

namespace Declaration

/-- The raw line. -/
def raw (declaration : Declaration) : List Char :=
  declaration.lead ++ (declaration.name ++ ':' :: (declaration.gap ++ declaration.value))

/-- The text of the line, which is trimmed. -/
def text (declaration : Declaration) : List Char :=
  declaration.name ++ ':' :: (declaration.gap ++ Text.trimEnd declaration.value)

/-- The declaration of another value. -/
def withValue (declaration : Declaration) (value : List Char) (visible : Text.blank value = false)
    (single : '\n' ∉ value) : Declaration :=
  { declaration with
    value := value
    visible := visible
    single := single }

variable (declaration : Declaration)

theorem single_raw : '\n' ∉ declaration.raw := by
  have inName : '\n' ∉ declaration.name := fun member =>
    absurd (declaration.spelled _ member) (by decide)
  simp [raw, declaration.indents.single, inName, declaration.parts.single, declaration.single]

/-- A declaration begins with the first character of its name. -/
theorem exists_name : ∃ c others, declaration.name = c :: others ∧ Mark.isPropertyChar c = true := by
  rcases List.exists_cons_of_ne_nil declaration.named with ⟨c, others, name⟩
  exact ⟨c, others, name, declaration.spelled c (by simp [name])⟩

theorem trim_raw : Text.trim declaration.raw = declaration.text := by
  rcases declaration.exists_name with ⟨c, others, name, letter⟩
  have start : Text.trimStart (declaration.name ++ ':' :: (declaration.gap ++ declaration.value)) =
      declaration.name ++ ':' :: (declaration.gap ++ declaration.value) := by
    rw [name]
    exact List.dropWhile_cons_of_neg (by simp [Mark.isBlank_of_isPropertyChar letter])
  have front : ∀ value, declaration.name ++ ':' :: (declaration.gap ++ value) =
      declaration.name ++ ':' :: declaration.gap ++ value := by
    simp
  rw [raw, Text.trim_gap_append declaration.indents, Text.trim, start, front,
    Text.trimEnd_append declaration.visible, ← front, text]

theorem indentation_raw : Text.indentation declaration.raw = declaration.lead.length := by
  rcases declaration.exists_name with ⟨c, others, name, letter⟩
  apply Text.indentation_gap_append declaration.indents
  rw [name]
  rintro _ ⟨⟩
  exact Mark.isBlank_of_isPropertyChar letter

theorem read?_raw (number : Nat) :
    Line.read? number declaration.raw =
      some ⟨number, declaration.lead.length, declaration.text⟩ := by
  rcases declaration.exists_name with ⟨c, others, name, letter⟩
  have taken : Line.passedOver declaration.raw = false := by
    have slash : c ≠ '/' := by
      rintro rfl
      exact absurd letter (by decide)
    rw [Line.passedOver, trim_raw, text, name]
    simpa using slash
  rw [Line.read?_eq, taken, indentation_raw, trim_raw, if_neg Bool.false_ne_true]

theorem property?_text :
    Mark.property? declaration.text =
      some (.property (String.ofList declaration.name)
        (String.ofList (Text.trim declaration.value))) := by
  have stops : Mark.isPropertyChar ':' ≠ true := by decide
  have name : declaration.text.takeWhile Mark.isPropertyChar = declaration.name := by
    rw [text, List.takeWhile_append_of_pos declaration.spelled,
      List.takeWhile_cons_of_neg stops, List.append_nil]
  have rest : declaration.text.dropWhile Mark.isPropertyChar =
      ':' :: (declaration.gap ++ Text.trimEnd declaration.value) := by
    rw [text, List.dropWhile_append_of_pos declaration.spelled, List.dropWhile_cons_of_neg stops]
  rcases declaration.exists_name with ⟨first, others, named, -⟩
  rcases List.exists_cons_of_ne_nil declaration.parted with ⟨c, more, gap⟩
  have blank : Text.isBlank c = true := declaration.parts.isBlank (by simp [gap])
  -- The first character of the gap is a blank like the others.
  have value : Text.trimStart (more ++ Text.trimEnd declaration.value) =
      Text.trim declaration.value := by
    have whole := Text.trimStart_gap_append declaration.parts (Text.trimEnd declaration.value)
    rw [gap, List.cons_append, Text.trimStart_trimEnd] at whole
    rw [← whole]
    exact (List.dropWhile_cons_of_pos blank).symm
  rw [gap, List.cons_append] at rest
  simp only [Mark.property?, name, rest]
  rw [named]
  simp only [blank, if_true, value]

/-- The marks of a declaration: what its name begins, and the property. -/
theorem ofText_text :
    Mark.ofText declaration.text =
      (Mark.selector? (declaration.name ++ [':'])).toList ++
        [.property (String.ofList declaration.name)
          (String.ofList (Text.trim declaration.value))] := by
  have noMixin : Mark.mixin? declaration.text = none := by
    cases call : Mark.mixin? declaration.text with
    | none => rfl
    | some mark =>
        have none := Mark.property?_eq_none_of_mixin? call
        rw [property?_text] at none
        cases none
  rcases declaration.exists_name with ⟨c, others, name, letter⟩
  have sign : ∀ d, Mark.isPropertyChar d = false → c ≠ d := by
    rintro d foreign rfl
    rw [letter] at foreign
    cases foreign
  have noAtRule : Mark.atRule? declaration.text = none := by
    simp [text, name, Mark.atRule?, sign '@' (by decide)]
  have noPlaceholder : Mark.placeholder? declaration.text = none := by
    simp [text, name, Mark.placeholder?, sign '%' (by decide)]
  rw [Mark.ofText_eq_append, noMixin, noAtRule, noPlaceholder, property?_text, text,
    Mark.selector?_append_colon declaration.named]
  simp

/-- Another value changes the mark of the property and nothing else. -/
theorem ofText_withValue (value : List Char) (visible : Text.blank value = false)
    (single : '\n' ∉ value) :
    Mark.ofText (declaration.withValue value visible single).text =
      (Mark.ofText declaration.text).map (Mark.revalue (String.ofList (Text.trim value))) := by
  have kept : (Mark.selector? (declaration.name ++ [':'])).toList.map
      (Mark.revalue (String.ofList (Text.trim value))) =
        (Mark.selector? (declaration.name ++ [':'])).toList := by
    refine (List.map_congr_left ?_).trans (List.map_id _)
    intro mark member
    exact Mark.revalue_of_opens _ (Mark.opens_of_selector? (Option.mem_toList.mp member))
  rw [ofText_text, ofText_text, List.map_append, kept]
  rfl

/-- The lines on which a property is found are the declarations. -/
theorem isSome_property?_iff {raw : List Char} (inside : '\n' ∉ raw) :
    (Mark.property? (Text.trim raw)).isSome = true ↔
      ∃ declaration : Declaration, declaration.raw = raw := by
  constructor
  · intro found
    rcases Mark.exists_of_property? found with ⟨name, c, rest, text, named, spelled, blank⟩
    rcases Text.exists_gaps inside with ⟨lead, tail, indents, -, whole⟩
    rw [text] at whole
    have single : '\n' ∉ lead ++ (name ++ ':' :: c :: rest) ++ tail := whole ▸ inside
    simp only [List.mem_append, List.mem_cons, not_or] at single
    rcases single with ⟨⟨-, -, -, feed, inRest⟩, inTail⟩
    have gap : Text.Gap [c] := ⟨by simp [Text.blank, blank], by simpa using feed⟩
    have visible : Text.blank (rest ++ tail) = false := by
      have seen := Text.blank_of_trim (text.trans (List.append_cons _ _ _)) gap inRest
      rw [Text.blank, List.all_append, ← Text.blank, seen, Bool.false_and]
    refine ⟨⟨lead, name, [c], rest ++ tail, indents, named, spelled, List.cons_ne_nil _ _, gap,
      visible, by simp [inRest, inTail]⟩, ?_⟩
    rw [whole]
    simp [Declaration.raw]
  · rintro ⟨declaration, rfl⟩
    rw [trim_raw, property?_text]
    rfl

end Declaration

/-! ## Sheets with another value -/

namespace Line

/-- The line with another text, if it has the number. -/
def retext (number : Nat) (text : List Char) (line : Line) : Line :=
  if line.number = number then { line with text := text } else line

theorem map_retext {number : Nat} {lines : List Line}
    (apart : ∀ line ∈ lines, line.number ≠ number) (text : List Char) :
    lines.map (retext number text) = lines := by
  refine (List.map_congr_left ?_).trans (List.map_id _)
  intro line member
  exact if_neg (apart line member)

/-- With another value in a declaration, the line behind it has another text. -/
theorem readFrom_set {declaration other : Declaration} (same : other.lead = declaration.lead)
    {raws : List (List Char)} {index : Nat} (here : raws[index]? = some declaration.raw)
    (first : Nat) :
    readFrom first (raws.set index other.raw) =
      (readFrom first raws).map (retext (first + index) other.text) := by
  have inside : index < raws.length := (List.getElem?_eq_some_iff.mp here).1
  have changed : (raws.set index other.raw)[index]? = some other.raw := by
    rw [List.getElem?_set_self inside]
  have apartAbove : ∀ line ∈ readFrom first (raws.take index), line.number ≠ first + index := by
    intro line member
    have below := (number_of_mem_readFrom member).2
    rw [List.length_take] at below
    omega
  have apartBelow : ∀ line ∈ readFrom (first + index + 1) (raws.drop (index + 1)),
      line.number ≠ first + index :=
    fun line member => Nat.ne_of_gt (number_of_mem_readFrom member).1
  rw [readFrom_split changed (other.read?_raw _), readFrom_split here (declaration.read?_raw _),
    List.take_set_of_le (Nat.le_refl index), List.drop_set_of_lt (Nat.lt_succ_self index),
    List.map_append, List.map_cons, map_retext apartAbove, map_retext apartBelow]
  simp [retext, same]

theorem eq_of_declared {declaration : Declaration} {source : String} {index : Nat}
    (here : (source.toList.splitOn '\n')[index]? = some declaration.raw) {line : Line}
    (member : line ∈ ofSource source) (number : line.number = index + 1) :
    line = ⟨index + 1, declaration.lead.length, declaration.text⟩ := by
  rw [ofSource_eq_readFrom] at member
  rcases exists_raw_of_mem_readFrom member with ⟨other, raw, found, rfl⟩
  have same : other = index := by
    have sum : 1 + other = index + 1 := number
    omega
  rw [same, here] at found
  rw [← Option.some.inj found, declaration.indentation_raw, declaration.trim_raw, same,
    Nat.add_comm]

/-- A source with another value in a declaration has the same lines but for one text. -/
theorem ofSource_set {declaration other : Declaration} (same : other.lead = declaration.lead)
    {source : String} {index : Nat}
    (here : (source.toList.splitOn '\n')[index]? = some declaration.raw) :
    ofSource (Text.joined ((source.toList.splitOn '\n').set index other.raw)) =
      (ofSource source).map (retext (index + 1) other.text) := by
  have single : ∀ raw ∈ (source.toList.splitOn '\n').set index other.raw, '\n' ∉ raw := by
    intro raw member
    rcases List.mem_or_eq_of_mem_set member with old | rfl
    · exact Text.single_of_mem_splitOn old
    · exact other.single_raw
  rw [ofSource_joined single, readFrom_set same here, ofSource_eq_readFrom, Nat.add_comm]

end Line

end Sheet
end StyleOrder
