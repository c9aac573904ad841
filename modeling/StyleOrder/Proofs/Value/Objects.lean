import StyleOrder.Value.Json

namespace StyleOrder
namespace Json

/-!
# Objects without blanks

A value whose text stands between brackets or quotes is read to its end whatever comes after
it.  So an object is read by reading the values of its fields one after the other.
-/

/-! ## Strings -/

/-- Characters that stand for themselves in a string. -/
def isPlain (c : Char) : Bool :=
  c != '"' && c != '\\' && 0x20 ≤ c.toNat

section Strings

variable {text : List Char} (plain : ∀ c ∈ text, isPlain c)

include plain

theorem quoted_plain (rest : List Char) : quoted (text ++ '"' :: rest) = some (text, rest) := by
  induction text with
  | nil => rfl
  | cons c others ih =>
      rcases List.forall_mem_cons.mp plain with ⟨first, plain⟩
      simp only [isPlain, Bool.and_eq_true, bne_iff_ne, decide_eq_true_eq] at first
      rw [List.cons_append, quoted]
      · rw [if_neg (by omega), ih plain]
        rfl
      · simp [first]
      · simp [first]

theorem codes_plain : codes text = some (text.map Char.toNat) := by
  induction text with
  | nil => rfl
  | cons c others ih =>
      rcases List.forall_mem_cons.mp plain with ⟨first, plain⟩
      simp only [isPlain, Bool.and_eq_true, bne_iff_ne, decide_eq_true_eq] at first
      rw [codes]
      · rw [ih plain]
        rfl
      · simp [first]
      · simp [first]

end Strings

theorem charOfCode?_toNat (c : Char) : Text.charOfCode? c.toNat = some c := by
  have valid : c.toNat.isValidChar := c.valid
  rw [Text.charOfCode?, if_pos valid, Char.ofNat_toNat]

/-- No character is half of a surrogate pair. -/
theorem characters_map_toNat (text : List Char) :
    characters (text.map Char.toNat) = some text := by
  induction text with
  | nil => rfl
  | cons c others ih =>
      cases others with
      | nil => simp [characters, charOfCode?_toNat]
      | cons next rest =>
          have whole : ¬(0xD800 ≤ c.toNat ∧ c.toNat < 0xDC00) := by
            have valid : c.toNat < 0xD800 ∨ 0xDFFF < c.toNat ∧ c.toNat < 0x110000 := c.valid
            omega
          have apart : (0xD800 ≤ c.toNat && c.toNat < 0xDC00 && 0xDC00 ≤ next.toNat &&
              next.toNat < 0xE000) = false := by
            simp only [Bool.and_eq_false_iff, decide_eq_false_iff_not]
            omega
          rw [List.map_cons, List.map_cons, characters, if_neg (by rw [apart]; decide),
            charOfCode?_toNat, ← List.map_cons, ih]
          rfl

/-- A plain text is a string as it stands. -/
theorem string_plain {text : List Char} (plain : ∀ c ∈ text, isPlain c) (rest : List Char) :
    string (text ++ '"' :: rest) = some (String.ofList text, rest) := by
  rw [string, quoted_plain plain]
  simp [codes_plain plain, characters_map_toNat]

/-! ## Values -/

/-- A text that is read as a value, whatever comes after it. -/
def Reads (least depth : Nat) (text : List Char) (content : Value) : Prop :=
  ∀ fuel rest, value (fuel + least) depth (text ++ rest) = some (content, rest)

/-- A text between quotes. -/
def stringText (text : List Char) : List Char :=
  '"' :: (text ++ ['"'])

theorem reads_stringText {text : List Char} (plain : ∀ c ∈ text, isPlain c) (depth : Nat) :
    Reads 1 depth (stringText text) (.string (String.ofList text)) := by
  intro fuel rest
  have apart : stringText text ++ rest = '"' :: (text ++ '"' :: rest) := by
    simp [stringText]
  have skipped : skip ('"' :: (text ++ '"' :: rest)) = '"' :: (text ++ '"' :: rest) := rfl
  rw [apart, value, skipped]
  simp [string_plain plain]

/-- A field of an object: its name, and the text of its value with what it is read as. -/
structure Field where
  name : List Char
  text : List Char
  content : Value

namespace Field

/-- Fields up to the end of their object. -/
def texts : List Field → List Char
  | [] => []
  | [field] => stringText field.name ++ ':' :: (field.text ++ ['\x7d'])
  | field :: rest => stringText field.name ++ ':' :: (field.text ++ ',' :: texts rest)

theorem length_le_texts (fields : List Field) : fields.length ≤ (texts fields).length := by
  induction fields with
  | nil => exact Nat.le_refl 0
  | cons field rest ih =>
      cases rest with
      | nil => simp [texts, stringText]
      | cons next rest =>
          simp only [texts, List.length_append, List.length_cons] at ih ⊢
          omega

/-- What a field is read as. -/
def read (field : Field) : String × Value :=
  (String.ofList field.name, field.content)

end Field

section Fields

variable {field : Field} {least depth : Nat}

section OneField

variable (plain : ∀ c ∈ field.name, isPlain c) (reads : Reads least depth field.text field.content)

include plain reads

/-- A field before a comma is read before those that follow. -/
theorem fields_next (fuel : Nat) (rest : List Char) :
    fields (fuel + least + 1) depth (stringText field.name ++ ':' :: (field.text ++ ',' :: rest)) =
      (fields (fuel + least) depth rest).map fun (others, rest) => (field.read :: others, rest) := by
  have apart : stringText field.name ++ ':' :: (field.text ++ ',' :: rest) =
      '"' :: (field.name ++ '"' :: ':' :: (field.text ++ ',' :: rest)) := by
    simp [stringText]
  have content := reads fuel (',' :: rest)
  rw [apart, fields]
  simp [skip, isGap, string_plain plain, content, Field.read]
  cases fields (fuel + least) depth rest <;> rfl

/-- A field before a brace is the last one. -/
theorem fields_last (fuel : Nat) (rest : List Char) :
    fields (fuel + least + 1) depth
        (stringText field.name ++ ':' :: (field.text ++ '\x7d' :: rest)) =
      some ([field.read], rest) := by
  have apart : stringText field.name ++ ':' :: (field.text ++ '\x7d' :: rest) =
      '"' :: (field.name ++ '"' :: ':' :: (field.text ++ '\x7d' :: rest)) := by
    simp [stringText]
  have content := reads fuel ('\x7d' :: rest)
  rw [apart, fields]
  simp [skip, isGap, string_plain plain, content, Field.read]

end OneField

variable {all : List Field} (plain : ∀ field ∈ all, ∀ c ∈ field.name, isPlain c)
  (reads : ∀ field ∈ all, Reads least depth field.text field.content) (filled : all ≠ [])

include plain reads filled

theorem fields_texts (fuel : Nat) (rest : List Char) :
    fields (fuel + least + all.length) depth (Field.texts all ++ rest) =
      some (all.map Field.read, rest) := by
  induction all with
  | nil => exact absurd rfl filled
  | cons field others ih =>
      rcases List.forall_mem_cons.mp plain with ⟨name, plain⟩
      rcases List.forall_mem_cons.mp reads with ⟨content, reads⟩
      cases others with
      | nil =>
          rw [Field.texts, List.append_assoc, List.cons_append, List.append_assoc]
          exact fields_last name content fuel rest
      | cons next others =>
          have size : fuel + least + (field :: next :: others).length =
              fuel + (next :: others).length + least + 1 := by
            simp only [List.length_cons]
            omega
          have following := ih plain reads nofun
          rw [Nat.add_right_comm] at following
          rw [Field.texts, List.append_assoc, List.cons_append, List.append_assoc, List.cons_append,
            size, fields_next name content, following]
          rfl
          all_goals exact nofun

/-- An object is read with all its fields. -/
theorem reads_object :
    Reads (least + all.length + 1) (depth + 1) ('\x7b' :: Field.texts all)
      (.object (all.map Field.read)) := by
  intro fuel rest
  have quote : ∃ tail, Field.texts all ++ rest = '"' :: tail := by
    rcases List.exists_cons_of_ne_nil filled with ⟨field, others, rfl⟩
    cases others <;> exact ⟨_, rfl⟩
  have read := fields_texts plain reads filled fuel rest
  rcases quote with ⟨tail, quote⟩
  rw [List.cons_append, quote, ← Nat.add_assoc, ← Nat.add_assoc, value]
  rw [quote] at read
  simp [skip, isGap, read]

end Fields

/-- A text that is a value to its end. -/
theorem parse_of_reads {text : List Char} {content : Value} {least : Nat}
    (reads : Reads least maxDepth text content) (enough : least ≤ 2 * text.length + 2) :
    parse (String.ofList text) = some content := by
  rcases Nat.exists_eq_add_of_le' enough with ⟨fuel, size⟩
  have read := reads fuel []
  rw [List.append_nil, ← size] at read
  simp [parse, read, skip]

end Json
end StyleOrder
