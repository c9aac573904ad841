import StyleOrder.Proofs.Settings.RoundTrip
import StyleOrder.Proofs.Text.Records
import StyleOrder.Proofs.Value.Objects
import StyleOrder.Proofs.Yaml.Mappings

namespace StyleOrder

/-!
# Levels in two notations

The levels of rules are written as the lines of a block or as the fields of an object.  Either
way they are kept by name, so their order is lost.  In an object a level is a string.  In a block
it is a word without quotes, and one of these words is a truth value: a block that turns a rule
off is loaded, but no levels can be read from it.

In a block a name is also a key, and has to be short.  In an object it has any length.  A block
is read within limits, whatever they are, while an object has none that levels could reach.
-/

namespace RuleSettings

/-- A name of small letters and underscores, at least one underscore among them. -/
structure Named (name : String) : Prop where
  small : ∀ c ∈ name.toList, Yaml.isSmall c
  divided : '_' ∈ name.toList

section Named

variable {name : String} (named : Named name)

include named

theorem Named.word : Yaml.Word name.toList where
  nonempty := List.ne_nil_of_mem named.divided
  small := named.small

/-- The word for nothing has no underscore. -/
theorem Named.isNull : (Yaml.Node.scalar name.toList false).isNull = false := by
  have tilde : name.toList ≠ ['~'] := by
    intro same
    have divided := named.divided
    rw [same] at divided
    revert divided
    decide
  have null : name.toList.map Text.lower ≠ "null".toList := by
    intro same
    have divided : Text.lower '_' ∈ name.toList.map Text.lower := List.mem_map_of_mem named.divided
    rw [same] at divided
    revert divided
    decide
  simp only [Yaml.Node.isNull, named.word.nonempty, tilde, null, decide_false, Bool.or_false]

end Named

end RuleSettings

namespace Settings

def spaces (count : Nat) : String :=
  String.ofList (List.replicate count ' ')

/-- Levels as the lines of a block. -/
def blockText (outer inner : Nat) (levels : List (String × Level)) : String :=
  "lint:\n" ++ spaces outer ++ "rules:\n" ++ String.join (levels.map fun entry =>
    spaces inner ++ entry.1 ++ ": " ++ entry.2.text ++ "\n")

/-- Levels as the fields of an object. -/
def objectText (levels : List (String × Level)) : String :=
  "\x7b\"lint\":\x7b\"rules\":\x7b" ++ ",".intercalate (levels.map fun entry =>
    "\"" ++ entry.1 ++ "\":\"" ++ entry.2.text ++ "\"") ++ "\x7d\x7d\x7d"

/-- What a line is read as.  Unquoted, one of the levels is a truth value. -/
def lineField (entry : String × Level) : String × Value :=
  (entry.1, if entry.2 = .off then .bool false else .string entry.2.text)

/-- The words of a line. -/
def lineWords (entry : String × Level) : List Char × List Char :=
  (entry.1.toList, entry.2.text.toList)

theorem toList_lines (inner : Nat) (levels : List (String × Level)) :
    (String.join (levels.map fun entry =>
      spaces inner ++ entry.1 ++ ": " ++ entry.2.text ++ "\n")).toList =
      Yaml.Lexer.entryLines inner (levels.map lineWords) := by
  induction levels with
  | nil => rfl
  | cons entry rest ih =>
      rw [List.map_cons, String.join_cons, String.toList_append, ih]
      simp [Yaml.Lexer.entryLines, lineWords, spaces]

theorem blockText_eq (outer inner : Nat) (levels : List (String × Level)) :
    blockText outer inner levels = String.ofList
      (Yaml.nestedText outer inner "lint".toList "rules".toList (levels.map lineWords)) := by
  apply String.toList_injective
  rw [blockText, String.toList_append, toList_lines]
  simp [Yaml.nestedText, spaces]

/-- The node of levels in a block. -/
def blockNode (levels : List (String × Level)) : Yaml.Node :=
  Yaml.nestedNode "lint".toList "rules".toList (levels.map lineWords)

theorem scalarValue_text (level : Level) :
    Yaml.Node.scalarValue level.text.toList false =
      if level = .off then .bool false else .string level.text := by
  cases level <;> rfl

/-! ## Objects -/

/-- A level as a field. -/
def levelField (entry : String × Level) : Json.Field where
  name := entry.1.toList
  text := Json.stringText entry.2.text.toList
  content := .string entry.2.text

theorem toList_fields {levels : List (String × Level)} (filled : levels ≠ []) :
    (",".intercalate (levels.map fun entry =>
      "\"" ++ entry.1 ++ "\":\"" ++ entry.2.text ++ "\"")).toList ++ ['\x7d'] =
      Json.Field.texts (levels.map levelField) := by
  rw [String.toList_intercalate]
  induction levels with
  | nil => exact absurd rfl filled
  | cons entry rest ih =>
      cases rest with
      | nil => simp [Json.Field.texts, Json.stringText, levelField]
      | cons next rest =>
          have others := ih (List.cons_ne_nil _ _)
          simp only [List.map_cons] at others ⊢
          rw [List.intercalate_cons_cons, List.append_assoc, List.append_assoc, others]
          simp [Json.Field.texts, Json.stringText, levelField]

/-- An object with one field. -/
def around (name : String) (inside : List Json.Field) : Json.Field where
  name := name.toList
  text := '\x7b' :: Json.Field.texts inside
  content := .object (inside.map Json.Field.read)

theorem objectText_eq {levels : List (String × Level)} (filled : levels ≠ []) :
    objectText levels = String.ofList ('\x7b' :: Json.Field.texts
      [around "lint" [around "rules" (levels.map levelField)]]) := by
  apply String.toList_injective
  have fields := toList_fields filled
  unfold objectText
  rw [String.toList_append, String.toList_append]
  simp [around, Json.Field.texts, ← fields, Json.stringText]

theorem read_levelField (entry : String × Level) :
    (levelField entry).read = RuleSettings.writtenLevel entry := by
  simp [levelField, Json.Field.read, RuleSettings.writtenLevel]

theorem isPlain_of_isSmall {c : Char} (small : Yaml.isSmall c) : Json.isPlain c := by
  have visible : 0x20 ≤ c.toNat := by
    simp only [Yaml.isSmall, Bool.or_eq_true, Bool.and_eq_true, decide_eq_true_eq,
      beq_iff_eq] at small
    rcases small with ⟨least, -⟩ | rfl
    · exact Nat.le_trans (by decide : 0x20 ≤ 'a'.toNat) least
    · decide
  simp only [Json.isPlain, bne, Yaml.beq_of_isSmall small (rfl : Yaml.isSmall '"' = false),
    Yaml.beq_of_isSmall small (rfl : Yaml.isSmall '\\' = false), decide_eq_true visible]
  rfl

theorem word_text (level : Level) : Yaml.Word level.text.toList where
  nonempty := by cases level <;> decide
  small := List.all_eq_true.mp (by cases level <;> decide)

theorem read_around (name : String) (inside : List Json.Field) :
    (around name inside).read = (name, .object (inside.map Json.Field.read)) := by
  rw [Json.Field.read, around, String.ofList_toList]

theorem reads_around {name : String} {inside : List Json.Field} {least depth : Nat}
    (plain : ∀ c ∈ name.toList, Json.isPlain c)
    (reads : Json.Reads least depth ('\x7b' :: Json.Field.texts inside)
      (.object (inside.map Json.Field.read))) :
    Json.Reads (least + 2) (depth + 1) ('\x7b' :: Json.Field.texts [around name inside])
      (.object ([around name inside].map Json.Field.read)) := by
  have only : ∀ field ∈ [around name inside], Json.Reads least depth field.text field.content :=
    List.forall_mem_singleton.mpr reads
  exact Json.reads_object (List.forall_mem_singleton.mpr plain) only nofun

/-- Levels as fields are read as an object in an object. -/
theorem parse_objectText {levels : List (String × Level)} (filled : levels ≠ [])
    (named : ∀ entry ∈ levels, RuleSettings.Named entry.1) :
    Json.parse (objectText levels) = some (.object [("lint", .object [("rules",
      .object (levels.map RuleSettings.writtenLevel))])]) := by
  have plain : ∀ field ∈ levels.map levelField, ∀ c ∈ field.name, Json.isPlain c :=
    List.forall_mem_map.mpr fun entry member c inside =>
      isPlain_of_isSmall ((named entry member).small c inside)
  have strings : ∀ field ∈ levels.map levelField, Json.Reads 1 (Json.maxDepth - 3) field.text field.content := by
    refine List.forall_mem_map.mpr fun entry _ => ?_
    have word := Json.reads_stringText
      (fun c inside => isPlain_of_isSmall ((word_text entry.2).small c inside))
      (Json.maxDepth - 3)
    rwa [String.ofList_toList] at word
  have lintPlain : ∀ c ∈ "lint".toList, Json.isPlain c := List.all_eq_true.mp rfl
  have rulesPlain : ∀ c ∈ "rules".toList, Json.isPlain c := List.all_eq_true.mp rfl
  have rules := Json.reads_object plain strings (by simpa using filled)
  have all := reads_around lintPlain (reads_around rulesPlain rules)
  have size := Json.Field.length_le_texts (levels.map levelField)
  have enough : 1 + (levels.map levelField).length + 1 + 2 + 2 ≤ 2 * ('\x7b' :: Json.Field.texts
      [around "lint" [around "rules" (levels.map levelField)]]).length + 2 := by
    simp only [around, Json.Field.texts, List.length_cons, List.length_append]
    omega
  have names : (levels.map levelField).map Json.Field.read =
      levels.map RuleSettings.writtenLevel := by
    rw [List.map_map]
    exact List.map_congr_left fun entry _ => read_levelField entry
  rw [objectText_eq filled, Json.parse_of_reads all enough, List.map_singleton, read_around,
    List.map_singleton, read_around, names]

/-! ## Loading -/

section Loading

variable {format : Format} {text : String} {path : Path} {settings : Settings} {parsers : Parsers}

theorem ofText_eq_ok (only : formats path = [format])
    (read : format.read text parsers = .ok settings) (usable : settings.Usable) :
    ofText text path parsers = .ok settings := by
  have valid := validate_eq_ok_iff.mpr usable
  rw [ofText, only]
  simp only [readAs, read, valid]

theorem ofText_eq_error {problem : Problem} (only : formats path = [format])
    (read : format.read text parsers = .error problem) :
    ofText text path parsers = .error (.invalid path problem) := by
  rw [ofText, only]
  simp only [readAs, read]

/-- Settings that say nothing but levels. -/
theorem usable_lint (fields : List (String × Value)) :
    Usable { lint := some (.object fields) } where
  staffed := nofun
  nonempty := nofun
  included := nofun
  excluded := nofun
  lint := by
    rintro value same
    exact ⟨fields, (Option.some.inj same).symm⟩

end Loading

/-- The notations, with these limits for blocks. -/
def Parsers.within (limits : Yaml.Limits) : Parsers where
  yaml text := Yaml.parse text limits

/-- An object of levels is kept in canonical form. -/
theorem readFields_lint (fields : List (String × Value)) :
    readFields [] {} [("lint", .object fields)] =
      .ok { lint := some (Value.object fields).canonical } := by
  rw [readFields, if_neg List.not_mem_nil, readField]
  rfl

/-- What is kept of levels with these contents. -/
def lintValue (contents : List (String × Value)) : Value :=
  .object [("rules", .object (Value.insertFields [] contents))]

theorem canonical_rules {contents : List (String × Value)}
    (flat : ∀ field ∈ contents, field.2.canonical = field.2) :
    (Value.object [("rules", .object contents)]).canonical = lintValue contents := by
  have same : (contents.map fun field => (field.1, field.2.canonical)) = contents := by
    conv_rhs => rw [← List.map_id contents]
    exact List.map_congr_left fun field member => by rw [flat field member]; rfl
  rw [Value.canonical, Value.canonicalFields_eq, List.map_singleton, Value.canonical,
    Value.canonicalFields_eq, same]
  rfl

theorem canonical_lintValue {contents : List (String × Value)}
    (flat : ∀ field ∈ contents, field.2.canonical = field.2) :
    (lintValue contents).canonical = lintValue contents := by
  rw [← canonical_rules flat, Value.canonical_canonical]

theorem read_json (limits : Yaml.Limits) {levels : List (String × Level)} (filled : levels ≠ [])
    (named : ∀ entry ∈ levels, RuleSettings.Named entry.1) :
    Format.json.read (objectText levels) (.within limits) =
      .ok { lint := some (lintValue (levels.map RuleSettings.writtenLevel)) } := by
  have flat : ∀ field ∈ levels.map RuleSettings.writtenLevel, field.2.canonical = field.2 :=
    List.forall_mem_map.mpr fun entry _ => rfl
  have read : ofValue (.object [("lint", .object [("rules",
      .object (levels.map RuleSettings.writtenLevel))])]) =
      .ok { lint := some (lintValue (levels.map RuleSettings.writtenLevel)) } := by
    rw [ofValue, readFields_lint, canonical_rules flat]
  simp only [Format.read, Parsers.within, parse_objectText filled named]
  rw [Option.mapM_some, read]
  rfl

/-! ## Blocks -/

section Blocks

variable {levels : List (String × Level)} (named : ∀ entry ∈ levels, RuleSettings.Named entry.1)
  (distinct : (levels.map Prod.fst).Nodup)

include named distinct

theorem value_rules :
    Yaml.Node.value (.mapping [(.scalar "rules".toList false,
      .mapping ((levels.map lineWords).map Yaml.entryNodes))]) =
      .ok (lintValue (levels.map lineField)) := by
  have contents : (levels.map lineWords).map Yaml.Node.entryField = levels.map lineField := by
    rw [List.map_map]
    refine List.map_congr_left fun entry _ => ?_
    simp [Yaml.Node.entryField, lineWords, lineField, scalarValue_text]
  have names : (([] ++ (levels.map lineWords).map Yaml.Node.entryField).map Prod.fst).Nodup := by
    rw [contents, List.nil_append, List.map_map]
    exact distinct
  have given : ∀ words ∈ levels.map lineWords, (Yaml.Node.scalar words.1 false).isNull = false :=
    List.forall_mem_map.mpr fun entry member => (named entry member).isNull
  have fields := Yaml.Node.fields_entryNodes given names
  rw [contents] at fields
  have lines : Yaml.Node.value (.mapping ((levels.map lineWords).map Yaml.entryNodes)) =
      .ok (.object (Value.insertFields [] (levels.map lineField))) := by
    rw [Yaml.Node.value, fields]
    rfl
  exact Yaml.Node.value_singleton rfl lines

theorem ofNode_blockNode :
    ofNode (blockNode levels) =
      .ok { lint := some (lintValue (levels.map lineField)) } := by
  have flat : ∀ field ∈ levels.map lineField, field.2.canonical = field.2 := by
    refine List.forall_mem_map.mpr fun entry _ => ?_
    rcases entry with ⟨rule, level⟩
    cases level <;> rfl
  have content : fieldContent "lint" (.mapping [(.scalar "rules".toList false,
      .mapping ((levels.map lineWords).map Yaml.entryNodes))]) =
      .ok (lintValue (levels.map lineField)) := value_rules named distinct
  have key : Yaml.Node.key (.scalar "lint".toList false) = .ok "lint" := rfl
  rw [blockNode, Yaml.nestedNode, ofNode]
  refine Reading.bind_eq_ok_iff.mpr ⟨[("lint", lintValue (levels.map lineField))],
    Reading.mapM_eq_ok_iff.mpr (.cons ?_ .nil), ?_⟩
  · exact Reading.bind_eq_ok_iff.mpr ⟨_, key, Reading.bind_eq_ok_iff.mpr ⟨_, content, rfl⟩⟩
  · rw [lintValue, readFields_lint, ← lintValue, canonical_lintValue flat]

end Blocks

theorem lintKey : Yaml.Key "lint".toList where
  nonempty := by decide
  small := List.all_eq_true.mp rfl
  short := by decide

theorem rulesKey : Yaml.Key "rules".toList where
  nonempty := by decide
  small := List.all_eq_true.mp rfl
  short := by decide

/-- The first line of a block is neither blank nor a comment. -/
theorem saysNothing_blockText (outer inner : Nat) (levels : List (String × Level)) :
    saysNothing (blockText outer inner levels).toList = false := by
  have single : '\n' ∉ "lint:".toList := by decide
  have first : ∃ rest,
      (blockText outer inner levels).toList = ("lint:".toList ++ ['\n']) ++ rest := by
    rw [blockText_eq, String.toList_ofList]
    exact ⟨_, rfl⟩
  rcases first with ⟨rest, first⟩
  rw [saysNothing, first, Text.lines_append (Text.ended_append_feed _),
    Text.lines_append_feed single]
  rfl

/-- Levels that a block can have within limits.  Besides the scalars of their lines, a block has
two keys and three mappings inside each other. -/
structure Fits (limits : Yaml.Limits) (levels : List (String × Level)) : Prop where
  short : ∀ entry ∈ levels, entry.1.toList.length ≤ Yaml.Lexer.maxKey
  deep : 3 ≤ limits.depth
  few : 2 * levels.length + 5 ≤ limits.nodes
  light : "lint".utf8ByteSize + "rules".utf8ByteSize +
    (levels.map fun entry => entry.1.utf8ByteSize + entry.2.text.utf8ByteSize).sum ≤ limits.bytes

theorem fits_iff {limits : Yaml.Limits} {levels : List (String × Level)} :
    Fits limits levels ↔ (∀ entry ∈ levels, entry.1.toList.length ≤ Yaml.Lexer.maxKey) ∧
      limits.allow (blockNode levels) = true := by
  rw [blockNode, Yaml.allow_nestedNode_iff]
  simp only [List.length_map, List.map_map, Function.comp_def, lineWords, String.ofList_toList]
  constructor
  · exact fun fits => ⟨fits.short, fits.deep, fits.few, fits.light⟩
  · rintro ⟨short, deep, few, light⟩
    exact ⟨short, deep, few, light⟩

section Reading

variable {outer inner : Nat} {levels : List (String × Level)} {limits : Yaml.Limits}
  (positive : 0 < outer) (deeper : outer < inner)
  (named : ∀ entry ∈ levels, RuleSettings.Named entry.1)

include positive deeper named

theorem parse_blockText (filled : levels ≠ [])
    (short : ∀ entry ∈ levels, entry.1.toList.length ≤ Yaml.Lexer.maxKey) :
    Yaml.parse (blockText outer inner levels) limits =
      (some (blockNode levels)).filter limits.allow := by
  have keys : ∀ words ∈ levels.map lineWords, Yaml.Key words.1 :=
    List.forall_mem_map.mpr fun entry member =>
      { toWord := (named entry member).word, short := short entry member }
  have words : ∀ words ∈ levels.map lineWords, Yaml.Word words.2 :=
    List.forall_mem_map.mpr fun entry _ => word_text entry.2
  rw [blockText_eq]
  apply Yaml.parse_nestedText lintKey rulesKey positive deeper ?_ keys words
  simpa using filled

theorem parse_blockText_of_long
    (long : ∃ entry ∈ levels, Yaml.Lexer.maxKey < entry.1.toList.length) :
    Yaml.parse (blockText outer inner levels) limits = none := by
  have words : ∀ words ∈ levels.map lineWords, Yaml.Word words.1 ∧ Yaml.Word words.2 :=
    List.forall_mem_map.mpr fun entry member => ⟨(named entry member).word, word_text entry.2⟩
  have exceeded : ∃ words ∈ levels.map lineWords, Yaml.Lexer.maxKey < words.1.length := by
    rcases long with ⟨entry, member, long⟩
    exact ⟨lineWords entry, List.mem_map_of_mem member, long⟩
  rw [blockText_eq]
  exact Yaml.parse_nestedText_of_long lintKey rulesKey positive deeper words exceeded

theorem read_yaml (filled : levels ≠ []) (distinct : (levels.map Prod.fst).Nodup)
    (fits : Fits limits levels) :
    Format.yaml.read (blockText outer inner levels) (.within limits) =
      .ok { lint := some (lintValue (levels.map lineField)) } := by
  rcases fits_iff.mp fits with ⟨short, allowed⟩
  have parsed : Yaml.parse (blockText outer inner levels) limits = some (blockNode levels) := by
    rw [parse_blockText positive deeper named filled short, Option.filter_some_pos allowed]
  simp only [Format.read, Parsers.within, saysNothing_blockText, parsed, Bool.false_eq_true,
    if_false]
  rw [Option.mapM_some, ofNode_blockNode named distinct]
  rfl

/-- Beyond the limits there is no document. -/
theorem read_yaml_of_not_fits (filled : levels ≠ []) (beyond : ¬Fits limits levels) :
    Format.yaml.read (blockText outer inner levels) (.within limits) =
      .error (.unparsable .yaml "malformed document") := by
  have refused : Yaml.parse (blockText outer inner levels) limits = none := by
    by_cases short : ∀ entry ∈ levels, entry.1.toList.length ≤ Yaml.Lexer.maxKey
    · have heavy : ¬limits.allow (blockNode levels) = true :=
        fun allowed => beyond (fits_iff.mpr ⟨short, allowed⟩)
      rw [parse_blockText positive deeper named filled short, Option.filter_some, if_neg heavy]
    · apply parse_blockText_of_long positive deeper named
      simpa only [not_forall, not_le, exists_prop] using short
  simp only [Format.read, Parsers.within, saysNothing_blockText, refused, Bool.false_eq_true,
    if_false]
  rfl

end Reading

/-! ## Levels -/

section Levels

variable {levels : List (String × Level)} (distinct : (levels.map Prod.fst).Nodup)

include distinct

/-- Levels that were written as strings are read as they were written. -/
theorem ofValue_lintValue (filled : levels ≠ []) :
    ∃ rules, RuleSettings.ofValue (lintValue (levels.map RuleSettings.writtenLevel)) = .ok rules ∧
      rules.levels.Perm levels := by
  have written : RuleSettings.toValue ⟨levels⟩ =
      lintValue (levels.map RuleSettings.writtenLevel) := by
    rw [RuleSettings.toValue, if_neg (by simpa using filled)]
    rfl
  rw [← written]
  exact RuleSettings.ofValue_toValue distinct

/-- Without quotes, a level that is off cannot be read. -/
theorem ofValue_lintValue_of_off (off : ∃ entry ∈ levels, entry.2 = .off) :
    RuleSettings.ofValue (lintValue (levels.map lineField)) =
      .error (.wrongType (.bool false) "string or map") := by
  have names : (([] ++ levels.map lineField).map Prod.fst).Nodup := by
    rw [List.nil_append, List.map_map]
    exact distinct
  have read : RuleSettings.readLevels (.object (Value.insertFields [] (levels.map lineField))) =
      .error (.wrongType (.bool false) "string or map") := by
    cases result : RuleSettings.readLevels
      (.object (Value.insertFields [] (levels.map lineField))) with
    | ok results =>
        rcases off with ⟨⟨rule, level⟩, member, rfl⟩
        have kept : (rule, Value.bool false) ∈ Value.insertFields [] (levels.map lineField) :=
          (Value.insertFields_perm names).mem_iff.mpr (List.mem_map_of_mem member)
        rcases Reading.exists_result_of_mem (Reading.mapM_eq_ok_iff.mp result) kept with
          ⟨_, -, never⟩
        cases never
    | error mismatch =>
        rcases Reading.exists_error_of_mapM result with ⟨field, kept, failed⟩
        rcases Value.mem_insertFields kept with never | member
        · cases never
        · rcases List.mem_map.mp member with ⟨⟨rule, level⟩, -, rfl⟩
          cases level with
          | off => exact congrArg Except.error (Except.error.inj failed).symm
          | warn => cases failed
          | error => cases failed
  rw [lintValue, RuleSettings.ofValue, RuleSettings.readFields, if_pos rfl, read]
  rfl

/-- The order in which levels were written is lost. -/
theorem lintValue_of_perm {others : List (String × Level)} (turned : others.Perm levels) :
    lintValue (others.map RuleSettings.writtenLevel) =
      lintValue (levels.map RuleSettings.writtenLevel) := by
  have names : ((levels.map RuleSettings.writtenLevel).map Prod.fst).Nodup := by
    rw [List.map_map]
    exact distinct
  rw [lintValue, Value.insertFields_eq_of_perm (turned.map _) names, ← lintValue]

end Levels

/-- Levels of any rules mean the same as the unquoted lines of a block and as the strings of
an object, in whatever order they stand there, unless one of them is off or the block is beyond
the limits for blocks, whatever these are.  The object is always read as the levels that were
written.  The block is read with the same result if no level is off; otherwise it is loaded, but
the word for off is a truth value and no level.  A block with a name that is too long for a key,
or with more levels than the limits allow, is not loaded. -/
theorem levels_in_both_notations (limits : Yaml.Limits) {outer inner : Nat} (positive : 0 < outer) (deeper : outer < inner)
    {block object : Path} (yaml : formats block = [.yaml]) (json : formats object = [.json])
    {levels others : List (String × Level)} (filled : levels ≠ [])
    (distinct : (levels.map Prod.fst).Nodup)
    (named : ∀ entry ∈ levels, RuleSettings.Named entry.1) (turned : others.Perm levels) :
    ∃ value rules,
      ofText (objectText others) object (.within limits) = .ok { lint := some value } ∧
      RuleSettings.ofValue value = .ok rules ∧
      rules.levels.Perm levels ∧
      (Fits limits levels →
        ∃ other,
          ofText (blockText outer inner levels) block (.within limits) =
            .ok { lint := some other } ∧
          ((∀ entry ∈ levels, entry.2 ≠ .off) → RuleSettings.ofValue other = .ok rules) ∧
          ((∃ entry ∈ levels, entry.2 = .off) →
            RuleSettings.ofValue other = .error (.wrongType (.bool false) "string or map"))) ∧
      (¬Fits limits levels →
        ofText (blockText outer inner levels) block (.within limits) =
          .error (.invalid block (.unparsable .yaml "malformed document"))) := by
  rcases ofValue_lintValue distinct filled with ⟨rules, read, same⟩
  have fields := read_json limits (fun empty => filled (List.perm_nil.mp (empty ▸ turned.symm)))
    fun entry member => named entry (turned.subset member)
  rw [lintValue_of_perm distinct turned] at fields
  refine ⟨_, rules, ofText_eq_ok json fields (usable_lint _), read, same, ?_, ?_⟩
  · intro fits
    refine ⟨_, ofText_eq_ok yaml (read_yaml positive deeper named filled distinct fits)
      (usable_lint _), ?_, ofValue_lintValue_of_off distinct⟩
    intro on
    have strings : levels.map lineField = levels.map RuleSettings.writtenLevel :=
      List.map_congr_left fun entry member => by
        rw [lineField, if_neg (on entry member), RuleSettings.writtenLevel]
    rw [strings, read]
  · intro beyond
    exact ofText_eq_error yaml (read_yaml_of_not_fits positive deeper named filled beyond)

/-- Two levels, in a different order in each notation. -/
theorem levels_in_both_notations_unsorted :
    let block := "lint:\n  rules:\n    property_order: error\n    a_rule: warn\n"
    let object := "\x7b\"lint\":\x7b\"rules\":\x7b" ++
      "\"a_rule\":\"warn\",\"property_order\":\"error\"\x7d\x7d\x7d"
    ∃ value other rules,
      ofText object (.ofString "x.json") = .ok { lint := some value } ∧
      ofText block (.ofString "x.yml") = .ok { lint := some other } ∧
      RuleSettings.ofValue value = .ok rules ∧
      RuleSettings.ofValue other = .ok rules ∧
      rules.levels.Perm [("property_order", .error), ("a_rule", .warn)] := by
  intro block object
  let levels : List (String × Level) := [("property_order", .error), ("a_rule", .warn)]
  let others : List (String × Level) := [("a_rule", .warn), ("property_order", .error)]
  have blockEq : blockText 2 4 levels = block := by decide +kernel
  have objectEq : objectText others = object := by decide +kernel
  have named : ∀ entry ∈ levels, RuleSettings.Named entry.1 := by
    intro entry member
    rcases List.mem_pair.mp member with rfl | rfl
    · exact ⟨List.all_eq_true.mp rfl, by decide⟩
    · exact ⟨List.all_eq_true.mp rfl, by decide⟩
  rcases levels_in_both_notations {} (by decide : 0 < 2) (by decide : 2 < 4)
    (by decide +kernel : formats (.ofString "x.yml") = [.yaml])
    (by decide +kernel : formats (.ofString "x.json") = [.json])
    (List.cons_ne_nil _ _) (by decide) named (List.Perm.swap _ _ []) with
    ⟨value, rules, loaded, read, turned, within, -⟩
  rcases within ⟨by decide, by decide, by decide, by decide⟩ with ⟨other, blockLoaded, same, -⟩
  rw [objectEq] at loaded
  rw [blockEq] at blockLoaded
  exact ⟨value, other, rules, loaded, blockLoaded, read, same (by decide), turned⟩

/-- The word for off is a level between quotes only. -/
theorem off_unquoted :
    let block := "lint:\n  rules:\n    property_order: off\n"
    let object := "\x7b\"lint\":\x7b\"rules\":\x7b\"property_order\":\"off\"\x7d\x7d\x7d"
    ∃ value other,
      ofText object (.ofString "x.json") = .ok { lint := some value } ∧
      RuleSettings.ofValue value = .ok ⟨[("property_order", .off)]⟩ ∧
      ofText block (.ofString "x.yml") = .ok { lint := some other } ∧
      RuleSettings.ofValue other = .error (.wrongType (.bool false) "string or map") := by
  intro block object
  let levels : List (String × Level) := [("property_order", .off)]
  have blockEq : blockText 2 4 levels = block := by decide +kernel
  have objectEq : objectText levels = object := by decide +kernel
  have filled : levels ≠ [] := List.cons_ne_nil _ _
  have distinct : (levels.map Prod.fst).Nodup := by decide
  have named : ∀ entry ∈ levels, RuleSettings.Named entry.1 :=
    List.forall_mem_singleton.mpr ⟨List.all_eq_true.mp rfl, by decide⟩
  have fits : Fits {} levels := ⟨by decide, by decide, by decide, by decide⟩
  rw [← blockEq, ← objectEq]
  exact ⟨_, _, ofText_eq_ok (by decide +kernel) (read_json {} filled named) (usable_lint _), rfl,
    ofText_eq_ok (by decide +kernel)
      (read_yaml (by decide) (by decide) named filled distinct fits) (usable_lint _),
    ofValue_lintValue_of_off distinct ⟨_, List.mem_cons_self, rfl⟩⟩

end Settings
end StyleOrder
