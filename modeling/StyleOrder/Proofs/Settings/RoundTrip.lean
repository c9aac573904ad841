import StyleOrder.Proofs.Settings.Usable
import StyleOrder.Proofs.Value.Canonical
import Mathlib.Data.List.Perm.Basic

namespace StyleOrder

/-!
# Settings are read back as they were written

Settings that are not set are left out when settings are written, and null leaves a field
unset when they are read.  So a field that is set must never be written as null, an empty
list has to stay a list, and what is kept unread must be in canonical form.  All settings that are
read from a text are such, whatever its format.
-/

namespace Settings

/-- Settings as reading makes them: the number of workers fits into a machine word, and the
levels are a canonical value. -/
structure Readable (settings : Settings) : Prop where
  word : ∀ jobs ∈ settings.jobs, jobs < Text.wordSize
  canonical : ∀ value ∈ settings.lint, value.canonical = value

/-! ## Reading makes readable settings -/

theorem readable_default : Readable {} where
  word := nofun
  canonical := nofun

section Optional

variable {α : Type} {read : Value → Except Mismatch α} {value : Value}

/-- Only null leaves a field unset. -/
theorem readOptional_of_ne_null (given : value ≠ .null) :
    readOptional read value = some <$> read value := by
  unfold readOptional
  split
  · exact absurd rfl given
  · cases read value <;> rfl

theorem readOptional_eq_some {content : α} (given : value ≠ .null)
    (success : read value = .ok content) : readOptional read value = .ok (some content) := by
  rw [readOptional_of_ne_null given, success]
  rfl

theorem readOptional_eq_ok {result : Option α} (success : readOptional read value = .ok result) :
    ∀ content ∈ result, read value = .ok content := by
  by_cases given : value = .null
  · subst given
    obtain rfl := Except.ok.inj success
    exact nofun
  · rw [readOptional_of_ne_null given, Reading.map_eq_ok_iff] at success
    rcases success with ⟨content, found, rfl⟩
    intro other same
    rwa [← Option.some.inj same]

end Optional

theorem lt_wordSize_of_readJobs {value : Value} {jobs : Nat} (read : readJobs value = .ok jobs) :
    jobs < Text.wordSize := by
  cases value with
  | integer number =>
      simp only [readJobs] at read
      split at read
      · rename_i fits
        obtain rfl := Except.ok.inj read
        simp only [Text.fitsWord, Bool.and_eq_true, decide_eq_true_eq] at fits
        omega
      · cases read
  | _ => cases read

section Readable

variable {settings next : Settings} (readable : settings.Readable)

include readable

theorem Readable.readField {name : String} {value : Value}
    (read : readField settings name value = .ok next) : next.Readable := by
  unfold Settings.readField at read
  split at read
  · rcases Reading.bind_eq_ok_iff.mp read with ⟨_, -, made⟩
    obtain rfl := Except.ok.inj made
    exact ⟨readable.word, readable.canonical⟩
  · rcases Reading.bind_eq_ok_iff.mp read with ⟨_, -, made⟩
    obtain rfl := Except.ok.inj made
    exact ⟨readable.word, readable.canonical⟩
  · rcases Reading.bind_eq_ok_iff.mp read with ⟨jobs, found, made⟩
    obtain rfl := Except.ok.inj made
    exact ⟨fun count member => lt_wordSize_of_readJobs (readOptional_eq_ok found count member),
      readable.canonical⟩
  · rcases Reading.bind_eq_ok_iff.mp read with ⟨lint, found, made⟩
    obtain rfl := Except.ok.inj made
    refine ⟨readable.word, fun kept member => ?_⟩
    rw [← Except.ok.inj (readOptional_eq_ok found kept member)]
    exact value.canonical_canonical
  · cases read

theorem Readable.readFields {seen : List String} {fields : List (String × Value)}
    (read : readFields seen settings fields = .ok next) : next.Readable := by
  induction fields generalizing seen settings with
  | nil =>
      obtain rfl := Except.ok.inj read
      exact readable
  | cons field rest ih =>
      rcases field with ⟨name, value⟩
      unfold Settings.readFields at read
      rcases Reading.check_eq_ok_iff.mp read with ⟨-, read⟩
      rcases Reading.bind_eq_ok_iff.mp read with ⟨settings, first, others⟩
      exact ih (readable.readField first) others

end Readable

theorem readable_of_ofValue {value : Value} {settings : Settings}
    (read : ofValue value = .ok settings) : settings.Readable := by
  unfold ofValue at read
  split at read
  · exact readable_default.readFields read
  · exact readable_default.readFields (Reading.check_eq_ok_iff.mp read).2
  · cases read

theorem readable_of_ofNode {node : Yaml.Node} {settings : Settings}
    (read : ofNode node = .ok settings) : settings.Readable := by
  unfold ofNode at read
  split at read
  · rcases Reading.bind_eq_ok_iff.mp read with ⟨fields, -, read⟩
    exact readable_default.readFields read
  · split at read
    · obtain rfl := Except.ok.inj read
      exact readable_default
    · cases read
  · cases read

theorem readable_of_read {format : Format} {text : String} {parsers : Parsers}
    {settings : Settings} (read : format.read text parsers = .ok settings) :
    settings.Readable := by
  have found : ∀ {α : Type} {document : Option α} {read : α → Except Mismatch Settings},
      document.mapM read = .ok (some settings) → ∃ content, read content = .ok settings := by
    intro α document read success
    cases document with
    | none => cases success
    | some content =>
        rcases Reading.map_eq_ok_iff.mp success with ⟨_, reading, same⟩
        exact ⟨content, reading.trans (congrArg _ (Option.some.inj same))⟩
  unfold Format.read at read
  dsimp only at read
  split at read
  · rename_i reading
    obtain rfl := Except.ok.inj read
    cases format with
    | yaml =>
        dsimp only at reading
        split at reading
        · cases reading
          exact readable_default
        · rcases found reading with ⟨node, reading⟩
          exact readable_of_ofNode reading
    | json | toml =>
        rcases found reading with ⟨value, reading⟩
        exact readable_of_ofValue reading
  · cases read
  · cases read

/-! ## Writing -/

theorem map_fst_fieldOf {α : Type} (name : String) (write : α → Value) (content : Option α) :
    ((fieldOf name write content).map Prod.fst).Sublist [name] := by
  cases content with
  | none => exact List.nil_sublist _
  | some content => exact List.Sublist.refl _

/-- The fields of settings that are set, in ascending order of their names. -/
def writtenFields (settings : Settings) : List (String × Value) :=
  fieldOf "exclude" patternsValue settings.excluded ++
    fieldOf "include" patternsValue settings.included ++
    fieldOf "jobs" (fun jobs : Nat => .integer jobs) settings.jobs ++
    fieldOf "lint" id settings.lint

theorem writtenFields_ascending (settings : Settings) : Value.Ascending settings.writtenFields := by
  have names : (settings.writtenFields.map Prod.fst).Sublist
      ["exclude", "include", "jobs", "lint"] := by
    simp only [writtenFields, List.map_append]
    exact (((map_fst_fieldOf _ _ _).append (map_fst_fieldOf _ _ _)).append
      (map_fst_fieldOf _ _ _)).append (map_fst_fieldOf _ _ _)
  have ordered : ["exclude", "include", "jobs", "lint"].Pairwise (· < ·) := by decide +kernel
  exact List.pairwise_map.mp (ordered.sublist names)

/-- Fields are written in ascending order, whichever of them are set. -/
theorem toValue_eq (settings : Settings) : settings.toValue = .object settings.writtenFields := by
  have ascending := settings.writtenFields_ascending
  have distinct : (settings.writtenFields.map Prod.fst).Nodup :=
    List.pairwise_map.mpr (ascending.imp ne_of_lt)
  have turned : (fieldOf "include" patternsValue settings.included ++
      fieldOf "exclude" patternsValue settings.excluded ++
      fieldOf "jobs" (fun jobs : Nat => .integer jobs) settings.jobs ++
      fieldOf "lint" id settings.lint).Perm settings.writtenFields :=
    (List.perm_append_comm.append_right _).append_right _
  refine congrArg Value.object ?_
  apply Value.Ascending.eq_of_perm (Value.ascending_insertFields List.Pairwise.nil _) ascending
  refine List.Perm.trans (Value.insertFields_perm ?_) turned
  exact (turned.map Prod.fst).nodup_iff.mpr distinct

/-! ## Reading what was written -/

/-- Reading a field that is written only when it is set. -/
theorem readFields_fieldOf {α : Type} {name : String} {write : α → Value} {content : Option α}
    {seen : List String} {settings updated : Settings} {rest : List (String × Value)}
    (fresh : name ∉ seen) (unset : content = none → updated = settings)
    (read : ∀ given ∈ content, readField settings name (write given) = .ok updated) :
    readFields seen settings (fieldOf name write content ++ rest) =
      readFields ((fieldOf name write content).map Prod.fst ++ seen) updated rest := by
  cases content with
  | none => rw [unset rfl]; rfl
  | some given =>
      simp only [fieldOf, List.singleton_append, readFields, if_neg fresh, read given rfl]
      rfl

/-- A list of patterns is read again, also if it is empty. -/
theorem readOptional_patternsValue (patterns : List String) :
    readOptional readPatterns (patternsValue patterns) = .ok (some patterns) := by
  apply readOptional_eq_some (by exact nofun)
  rw [patternsValue, readPatterns, Reading.mapM_eq_ok_iff, List.forall₂_map_left_iff,
    List.forall₂_same]
  exact fun _ _ => rfl

theorem readJobs_integer {jobs : Nat} (word : jobs < Text.wordSize) :
    readJobs (.integer jobs) = .ok jobs := by
  have fits : (0 ≤ (jobs : Int) && Text.fitsWord jobs) = true := by
    simp only [Text.fitsWord, Bool.and_eq_true, decide_eq_true_eq]
    omega
  rw [readJobs, if_pos fits]
  rfl

theorem readField_include (settings : Settings) (patterns : List String) :
    readField settings "include" (patternsValue patterns) =
      .ok { settings with included := some patterns } := by
  rw [readField, readOptional_patternsValue]
  rfl

theorem readField_exclude (settings : Settings) (patterns : List String) :
    readField settings "exclude" (patternsValue patterns) =
      .ok { settings with excluded := some patterns } := by
  rw [readField, readOptional_patternsValue]
  rfl

theorem readField_jobs (settings : Settings) {count : Nat} (word : count < Text.wordSize) :
    readField settings "jobs" (.integer count) = .ok { settings with jobs := some count } := by
  have read : readOptional readJobs (.integer count) = .ok (some count) :=
    readOptional_eq_some (by exact nofun) (readJobs_integer word)
  rw [readField, read]
  rfl

theorem readField_lint (settings : Settings) {value : Value} (given : value ≠ .null)
    (canonical : value.canonical = value) :
    readField settings "lint" value = .ok { settings with lint := some value } := by
  have read : readOptional (return ·.canonical) value = .ok (some value) :=
    readOptional_eq_some given (congrArg Except.ok canonical)
  rw [readField, read]
  rfl

theorem not_mem_fieldOf {α : Type} {name other : String} (different : other ≠ name)
    (write : α → Value) (content : Option α) :
    other ∉ (fieldOf name write content).map Prod.fst := fun member =>
  different (List.mem_singleton.mp ((map_fst_fieldOf name write content).subset member))

/-- Settings that are readable and can be used are read back as they were written. -/
theorem ofValue_toValue {settings : Settings} (readable : settings.Readable)
    (usable : settings.Usable) : ofValue settings.toValue = .ok settings := by
  rcases settings with ⟨included, excluded, jobs, lint⟩
  rw [toValue_eq]
  change readFields [] {} (fieldOf "exclude" patternsValue excluded ++
    fieldOf "include" patternsValue included ++
    fieldOf "jobs" (fun jobs : Nat => .integer jobs) jobs ++ fieldOf "lint" id lint) = _
  rw [List.append_assoc, List.append_assoc, ← List.append_nil (fieldOf "lint" id lint)]
  calc
    _ = readFields (_ ++ []) ⟨none, excluded, none, none⟩ _ :=
        readFields_fieldOf List.not_mem_nil (fun unset => by rw [unset])
          (fun patterns given => by
            obtain rfl : excluded = some patterns := given
            exact readField_exclude {} patterns)
    _ = readFields (_ ++ (_ ++ [])) ⟨included, excluded, none, none⟩ _ :=
        readFields_fieldOf (by simp [not_mem_fieldOf]) (fun unset => by rw [unset])
          (fun patterns given => by
            obtain rfl : included = some patterns := given
            exact readField_include _ patterns)
    _ = readFields (_ ++ (_ ++ (_ ++ []))) ⟨included, excluded, jobs, none⟩ _ :=
        readFields_fieldOf (by simp [not_mem_fieldOf]) (fun unset => by rw [unset])
          (fun count given => by
            obtain rfl : jobs = some count := given
            exact readField_jobs _ (readable.word count rfl))
    _ = readFields _ ⟨included, excluded, jobs, lint⟩ [] :=
        readFields_fieldOf (by simp [not_mem_fieldOf]) (fun unset => by rw [unset])
          (fun value given => by
            obtain rfl : lint = some value := given
            rcases usable.lint value rfl with ⟨fields, rfl⟩
            exact readField_lint _ (by exact nofun) (readable.canonical _ rfl))
    _ = .ok ⟨included, excluded, jobs, lint⟩ := rfl

end Settings

/-! ## Levels of rules -/

namespace RuleSettings

variable {rules : RuleSettings}

/-- A level as it is written. -/
def writtenLevel (entry : String × Level) : String × Value :=
  (entry.1, .string entry.2.text)

theorem readLevel_text (level : Level) : readLevel (.string level.text) = .ok level := by
  rw [readLevel, readLevel.named, Level.ofText?_text]

/-- Levels are read from an object as they were put into it. -/
theorem readLevels_written (levels : List (String × Level)) :
    readLevels (.object (levels.map writtenLevel)) = .ok levels := by
  rw [readLevels, Reading.mapM_eq_ok_iff, List.forall₂_map_left_iff, List.forall₂_same]
  rintro ⟨rule, level⟩ -
  simp only [writtenLevel, readLevel_text]
  rfl

/-- An object that is made from levels of distinct rules holds these levels in some order. -/
theorem exists_perm_ofFields {levels : List (String × Level)}
    (distinct : (levels.map Prod.fst).Nodup) :
    ∃ sorted : List (String × Level), sorted.Perm levels ∧
      Value.ofFields (levels.map writtenLevel) = .object (sorted.map writtenLevel) := by
  have names : (([] ++ levels.map writtenLevel).map Prod.fst).Nodup := by
    rw [List.nil_append, List.map_map]
    exact distinct
  have turned : (Value.insertFields [] (levels.map writtenLevel)).Perm (levels.map writtenLevel) :=
    Value.insertFields_perm names
  have split := congrFun₂ (List.eq_map_comp_perm writtenLevel)
    (Value.insertFields [] (levels.map writtenLevel)) levels
  rcases split.mpr turned with ⟨sorted, each, perm⟩
  exact ⟨sorted, perm, by rw [Value.ofFields_eq, each]⟩

/-- Levels of distinct rules are read back as they were written, up to their order. -/
theorem ofValue_toValue (distinct : (rules.levels.map Prod.fst).Nodup) :
    ∃ again, ofValue rules.toValue = .ok again ∧ again.levels.Perm rules.levels := by
  unfold toValue
  split
  · rename_i empty
    exact ⟨{}, rfl, by rw [List.isEmpty_iff.mp empty]⟩
  · rcases exists_perm_ofFields distinct with ⟨sorted, turned, made⟩
    refine ⟨⟨sorted⟩, ?_, turned⟩
    change ofValue (.object [("rules", Value.ofFields (rules.levels.map writtenLevel))]) = _
    rw [made, ofValue, readFields, if_pos rfl, readLevels_written]
    rfl

theorem level?_eq_some_iff (distinct : (rules.levels.map Prod.fst).Nodup) {rule : String}
    {level : Level} : rules.level? rule = some level ↔ (rule, level) ∈ rules.levels := by
  rw [level?, Option.map_eq_some_iff]
  constructor
  · rintro ⟨⟨other, level⟩, found, rfl⟩
    obtain rfl : other = rule := by simpa using List.find?_some found
    exact List.mem_of_find?_eq_some found
  · intro member
    cases found : rules.levels.find? (·.1 = rule) with
    | none => simpa using List.find?_eq_none.mp found _ member
    | some entry =>
        have same : entry.1 = rule := by simpa using List.find?_some found
        refine ⟨entry, rfl, ?_⟩
        rw [List.inj_on_of_nodup_map distinct (List.mem_of_find?_eq_some found) member same]

/-- The order of levels makes no difference. -/
theorem level?_of_perm {other : RuleSettings} (distinct : (rules.levels.map Prod.fst).Nodup)
    (turned : other.levels.Perm rules.levels) (rule : String) :
    other.level? rule = rules.level? rule := by
  have otherDistinct := (turned.map Prod.fst).nodup_iff.mpr distinct
  apply Option.ext
  intro level
  rw [level?_eq_some_iff distinct, level?_eq_some_iff otherDistinct, turned.mem_iff]

end RuleSettings

namespace Settings

/-- Settings that are read from a text, in any of the formats and whatever tells the document
in the text, are read back from the value that they are written as, and are valid again.
Levels of any rules, each with one level, are read back as levels of the same rules. -/
theorem read_back :
    (∀ parsers text path settings, ofText text path parsers = .ok settings →
      ofValue settings.toValue = .ok settings ∧ settings.validate = .ok ()) ∧
    ∀ rules : RuleSettings, (rules.levels.map Prod.fst).Nodup →
      ∃ again, RuleSettings.ofValue rules.toValue = .ok again ∧
        again.levels.Perm rules.levels ∧ ∀ rule, again.level? rule = rules.level? rule := by
  constructor
  · intro parsers text path settings read
    rcases exists_format_of_ofText read with ⟨⟨format, found⟩, usable⟩
    exact ⟨ofValue_toValue (readable_of_read found) usable, validate_eq_ok_iff.mpr usable⟩
  · intro rules distinct
    rcases RuleSettings.ofValue_toValue distinct with ⟨again, read, turned⟩
    exact ⟨again, read, turned, RuleSettings.level?_of_perm distinct turned⟩

/-- An empty list of exclusions is not taken for none, though a null is; the number of workers
is quoted, and the levels are a mapping out of order with a null in it. -/
theorem read_back_sparse :
    let text := "exclude: []\ninclude: ~\njobs: '7'\nlint:\n  b: [1, ~]\n  a: off\n"
    (∃ settings, ofText text (.ofString ".sassorderrc") = .ok settings ∧
      settings.excluded = some [] ∧ settings.included = none ∧ settings.jobs = some 7 ∧
      settings.lint.isSome ∧
      ofValue settings.toValue = .ok settings ∧ settings.validate = .ok ()) ∧
    ∃ again, RuleSettings.ofValue (RuleSettings.toValue ⟨[("z", .off), ("a", .warn)]⟩) = .ok again ∧
      again.level? "z" = some .off ∧ again.level? "a" = some .warn := by
  intro text
  have found : ((ofText text (.ofString ".sassorderrc")).map fun settings =>
      (settings.excluded, settings.included, settings.jobs, settings.lint.isSome)).toOption =
        some (some [], none, some 7, true) := by decide +kernel
  rcases Reading.map_eq_ok_iff.mp (Reading.eq_ok_of_toOption found) with ⟨settings, read, same⟩
  rcases Prod.mk.inj same with ⟨excluded, same⟩
  rcases Prod.mk.inj same with ⟨included, same⟩
  rcases Prod.mk.inj same with ⟨jobs, lint⟩
  rcases read_back.1 {} text _ settings read with ⟨again, valid⟩
  rcases read_back.2 ⟨[("z", .off), ("a", .warn)]⟩ (by decide +kernel) with ⟨rules, back, -, levels⟩
  exact ⟨⟨settings, read, excluded, included, jobs, lint, again, valid⟩,
    rules, back, levels "z", levels "a"⟩

end Settings
end StyleOrder
