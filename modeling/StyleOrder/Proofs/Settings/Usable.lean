import StyleOrder.Command.Context
import StyleOrder.Proofs.Files.Selection

namespace StyleOrder

/-!
# Settings that a run can use

Settings are checked in several places: their text is read, their fields are validated, the
levels of the rules are read from what is left, and the number of workers is chosen from three
sources.  What they have to satisfy for that is said here once.  Validation accepts exactly
these settings, the default ones among them, so that every context satisfies it, wherever its
settings come from.
-/

namespace Settings

/-- A pattern that says something and can be read. -/
structure UsablePattern (pattern : String) : Prop where
  visible : ∃ c ∈ pattern.toList, Text.isBlank c = false
  readable : ∃ tokens, Glob.compile pattern.toList = .ok tokens

/-- Settings that a run can use.  Whatever is unset can be used. -/
structure Usable (settings : Settings) : Prop where
  staffed : ∀ jobs ∈ settings.jobs, 1 ≤ jobs
  nonempty : settings.included ≠ some []
  included : ∀ patterns ∈ settings.included, ∀ pattern ∈ patterns, UsablePattern pattern
  excluded : ∀ patterns ∈ settings.excluded, ∀ pattern ∈ patterns, UsablePattern pattern
  lint : ∀ value ∈ settings.lint, ∃ fields, value = .object fields

/-! ## Validation -/

theorem validatePattern_eq_ok_iff {field pattern : String} :
    validatePattern field pattern = .ok () ↔ UsablePattern pattern := by
  have visible : ¬Text.blank pattern.toList ↔ ∃ c ∈ pattern.toList, Text.isBlank c = false := by
    simp [Text.blank]
  unfold validatePattern
  constructor
  · intro accepted
    split at accepted
    · cases accepted
    · rename_i seen
      split at accepted
      · rename_i tokens compiles
        exact ⟨visible.mp seen, tokens, compiles⟩
      · cases accepted
  · rintro ⟨seen, tokens, compiles⟩
    rw [if_neg (visible.mpr seen), compiles]

theorem validatePatterns_eq_ok_iff {field : String} {patterns : Option (List String)} :
    validatePatterns field patterns = .ok () ↔
      ∀ listed ∈ patterns, ∀ pattern ∈ listed, UsablePattern pattern := by
  rw [validatePatterns, Reading.forM_eq_ok_iff]
  simp only [validatePattern_eq_ok_iff]
  cases patterns <;> simp

/-- Validation accepts exactly the settings that a run can use. -/
theorem validate_eq_ok_iff {settings : Settings} :
    settings.validate = .ok () ↔ settings.Usable := by
  have staffed : settings.jobs ≠ some 0 ↔ ∀ jobs ∈ settings.jobs, 1 ≤ jobs := by
    cases settings.jobs <;> simp [Nat.one_le_iff_ne_zero]
  have lint : ¬settings.lint.any (!·.isObject) ↔
      ∀ value ∈ settings.lint, ∃ fields, value = .object fields := by
    cases settings.lint with
    | none => simp
    | some value => cases value <;> simp [Value.isObject]
  simp only [validate, Reading.throw_bind, Reading.check_eq_ok_iff, Reading.bind_eq_ok_iff]
  constructor
  · rintro ⟨jobs, nonempty, _, included, _, excluded, mapping, -⟩
    exact ⟨staffed.mp jobs, nonempty, validatePatterns_eq_ok_iff.mp included,
      validatePatterns_eq_ok_iff.mp excluded, lint.mp mapping⟩
  · intro usable
    exact ⟨staffed.mpr usable.staffed, usable.nonempty,
      (), validatePatterns_eq_ok_iff.mpr usable.included,
      (), validatePatterns_eq_ok_iff.mpr usable.excluded, lint.mpr usable.lint, rfl⟩

theorem usable_default : Usable {} where
  staffed := nofun
  nonempty := nofun
  included := nofun
  excluded := nofun
  lint := nofun

/-- Settings are read from a text by one of its formats, and then validated. -/
theorem exists_format_of_ofText {text : String} {path : Path} {parsers : Parsers}
    {settings : Settings} (read : ofText text path parsers = .ok settings) :
    (∃ format : Format, format.read text parsers = .ok settings) ∧ settings.Usable := by
  have taken : ∀ formats format, readAs parsers text format formats = .ok settings →
      ∃ format : Format, format.read text parsers = .ok settings := by
    intro formats
    induction formats with
    | nil => exact fun format read => ⟨format, read⟩
    | cons next rest ih =>
        intro format read
        unfold readAs at read
        split at read
        · rename_i first
          exact ⟨format, first.trans read⟩
        · exact ih next read
  unfold ofText at read
  split at read
  · cases read
  · split at read
    · cases read
    · rename_i found
      split at read
      · cases read
      · rename_i valid
        obtain rfl := Except.ok.inj read
        exact ⟨taken _ _ found, validate_eq_ok_iff.mp valid⟩

/-- Whatever exclusions settings have, given or by default, can be read. -/
theorem Usable.exists_compiled {settings : Settings} (usable : settings.Usable) :
    ∃ compiled, Discovery.compileExclusions settings.exclusions = .ok compiled := by
  have readable : ∀ exclusion ∈ settings.exclusions,
      ∃ tokens, Glob.compile exclusion.toList = .ok tokens := by
    intro exclusion member
    unfold exclusions at member
    cases given : settings.excluded with
    | some patterns =>
        rw [given] at member
        exact (usable.excluded patterns given exclusion member).readable
    | none =>
        rw [given] at member
        rw [List.mem_singleton.mp member]
        exact Reading.exists_of_isOk (by decide +kernel)
  rcases Reading.exists_results readable with ⟨compiled, each⟩
  exact ⟨compiled, Discovery.compileExclusions_eq_ok_iff.mpr each⟩

end Settings

/-! ## Discovery -/

/-- Once the exclusions can be read, only a pattern can make discovery fail. -/
theorem Discovery.discover_ne_badExclusion {exclusions : List String}
    {compiled : List (List Glob.Token)} (read : compileExclusions exclusions = .ok compiled)
    (disk : Disk) (base : Path) (patterns : List String) (exclusion : String)
    (cause : Glob.Error) :
    discover disk base patterns exclusions ≠ .error (.badExclusion exclusion cause) := by
  intro failed
  rw [discover, read] at failed
  rcases Reading.bind_eq_error_iff.mp failed with never | ⟨_, -, failed⟩
  · cases never
  rcases Reading.bind_eq_error_iff.mp failed with named | ⟨_, -, never⟩
  · rcases Reading.exists_error_of_mapM named with ⟨pattern, -, fails⟩
    unfold enumerate at fails
    cases expanded : Glob.expand disk (base.join (.ofString pattern)).text <;>
      simp [expanded, Functor.map, Except.map] at fails
  · cases never

/-! ## Contexts -/

namespace RuleSettings

/-- Validation accepts exactly the names that rules have. -/
theorem validate_eq_ok_iff {settings : RuleSettings} :
    settings.validate = .ok () ↔
      ∀ entry ∈ settings.levels, ∃ rule ∈ Rule.all, rule.name = entry.1 := by
  have names : ∀ name, name ∈ Rule.names ↔ ∃ rule ∈ Rule.all, rule.name = name := by
    intro name
    rw [Rule.names, List.mem_mergeSort, List.mem_map]
  have known : settings.unknown.isEmpty ↔ ∀ entry ∈ settings.levels, entry.1 ∈ Rule.names := by
    rw [unknown, List.isEmpty_iff, ← List.length_eq_zero_iff, List.length_mergeSort]
    simp
  simp only [← names]
  unfold validate
  split
  · rename_i empty
    exact iff_of_true rfl (known.mp empty)
  · rename_i unknown
    exact ⟨nofun, fun all => absurd (known.mpr all) unknown⟩

end RuleSettings

namespace Context

variable {disk : Disk} {base : Path} {asked : Option Path} {jobs : Option Nat} {spare : Nat}
  {parsers : Settings.Parsers} {context : Context} {settings : Settings}

theorem usable_of_loadSettings {path : Option Path}
    (loaded : loadSettings disk path parsers = .ok settings) : settings.Usable := by
  cases path with
  | none =>
      obtain rfl := Except.ok.inj loaded
      exact Settings.usable_default
  | some path =>
      simp only [loadSettings, Settings.load] at loaded
      cases reading : disk.read path with
      | error cause => simp [reading] at loaded
      | ok text =>
          cases read : Settings.ofText text path parsers with
          | error cause => simp [reading, read] at loaded
          | ok found =>
              obtain rfl : found = settings := by simpa [reading, read] using loaded
              exact (Settings.exists_format_of_ofText read).2

/-- All levels that are read from settings are levels of rules there are. -/
theorem known_of_readRules {rules : RuleSettings} (read : readRules settings = .ok rules) :
    ∀ entry ∈ rules.levels, ∃ rule ∈ Rule.all, rule.name = entry.1 := by
  unfold readRules at read
  split at read
  · obtain rfl := Except.ok.inj read
    exact nofun
  · split at read
    · cases read
    · split at read
      · cases read
      · rename_i valid
        obtain rfl := Except.ok.inj read
        exact RuleSettings.validate_eq_ok_iff.mp valid

theorem chooseJobs_pos {set : Option Nat} (staffed : jobs ≠ some 0)
    (valid : ∀ count ∈ set, 1 ≤ count) (spare : Nat) : 1 ≤ chooseJobs jobs set spare := by
  unfold chooseJobs
  cases jobs with
  | some count => exact Nat.one_le_iff_ne_zero.mpr fun zero => staffed (congrArg some zero)
  | none =>
      cases set with
      | some count => exact valid count rfl
      | none => exact Nat.le_max_left 1 spare

/-- Every context that is loaded can be used, whatever tells the documents in texts: it has a
worker, all rules that it mentions are there, and its settings are those that validation
accepts.  So its exclusions can be read, and no discovery with them fails for one of them.
Validation in turn accepts all settings that can be used. -/
theorem load_usable :
    (∀ parsers disk base asked jobs spare context,
      load disk base asked jobs spare parsers = .ok context →
      1 ≤ context.jobs ∧
      (∀ entry ∈ context.rules.levels, ∃ rule ∈ Rule.all, rule.name = entry.1) ∧
      context.settings.Usable ∧
      ∀ disk base patterns exclusion cause,
        Discovery.discover disk base patterns context.settings.exclusions ≠
          .error (.badExclusion exclusion cause)) ∧
    ∀ settings : Settings, settings.Usable → settings.validate = .ok () := by
  refine ⟨?_, fun settings => Settings.validate_eq_ok_iff.mpr⟩
  intro parsers disk base asked jobs spare context loaded
  simp only [load, Reading.throw_bind, Reading.bind_eq_ok_iff, Reading.check_eq_ok_iff] at loaded
  rcases loaded with ⟨settings, read, rules, levels, staffed, made⟩
  obtain rfl := Except.ok.inj made
  have usable : settings.Usable := usable_of_loadSettings read
  rcases usable.exists_compiled with ⟨compiled, compiles⟩
  exact ⟨chooseJobs_pos staffed usable.staffed spare, known_of_readRules levels, usable,
    Discovery.discover_ne_badExclusion compiles⟩

/-- Settings that are found above the base, with a level for the one rule, an exclusion and a
number of workers; and settings made by hand. -/
theorem load_usable_found :
    let disk := Disk.put {} (.ofString "/w/.sassorderrc.yml")
      (.file "exclude: ['v*/**']\njobs: 3\nlint:\n  rules:\n    property_order: warn\n".toUTF8)
    let base := Path.ofString "/w/s"
    (∃ context, load disk base none none 0 = .ok context ∧ context.jobs = 3 ∧
      context.rules.levels = [("property_order", .warn)] ∧
      context.settings.exclusions = ["v*/**"] ∧ context.settings.Usable ∧
      ∀ exclusion cause, Discovery.discover disk base context.settings.patterns
        context.settings.exclusions ≠ .error (.badExclusion exclusion cause)) ∧
    Settings.validate { included := some ["a*"], jobs := some 1 } = .ok () := by
  intro disk base
  have found : ((load disk base none none 0).map fun context =>
      (context.jobs, context.rules.levels, context.settings.exclusions)).toOption =
        some (3, [("property_order", .warn)], ["v*/**"]) := by decide +kernel
  rcases Reading.map_eq_ok_iff.mp (Reading.eq_ok_of_toOption found) with ⟨context, loaded, same⟩
  rcases Prod.mk.inj same with ⟨jobs, same⟩
  rcases Prod.mk.inj same with ⟨levels, exclusions⟩
  rcases load_usable.1 {} disk base none none 0 context loaded with ⟨-, -, usable, readable⟩
  refine ⟨⟨context, loaded, jobs, levels, exclusions, usable, readable disk base _⟩, ?_⟩
  apply load_usable.2
  exact
    { staffed := by simp
      nonempty := by simp
      included := by
        intro patterns given pattern member
        obtain rfl : ["a*"] = patterns := Option.some.inj given
        rw [List.mem_singleton.mp member]
        exact ⟨⟨'a', by decide +kernel, rfl⟩, Reading.exists_of_isOk (by decide +kernel)⟩
      excluded := nofun
      lint := nofun }

end Context
end StyleOrder
