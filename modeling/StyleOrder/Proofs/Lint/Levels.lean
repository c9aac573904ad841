import StyleOrder.Proofs.Lint.Anchors
import StyleOrder.Proofs.Lint.Scheduling
import StyleOrder.Proofs.Output.Agreement

namespace StyleOrder

/-!
# The level of a rule changes severities only

A level is looked at after the rule has judged a block, and it decides what becomes of the
violations: they are given a severity, or dropped.  It has no part in reading a file or in
parsing it.  So the report of a batch at any level can be made from the report at the
level of errors, file by file, and from that report alone it can be told how a run at
another level ends.
-/

/-- What a level makes of the violations of a rule. -/
def Level.regrade (level : Level) (violations : List Violation) : List Violation :=
  match level.severity? with
  | none => []
  | some severity => violations.map (·.withSeverity severity)

namespace RuleSettings

theorem level?_set (settings : RuleSettings) (rule : String) (level : Level) :
    (settings.set rule level).level? rule = some level := by
  have found : ∀ levels : List (String × Level),
      (setLevel rule level levels).find? (·.1 = rule) = some (rule, level) := by
    intro levels
    induction levels with
    | nil => simp [setLevel]
    | cons entry rest ih =>
        unfold setLevel
        split
        · simp
        · rename_i other
          rw [List.find?_cons_of_neg (by simpa using other), ih]
  rw [level?, set, found]
  rfl

theorem severity?_set (settings : RuleSettings) (rule : String) (level : Level)
    (default : Severity) : (settings.set rule level).severity? rule default = level.severity? := by
  rw [severity?, level?_set]

end RuleSettings

/-- The settings in which the ordering rule has a level. -/
def RuleSettings.ordering (settings : RuleSettings) (level : Level) : RuleSettings :=
  settings.set Rule.propertyOrder.name level

/-! ## One file -/

namespace Outline

/-- What is reported at the level of errors are the findings, as errors. -/
theorem lint_error (outline : Outline) (file : String) (settings : RuleSettings) :
    outline.lint file (settings.ordering .error) =
      outline.findings.map fun found => found.2.violation file .error := by
  rw [lint_eq_findings, RuleSettings.ordering, RuleSettings.severity?_set]
  rfl

theorem lint_ordering (outline : Outline) (file : String) (settings : RuleSettings)
    (level : Level) :
    outline.lint file (settings.ordering level) =
      level.regrade (outline.lint file (settings.ordering .error)) := by
  rw [lint_error, lint_eq_findings, RuleSettings.ordering, RuleSettings.severity?_set,
    Level.regrade]
  cases level.severity? with
  | none => rfl
  | some severity => simp only [List.map_map]; rfl

/-- A rule that is not mentioned reports errors. -/
theorem lint_default (outline : Outline) (file : String) (settings : RuleSettings) :
    outline.lint file {} = outline.lint file (settings.ordering .error) := by
  rw [lint_error, lint_eq_findings]
  rfl

end Outline

namespace FileReport

/-- The report with other violations, unless the file could not be linted. -/
def regrade (level : Level) (report : FileReport) : FileReport where
  file := report.file
  outcome := report.outcome.map level.regrade

variable (level : Level) (report : FileReport)

theorem violations_regrade :
    (report.regrade level).violations = level.regrade report.violations := by
  rcases report with ⟨file, error | violations⟩
  · cases level <;> rfl
  · rfl

theorem error?_regrade : (report.regrade level).error? = report.error? := by
  rcases report with ⟨file, error | violations⟩ <;> rfl

end FileReport

namespace Batch

theorem Input.lint_ordering (input : Input) (settings : RuleSettings) (level : Level) :
    input.lint (settings.ordering level) =
      (input.lint (settings.ordering .error)).regrade level := by
  rcases input with ⟨name, ⟨path, cause⟩ | text⟩
  · rfl
  · simp only [Input.lint, lintSource, FileReport.regrade]
    cases Outline.parse text with
    | error malformed => rfl
    | ok outline =>
        exact congrArg (fun violations => FileReport.mk name (.ok violations))
          (outline.lint_ordering name settings level)

theorem Input.lint_default (input : Input) (settings : RuleSettings) :
    input.lint {} = input.lint (settings.ordering .error) := by
  rcases input with ⟨name, ⟨path, cause⟩ | text⟩
  · rfl
  · simp only [Input.lint, lintSource]
    cases Outline.parse text with
    | error malformed => rfl
    | ok outline =>
        exact congrArg (fun violations => FileReport.mk name (.ok violations))
          (outline.lint_default name settings)

/-- The report at a level, made from the one at the level of errors. -/
theorem files_lint_ordering (inputs : List Input) (settings : RuleSettings) (level : Level)
    (jobs errorJobs : Nat) :
    (lint inputs (settings.ordering level) jobs).files =
      (lint inputs (settings.ordering .error) errorJobs).files.map (FileReport.regrade level) := by
  rw [lint_files, lint_files, List.map_map]
  exact List.map_congr_left fun input _ => input.lint_ordering settings level

end Batch

/-! ## How a run ends -/

namespace Report

variable (level : Level) (report : Report)

/-- The report with the severities of a level. -/
def regrade : Report where
  files := report.files.map (FileReport.regrade level)

theorem violations_regrade :
    (report.regrade level).violations = level.regrade report.violations := by
  simp only [violations, regrade, List.flatMap_map, FileReport.violations_regrade, Level.regrade]
  cases level.severity? with
  | none => exact List.flatMap_eq_nil_iff.mpr fun _ _ => rfl
  | some severity => exact List.map_flatMap.symm

theorem errors_regrade : (report.regrade level).errors = report.errors := by
  simp only [errors, regrade, List.filterMap_map]
  apply List.filterMap_congr
  intro file _
  exact congrArg (Option.map (file.file, ·)) (file.error?_regrade level)

/-- Nothing is an error at a level below that of errors. -/
theorem errorCount_regrade (lower : level ≠ .error) : (report.regrade level).errorCount = 0 := by
  rw [errorCount, count, violations_regrade]
  cases level with
  | off => rfl
  | warn =>
      rw [List.length_eq_zero_iff, List.filter_eq_nil_iff]
      intro violation member
      rcases List.mem_map.mp member with ⟨_, -, rfl⟩
      simp [Violation.withSeverity]
  | error => exact absurd rfl lower

end Report

/-- The status that is left if no violation is an error. -/
def ExitStatus.spared : ExitStatus → ExitStatus
  | violations => success
  | status => status

theorem ExitStatus.ofReport_regrade (report : Report) {level : Level} (lower : level ≠ .error) :
    ofReport (report.regrade level) = (ofReport report).spared := by
  simp only [ofReport_eq_gravest, Report.hasIoErrors, Report.hasMalformed, Report.errors_regrade,
    Report.errorCount_regrade level report lower]
  cases report.errors.any (·.2.isIo) <;> cases report.errors.any (·.2.isMalformed) <;>
    cases report.errorCount <;> rfl

namespace Batch

/-- A batch is linted with the ordering rule at the level of errors, at that of warnings, and
off, with whatever numbers of workers.  All three reports list the same files with the same
errors.  The violations at the level of warnings are those at the level of errors with
their severity replaced, file by file, and with the rule off there are none.  A run that
ends with violations at the level of errors succeeds at the other two, and every other run
ends in the same way at all three.  Without any settings the level is that of errors. -/
theorem lint_at_levels (inputs : List Input) (settings : RuleSettings) (jobs : Level → Nat)
    (defaultJobs : Nat) :
    let report := fun level => lint inputs (settings.ordering level) (jobs level)
    let status := fun level => ExitStatus.ofReport (report level)
    (∀ level, (report level).files.map FileReport.file = inputs.map Input.name ∧
      (report level).files.map FileReport.error? =
        (report .error).files.map FileReport.error?) ∧
      (report .warn).files.map FileReport.violations =
        (report .error).files.map (fun file => file.violations.map (·.withSeverity .warning)) ∧
      (report .off).files.map FileReport.violations = inputs.map (fun _ => []) ∧
      status .warn = (status .error).spared ∧
      status .off = (status .error).spared ∧
      lint inputs {} defaultJobs = report .error := by
  intro report status
  have made : ∀ level, report level = (report .error).regrade level := fun level =>
    congrArg Report.mk (files_lint_ordering inputs settings level (jobs level) (jobs .error))
  have listed : ∀ level, (report level).files =
      (report .error).files.map (FileReport.regrade level) :=
    fun level => congrArg Report.files (made level)
  refine ⟨fun level => ⟨?_, ?_⟩, ?_, ?_, ?_, ?_, ?_⟩
  · simp only [report, lint_files, List.map_map]
    rfl
  · rw [listed level, List.map_map]
    exact List.map_congr_left fun file _ => file.error?_regrade level
  · rw [listed .warn, List.map_map]
    exact List.map_congr_left fun file _ => file.violations_regrade .warn
  · simp only [listed .off, report, lint_files, List.map_map]
    exact List.map_congr_left fun _ _ => FileReport.violations_regrade .off _
  · exact (congrArg ExitStatus.ofReport (made .warn)).trans
      (ExitStatus.ofReport_regrade _ (by decide))
  · exact (congrArg ExitStatus.ofReport (made .off)).trans
      (ExitStatus.ofReport_regrade _ (by decide))
  · have same : (lint inputs {} defaultJobs).files = (report .error).files := by
      simp only [report, lint_files]
      exact List.map_congr_left fun input _ => input.lint_default settings
    exact congrArg Report.mk same

end Batch
end StyleOrder
