import Mathlib.Data.List.Perm.Basic
import Mathlib.Order.MinMax
import StyleOrder.Lint.ExitStatus
import StyleOrder.Output.Document

namespace StyleOrder

/-!
# The status, the document and what it lists

A report is summed up in two places: in the status that a run ends with, and in the
document that programs read.  The status asks for the gravest thing that went wrong
in any file, so it can be worked out file by file, in whatever order.  The document
asks how many things went wrong.  That both speak of the same things is not said
anywhere; it holds because an error is grave for one of two reasons, and because a
violation has one of two severities.

What the document counts is compared with what it lists, and not with the report.
-/

/-! ## Statuses by rank -/

namespace ExitStatus

/-- Settings that cannot be used outrank everything, since no file is then looked at. -/
def rank : ExitStatus → Nat
  | success => 0
  | violations => 1
  | malformed => 2
  | ioFailure => 3
  | badSettings => 4

/-- The status of the higher rank. -/
def graver (first second : ExitStatus) : ExitStatus :=
  if first.rank < second.rank then second else first

theorem rank_injective : Function.Injective rank := by
  intro first second
  cases first <;> cases second <;> simp [rank]

theorem rank_graver (first second : ExitStatus) :
    (graver first second).rank = max first.rank second.rank := by
  unfold graver
  split
  · rename_i lower
    exact (Nat.max_eq_right (Nat.le_of_lt lower)).symm
  · rename_i higher
    exact (Nat.max_eq_left (Nat.le_of_not_lt higher)).symm

theorem graver_left_comm (first second third : ExitStatus) :
    graver first (graver second third) = graver second (graver first third) := by
  apply rank_injective
  simp only [rank_graver, max_left_comm]

end ExitStatus

namespace Report

variable (first second : List FileReport)

theorem violations_append :
    violations ⟨first ++ second⟩ = violations ⟨first⟩ ++ violations ⟨second⟩ :=
  List.flatMap_append

theorem errors_append : errors ⟨first ++ second⟩ = errors ⟨first⟩ ++ errors ⟨second⟩ :=
  List.filterMap_append

theorem count_append (severity : Severity) :
    count ⟨first ++ second⟩ severity = count ⟨first⟩ severity + count ⟨second⟩ severity := by
  simp only [count, violations_append, List.filter_append, List.length_append]

end Report

namespace ExitStatus

/-- The gravest of three things that can go wrong. -/
def gravest (io malformed : Bool) (errors : Nat) : ExitStatus :=
  if io then ioFailure
  else if malformed then .malformed
  else if 0 < errors then violations
  else success

theorem ofReport_eq_gravest (report : Report) :
    ofReport report = gravest report.hasIoErrors report.hasMalformed report.errorCount := by
  rfl

theorem gravest_or (io otherIo malformed otherMalformed : Bool) (errors otherErrors : Nat) :
    gravest (io || otherIo) (malformed || otherMalformed) (errors + otherErrors) =
      graver (gravest io malformed errors) (gravest otherIo otherMalformed otherErrors) := by
  cases io <;> cases otherIo <;> cases malformed <;> cases otherMalformed <;>
    cases errors <;> cases otherErrors <;> simp [gravest, graver, rank]

/-- The status of two batches together. -/
theorem ofReport_append (first second : List FileReport) :
    ofReport ⟨first ++ second⟩ = graver (ofReport ⟨first⟩) (ofReport ⟨second⟩) := by
  simp only [ofReport_eq_gravest, ← gravest_or, Report.hasIoErrors, Report.hasMalformed,
    Report.errorCount, Report.errors_append, Report.count_append, List.any_append]

theorem ofReport_cons (file : FileReport) (rest : List FileReport) :
    ofReport ⟨file :: rest⟩ = graver (ofReport ⟨[file]⟩) (ofReport ⟨rest⟩) :=
  ofReport_append [file] rest

/-- The order of the files does not matter. -/
theorem ofReport_perm {files other : List FileReport} (same : files.Perm other) :
    ofReport ⟨files⟩ = ofReport ⟨other⟩ := by
  induction same with
  | nil => rfl
  | cons file _ ih => rw [ofReport_cons, ih, ← ofReport_cons]
  | swap file next rest =>
      calc
        ofReport ⟨next :: file :: rest⟩ =
            graver (ofReport ⟨[next]⟩) (graver (ofReport ⟨[file]⟩) (ofReport ⟨rest⟩)) := by
          rw [ofReport_cons next, ofReport_cons file]
        _ = graver (ofReport ⟨[file]⟩) (graver (ofReport ⟨[next]⟩) (ofReport ⟨rest⟩)) :=
          graver_left_comm _ _ _
        _ = ofReport ⟨file :: next :: rest⟩ := by
          rw [ofReport_cons file (next :: rest), ofReport_cons next rest]
  | trans _ _ ih ihOther => exact ih.trans ihOther

/-- A run succeeds if no violation is an error and no file failed, for whatever reason. -/
theorem ofReport_eq_success_iff (report : Report) :
    ofReport report = success ↔ report.errorCount = 0 ∧ report.errors = [] := by
  have either : ∀ error : LintError, error.isIo = true ∨ error.isMalformed = true := by
    intro error
    cases error <;> simp [LintError.isIo, LintError.isMalformed]
  have spared : report.hasIoErrors = false ∧ report.hasMalformed = false ↔ report.errors = [] := by
    constructor
    · rintro ⟨noIo, noMalformed⟩
      cases errors : report.errors with
      | nil => rfl
      | cons failed others =>
          simp only [Report.hasIoErrors, Report.hasMalformed, errors, List.any_cons,
            Bool.or_eq_false_iff] at noIo noMalformed
          rcases either failed.2 with io | malformed
          · rw [io] at noIo
            cases noIo.1
          · rw [malformed] at noMalformed
            cases noMalformed.1
    · intro spared
      simp [Report.hasIoErrors, Report.hasMalformed, spared]
  rw [ofReport_eq_gravest, ← spared]
  cases report.hasIoErrors <;> cases report.hasMalformed <;> simp [gravest]

end ExitStatus

/-! ## Fields of an object -/

namespace Value

/-- A field that is put in is found again, and no other field is lost. -/
theorem find?_insertField (key name : String) (value : Value) (fields : List (String × Value)) :
    (insertField name value fields).find? (·.1 = key) =
      if name = key then some (name, value) else fields.find? (·.1 = key) := by
  induction fields with
  | nil => by_cases same : name = key <;> simp [insertField, same]
  | cons field rest ih =>
      rcases field with ⟨other, kept⟩
      unfold insertField
      split
      · by_cases same : name = key <;> simp [same]
      · split
        · rename_i replaced
          subst replaced
          by_cases same : name = key <;> simp [same]
        · rename_i different
          rw [List.find?_cons, List.find?_cons, ih]
          by_cases same : name = key
          · have passed : other ≠ key := fun reached => different (same.trans reached.symm)
            simp [same, passed]
          · simp [same]

/-- Of the fields that an object is made from, the last of a name counts. -/
theorem field?_ofFields (key : String) (fields : List (String × Value)) :
    (ofFields fields).field? key = (fields.reverse.find? (·.1 = key)).map Prod.snd := by
  have sorted : ∀ fields : List (String × Value),
      (fields.foldr (fun field sorted => insertField field.1 field.2 sorted) []).find?
        (·.1 = key) = fields.find? (·.1 = key) := by
    intro fields
    induction fields with
    | nil => rfl
    | cons field rest ih =>
        rcases field with ⟨name, value⟩
        rw [List.foldr_cons, find?_insertField, ih, List.find?_cons]
        by_cases same : name = key <;> simp [same]
  rw [ofFields, field?, ← List.foldr_reverse]
  exact congrArg (Option.map Prod.snd) (sorted fields.reverse)

/-- The items of a field that is a list. -/
def listed (name : String) (value : Value) : List Value :=
  match value.field? name with
  | some (.list items) => items
  | _ => []

/-- The field is there and not null. -/
def isGiven (name : String) (value : Value) : Bool :=
  match value.field? name with
  | none | some .null => false
  | some _ => true

/-- The field is this word. -/
def hasWord (name word : String) (value : Value) : Bool :=
  match value.field? name with
  | some (.string text) => text = word
  | _ => false

end Value

/-! ## The document -/

namespace Output

def listedFiles (document : Value) : List Value :=
  document.listed "files"

def listedViolations (document : Value) : List Value :=
  (listedFiles document).flatMap (Value.listed "violations")

def stat? (name : String) (document : Value) : Option Value :=
  (document.field? "stats").bind (Value.field? name)

theorem listedFiles_document (report : Report) :
    listedFiles (document report) = report.files.map fileValue := by
  simp [listedFiles, Value.listed, document, Value.field?_ofFields]

theorem listedViolations_document (report : Report) :
    listedViolations (document report) = report.violations.map violationValue := by
  have listed : ∀ file : FileReport,
      (fileValue file).listed "violations" = file.violations.map violationValue := by
    intro file
    simp [Value.listed, fileValue, Value.field?_ofFields]
  rw [listedViolations, listedFiles_document, List.flatMap_map, Report.violations,
    List.map_flatMap]
  simp only [listed]

theorem field?_success (report : Report) :
    (document report).field? "success" =
      some (.bool (decide (ExitStatus.ofReport report = .success))) := by
  have agrees : decide (ExitStatus.ofReport report = .success) =
      (decide (report.errorCount = 0) && report.errors.isEmpty) := by
    simp only [ExitStatus.ofReport_eq_success_iff, Bool.decide_and, ← List.isEmpty_iff,
      Bool.decide_eq_true]
  rw [agrees]
  simp [document, Value.field?_ofFields]

/-- The numbers of the document are those of the report. -/
theorem stat?_document (report : Report) :
    stat? "total_errors" (document report) = some (.integer report.errorCount) ∧
      stat? "total_warnings" (document report) = some (.integer report.warningCount) ∧
      stat? "failed_files" (document report) = some (.integer report.errors.length) := by
  simp [stat?, document, Value.field?_ofFields]

theorem countP_hasWord (violations : List Violation) (severity : Severity) :
    (violations.map violationValue).countP (Value.hasWord "severity" severity.text) =
      (violations.filter (·.severity = severity)).length := by
  have told : ∀ violation : Violation,
      (violationValue violation).hasWord "severity" severity.text =
        decide (violation.severity = severity) := by
    intro violation
    simp only [Value.hasWord, violationValue, Value.field?_ofFields]
    cases violation.severity <;> cases severity <;> rfl
  rw [List.countP_map, ← List.countP_eq_length_filter]
  exact congrFun (congrArg List.countP (funext told)) violations

theorem countP_isGiven (files : List FileReport) :
    (files.map fileValue).countP (Value.isGiven "error") = (Report.errors ⟨files⟩).length := by
  have failed : ∀ file : FileReport,
      (fileValue file).isGiven "error" = (file.error?.map (file.file, ·)).isSome := by
    intro file
    simp only [Value.isGiven, fileValue, Value.field?_ofFields]
    cases file.error? <;> rfl
  rw [List.countP_map, Report.errors, List.length_filterMap_eq_countP]
  exact congrFun (congrArg List.countP (funext failed)) files

/-- A violation is an error or a warning. -/
theorem errorCount_add_warningCount (report : Report) :
    report.errorCount + report.warningCount = report.violations.length := by
  have other : ∀ violation : Violation,
      (decide (violation.severity = .warning)) = !decide (violation.severity = .error) := by
    intro violation
    cases violation.severity <;> rfl
  simp only [Report.errorCount, Report.warningCount, Report.count, other]
  exact (List.length_eq_length_filter_add _).symm

/-- The status of a report is the gravest of its parts, in any order.  The document says
that a run succeeded exactly if the status does, and its numbers are those of what it
lists: of the violations by their severities, which are two, and of the files that have
an error. -/
theorem document_agrees_with_status :
    (∀ first second : List FileReport, ExitStatus.ofReport ⟨first ++ second⟩ =
      (ExitStatus.ofReport ⟨first⟩).graver (ExitStatus.ofReport ⟨second⟩)) ∧
    (∀ files other : List FileReport, files.Perm other →
      ExitStatus.ofReport ⟨files⟩ = ExitStatus.ofReport ⟨other⟩) ∧
    ∀ report : Report,
      let shown := document report
      shown.field? "success" = some (.bool (decide (ExitStatus.ofReport report = .success))) ∧
      listedFiles shown = report.files.map fileValue ∧
      listedViolations shown = report.violations.map violationValue ∧
      ∃ errors warnings failed : Nat,
        stat? "total_errors" shown = some (.integer errors) ∧
        stat? "total_warnings" shown = some (.integer warnings) ∧
        stat? "failed_files" shown = some (.integer failed) ∧
        errors = (listedViolations shown).countP (Value.hasWord "severity" "error") ∧
        warnings = (listedViolations shown).countP (Value.hasWord "severity" "warning") ∧
        failed = (listedFiles shown).countP (Value.isGiven "error") ∧
        errors + warnings = (listedViolations shown).length := by
  refine ⟨ExitStatus.ofReport_append, fun _ _ => ExitStatus.ofReport_perm, ?_⟩
  intro report shown
  have files : listedFiles shown = report.files.map fileValue := listedFiles_document report
  have violations : listedViolations shown = report.violations.map violationValue :=
    listedViolations_document report
  rcases stat?_document report with ⟨errors, warnings, failed⟩
  refine ⟨field?_success report, files, violations, _, _, _, errors, warnings, failed,
    ?_, ?_, ?_, ?_⟩
  · rw [violations]
    exact (countP_hasWord report.violations .error).symm
  · rw [violations]
    exact (countP_hasWord report.violations .warning).symm
  · rw [files]
    exact (countP_isGiven report.files).symm
  · rw [violations, List.length_map]
    exact errorCount_add_warningCount report

/-- A violation that is only a warning, a malformed file and a lost one.  The gravest
comes last, and first after the files were turned round. -/
theorem document_agrees_with_status_mixed :
    let clean : FileReport := ⟨"a", .ok [⟨"a", ⟨2, 0⟩, .warning, "m", "r"⟩]⟩
    let broken : FileReport := ⟨"b", .error (.malformed ⟨⟨1, 2⟩, .noEnclosingBlock, "x"⟩)⟩
    let lost : FileReport := ⟨"c", .error .lostWorker⟩
    [clean, broken, lost].Perm [lost, broken, clean] ∧
      ExitStatus.ofReport ⟨[clean, broken]⟩ = .malformed ∧
      ExitStatus.ofReport ⟨[clean, broken, lost]⟩ = .ioFailure ∧
      ExitStatus.ofReport ⟨[lost, broken, clean]⟩ = .ioFailure ∧
      stat? "failed_files" (document ⟨[clean, broken, lost]⟩) = some (.integer 2) := by
  intro clean broken lost
  rcases document_agrees_with_status with ⟨together, inAnyOrder, documented⟩
  have turned : [clean, broken, lost].Perm [lost, broken, clean] :=
    List.reverse_perm [lost, broken, clean]
  have gravest : ExitStatus.ofReport ⟨[clean, broken, lost]⟩ = .ioFailure :=
    together [clean, broken] [lost]
  rcases documented ⟨[clean, broken, lost]⟩ with
    ⟨-, files, -, errors, warnings, failed, -, -, shown, -, -, counted, -⟩
  have two : failed = 2 := by
    rw [counted, files]
    rfl
  rw [two] at shown
  exact ⟨turned, rfl, gravest, (inAnyOrder _ _ turned).symm.trans gravest, shown⟩

end Output
end StyleOrder
