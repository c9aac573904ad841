import StyleOrder.Lint.RuleSettings
import StyleOrder.Outline.Nesting

namespace StyleOrder

/-!
# Reports

Linting a file gives its violations, or the reason why there are none to give.
A report is the outcome for each file of a batch, in the order of the batch.
-/

/-- Why a file could not be read. -/
inductive ReadFailure where
  | notFound
  | isDirectory
  | notDirectory
  | notText
  | other (message : String)
deriving DecidableEq, Repr

namespace ReadFailure

def message : ReadFailure → String
  | notFound => "No such file or directory (os error 2)"
  | isDirectory => "Is a directory (os error 21)"
  | notDirectory => "Not a directory (os error 20)"
  | notText => "stream did not contain valid UTF-8"
  | other message => message

end ReadFailure

/-- Why a file could not be linted. -/
inductive LintError where
  | unreadable (path : String) (cause : ReadFailure)
  | malformed (line : Malformed)
  /-- The worker in charge of the file stopped before it had a result. -/
  | lostWorker
deriving DecidableEq, Repr

namespace LintError

def message : LintError → String
  | unreadable path cause => "failed to read " ++ path ++ ": " ++ cause.message
  | malformed line => line.message
  | lostWorker => "worker thread stopped before linting this file"

/-- Failures that have nothing to do with the text of the file. -/
def isIo : LintError → Bool
  | unreadable _ _ | lostWorker => true
  | malformed _ => false

def isMalformed : LintError → Bool
  | malformed _ => true
  | unreadable _ _ | lostWorker => false

end LintError

structure FileReport where
  file : String
  outcome : Except LintError (List Violation)

namespace FileReport

def violations (report : FileReport) : List Violation :=
  match report.outcome with
  | .ok violations => violations
  | .error _ => []

def error? (report : FileReport) : Option LintError :=
  match report.outcome with
  | .ok _ => none
  | .error error => some error

end FileReport

structure Report where
  files : List FileReport := []

namespace Report

def violations (report : Report) : List Violation :=
  report.files.flatMap FileReport.violations

/-- Files that could not be linted, with the reason. -/
def errors (report : Report) : List (String × LintError) :=
  report.files.filterMap fun file => file.error?.map (file.file, ·)

def count (report : Report) (severity : Severity) : Nat :=
  (report.violations.filter (·.severity = severity)).length

def errorCount (report : Report) : Nat :=
  report.count .error

def warningCount (report : Report) : Nat :=
  report.count .warning

def hasIoErrors (report : Report) : Bool :=
  report.errors.any (·.2.isIo)

def hasMalformed (report : Report) : Bool :=
  report.errors.any (·.2.isMalformed)

end Report

namespace Outline

/-- All violations of an outline: block after block, and rule after rule within
a block. -/
def lint (outline : Outline) (file : String) (settings : RuleSettings) : List Violation :=
  outline.blocks.flatMap fun block =>
    Rule.all.flatMap fun rule =>
      match settings.severity? rule.name rule.severity with
      | none => []
      | some severity => (rule.check file block).map (·.withSeverity severity)

end Outline

/-- All violations of a source text, unless its nesting is malformed. -/
def lintSource (file source : String) (settings : RuleSettings) :
    Except Malformed (List Violation) := do
  return (← Outline.parse source).lint file settings

end StyleOrder
