import StyleOrder.Lint.Report
import StyleOrder.Value.Writer

namespace StyleOrder
namespace Output

/-!
# Reports as data

The whole report as one value, for tools to read.  Files that could not be
linted are part of it.
-/

def violationValue (violation : Violation) : Value :=
  .ofFields [
    ("message", .string violation.message),
    ("severity", .string violation.severity.text),
    ("rule", .string violation.rule),
    ("line", .integer violation.position.line),
    ("column", .integer violation.position.column)]

def fileValue (report : FileReport) : Value :=
  .ofFields [
    ("file", .string report.file),
    ("violations", .list (report.violations.map violationValue)),
    ("error",
      match report.error? with
      | some error => .string error.message
      | none => .null)]

def document (report : Report) : Value :=
  .ofFields [
    ("success", .bool (report.errorCount = 0 && report.errors.isEmpty)),
    ("files", .list (report.files.map fileValue)),
    ("stats", .ofFields [
      ("total_files", .integer report.files.length),
      ("total_errors", .integer report.errorCount),
      ("total_warnings", .integer report.warningCount),
      ("failed_files", .integer report.errors.length)])]

end Output
end StyleOrder
