import StyleOrder.Output.Notice
import StyleOrder.Output.Document
import StyleOrder.Output.Paint

namespace StyleOrder
namespace Output

/-!
# Printing reports

What is found goes to the output stream.  Files that could not be linted go to
the error stream in the formats that people read, and are part of the output in
those that programs read.
-/

inductive Format where
  /-- One violation a line. -/
  | classic
  /-- Coloured text with a summary. -/
  | human
  /-- One document. -/
  | json
  /-- Workflow commands. -/
  | github
deriving DecidableEq, Repr

namespace Format

def all : List Format := [classic, human, json, github]

def text : Format → String
  | classic => "classic"
  | human => "human"
  | json => "json"
  | github => "github"

def ofText? (word : String) : Option Format :=
  all.find? (·.text = word)

end Format

/-- A complaint, introduced by a label. -/
def complaint (text : String) : List Piece :=
  [.styled .boldRed "error:", .plain (" " ++ text ++ "\n")]

def caution (text : String) : List Piece :=
  [.styled .boldYellow "warning:", .plain (" " ++ text ++ "\n")]

def classic (report : Report) : Written where
  out := report.violations.map fun violation => .plain (violation.text ++ "\n")
  err := report.errors.map fun (file, error) => .plain (file ++ ": " ++ error.message ++ "\n")

/-- A violation with its rule on a second line. -/
def humanViolation (violation : Violation) : List Piece :=
  let (label, message) := match violation.severity with
    | .error => (Piece.styled .boldRed "error:", Piece.styled .red violation.message)
    | .warning => (Piece.styled .boldYellow "warning:", Piece.styled .yellow violation.message)
  [.plain ("\n" ++ violation.file ++ ":" ++ toString violation.position.line ++ ":" ++
      toString violation.position.column ++ ": "),
    label, .plain " ", message, .plain "\n  ", .styled .dimmed "rule", .plain ": ",
    .styled .dimmed violation.rule, .plain "\n"]

/-- The verdict of a summary. -/
def verdict (errors warnings : Nat) : Piece :=
  if errors = 0 then
    if warnings = 0 then .styled .boldGreen "✓ No ordering issues found!"
    else .styled .boldYellow ("✓ Passed with " ++ toString warnings ++ " warning(s)")
  else if warnings = 0 then .styled .red ("✗ Found " ++ toString errors ++ " error(s)")
  else
    .styled .red
      ("✗ Found " ++ toString errors ++ " error(s) and " ++ toString warnings ++ " warning(s)")

def summary (report : Report) : List Piece :=
  let failed := report.errors.length
  [.plain "\n", verdict report.errorCount report.warningCount, .plain "\n"] ++
    (if failed = 0 then []
      else [.styled .red ("✗ " ++ toString failed ++ " file(s) could not be linted"),
        .plain "\n"]) ++
    [.plain "  ", .styled .dimmed "⏱",
      .plain (" " ++ toString report.files.length ++ " file(s) checked\n")]

def human (report : Report) (quiet : Bool) : Written where
  out := report.violations.flatMap humanViolation ++ if quiet then [] else summary report
  err := report.errors.flatMap fun (file, error) => complaint (file ++ ": " ++ error.message)

def json (report : Report) : Written where
  out := [.plain ((document report).pretty ++ "\n")]

def github (report : Report) : Written where
  out := (Notice.ofReport report).map fun notice => .plain notice.write

/-- Print a finished report. -/
def print (report : Report) (format : Format) (quiet : Bool) : Written :=
  match format with
  | .classic => classic report
  | .human => human report quiet
  | .json => json report
  | .github => github report

end Output
end StyleOrder
