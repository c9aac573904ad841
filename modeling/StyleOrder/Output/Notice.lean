import StyleOrder.Lint.Report

namespace StyleOrder
namespace Output

/-!
# Notices

One workflow command a line, by which a build service marks lines of a change.
The characters that divide the parts of a command are escaped inside them, so a
command can be read back.
-/

/-- One notice.  Line and column are missing where they are not known, and
columns are counted from one. -/
structure Notice where
  severity : Severity
  file : String
  line : Option Nat
  column : Option Nat
  text : String
deriving DecidableEq, Repr

namespace Notice

def ofViolation (violation : Violation) : Notice where
  severity := violation.severity
  file := violation.file
  line := some violation.position.line
  column := some (violation.position.column + 1)
  text := violation.message ++ " [" ++ violation.rule ++ "]"

/-- Only a malformed line has a number to show. -/
def ofError (file : String) (error : LintError) : Notice where
  severity := .error
  file := file
  line :=
    match error with
    | .malformed malformed => some malformed.position.line
    | .unreadable _ _ | .lostWorker => none
  column := none
  text := error.message

/-- Violations first, then the files that could not be linted. -/
def ofReport (report : Report) : List Notice :=
  report.violations.map ofViolation ++ report.errors.map fun (file, error) => ofError file error

def escapeText (c : Char) : List Char :=
  if c = '%' then ['%', '2', '5']
  else if c = '\r' then ['%', '0', 'D']
  else if c = '\n' then ['%', '0', 'A']
  else [c]

/-- In a property the colon and the comma are escaped as well. -/
def escapeProperty (c : Char) : List Char :=
  if c = ':' then ['%', '3', 'A']
  else if c = ',' then ['%', '2', 'C']
  else escapeText c

def escape (escapeChar : Char → List Char) (text : String) : String :=
  String.ofList (text.toList.flatMap escapeChar)

def write (notice : Notice) : String :=
  let line := match notice.line with
    | some line => ",line=" ++ toString line
    | none => ""
  let column := match notice.column with
    | some column => ",col=" ++ toString column
    | none => ""
  "::" ++ notice.severity.text ++ " file=" ++ escape escapeProperty notice.file ++
    line ++ column ++ "::" ++ escape escapeText notice.text ++ "\n"

end Notice
end Output
end StyleOrder
