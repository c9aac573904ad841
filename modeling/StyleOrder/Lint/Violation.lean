import StyleOrder.Position
import StyleOrder.Severity

namespace StyleOrder

/-!
# Violations
-/

/-- Something a rule found in a file.  Violations are not changed after they
have been reported, except for the severity, which the settings decide. -/
structure Violation where
  file : String
  position : Position
  severity : Severity
  message : String
  rule : String
deriving DecidableEq, Repr

namespace Violation

def withSeverity (violation : Violation) (severity : Severity) : Violation :=
  { violation with severity }

/-- File, line, column and message, divided by colons. -/
def text (violation : Violation) : String :=
  violation.file ++ ":" ++ toString violation.position.line ++ ":" ++
    toString violation.position.column ++ ": " ++ violation.message

/-- Violations as a numbered list. -/
def listing (violations : List Violation) : String :=
  if violations.isEmpty then "(no violations)"
  else
    "\n".intercalate <| (violations.zipIdx 1).map fun (violation, number) =>
      "[" ++ toString number ++ "] " ++ violation.text

end Violation
end StyleOrder
