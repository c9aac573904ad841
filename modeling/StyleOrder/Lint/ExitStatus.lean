import StyleOrder.Lint.Report

namespace StyleOrder

/-!
# Exit status

How a run ended, for scripts to act on.  When several things went wrong the run
ends with the gravest: unreadable files before malformed ones, and those before
violations.
-/

inductive ExitStatus where
  | success
  | violations
  | badSettings
  | ioFailure
  | malformed
deriving DecidableEq, Repr

namespace ExitStatus

def code : ExitStatus → Nat
  | success => 0
  | violations => 1
  | badSettings => 2
  | ioFailure => 4
  | malformed => 5

def text : ExitStatus → String
  | success => "success"
  | violations => "ordering violations"
  | badSettings => "configuration error"
  | ioFailure => "I/O error"
  | malformed => "parse error"

/-- The status of a finished run. -/
def ofReport (report : Report) : ExitStatus :=
  if report.hasIoErrors then ioFailure
  else if report.hasMalformed then malformed
  else if 0 < report.errorCount then violations
  else success

end ExitStatus
end StyleOrder
