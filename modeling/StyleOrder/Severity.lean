namespace StyleOrder

/-!
# Severities and levels

A violation has a severity.  A rule has a level: the severity of what it
reports, or off.
-/

/-- Only errors make a run fail. -/
inductive Severity where
  | error
  | warning
deriving DecidableEq, Repr, Inhabited

namespace Severity

def text : Severity → String
  | error => "error"
  | warning => "warning"

def isError : Severity → Bool
  | error => true
  | warning => false

end Severity

/-- What the settings say about one rule. -/
inductive Level where
  | off
  | warn
  | error
deriving DecidableEq, Repr, Inhabited

namespace Level

def text : Level → String
  | off => "off"
  | warn => "warn"
  | error => "error"

def ofText? : String → Option Level
  | "off" => some off
  | "warn" => some warn
  | "error" => some error
  | _ => none

/-- Severity of what the rule reports; none when the rule is off. -/
def severity? : Level → Option Severity
  | off => none
  | warn => some .warning
  | error => some .error

theorem ofText?_text (level : Level) : ofText? level.text = some level := by
  cases level <;> rfl

end Level
end StyleOrder
