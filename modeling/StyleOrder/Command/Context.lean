import StyleOrder.Lint.RuleSettings
import StyleOrder.Settings.Load

namespace StyleOrder

/-!
# Contexts

What a run works with once its settings are known: the settings, the levels of
the rules read from them, and the number of workers.  A context is only made if
all of it can be used, so a run that has one needs no further checks.
-/

structure Context where
  settings : Settings
  rules : RuleSettings
  /-- Where the settings come from, unless they are the default. -/
  path : Option Path
  jobs : Nat

namespace Context

inductive Error where
  | notLoaded (path : Path) (cause : Settings.LoadError)
  | badRules (mismatch : Mismatch)
  | unknownRules (complaint : String)
  | noWorkers

namespace Error

/-- The causes of a failure to load, outermost first.  A failure to read is told
with its cause, and then the cause once more. -/
def causes (cause : Settings.LoadError) : List String :=
  match cause with
  | .unreadable failure => [cause.message, failure.message]
  | _ => [cause.message]

def message : Error → String
  | notLoaded path cause =>
      ": ".intercalate (("Failed to load config from " ++ path.string) :: causes cause)
  | badRules mismatch => "Invalid 'lint' configuration: " ++ mismatch.message
  | unknownRules complaint => complaint
  | noWorkers => "--jobs must be at least 1"

end Error

/-- The settings file of a run: the one asked for, seen from the base, or the
nearest one. -/
def settingsPath (disk : Disk) (base : Path) (asked : Option Path) : Option Path :=
  match asked with
  | some path => some (base.join path)
  | none => Settings.locate disk base

def loadSettings (disk : Disk) (path : Option Path) (parsers : Settings.Parsers := {}) :
    Except Error Settings :=
  match path with
  | none => .ok {}
  | some path =>
      match Settings.load disk path parsers with
      | .ok settings => .ok settings
      | .error cause => .error (.notLoaded path cause)

/-- The levels that settings give to rules, all of which have to exist. -/
def readRules (settings : Settings) : Except Error RuleSettings :=
  match settings.lint with
  | none => .ok {}
  | some value =>
      match RuleSettings.ofValue value with
      | .error mismatch => .error (.badRules mismatch)
      | .ok rules =>
          match rules.validate with
          | .error complaint => .error (.unknownRules complaint)
          | .ok _ => .ok rules

/-- Number of workers: as asked for, else as set, else the spare ones. -/
def chooseJobs (asked set : Option Nat) (spare : Nat) : Nat :=
  (asked <|> set).getD (max 1 spare)

/-- The context of a run in a base directory, on a machine with `spare`
workers. -/
def load (disk : Disk) (base : Path) (asked : Option Path) (jobs : Option Nat) (spare : Nat)
    (parsers : Settings.Parsers := {}) : Except Error Context := do
  let path := settingsPath disk base asked
  let settings ← loadSettings disk path parsers
  let rules ← readRules settings
  if jobs = some 0 then throw .noWorkers
  return { settings, rules, path, jobs := chooseJobs jobs settings.jobs spare }

end Context
end StyleOrder
