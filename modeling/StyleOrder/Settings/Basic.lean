import StyleOrder.Text.Number
import StyleOrder.Value.Canonical
import StyleOrder.Value.Mismatch

namespace StyleOrder

/-!
# Settings

What a project can settle about its runs: which files to lint, which to leave
out, how many workers to use, and the levels of the rules.  Every field may be
left unset.  The levels are kept as the value that was written; their meaning is
worked out when a run starts.
-/

structure Settings where
  included : Option (List String) := none
  excluded : Option (List String) := none
  jobs : Option Nat := none
  lint : Option Value := none

namespace Settings

/-- The one pattern of a project that sets none. -/
def defaultPattern : String := "**/*.sass"

def defaultExclusion : String := "node_modules/**/*"

def patterns (settings : Settings) : List String :=
  settings.included.getD [defaultPattern]

def exclusions (settings : Settings) : List String :=
  settings.excluded.getD [defaultExclusion]

/-! ### Settings as values -/

/-- Names of the fields, in the order in which a list gives them. -/
def fieldNames : List String := ["include", "exclude", "jobs", "lint"]

def patternsValue (patterns : List String) : Value :=
  .list (patterns.map .string)

/-- A field that is written only when it is set. -/
def fieldOf {α : Type} (name : String) (write : α → Value) : Option α → List (String × Value)
  | some content => [(name, write content)]
  | none => []

/-- Settings as a value.  Fields that are not set are left out. -/
def toValue (settings : Settings) : Value :=
  .ofFields (fieldOf "include" patternsValue settings.included ++
    fieldOf "exclude" patternsValue settings.excluded ++
    fieldOf "jobs" (fun jobs : Nat => .integer jobs) settings.jobs ++
    fieldOf "lint" id settings.lint)

/-- Null leaves a field unset. -/
def readOptional {α : Type} (read : Value → Except Mismatch α) : Value → Except Mismatch (Option α)
  | .null => return none
  | value => return some (← read value)

def readPattern : Value → Except Mismatch String
  | .string pattern => return pattern
  | value => throw (.wrongType value "a string")

def readPatterns : Value → Except Mismatch (List String)
  | .list items => items.mapM readPattern
  | value => throw (.wrongType value "a sequence")

/-- A number of workers has to fit into a machine word. -/
def readJobs : Value → Except Mismatch Nat
  | .integer number =>
      if 0 ≤ number && Text.fitsWord number then return number.toNat
      else throw (.outOfRange number "a number of workers")
  | value => throw (.wrongType value "a number of workers")

/-- Read one field into the settings. -/
def readField (settings : Settings) (name : String) (value : Value) : Except Mismatch Settings :=
  match name with
  | "include" => return { settings with included := ← readOptional readPatterns value }
  | "exclude" => return { settings with excluded := ← readOptional readPatterns value }
  | "jobs" => return { settings with jobs := ← readOptional readJobs value }
  | "lint" => return { settings with lint := ← readOptional (return ·.canonical) value }
  | name => throw (.unknownField name fieldNames)

/-- Read fields from left to right.  A name may come only once. -/
def readFields (seen : List String) (settings : Settings) :
    List (String × Value) → Except Mismatch Settings
  | [] => return settings
  | (name, value) :: rest => do
      if name ∈ seen then throw (.repeatedField name)
      else readFields (name :: seen) (← readField settings name value) rest

/-- Settings are an object, or a list that gives the fields in their order and
may stop early. -/
def ofValue : Value → Except Mismatch Settings
  | .object fields => readFields [] {} fields
  | .list items =>
      if fieldNames.length < items.length then throw (.tooManyElements items.length)
      else readFields [] {} (fieldNames.zip items)
  | value => throw (.wrongType value "settings")

end Settings
end StyleOrder
