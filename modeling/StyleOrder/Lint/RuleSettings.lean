import StyleOrder.Lint.Rule
import StyleOrder.Lint.Similarity
import StyleOrder.Value.Mismatch

namespace StyleOrder

/-!
# Rule settings

Levels for rules by name.  A rule that is not mentioned runs at its default
severity.  Settings may mention names that no rule has; that is only found when
they are validated, and the complaint does not depend on the order in which the
names were given.
-/

structure RuleSettings where
  levels : List (String × Level) := []
deriving DecidableEq, Repr

namespace RuleSettings

def level? (settings : RuleSettings) (rule : String) : Option Level :=
  (settings.levels.find? (·.1 = rule)).map Prod.snd

/-- Replace the level of a rule, or add it at the end. -/
def setLevel (rule : String) (level : Level) : List (String × Level) → List (String × Level)
  | [] => [(rule, level)]
  | (other, kept) :: rest =>
      if other = rule then (rule, level) :: rest else (other, kept) :: setLevel rule level rest

def set (settings : RuleSettings) (rule : String) (level : Level) : RuleSettings where
  levels := setLevel rule level settings.levels

/-- Severity at which a rule reports, given its default; none when it is off. -/
def severity? (settings : RuleSettings) (rule : String) (default : Severity) : Option Severity :=
  match settings.level? rule with
  | some level => level.severity?
  | none => some default

/-- Names that no rule has, in ascending order. -/
def unknown (settings : RuleSettings) : List String :=
  ((settings.levels.map Prod.fst).filter (· ∉ Rule.names)).mergeSort
    (fun left right => decide (left ≤ right))

/-- The complaint about names that no rule has. -/
def complaint (unknown : List String) : String :=
  let suggestions := unknown.filterMap fun name =>
    (Similarity.closest name Rule.names).map fun rule =>
      "  '" ++ name ++ "': did you mean '" ++ rule ++ "'?\n"
  let listed := Rule.names.map fun rule => "  - " ++ rule ++ "\n"
  "Invalid lint rule name(s): " ++ ", ".intercalate unknown ++ "\n" ++
    String.join suggestions ++ "\nValid rule names are:\n" ++ String.join listed

def validate (settings : RuleSettings) : Except String Unit :=
  if settings.unknown.isEmpty then .ok () else .error (complaint settings.unknown)

/-- Settings as a value.  Empty settings are an empty object. -/
def toValue (settings : RuleSettings) : Value :=
  if settings.levels.isEmpty then .ofFields []
  else
    .ofFields [("rules", .ofFields (settings.levels.map fun (rule, level) =>
      (rule, .string level.text)))]

/-- A level is a word, or an object whose only field has that word as its name
and nothing as its value. -/
def readLevel : Value → Except Mismatch Level
  | .string word => named word
  | .object [(word, content)] => do
      let level ← named word
      match content with
      | .null => return level
      | content => throw (.wrongType content "unit")
  | .object _ => throw .notOneField
  | value => throw (.wrongType value "string or map")
where
  named (word : String) : Except Mismatch Level :=
    match Level.ofText? word with
    | some level => .ok level
    | none => .error (.unknownWord word ["off", "warn", "error"])

def readLevels : Value → Except Mismatch (List (String × Level))
  | .object fields => fields.mapM fun (rule, value) => return (rule, ← readLevel value)
  | value => throw (.wrongType value "a map")

/-- Read the fields of an object from left to right, keeping the rules seen. -/
def readFields (levels : List (String × Level)) :
    List (String × Value) → Except Mismatch (List (String × Level))
  | [] => return levels
  | (name, value) :: rest =>
      if name = "rules" then do readFields (← readLevels value) rest
      else throw (.unknownField name ["rules"])

/-- Settings are an object with the single field `rules`, or a list whose single
element stands for that field. -/
def ofValue : Value → Except Mismatch RuleSettings
  | .object fields => return ⟨← readFields [] fields⟩
  | .list [] => return {}
  | .list (rules :: more) => do
      let levels ← readLevels rules
      if more.isEmpty then return ⟨levels⟩ else throw (.tooManyElements (more.length + 1))
  | value => throw (.wrongType value "struct LintConfig")

end RuleSettings
end StyleOrder
