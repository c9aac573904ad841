import StyleOrder.Files.Glob
import StyleOrder.Settings.Document
import StyleOrder.Toml.Reader
import StyleOrder.Value.Json
import StyleOrder.Yaml.Reader

namespace StyleOrder
namespace Settings

/-!
# Loading settings

Settings are read from a file whose name tells its format.  A file that can be
read still has to make sense: what is refused is listed as a type of problems,
and the first problem found is the one reported.
-/

inductive Format where
  | yaml
  | json
  | toml
deriving DecidableEq, Repr

namespace Format

def title : Format → String
  | yaml => "YAML"
  | json => "JSON"
  | toml => "TOML"

end Format

/-- What is wrong with a settings file. -/
inductive Problem where
  | unparsable (format : Format) (detail : String)
  | noWorkers
  | noPatterns
  | emptyPattern (field : String)
  | badPattern (field pattern : String) (cause : Glob.Error)
  | lintNotMapping

namespace Problem

def message : Problem → String
  | unparsable format detail => format.title ++ " parse error: " ++ detail
  | noWorkers => "'jobs' must be at least 1"
  | noPatterns => "'include' must list at least one pattern"
  | emptyPattern field => "'" ++ field ++ "' has an empty pattern"
  | badPattern field pattern cause =>
      "'" ++ field ++ "' pattern '" ++ pattern ++ "' is invalid: " ++ cause.message
  | lintNotMapping => "'lint' must be a mapping"

end Problem

inductive LoadError where
  | unreadable (cause : ReadFailure)
  | invalid (path : Path) (problem : Problem)
  | unsupported (path : Path)

namespace LoadError

def message : LoadError → String
  | unreadable cause => "failed to read config file: " ++ cause.message
  | invalid path problem => "invalid config in " ++ path.string ++ ": " ++ problem.message
  | unsupported path => "unsupported config format: " ++ path.string

end LoadError

/-! ### Reading -/

/-- What tells the document in a text, for each format. -/
structure Parsers where
  yaml : String → Option Yaml.Node := fun text => Yaml.parse text
  json : String → Option Value := Json.parse
  toml : String → Option Value := Toml.parse

/-- The settings that a text in some format gives. -/
def Format.read (format : Format) (text : String) (parsers : Parsers := {}) :
    Except Problem Settings :=
  let reading : Except Mismatch (Option Settings) :=
    match format with
    | yaml =>
        if saysNothing text.toList then .ok (some {})
        else (parsers.yaml text).mapM ofNode
    | json => (parsers.json text).mapM ofValue
    | toml => (parsers.toml text).mapM ofValue
  match reading with
  | .ok (some settings) => .ok settings
  | .ok none => .error (.unparsable format "malformed document")
  | .error mismatch => .error (.unparsable format mismatch.message)

/-- The formats to try, in this order.  Only a file without an extension has more
than one, and only under its one name. -/
def formats (path : Path) : List Format :=
  match path.extension?.map String.ofList with
  | some "yml" | some "yaml" => [.yaml]
  | some "json" => [.json]
  | some "toml" => [.toml]
  | some _ => []
  | none => if path.fileName? = some ".sassorderrc".toList then [.yaml, .json] else []

/-- Read a text in the first format that takes it.  The last one says what is
wrong. -/
def readAs (parsers : Parsers) (text : String) (format : Format) :
    List Format → Except Problem Settings
  | [] => format.read text parsers
  | next :: rest =>
      match format.read text parsers with
      | .ok settings => .ok settings
      | .error _ => readAs parsers text next rest

/-! ### Validation -/

def validatePattern (field pattern : String) : Except Problem Unit :=
  if Text.blank pattern.toList then .error (.emptyPattern field)
  else
    match Glob.compile pattern.toList with
    | .ok _ => .ok ()
    | .error cause => .error (.badPattern field pattern cause)

def validatePatterns (field : String) (patterns : Option (List String)) : Except Problem Unit :=
  (patterns.getD []).forM (validatePattern field)

/-- Refuse settings that no run could use. -/
def validate (settings : Settings) : Except Problem Unit := do
  if settings.jobs = some 0 then throw .noWorkers
  if settings.included = some [] then throw .noPatterns
  validatePatterns "include" settings.included
  validatePatterns "exclude" settings.excluded
  if settings.lint.any (!·.isObject) then throw .lintNotMapping

/-- Settings from the text of the file with the given path. -/
def ofText (text : String) (path : Path) (parsers : Parsers := {}) : Except LoadError Settings :=
  match formats path with
  | [] => .error (.unsupported path)
  | format :: others =>
      match readAs parsers text format others with
      | .error problem => .error (.invalid path problem)
      | .ok settings =>
          match settings.validate with
          | .error problem => .error (.invalid path problem)
          | .ok _ => .ok settings

/-- Settings from a file. -/
def load (disk : Disk) (path : Path) (parsers : Parsers := {}) : Except LoadError Settings :=
  match disk.read path with
  | .error cause => .error (.unreadable cause)
  | .ok text => ofText text path parsers

/-! ### Finding the file -/

/-- Names of settings files, the first of those present counts. -/
def fileNames : List String :=
  [".sassorderrc.yml", ".sassorderrc.yaml", ".sassorderrc.json", ".sassorderrc", "sassorder.toml"]

/-- Where a directory may have its settings file. -/
def candidates (directory : Path) : List Path :=
  fileNames.map fun name => directory.join (.ofString name)

/-- The settings file in a directory. -/
def locateIn (disk : Disk) (directory : Path) : Option Path :=
  (candidates directory).find? disk.isFile

/-- The settings file of the nearest directory that has one, from a directory
upwards. -/
def locate (disk : Disk) (start : Path) : Option Path :=
  start.ancestors.findSome? (locateIn disk)

end Settings
end StyleOrder
