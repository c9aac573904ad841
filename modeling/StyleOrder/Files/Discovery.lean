import StyleOrder.Files.Glob

namespace StyleOrder
namespace Discovery

/-!
# Discovery

The files to lint are those that some pattern names below a base directory and
that no exclusion matches.  Exclusions are matched against the path below the
base, as a text.  The result is sorted and holds no path twice.
-/

inductive Error where
  | badExclusion (pattern : String) (cause : Glob.Error)
  | badPattern (pattern : String) (cause : Glob.Error)

namespace Error

/-- The complaint alone. -/
def headline : Error → String
  | badExclusion pattern _ => "Invalid exclude pattern: " ++ pattern
  | badPattern pattern _ => "Invalid glob pattern: " ++ pattern

def cause : Error → Glob.Error
  | badExclusion _ cause | badPattern _ cause => cause

/-- The complaint and what causes it. -/
def message (error : Error) : String :=
  error.headline ++ ": " ++ error.cause.message

end Error

/-- Read the exclusions. -/
def compileExclusions (exclusions : List String) : Except Error (List (List Glob.Token)) :=
  exclusions.mapM fun pattern =>
    match Glob.compile pattern.toList with
    | .ok tokens => .ok tokens
    | .error cause => .error (.badExclusion pattern cause)

/-- The path of a file as seen from the base, if the file is below it. -/
def relative (base path : Path) : Path :=
  (base.below? path).getD path

def excluded (exclusions : List (List Glob.Token)) (path : Path) : Bool :=
  exclusions.any (Glob.matchesText · path.text)

/-- What one pattern contributes: regular files below the base that are not
excluded. -/
def select (disk : Disk) (base : Path) (exclusions : List (List Glob.Token))
    (found : List Path) : List Path :=
  ((found.filter disk.isFile).map (relative base)).filter fun path => !excluded exclusions path

/-- The paths that a pattern names from the base. -/
def enumerate (disk : Disk) (base : Path) (pattern : String) : Except Error (List Path) :=
  let full := base.join (.ofString pattern)
  match Glob.expand disk full.text with
  | .ok found => .ok found
  | .error cause => .error (.badPattern full.string cause)

/-- Sorted paths without repetition.  Of those that mean the same the first is
kept. -/
def sort (paths : List Path) : List Path :=
  paths.foldl (fun sorted path => path.insert sorted) []

/-- The files to lint below a base. -/
def discover (disk : Disk) (base : Path) (patterns exclusions : List String) :
    Except Error (List Path) := do
  let exclusions ← compileExclusions exclusions
  let found ← patterns.mapM fun pattern =>
    select disk base exclusions <$> enumerate disk base pattern
  return sort found.flatten

end Discovery
end StyleOrder
