import StyleOrder.Command.Context
import StyleOrder.Files.Discovery
import StyleOrder.Lint.Batch
import StyleOrder.Lint.ExitStatus
import StyleOrder.Output.Print

namespace StyleOrder

/-!
# Runs

A run lints a text, the files it is given, or the files that it discovers, and
prints one report.  It ends with a status and with what it has written; only a
discovery that cannot be carried out leaves it without either.
-/

/-- What a run is asked to do. -/
structure Request where
  files : List Path := []
  /-- A text to lint in place of files. -/
  text : Option String := none
  config : Option Path := none
  format : Output.Format := .classic
  jobs : Option Nat := none
  quiet : Bool := false

structure Outcome where
  status : ExitStatus
  written : Output.Written

/-- The name under which a text that comes from no file is reported. -/
def Batch.Input.textName : String := "stdin"

/-- A file of a batch, read from a disk. -/
def Batch.Input.ofFile (disk : Disk) (name : String) (path : Path) : Batch.Input where
  name := name
  text :=
    match disk.read path with
    | .ok text => .ok text
    | .error cause => .error (path.string, cause)

namespace Request

/-- The files asked for, as seen from the base. -/
def resolved (request : Request) (base : Path) : List Path :=
  request.files.map base.join

/-- The files that the settings select, under their names below the base. -/
def discovered (disk : Disk) (base : Path) (settings : Settings) :
    Except Discovery.Error (List Batch.Input) := do
  let found ← Discovery.discover disk base settings.patterns settings.exclusions
  return found.map fun path => .ofFile disk path.string (base.join path)

/-- The batch that a request stands for.  Files asked for keep their order and
their full paths as names. -/
def inputs (request : Request) (disk : Disk) (base : Path) (settings : Settings) :
    Except Discovery.Error (List Batch.Input) :=
  match request.text with
  | some text => return [.ofText Batch.Input.textName text]
  | none =>
      if request.files.isEmpty then discovered disk base settings
      else return (request.resolved base).map fun path => .ofFile disk path.string path

/-- Files asked for whose nesting cannot be read reliably are pointed out. -/
def cautions (request : Request) (base : Path) : List Output.Piece :=
  if request.text.isSome then []
  else
    ((request.resolved base).filter fun path =>
      (SheetKind.ofPath? path).any (!·.supported)).flatMap fun path =>
        Output.caution
          (path.string ++ " uses brace syntax; only indented .sass files are checked reliably")

/-- Carry out a request in a base directory. -/
def run (request : Request) (disk : Disk) (base : Path) (spare : Nat) :
    Except Discovery.Error Outcome := do
  match Context.load disk base request.config request.jobs spare with
  | .error error =>
      return { status := .badSettings, written := { err := Output.complaint error.message } }
  | .ok context =>
      let inputs ← request.inputs disk base context.settings
      let report := Batch.lint inputs context.rules context.jobs
      return {
        status := .ofReport report
        written :=
          { err := request.cautions base } ++ Output.print report request.format request.quiet }

end Request
end StyleOrder
