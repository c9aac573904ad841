import StyleOrder.Command.Options
import StyleOrder.Command.Run

namespace StyleOrder
namespace Options

/-!
# The program

The program turns its options into a request and carries it out.  Whatever
happens then ends in a status and in text for the two streams.
-/

/-- What the program prints about itself. -/
def versionLine : String := "sass-order 0.1.0\n"

def helpText : String :=
  "\n".intercalate
    ["Check the property order of indented Sass files",
      "",
      "Usage: sass-order [OPTIONS] [FILES]...",
      "",
      "Arguments:",
      "  [FILES]...  Files to lint (default: every .sass file below the current directory)",
      "",
      "Options:",
      "      --stdin            Lint Sass read from standard input",
      "  -c, --config <FILE>    Path to config file",
      "  -f, --format <FORMAT>  Output format [default: classic]",
      "  -j, --jobs <N>         Number of worker threads",
      "      --color            Force colored output even when not a TTY",
      "      --no-color         Disable colored output",
      "  -q, --quiet            Suppress summary lines and progress indicators",
      "  -h, --help             Print help",
      "  -V, --version          Print version",
      ""]

/-- The request that options stand for, with the text of the input stream if
that is to be linted. -/
def request (options : Options) (text : Option String) : Request where
  files := options.files.map .ofString
  text := text
  config := options.config.map .ofString
  format := options.format.getD .classic
  jobs := options.jobs
  quiet := options.quiet

/-- The paths that a run looks at, apart from the files it discovers. -/
def paths (options : Options) (base : Path) : List Path :=
  let settings := match options.config with
    | some path => [base.join (.ofString path)]
    | none => base.ancestors.flatMap Settings.candidates
  settings ++ (options.request none).resolved base

/-- A program that could not carry out its request. -/
def failed (message : String) : Outcome where
  status := .ioFailure
  written := { err := Output.complaint message }

/-- Carry out a request, with complaints about discovery as part of the
outcome. -/
def finish (request : Request) (disk : Disk) (base : Path) (spare : Nat) : Outcome :=
  match request.run disk base spare with
  | .ok outcome => outcome
  | .error error => failed error.message

/-- What the program does with its options.  The input stream is read before
anything else if it is to be linted. -/
def perform (options : Options) (disk : Disk) (base : Path) (spare : Nat)
    (stream : Except ReadFailure String) : Outcome :=
  if options.input then
    match stream with
    | .ok text => finish (options.request (some text)) disk base spare
    | .error cause => failed ("Failed to read standard input: " ++ cause.message)
  else finish (options.request none) disk base spare

end Options
end StyleOrder
