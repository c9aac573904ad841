import StyleOrder.Command.Program

namespace StyleOrder
namespace Main

/-!
# The command line

Everything that touches the outside world: the files that a run may look at are
read into a disk, the run is carried out on that disk, and its outcome is
written.  Files have to be named, because directories are not searched here.
-/

/-- What is at a path, if anything is. -/
def itemAt (path : Path) : IO (Option Item) := do
  try
    return some (.file (← IO.FS.readBinFile path.string))
  catch
    | .noFileOrDirectory .. => return none
    | _ => return some .directory

/-- A disk with what is found at some paths. -/
def diskAt (base : Path) (paths : List Path) : IO Disk :=
  paths.foldlM (fun disk path => do
    match ← itemAt path with
    | some item => return disk.put path item
    | none => return disk) (Disk.put {} base .directory)

/-- All of the input stream, which may end at any byte. -/
partial def readAll (stream : IO.FS.Stream) (content : ByteArray) : IO ByteArray := do
  let more ← stream.read 65536
  if more.isEmpty then return content else readAll stream (content ++ more)

def readInput : IO (Except ReadFailure String) := do
  match String.fromUTF8? (← readAll (← IO.getStdin) ByteArray.empty) with
  | some text => return .ok text
  | none => return .error .notText

/-- Write an outcome and give the code to end with. -/
def finish (colour : Bool) (outcome : Outcome) : IO UInt32 := do
  (← IO.getStdout).putStr (Output.render colour outcome.written.out)
  (← IO.getStderr).putStr (Output.render colour outcome.written.err)
  return outcome.status.code.toUInt32

/-- End without a run. -/
def stop : Options.Stop → IO UInt32
  | .help => do IO.print Options.helpText; return 0
  | .version => do IO.print Options.versionLine; return 0
  | .refused refusal => do
      IO.eprint ("error: " ++ refusal.message ++ "\n")
      return 2

/-- The variables that colour depends on. -/
def environment : IO (String → Option String) := do
  let names := ["NO_COLOR", "CLICOLOR_FORCE", "CLICOLOR"]
  let found ← names.mapM fun name => return (name, ← IO.getEnv name)
  return fun name => (found.lookup name).join

def run (options : Options) : IO UInt32 := do
  let base := Path.ofString (toString (← IO.currentDir))
  let colour := options.painted (← environment) (← (← IO.getStdout).isTty)
  if !options.input && options.files.isEmpty then
    finish colour (Options.failed "No files were named")
  else
    let stream ← if options.input then readInput else pure (.ok "")
    let disk ← diskAt base (options.paths base)
    finish colour (options.perform disk base 1 stream)

end Main
end StyleOrder

def main (arguments : List String) : IO UInt32 :=
  match StyleOrder.Options.parse arguments with
  | .ok options => StyleOrder.Main.run options
  | .error stop => StyleOrder.Main.stop stop
