import StyleOrder.Output.Print
import StyleOrder.Text.Number

namespace StyleOrder

/-!
# Options

Arguments are read from left to right.  A switch takes effect where it stands.
The value of a parameter that stands in the next argument is looked at only when
something else follows that has a meaning, so an argument without any meaning
wins over a bad value before it.  Conflicts between options are found last.
-/

structure Options where
  files : List String := []
  /-- Lint the text on the input stream. -/
  input : Bool := false
  config : Option String := none
  format : Option Output.Format := none
  jobs : Option Nat := none
  colour : Bool := false
  plain : Bool := false
  quiet : Bool := false
deriving DecidableEq, Repr

namespace Options

/-- Options that stand alone. -/
inductive Switch where
  | input
  | colour
  | plain
  | quiet
  | help
  | version
deriving DecidableEq, Repr

/-- Options with a value. -/
inductive Parameter where
  | config
  | format
  | jobs
deriving DecidableEq, Repr

/-- What an option is. -/
inductive Role where
  | switch (switch : Switch)
  | parameter (parameter : Parameter)
deriving DecidableEq, Repr

namespace Role

def ofWord? : String → Option Role
  | "stdin" => some (switch .input)
  | "color" => some (switch .colour)
  | "no-color" => some (switch .plain)
  | "quiet" => some (switch .quiet)
  | "help" => some (switch .help)
  | "version" => some (switch .version)
  | "config" => some (parameter .config)
  | "format" => some (parameter .format)
  | "jobs" => some (parameter .jobs)
  | _ => none

def ofLetter? : Char → Option Role
  | 'q' => some (switch .quiet)
  | 'h' => some (switch .help)
  | 'V' => some (switch .version)
  | 'c' => some (parameter .config)
  | 'f' => some (parameter .format)
  | 'j' => some (parameter .jobs)
  | _ => none

end Role

/-- Why arguments are refused. -/
inductive Refusal where
  | unknownOption (option : String)
  | missingValue
  | badValue (value : String)
  | badNumber (value : String)
  | unneededValue (value : String)
  | conflict
deriving DecidableEq, Repr

namespace Refusal

def message : Refusal → String
  | unknownOption option => "unexpected argument '" ++ option ++ "' found"
  | missingValue => "a value is required"
  | badValue value | badNumber value => "invalid value '" ++ value ++ "'"
  | unneededValue value => "unexpected value '" ++ value ++ "' found"
  | conflict => "the argument cannot be used with another one"

end Refusal

/-- Why arguments do not lead to a run. -/
inductive Stop where
  | help
  | version
  | refused (refusal : Refusal)
deriving DecidableEq, Repr

/-- Something that was not there yet; an option cannot be given twice. -/
def once {α : Type} (given : Bool) (value : α) : Except Stop α :=
  if given then .error (.refused .conflict) else .ok value

def turnOn (options : Options) : Switch → Except Stop Options
  | .input => once options.input { options with input := true }
  | .colour => once options.colour { options with colour := true }
  | .plain => once options.plain { options with plain := true }
  | .quiet => once options.quiet { options with quiet := true }
  | .help => .error .help
  | .version => .error .version

/-! ### Values -/

def readFile (value : String) : Except Stop String :=
  if value.isEmpty then .error (.refused (.badValue value)) else .ok value

def readFormat (value : String) : Except Stop Output.Format :=
  match Output.Format.ofText? value with
  | some format => .ok format
  | none => .error (.refused (.badValue value))

/-- A number in decimal digits that fits into a machine word.  A plus sign may
stand before it. -/
def number? (value : List Char) : Option Nat :=
  let digits := match value with
    | '+' :: digits => digits
    | digits => digits
  (Text.numeral? 10 digits).filter (· < Text.wordSize)

def readNumber (value : String) : Except Stop Nat :=
  match number? value.toList with
  | some number => .ok number
  | none => .error (.refused (.badNumber value))

/-- Give a parameter its value.  That it has none yet is checked first. -/
def give (options : Options) (parameter : Parameter) (value : String) : Except Stop Options := do
  match parameter with
  | .config =>
      once options.config.isSome ()
      return { options with config := some (← readFile value) }
  | .format =>
      once options.format.isSome ()
      return { options with format := some (← readFormat value) }
  | .jobs =>
      once options.jobs.isSome ()
      return { options with jobs := some (← readNumber value) }

def addFiles (options : Options) (files : List String) : Except Stop Options := do
  return { options with files := options.files ++ (← files.mapM readFile) }

/-! ### Reading arguments -/

/-- What has been read but has not taken effect. -/
inductive Pending where
  | nothing
  | parameter (parameter : Parameter) (value : Option String)
  | files (files : List String)
deriving DecidableEq, Repr

structure Reading where
  options : Options := {}
  pending : Pending := .nothing
deriving DecidableEq, Repr

namespace Reading

/-- Let what is pending take effect. -/
def settle (reading : Reading) : Except Stop Options :=
  match reading.pending with
  | .nothing => .ok reading.options
  | .parameter _ none => .error (.refused .missingValue)
  | .parameter parameter (some value) => reading.options.give parameter value
  | .files files => reading.options.addFiles files

def turnOn (reading : Reading) (switch : Switch) : Except Stop Reading := do
  return { options := ← (← reading.settle).turnOn switch }

/-- A parameter with its value in the same argument. -/
def give (reading : Reading) (parameter : Parameter) (value : String) : Except Stop Reading := do
  return { options := ← (← reading.settle).give parameter value }

/-- A parameter whose value comes in the next argument. -/
def await (reading : Reading) (parameter : Parameter) : Except Stop Reading := do
  return { options := ← reading.settle, pending := .parameter parameter none }

def addFile (reading : Reading) (file : String) : Except Stop Reading :=
  match reading.pending with
  | .files files => .ok { reading with pending := .files (files ++ [file]) }
  | _ => return { options := ← reading.settle, pending := .files [file] }

/-- An argument that is no option: the value awaited, or else a file. -/
def addWord (reading : Reading) (word : String) : Except Stop Reading :=
  match reading.pending with
  | .parameter parameter none => .ok { reading with pending := .parameter parameter (some word) }
  | _ => reading.addFile word

/-- A long option, with a value if there is an equals sign. -/
def readWord (reading : Reading) (argument : List Char) : Except Stop Reading :=
  let word := String.ofList (argument.takeWhile (· ≠ '='))
  match Role.ofWord? word, argument.dropWhile (· ≠ '=') with
  | none, _ => .error (.refused (.unknownOption ("--" ++ word)))
  | some (.switch switch), [] => reading.turnOn switch
  | some (.switch _), _ :: value => .error (.refused (.unneededValue (String.ofList value)))
  | some (.parameter parameter), [] => reading.await parameter
  | some (.parameter parameter), _ :: value => reading.give parameter (String.ofList value)

/-- The value that follows the letter of a parameter, after an equals sign or at
once. -/
def attached : List Char → List Char
  | '=' :: value => value
  | value => value

/-- Short options in one argument. -/
def readLetters (reading : Reading) : List Char → Except Stop Reading
  | [] => .ok reading
  | letter :: rest =>
      match Role.ofLetter? letter with
      | none => .error (.refused (.unknownOption (String.ofList ['-', letter])))
      | some (.switch switch) => do readLetters (← reading.turnOn switch) rest
      | some (.parameter parameter) =>
          if rest.isEmpty then reading.await parameter
          else reading.give parameter (String.ofList (attached rest))

def read (reading : Reading) (argument : String) : Except Stop Reading :=
  match argument.toList with
  | '-' :: '-' :: word => reading.readWord word
  | '-' :: letter :: rest => reading.readLetters (letter :: rest)
  | _ => reading.addWord argument

/-- Read all arguments.  After two dashes everything is a file. -/
def readAll (reading : Reading) : List String → Except Stop Options
  | [] => reading.settle
  | argument :: rest => do
      if argument = "--" then (← rest.foldlM addFile reading).settle
      else readAll (← reading.read argument) rest

end Reading

/-- Options that exclude each other. -/
def conflicting (options : Options) : Bool :=
  (options.input && !options.files.isEmpty) || (options.colour && options.plain)

/-- The options that arguments give. -/
def parse (arguments : List String) : Except Stop Options := do
  let options ← Reading.readAll {} arguments
  if options.conflicting then throw (.refused .conflict)
  return options

/-- Whether to use colour, given the variables of the environment and whether the
output goes to a terminal.  An option decides; then the variable against colour,
whatever its value; then the one for it, unless it is zero.  Otherwise only a
terminal is given colour, and it can be told to go without. -/
def painted (options : Options) (lookup : String → Option String) (terminal : Bool) : Bool :=
  if options.colour then true
  else if options.plain || (lookup "NO_COLOR").isSome then false
  else if (lookup "CLICOLOR_FORCE").any (· ≠ "0") then true
  else terminal && lookup "CLICOLOR" ≠ some "0"

end Options
end StyleOrder
