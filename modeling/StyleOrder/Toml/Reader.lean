import StyleOrder.Decimal.Written
import StyleOrder.Text.Number
import StyleOrder.Toml.Table

namespace StyleOrder
namespace Toml

/-!
# Reading documents

One statement a line.  Values are strings in four kinds of quotes, numbers,
truth values, lists and tables in brackets; lists and bracketed tables may go on
over several lines.  Dates are not part of the notation that is read here.
-/

abbrev Reader := StateT (List Char) Option

/-- Turn a function on texts into a reader. -/
def reading {α : Type} (read : List Char → Option (α × List Char)) : Reader α := do
  let (result, rest) ← read (← get)
  set rest
  return result

def isGap (c : Char) : Bool :=
  c == ' ' || c == '\t'

/-- Control characters, which stand nowhere; the tab is not one of them. -/
def isControl (c : Char) : Bool :=
  (c.toNat < 0x20 && c != '\t') || c.toNat == 0x7F

def skipGaps : Reader Unit :=
  modify (·.dropWhile isGap)

/-- Drop a comment, which reaches to the end of the line. -/
def skipComment : Reader Unit := do
  match ← get with
  | '#' :: rest =>
      let held := rest.takeWhile fun c => c == '\t' || !isControl c
      set (rest.drop held.length)
  | _ => return

/-- Whether a line end was there, and the text after it. -/
def lineEnd? : List Char → Option (List Char)
  | '\n' :: rest => some rest
  | '\r' :: '\n' :: rest => some rest
  | _ => none

/-- Skip blanks, comments and line ends. -/
def skipLines : (fuel : Nat) → Reader Unit
  | 0 => return
  | fuel + 1 => do
      skipGaps
      skipComment
      match lineEnd? (← get) with
      | some rest =>
          set rest
          skipLines fuel
      | none => return

/-- Take a text from the front, if it is there. -/
def take? (word : List Char) : Reader Bool := do
  let text ← get
  if word.isPrefixOf text then
    set (text.drop word.length)
    return true
  else return false

/-! ### Strings -/

def escape? : Char → Option Char
  | 'b' => some '\x08'
  | 't' => some '\t'
  | 'n' => some '\n'
  | 'f' => some '\x0c'
  | 'r' => some '\r'
  | 'e' => some '\x1b'
  | '"' => some '"'
  | '\\' => some '\\'
  | _ => none

/-- The character with a code in hexadecimal digits. -/
def codeChar? (digits : List Char) : Option Char := do
  Text.charOfCode? (← Text.numeral? 16 digits)

/-- An escape after its backslash, and the text after it. -/
def escaped : List Char → Option (Char × List Char)
  | 'x' :: a :: b :: rest => do return (← codeChar? [a, b], rest)
  | 'u' :: a :: b :: c :: d :: rest => do return (← codeChar? [a, b, c, d], rest)
  | 'U' :: a :: b :: c :: d :: e :: f :: g :: h :: rest => do
      return (← codeChar? [a, b, c, d, e, f, g, h], rest)
  | c :: rest => do return (← escape? c, rest)
  | [] => none

/-- A string between single double quotes. -/
def basic : (fuel : Nat) → List Char → Option (List Char × List Char)
  | 0, _ => none
  | _, [] => none
  | fuel + 1, c :: rest =>
      if c = '"' then some ([], rest)
      else if c = '\\' then do
        let (c, rest) ← escaped rest
        let (held, rest) ← basic fuel rest
        return (c :: held, rest)
      else if isControl c then none
      else do
        let (held, rest) ← basic fuel rest
        return (c :: held, rest)

/-- A string between single quotes, in which nothing is escaped. -/
def literal (text : List Char) : Option (List Char × List Char) :=
  let held := text.takeWhile (· ≠ '\'')
  match text.drop held.length with
  | _ :: rest => if held.any isControl then none else some (held, rest)
  | [] => none

/-- Three quotes end a string of several lines; one or two quotes directly before
them belong to it. -/
def closing? (quote : Char) : List Char → Option (List Char × List Char)
  | a :: b :: c :: rest =>
      if a = quote && b = quote && c = quote then
        match rest with
        | d :: e :: after =>
            if d = quote && e = quote then some ([quote, quote], after)
            else if d = quote then some ([quote], e :: after)
            else some ([], rest)
        | [d] => if d = quote then some ([quote], []) else some ([], rest)
        | [] => some ([], [])
      else none
  | _ => none

/-- After a backslash that ends a line: skip to the next text.  There has to be a
line end among what is skipped. -/
def continued? (text : List Char) : Option (List Char) :=
  match text.dropWhile isGap with
  | rest@('\n' :: _) | rest@('\r' :: '\n' :: _) =>
      some (rest.dropWhile fun c => isGap c || c == '\n' || c == '\r')
  | _ => none

/-- Whether the first character is part of a line end. -/
def endsLine : List Char → Bool
  | '\n' :: _ | '\r' :: '\n' :: _ => true
  | _ => false

/-- A string of several lines.  Line ends stay as they are, and escapes are read
between double quotes only. -/
def lines (quote : Char) : (fuel : Nat) → List Char → Option (List Char × List Char)
  | 0, _ => none
  | fuel + 1, text =>
      match closing? quote text with
      | some closed => some closed
      | none =>
          match text with
          | [] => none
          | c :: rest =>
              if quote = '"' && c = '\\' then
                match continued? rest with
                | some rest => lines quote fuel rest
                | none => do
                    let (c, rest) ← escaped rest
                    let (held, rest) ← lines quote fuel rest
                    return (c :: held, rest)
              else if isControl c && !endsLine (c :: rest) then none
              else do
                let (held, rest) ← lines quote fuel rest
                return (c :: held, rest)

/-- A string of several lines, after its opening quotes.  A line end directly
after them does not count. -/
def multiline (quote : Char) (text : List Char) : Option (List Char × List Char) :=
  lines quote (text.length + 1) ((lineEnd? text).getD text)

/-- A string on one line. -/
def string (text : List Char) : Option (List Char × List Char) :=
  match text with
  | '"' :: rest => basic (rest.length + 1) rest
  | '\'' :: rest => literal rest
  | _ => none

/-! ### Keys -/

def isBare (c : Char) : Bool :=
  Text.isWord c || c == '-'

def simpleKey (text : List Char) : Option (String × List Char) :=
  match text.takeWhile isBare with
  | [] => (string text).map fun (name, rest) => (String.ofList name, rest)
  | name => some (String.ofList name, text.drop name.length)

/-- The number of keys in a path, and of brackets inside each other, that a
document may have. -/
def maxDepth : Nat := 80

/-- A path of at most as many keys as given, with dots between them. -/
def keys : (most : Nat) → Reader (List String)
  | 0 => failure
  | most + 1 => do
      skipGaps
      let name ← reading simpleKey
      skipGaps
      if ← take? ['.'] then return name :: (← keys most) else return [name]

def keyPath : Reader (List String) :=
  keys maxDepth

/-! ### Numbers -/

/-- A decimal numeral without sign: no zero before another digit. -/
def decimal? (text : List Char) : Option (List Char) := do
  let digits ← Text.ungrouped? text
  if !digits.all Text.isDigit then none
  match digits with
  | '0' :: _ :: _ => none
  | digits => return digits

/-- A sign and the text after it. -/
def signed : List Char → Int × List Char
  | '-' :: rest => (-1, rest)
  | '+' :: rest => (1, rest)
  | text => (1, text)

def integer? (text : List Char) : Option Int :=
  match text with
  | '0' :: 'x' :: rest => ((Text.ungrouped? rest).bind (Text.numeral? 16)).map Int.ofNat
  | '0' :: 'o' :: rest => ((Text.ungrouped? rest).bind (Text.numeral? 8)).map Int.ofNat
  | '0' :: 'b' :: rest => ((Text.ungrouped? rest).bind (Text.numeral? 2)).map Int.ofNat
  | text =>
      let (direction, rest) := signed text
      ((decimal? rest).bind (Text.numeral? 10)).map fun size => direction * (size : Int)

/-- A number with a point, an exponent, or both. -/
def real? (text : List Char) : Option Value := do
  let (direction, unsigned) := signed text
  let isExponent := fun c : Char => c == 'e' || c == 'E'
  let mantissa := unsigned.takeWhile (!isExponent ·)
  let shift ← match unsigned.drop mantissa.length with
    | [] => some (0 : Int)
    | _ :: rest => do
        let (direction, rest) := signed rest
        let size ← Text.numeral? 10 (← Text.ungrouped? rest)
        some (direction * (size : Int))
  let whole ← decimal? (mantissa.takeWhile (· ≠ '.'))
  let places ← match mantissa.dropWhile (· ≠ '.') with
    | [] => if mantissa.length = unsigned.length then none else some []
    | _ :: rest => do
        let places ← Text.ungrouped? rest
        if places.all Text.isDigit then some places else none
  let size ← Text.numeral? 10 (whole ++ places)
  return .real (Decimal.signed (direction < 0) size (shift - places.length))

/-- The words for what is not finite. -/
def boundless? (text : List Char) : Option Value :=
  let (direction, word) := signed text
  if word = "inf".toList then
    some (.real (if direction < 0 then -Decimal.infinity else Decimal.infinity))
  else if word = "nan".toList then some (.real Decimal.undefined)
  else none

/-- Characters of numbers and words. -/
def isAtom (c : Char) : Bool :=
  isBare c || c == '+' || c == '.' || c == ':'

/-- A truth value or a number. -/
def atom (text : List Char) : Option (Value × List Char) := do
  let held := text.takeWhile isAtom
  let rest := text.drop held.length
  if held = "true".toList then return (.bool true, rest)
  if held = "false".toList then return (.bool false, rest)
  match integer? held with
  | some number => if Text.fitsWord number then return (.integer number, rest) else none
  | none => return (← real? held <|> boundless? held, rest)

/-! ### Values -/

mutual

/-- A value, in which `depth` brackets may be opened inside each other. -/
def value : (fuel depth : Nat) → Reader Value
  | 0, _ => failure
  | fuel + 1, depth => do
      match ← get with
      | '"' :: '"' :: '"' :: rest =>
          set rest
          return .string (String.ofList (← reading (multiline '"')))
      | '\'' :: '\'' :: '\'' :: rest =>
          set rest
          return .string (String.ofList (← reading (multiline '\'')))
      | '"' :: _ | '\'' :: _ => return .string (String.ofList (← reading string))
      | '[' :: rest =>
          match depth with
          | 0 => failure
          | depth + 1 =>
              set rest
              return .list (← items fuel depth)
      | '\x7b' :: rest =>
          match depth with
          | 0 => failure
          | depth + 1 =>
              set rest
              return valueOf (← pairs fuel depth [])
      | _ => reading atom

/-- The items of a list, after its opening bracket. -/
def items : (fuel depth : Nat) → Reader (List Value)
  | 0, _ => failure
  | fuel + 1, depth => do
      skipLines fuel
      if ← take? [']'] then return []
      let item ← value fuel depth
      skipLines fuel
      if ← take? [','] then return item :: (← items fuel depth)
      if ← take? [']'] then return [item]
      failure

/-- The pairs of a bracketed table, after its opening bracket.  Lines may end
anywhere but inside a path of keys. -/
def pairs : (fuel depth : Nat) → Fields → Reader Fields
  | 0, _, _ => failure
  | fuel + 1, depth, fields => do
      skipLines fuel
      if ← take? ['\x7d'] then return fields
      let path ← keyPath
      skipLines fuel
      if !(← take? ['=']) then failure
      skipLines fuel
      let held ← value fuel depth
      let fields ← assign held path fields
      skipLines fuel
      if ← take? [','] then pairs fuel depth fields
      else if ← take? ['\x7d'] then return fields
      else failure

end

/-! ### Statements -/

def statement (fuel : Nat) : Reader Statement := do
  if ← take? ['[', '['] then
    let path ← keyPath
    if ← take? [']', ']'] then return .openElement path else failure
  else if ← take? ['['] then
    let path ← keyPath
    if ← take? [']'] then return .openTable path else failure
  else
    let path ← keyPath
    if !(← take? ['=']) then failure
    skipGaps
    return .assign path (← value fuel maxDepth)

/-- The statements of a document, each with a line of its own. -/
def statements : (fuel : Nat) → Progress → Reader Progress
  | 0, _ => failure
  | fuel + 1, progress => do
      skipLines (fuel + 1)
      if (← get).isEmpty then return progress
      let progress ← progress.add (← statement fuel)
      skipGaps
      skipComment
      match ← get with
      | [] => return progress
      | text =>
          match lineEnd? text with
          | some rest =>
              set rest
              statements fuel progress
          | none => failure

/-- The table that a text is.  A byte order mark before it is ignored. -/
def parse (text : String) : Option Value :=
  let chars := match text.toList with
    | '\ufeff' :: rest => rest
    | chars => chars
  ((statements (2 * chars.length + 4) {}).run chars).map fun (progress, _) =>
    valueOf progress.fields

end Toml
end StyleOrder
