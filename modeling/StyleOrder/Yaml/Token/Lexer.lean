import StyleOrder.Yaml.Scalar
import StyleOrder.Yaml.Token

namespace StyleOrder
namespace Yaml

/-!
# From text to tokens

Only the colon after it shows that a scalar was a key.  So a token that may turn
out to begin a key is held back until that is known, and with it all tokens
after it.  A text may have a fault; its tokens are those that can be told before
the fault is met.
-/

/-- A place where a key may have begun. -/
structure Candidate where
  /-- The number of its first token. -/
  number : Nat
  index : Nat
  line : Nat
  column : Nat
  /-- Whether nothing but a key can stand there. -/
  required : Bool
deriving DecidableEq, Repr

/-- A level of indentation, with the column of the level around it.  Some levels
only say that content has to stand deeper, and open no block. -/
structure Level where
  column : Int
  isBlock : Bool
deriving DecidableEq, Repr

structure Lexer where
  cursor : Cursor
  /-- The tokens that are held back, and the number of those that are not. -/
  waiting : List Token := []
  released : Nat := 0
  /-- Where a key may have begun, for the innermost brackets and for each of those
  around them. -/
  candidate : Option Candidate := none
  outer : List (Option Candidate) := []
  /-- Whether a key may begin here. -/
  keyAllowed : Bool := true
  /-- The column of the present level of indentation, and all levels. -/
  column : Int := -1
  levels : List Level := []
  /-- The index at which a colon needs no blank after it. -/
  adjacent : Option Nat := none
  /-- Whether the latest mapping in brackets has braces or a question mark. -/
  explicit : Bool := false
  /-- For each list in brackets, the depth at which a mapping without braces has
  begun in it. -/
  pairs : List (Option Nat) := []

namespace Lexer

def depth (lexer : Lexer) : Nat :=
  lexer.outer.length

/-- Whether the place is between brackets. -/
def inFlow (lexer : Lexer) : Bool :=
  !lexer.outer.isEmpty

/-! ### Small steps -/

def push (token : Token) (lexer : Lexer) : Lexer :=
  { lexer with waiting := lexer.waiting ++ [token] }

/-- Put a token in front of the one with a number. -/
def insert (number : Nat) (token : Token) (lexer : Lexer) : Lexer :=
  { lexer with waiting := lexer.waiting.insertIdx (number - lexer.released) token }

def past (count : Nat) (lexer : Lexer) : Lexer :=
  { lexer with cursor := lexer.cursor.past count }

/-- Go over the blanks and the comment after a sign. -/
def overGap (lexer : Lexer) : Option Lexer :=
  (lexer.cursor.overGap true).map ({ lexer with cursor := · })

/-- Go to the next content.  After a line end a key may begin, except in brackets. -/
def toContent (lexer : Lexer) : Option Lexer :=
  (lexer.cursor.toContent lexer.column).map fun (cursor, ended) =>
    { lexer with cursor, keyAllowed := lexer.keyAllowed || (ended && !lexer.inFlow) }

/-! ### Keys -/

/-- The greatest length of a key outside brackets. -/
def maxKey : Nat := 1024

/-- Note that a key may begin here. -/
def noteKey (lexer : Lexer) : Lexer :=
  if lexer.keyAllowed then
    let cursor := lexer.cursor
    let required := !lexer.inFlow && lexer.column = cursor.column &&
      lexer.levels.head?.any Level.isBlock
    { lexer with candidate := some {
        number := lexer.released + lexer.waiting.length
        index := cursor.index
        line := cursor.line
        column := cursor.column
        required } }
  else lexer

/-- Give up that a key has begun.  It must not be required. -/
def dropKey (lexer : Lexer) : Option Lexer :=
  if lexer.candidate.any Candidate.required then none
  else some { lexer with candidate := none }

/-- Outside brackets a key ends on its line, and is not too long. -/
def expire (lexer : Lexer) : Option Lexer :=
  let cursor := lexer.cursor
  let expired := !lexer.inFlow && lexer.candidate.any fun candidate =>
    candidate.line < cursor.line || candidate.index + maxKey < cursor.index
  if expired then lexer.dropKey else some lexer

/-! ### Levels of indentation -/

/-- Close levels down to a column: the column and the levels that are left, and
the ends of blocks. -/
def unwind (target column : Int) : List Level → Int × List Level × List Token
  | [] => (column, [], [])
  | level :: levels =>
      if target < column then
        let (column, levels, ends) := unwind target level.column levels
        (column, levels, if level.isBlock then .blockEnd :: ends else ends)
      else (column, level :: levels, [])

/-- Close the levels that are deeper than a column. -/
def close (target : Int) (lexer : Lexer) : Lexer :=
  if lexer.inFlow then lexer
  else
    let (column, levels, ends) := unwind target lexer.column lexer.levels
    { lexer with column, levels, waiting := lexer.waiting ++ ends }

/-- Close the levels that open no block. -/
def closeDeeper (column : Int) : List Level → Int × List Level
  | [] => (column, [])
  | level :: levels =>
      if level.isBlock then (column, level :: levels) else closeDeeper level.column levels

/-- Ask that content stands deeper than the present block. -/
def deepen (lexer : Lexer) : Lexer :=
  if !lexer.inFlow && lexer.levels.head?.any Level.isBlock then
    { lexer with
      levels := ⟨lexer.column, false⟩ :: lexer.levels
      column := lexer.column + 1 }
  else lexer

/-- Give up the latest level for a block at a column, if it opens no block. -/
def replaceLevel (column : Int) (lexer : Lexer) : Lexer :=
  match lexer.levels with
  | level :: levels =>
      if lexer.column ≤ column && !level.isBlock then
        { lexer with column := level.column, levels }
      else lexer
  | [] => lexer

/-- Open a block at a column, unless it is open.  The token that begins it goes in
front of the one with a number, or to the end. -/
def openBlock (column : Int) (number : Option Nat) (token : Token) (lexer : Lexer) : Lexer :=
  if lexer.inFlow then lexer
  else
    let lexer := lexer.replaceLevel column
    if lexer.column < column then
      let lexer := { lexer with levels := ⟨lexer.column, true⟩ :: lexer.levels, column }
      match number with
      | some number => lexer.insert number token
      | none => lexer.push token
    else lexer

/-! ### Brackets -/

/-- The number of brackets that may stand inside each other. -/
def maxDepth : Nat := 255

/-- End a mapping without braces that has begun in the present brackets. -/
def endPair (lexer : Lexer) : Lexer :=
  match lexer.pairs with
  | some depth :: pairs =>
      if depth = lexer.depth then
        { lexer.push .flowMappingEnd with explicit := false, pairs := none :: pairs }
      else lexer
  | _ => lexer

/-- An opening bracket, which may begin a key. -/
def openFlow (token : Token) (lexer : Lexer) : Option Lexer := do
  let lexer := lexer.noteKey.deepen
  if maxDepth ≤ lexer.depth then none
  let lexer := { lexer with
    candidate := none
    outer := lexer.candidate :: lexer.outer
    keyAllowed := true }
  let lexer :=
    if token = .flowMapping then { lexer with explicit := true }
    else { lexer with pairs := none :: lexer.pairs }
  return (← (lexer.past 1).overGap).push token

/-- A closing bracket. -/
def closeFlow (token : Token) (lexer : Lexer) : Option Lexer := do
  match lexer.outer with
  | [] => none
  | around :: outer =>
      let lexer ← lexer.dropKey
      let lexer :=
        if token = .flowListEnd then
          let lexer := lexer.endPair
          { lexer with pairs := lexer.pairs.tail }
        else lexer
      let lexer := { lexer with candidate := around, outer, keyAllowed := false }
      let lexer ← (lexer.past 1).overGap
      let lexer := if lexer.inFlow then { lexer with adjacent := some lexer.cursor.index } else lexer
      return lexer.push token

def comma (lexer : Lexer) : Option Lexer := do
  let lexer ← lexer.dropKey
  let lexer := { lexer with keyAllowed := true }.endPair
  return (← (lexer.past 1).overGap).push .comma

/-! ### Signs of blocks -/

/-- A name at the beginning of a line cannot belong to a list that is there too. -/
def misplacedName (lexer : Lexer) : Bool :=
  match lexer.waiting.getLast? with
  | some (.anchor _ column) => lexer.cursor.column = 0 && column = 0 && -1 < lexer.column
  | _ => false

/-- A dash. -/
def item (lexer : Lexer) : Option Lexer := do
  if lexer.inFlow || !lexer.keyAllowed || lexer.misplacedName then none
  let lexer := (lexer.past 1).openBlock lexer.cursor.column none .blockList
  let tabbed := (lexer.cursor.gap true).contains '\t'
  let lexer ← lexer.overGap
  match lexer.cursor.rest with
  | '-' :: rest => if tabbed && gapAhead rest then none
  | _ => pure ()
  let rest := lexer.cursor.rest
  let lexer := if rest.head?.any isBreak || flowSignAhead rest then lexer.deepen else lexer
  let lexer ← lexer.dropKey
  return { lexer with keyAllowed := true }.push .item

/-- Go over spaces, comments and line ends.  There has to be a space or a line
end. -/
def overSpaces : (fuel : Nat) → (found : Bool) → Cursor → Option Cursor
  | 0, _, _ => none
  | fuel + 1, found, cursor =>
      match cursor.rest with
      | ' ' :: _ => overSpaces fuel true (cursor.along 1)
      | '#' :: _ => overSpaces fuel found cursor.overLine
      | rest =>
          if rest.head?.any isBreak then overSpaces fuel true cursor.nextLine
          else if found then some cursor
          else none

/-- A question mark. -/
def explicitKey (lexer : Lexer) : Option Lexer := do
  if !lexer.inFlow && !lexer.keyAllowed then none
  let lexer :=
    if lexer.inFlow then { lexer with explicit := true }
    else lexer.openBlock lexer.cursor.column none .blockMapping
  let lexer ← lexer.dropKey
  let lexer := { lexer with keyAllowed := !lexer.inFlow }.past 1
  let cursor ← overSpaces (lexer.cursor.rest.length + 1) false lexer.cursor
  if cursor.charAhead '\t' then none
  return { lexer with cursor }.push .key

/-! ### Colons -/

/-- Characters that make a word. -/
def isWordSign (c : Char) : Bool :=
  c.isAlphanum || c == '_' || c == '-'

/-- Whether a tab without a space divides a colon from a word after it. -/
def tabbed (cursor : Cursor) : Bool :=
  let gap := cursor.gap true
  gap.head? == some '\t' && !gap.contains ' ' &&
    (cursor.along gap.length).rest.head?.any isWordSign

/-- Go over the blanks after a colon, if they begin with a tab. -/
def overTabs (lexer : Lexer) : Option Lexer :=
  if lexer.cursor.charAhead '\t' then lexer.overGap else some lexer

/-- A colon.  It makes what may have been a key one. -/
def value (lexer : Lexer) : Option Lexer := do
  let place := lexer.cursor
  let implicit := !lexer.pairs.isEmpty && !lexer.explicit
  let lexer := if implicit then
      { lexer with pairs := some lexer.depth :: lexer.pairs.tail }
    else lexer
  let lexer := lexer.past 1
  if tabbed lexer.cursor then none
  let lexer ← lexer.overTabs
  match lexer.candidate with
  | some key =>
      if implicit && key.line < place.line then none
      let lexer := lexer.insert key.number .key
      let lexer := if implicit then lexer.insert key.number .flowMapping else lexer
      let lexer := (lexer.openBlock key.column (some key.number) .blockMapping).deepen
      return { lexer with candidate := none, keyAllowed := false }.push .value
  | none =>
      let lexer := if implicit then lexer.push .flowMapping else lexer
      if !lexer.inFlow && !lexer.keyAllowed then none
      let lexer := (lexer.openBlock place.column none .blockMapping).deepen
      return { lexer with keyAllowed := !lexer.inFlow }.push .value

/-- A colon in brackets that need not stand alone. -/
def flowValue (lexer : Lexer) : Option Lexer :=
  let bracketed := match lexer.cursor.rest.tail with
    | '[' :: _ | '\x7b' :: _ => true
    | _ => false
  if lexer.adjacent ≠ some lexer.cursor.index && bracketed then none else lexer.value

/-! ### Names and scalars -/

def isNameSign (c : Char) : Bool :=
  !isGap c && !isBreak c && !isFlowSign c && c != '\ufeff'

/-- A name after an ampersand or a star. -/
def name (token : List Char → Token) (lexer : Lexer) : Option Lexer :=
  let held := lexer.cursor.rest.tail.takeWhile isNameSign
  if held.isEmpty then none
  else
    let lexer := { lexer.noteKey with keyAllowed := false }
    some ((lexer.past (held.length + 1)).push (token held))

def quotedScalar (quote : Char) (lexer : Lexer) : Option Lexer := do
  let lexer := { lexer.noteKey with keyAllowed := false }
  let (held, cursor) ← quoted quote lexer.inFlow lexer.column lexer.cursor
  let lexer ← toContent { lexer with cursor }
  return { lexer with adjacent := some lexer.cursor.index }.push (.scalar held true)

def plainScalar (lexer : Lexer) : Option Lexer := do
  let lexer := { lexer.noteKey with keyAllowed := false }
  let (column, levels) := closeDeeper lexer.column lexer.levels
  let (held, cursor) ← plain lexer.inFlow column lexer.cursor
  return { lexer with cursor, column, levels, keyAllowed := cursor.fresh }.push (.scalar held false)

/-! ### Directives and documents -/

/-- Leave all blocks before a line that divides documents. -/
def leave (lexer : Lexer) : Option Lexer := do
  let lexer ← (lexer.close (-1)).dropKey
  return { lexer with keyAllowed := false }

/-- A mark that begins or ends a document. -/
def marker (token : Token) (lexer : Lexer) : Option Lexer := do
  return ((← lexer.leave).past 3).push token

/-- The mark that ends a document, alone on its line. -/
def endMarker (lexer : Lexer) : Option Lexer := do
  let lexer ← (← lexer.marker .documentEnd).overGap
  if lexer.cursor.lineEnds then return lexer else none

/-- A number in the version of the notation, and the text after it. -/
def versionPart (text : List Char) : Option (List Char) :=
  let digits := text.takeWhile Char.isDigit
  if 0 < digits.length && digits.length ≤ 9 then some (text.drop digits.length) else none

/-- Two numbers with a point between them. -/
def version (text : List Char) : Option (List Char) := do
  match ← versionPart text with
  | '.' :: rest => versionPart rest
  | _ => none

/-- The name of a handle between exclamation marks, and the text after it. -/
def handle (text : List Char) : Option (List Char × List Char) :=
  match text with
  | '!' :: rest =>
      let held := rest.takeWhile isWordSign
      match held, rest.drop held.length with
      | held, '!' :: rest => some ('!' :: held ++ ['!'], rest)
      | [], rest => some (['!'], rest)
      | _, _ => none
  | _ => none

/-- Characters of what a handle stands for. -/
def isAddressSign (c : Char) : Bool :=
  c.isAlphanum || "-#;/?:@&=+$,_.!~*'()[]%".toList.contains c

/-- What a handle stands for, up to a blank.  Numbers of characters have two
digits. -/
def address : List Char → Option (List Char)
  | '%' :: a :: b :: rest =>
      if (Text.numeral? 16 [a, b]).isSome then address rest else none
  | [] => some []
  | c :: rest =>
      if c == '%' then none
      else if isAddressSign c then address rest
      else if isGap c || isBreak c then some (c :: rest)
      else none

/-- The content of a directive with a name, as a token and the text after it. -/
def directive (name : String) (text : List Char) : Option (Token × List Char) :=
  let content := text.dropWhile isGap
  match name with
  | "YAML" => (version content).map (.version, ·)
  | "TAG" => do
      let (name, rest) ← handle content
      let rest := rest.dropWhile isGap
      if flowSignAhead rest || gapAhead rest then none
      return (.handle name, ← address rest)
  | _ => some (.directive, text.dropWhile (!isBreak ·))

/-- A directive, which takes a line of its own. -/
def directiveLine (lexer : Lexer) : Option Lexer := do
  let lexer := (← lexer.leave).past 1
  let text := lexer.cursor.rest
  let name := text.takeWhile isWordSign
  let rest := text.drop name.length
  if name.isEmpty || !gapAhead rest then none
  let (token, rest) ← directive (String.ofList name) rest
  let lexer ← (lexer.past (text.length - rest.length)).overGap
  if !lexer.cursor.lineEnds then none
  let lexer := if lexer.cursor.rest.isEmpty then lexer
    else { lexer with cursor := lexer.cursor.nextLine }
  return lexer.push token

/-- The end of the text.  No bracket is open, and no key is missing. -/
def finish (lexer : Lexer) : Option Lexer := do
  if lexer.inFlow then none
  let lexer ← lexer.dropKey
  return { (lexer.close (-1)) with keyAllowed := false }.push .finish

/-! ### Reading -/

/-- Read the sign or scalar that begins here.  Tags and block scalars are not part
of the notation that is read. -/
def sign (lexer : Lexer) : Option Lexer :=
  match lexer.cursor.rest with
  | [] => lexer.finish
  | c :: rest =>
      let flow := lexer.inFlow
      match c with
      | '[' => lexer.openFlow .flowList
      | '\x7b' => lexer.openFlow .flowMapping
      | ']' => lexer.closeFlow .flowListEnd
      | '\x7d' => lexer.closeFlow .flowMappingEnd
      | ',' => lexer.comma
      | '*' => lexer.name .alias
      | '&' => lexer.name (.anchor · lexer.cursor.column)
      | '"' | '\'' => lexer.quotedScalar c
      | '!' | '%' | '@' | '\x60' => none
      | '|' | '>' => if flow then lexer.plainScalar else none
      | '-' => if gapAhead rest then lexer.item else lexer.plainScalar
      | '?' => if gapAhead rest then lexer.explicitKey else lexer.plainScalar
      | ':' =>
          if gapAhead rest then lexer.value
          else if flow && (flowSignAhead rest || lexer.adjacent = some lexer.cursor.index) then
            lexer.flowValue
          else lexer.plainScalar
      | _ => lexer.plainScalar

/-- Read on to the next tokens. -/
def advance (lexer : Lexer) : Option Lexer := do
  let lexer ← (← lexer.toContent).expire
  let lexer := lexer.close lexer.cursor.column
  let text := lexer.cursor.rest
  if lexer.cursor.column = 0 && text.head? = some '%' then lexer.directiveLine
  else if lexer.cursor.column = 0 && markerAhead text then
    if text.head? = some '-' then lexer.marker .documentStart else lexer.endMarker
  else if !text.isEmpty && lexer.cursor.column < lexer.column then none
  else lexer.sign

/-- Whether the first token that is held back may begin a key. -/
def undecided (lexer : Lexer) : Bool :=
  (lexer.candidate :: lexer.outer).any fun candidate =>
    candidate.any (·.number = lexer.released)

/-- The tokens of the text that is left.  Without a fault the last one is the end
of the text. -/
def tokens : (fuel : Nat) → Lexer → List Token
  | 0, _ => []
  | fuel + 1, lexer =>
      match lexer.waiting with
      | [] =>
          match lexer.advance with
          | some lexer => tokens fuel lexer
          | none => []
      | token :: waiting =>
          match lexer.expire with
          | none => []
          | some lexer =>
              if lexer.undecided then
                match lexer.advance with
                | some lexer => tokens fuel lexer
                | none => []
              else if token = .finish then [.finish]
              else
                token :: tokens fuel { lexer with waiting, released := lexer.released + 1 }

end Lexer

/-- The text that counts: up to two byte order marks before it are dropped, and it
ends at a null character. -/
def counted (text : List Char) : List Char :=
  let text := match text with
    | '\ufeff' :: '\ufeff' :: rest => rest
    | '\ufeff' :: rest => rest
    | text => text
  text.takeWhile (· ≠ '\x00')

/-- The tokens of a text, up to its end or a fault. -/
def tokens (text : List Char) : List Token :=
  let text := counted text
  Lexer.tokens (8 * text.length + 8) { cursor := { rest := text } }

end Yaml
end StyleOrder
