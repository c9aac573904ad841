import StyleOrder.Text.Number
import StyleOrder.Yaml.Cursor

namespace StyleOrder
namespace Yaml

/-!
# Scalars

A scalar may go on over several lines, which are folded: one line end becomes a
space, and of several the first is dropped.  A reader of a scalar returns its
text and the place after it.
-/

/-! ### Escapes -/

/-- The character that a one-letter escape stands for. -/
def escape? : Char → Option Char
  | '0' => some '\x00'
  | 'a' => some '\x07'
  | 'b' => some '\x08'
  | 't' | '\t' => some '\t'
  | 'n' => some '\n'
  | 'v' => some '\x0b'
  | 'f' => some '\x0c'
  | 'r' => some '\r'
  | 'e' => some '\x1b'
  | ' ' => some ' '
  | '"' => some '"'
  | '/' => some '/'
  | '\\' => some '\\'
  | 'N' => some '\u0085'
  | '_' => some '\u00a0'
  | 'L' => some '\u2028'
  | 'P' => some '\u2029'
  | _ => none

/-- Join the halves of a surrogate pair. -/
def joined? (high low : Nat) : Option Char :=
  if 0xD800 ≤ high && high < 0xDC00 && 0xDC00 ≤ low && low < 0xE000 then
    Text.charOfCode? (0x10000 + (high - 0xD800) * 0x400 + (low - 0xDC00))
  else none

/-- An escape by four digits, and how many characters it takes after its `u`.  A
half of a surrogate pair needs its partner directly after it. -/
def unit? (digits rest : List Char) : Option (Char × Nat) := do
  let code ← Text.numeral? 16 digits
  match Text.charOfCode? code with
  | some c => return (c, 4)
  | none =>
      match rest with
      | '\\' :: 'u' :: a :: b :: c :: d :: _ =>
          return (← joined? code (← Text.numeral? 16 [a, b, c, d]), 10)
      | _ => none

/-- The character of an escape after its backslash, and how many characters it
takes. -/
def escaped? : List Char → Option (Char × Nat)
  | 'x' :: a :: b :: _ => do
      return (← Text.charOfCode? (← Text.numeral? 16 [a, b]), 3)
  | 'u' :: a :: b :: c :: d :: rest => do
      let (c, count) ← unit? [a, b, c, d] rest
      return (c, count + 1)
  | 'U' :: a :: b :: c :: d :: e :: f :: g :: h :: _ => do
      return (← Text.charOfCode? (← Text.numeral? 16 [a, b, c, d, e, f, g, h]), 9)
  | c :: _ => do return (← escape? c, 1)
  | [] => none

/-! ### Folding -/

/-- The space between two pieces of a scalar: blanks, or line ends.  The first
line end may have been taken away by a backslash. -/
structure Fold where
  gaps : List Char := []
  /-- Whether a line has ended, and whether without a backslash. -/
  ended : Bool := false
  plainly : Bool := false
  /-- The number of line ends after the first. -/
  blankLines : Nat := 0

namespace Fold

def text (fold : Fold) : List Char :=
  if !fold.ended then fold.gaps
  else if fold.plainly && fold.blankLines = 0 then [' ']
  else List.replicate fold.blankLines '\n'

/-- Add a blank.  At the beginning of a line it does not count. -/
def addGap (c : Char) (fold : Fold) : Fold :=
  if fold.ended then fold else { fold with gaps := fold.gaps ++ [c] }

def addBreak (fold : Fold) : Fold :=
  if fold.ended then { fold with blankLines := fold.blankLines + 1 }
  else { fold with ended := true, plainly := true }

end Fold

/-! ### Quoted scalars -/

/-- The characters of a quoted scalar up to a blank, a line end or the closing
quote.  A line end after a backslash is gone over, and the result says so. -/
def quotedRun (quote : Char) : (fuel : Nat) → Cursor → Option (List Char × Bool × Cursor)
  | 0, _ => none
  | fuel + 1, cursor =>
      match cursor.rest with
      | [] => some ([], false, cursor)
      | c :: rest =>
          if isGap c || isBreak c then some ([], false, cursor)
          else if c == quote then
            if quote == '\'' && rest.head? == some '\'' then do
              let (held, ended, after) ← quotedRun quote fuel (cursor.past 2)
              return ('\'' :: held, ended, after)
            else some ([], false, cursor)
          else if quote == '"' && c == '\\' then
            if rest.head?.any isBreak then some ([], true, (cursor.past 1).nextLine)
            else do
              let (c, count) ← escaped? rest
              let (held, ended, after) ← quotedRun quote fuel (cursor.past (count + 1))
              return (c :: held, ended, after)
          else do
            let (held, ended, after) ← quotedRun quote fuel (cursor.past 1)
            return (c :: held, ended, after)

/-- Blanks and line ends in a quoted scalar.  A tab at the beginning of a line
does not stand before the column `least`. -/
def quotedGap (least : Int) : (fuel : Nat) → Fold → Cursor → Option (Fold × Cursor)
  | 0, _, _ => none
  | fuel + 1, fold, cursor =>
      match cursor.rest with
      | [] => some (fold, cursor)
      | c :: _ =>
          if isGap c then
            if fold.ended && c == '\t' && cursor.column < least then none
            else quotedGap least fuel (fold.addGap c) (cursor.along 1)
          else if isBreak c then quotedGap least fuel fold.addBreak cursor.nextLine
          else some (fold, cursor)

/-- The text of a quoted scalar and the place of its closing quote.  Outside
brackets its further lines have to stand deeper than the block at column
`least`, unless they are nothing but the closing quote. -/
def quotedText (quote : Char) (flow : Bool) (least : Int) :
    (fuel : Nat) → Cursor → Option (List Char × Cursor)
  | 0, _ => none
  | fuel + 1, cursor =>
      if cursor.rest.isEmpty || (cursor.column = 0 && markerAhead cursor.rest) then none
      else do
        let (held, ended, cursor) ← quotedRun quote fuel cursor
        if cursor.charAhead quote then return (held, cursor)
        else
          let (fold, cursor) ← quotedGap least fuel { ended } cursor
          if fold.plainly && !flow && cursor.column ≤ least && !cursor.charAhead quote then none
          else
            let (others, cursor) ← quotedText quote flow least fuel cursor
            return (held ++ fold.text ++ others, cursor)

/-- Whether a quoted scalar that began on a line may end at a place.  It can be a
key outside brackets only if it is on one line. -/
def quotedEnds (flow : Bool) (line : Nat) (cursor : Cursor) : Bool :=
  match cursor.rest with
  | [] => true
  | c :: _ =>
      isBreak c || (flow && c ∈ [',', ']', '\x7d', ':']) || (c == ':' && line = cursor.line)

/-- The text of a quoted scalar, from its opening quote on. -/
def quoted (quote : Char) (flow : Bool) (least : Int) (cursor : Cursor) :
    Option (List Char × Cursor) := do
  let (held, after) ← quotedText quote flow least (cursor.rest.length + 2) (cursor.past 1)
  let after ← (after.past 1).overGap true
  if quotedEnds flow cursor.line after then return (held, after) else none

/-! ### Plain scalars -/

/-- The characters of a plain scalar up to a blank.  It ends before a colon that
stands alone, and in brackets before any of their signs. -/
def plainRun (flow : Bool) : List Char → List Char
  | [] => []
  | c :: rest =>
      if isGap c || isBreak c || (flow && isFlowSign c) ||
          (c == ':' && (gapAhead rest || (flow && flowSignAhead rest))) then []
      else c :: plainRun flow rest

/-- Blanks and line ends in a plain scalar.  A tab at the beginning of a line
stands before the column `least` only if the line has no content. -/
def plainGap (least : Int) : (fuel : Nat) → Fold → Cursor → Option (Fold × Cursor)
  | 0, _, _ => none
  | fuel + 1, fold, cursor =>
      match cursor.rest with
      | [] => some (fold, cursor)
      | c :: _ =>
          if isGap c then
            if fold.ended && c == '\t' && cursor.column < least then
              match cursor.overGap true with
              | some after => if after.lineEnds then plainGap least fuel fold after else none
              | none => none
            else plainGap least fuel (fold.addGap c) (cursor.along 1)
          else if isBreak c then plainGap least fuel fold.addBreak cursor.nextLine
          else some (fold, cursor)

/-- The text of a plain scalar, after the space between it and the text before.
Outside brackets further lines have to reach the column `least`.  The result is
empty if the scalar has ended. -/
def plainText (flow : Bool) (least : Int) :
    (fuel : Nat) → (space : List Char) → Cursor → Option (List Char × Cursor)
  | 0, _, _ => none
  | fuel + 1, space, cursor =>
      if (cursor.fresh && markerAhead cursor.rest) || cursor.charAhead '#' then some ([], cursor)
      else if flow && cursor.charAhead '-' && flowSignAhead cursor.rest.tail then none
      else
        match plainRun flow cursor.rest with
        | [] => some ([], cursor)
        | run =>
            let after := cursor.past run.length
            match plainGap least fuel {} after with
            | none => none
            | some (fold, next) =>
                if next.index = after.index || (!flow && next.column < least) then
                  some (space ++ run, next)
                else
                  match plainText flow least fuel fold.text next with
                  | none => none
                  | some (others, next) => some (space ++ run ++ others, next)

/-- The text of a plain scalar inside a block at a column.  There is no empty
one. -/
def plain (flow : Bool) (column : Int) (cursor : Cursor) : Option (List Char × Cursor) :=
  if flow && cursor.column < column + 1 then none
  else (plainText flow (column + 1) (cursor.rest.length + 2) [] cursor).filter (!·.1.isEmpty)

end Yaml
end StyleOrder
