namespace StyleOrder
namespace Yaml

/-!
# Places in a document

A document is read from the front, and columns decide what belongs together.  A
cursor is the text that is left together with the place where it begins.
-/

/-! ### Characters -/

/-- The blanks that divide words on a line. -/
def isGap (c : Char) : Bool :=
  c == ' ' || c == '\t'

/-- The characters that end a line. -/
def isBreak (c : Char) : Bool :=
  c == '\n' || c == '\r'

/-- The signs that structure collections in brackets. -/
def isFlowSign (c : Char) : Bool :=
  c ∈ [',', '[', ']', '\x7b', '\x7d']

/-! ### Texts -/

/-- Whether a line ends here. -/
def lineEnds : List Char → Bool
  | [] => true
  | c :: _ => isBreak c

/-- Whether a sign before this text stands alone. -/
def gapAhead : List Char → Bool
  | [] => true
  | c :: _ => isGap c || isBreak c

def flowSignAhead : List Char → Bool
  | [] => false
  | c :: _ => isFlowSign c

/-- Whether the three signs that divide documents come next, standing alone. -/
def markerAhead : List Char → Bool
  | a :: b :: c :: rest => (a == '-' || a == '.') && a == b && b == c && gapAhead rest
  | _ => false

/-! ### Cursors -/

structure Cursor where
  rest : List Char
  /-- The number of characters before this place. -/
  index : Nat := 0
  line : Nat := 0
  column : Nat := 0
  /-- Whether nothing but blanks comes before this place on its line. -/
  fresh : Bool := true
deriving Repr

namespace Cursor

/-- Go over blanks or a comment on the same line. -/
def along (count : Nat) (cursor : Cursor) : Cursor :=
  { cursor with
    rest := cursor.rest.drop count
    index := cursor.index + count
    column := cursor.column + count }

/-- Go over other text on the same line. -/
def past (count : Nat) (cursor : Cursor) : Cursor :=
  { cursor.along count with fresh := false }

/-- Go over a line end. -/
def nextLine (cursor : Cursor) : Cursor :=
  let size := match cursor.rest with
    | '\r' :: '\n' :: _ => 2
    | _ => 1
  { rest := cursor.rest.drop size
    index := cursor.index + size
    line := cursor.line + 1
    column := 0
    fresh := true }

/-- Whether a line ends at this place. -/
def lineEnds (cursor : Cursor) : Bool :=
  Yaml.lineEnds cursor.rest

def charAhead (c : Char) (cursor : Cursor) : Bool :=
  cursor.rest.head? == some c

/-- Go to the end of the line. -/
def overLine (cursor : Cursor) : Cursor :=
  cursor.along (cursor.rest.takeWhile (!isBreak ·)).length

/-- The blanks that come next, tabs among them if `tabs` says so. -/
def gap (tabs : Bool) (cursor : Cursor) : List Char :=
  cursor.rest.takeWhile fun c => c == ' ' || (tabs && c == '\t')

/-- Go over blanks and a comment after them.  A comment needs a blank before it. -/
def overGap (tabs : Bool) (cursor : Cursor) : Option Cursor :=
  let gap := cursor.gap tabs
  let after := cursor.along gap.length
  if !after.charAhead '#' then some after
  else if gap.isEmpty then none
  else some after.overLine

/-- Go over blanks, comments and line ends to the next content.  A tab before the
column `least` is not allowed on a line with content.  The result also says
whether a line has ended. -/
def nextContent (least : Int) : (fuel : Nat) → (ended : Bool) → Cursor → Option (Cursor × Bool)
  | 0, _, _ => none
  | fuel + 1, ended, cursor =>
      match cursor.rest with
      | [] => some (cursor, ended)
      | c :: _ =>
          if c == '\t' && cursor.fresh && cursor.column < least then
            match cursor.overGap true with
            | some after => if after.lineEnds then nextContent least fuel ended after else none
            | none => none
          else if isGap c then nextContent least fuel ended (cursor.along 1)
          else if isBreak c then nextContent least fuel true cursor.nextLine
          else if c == '#' then nextContent least fuel ended cursor.overLine
          else some (cursor, ended)

/-- Go to the next content. -/
def toContent (least : Int) (cursor : Cursor) : Option (Cursor × Bool) :=
  nextContent least (cursor.rest.length + 1) false cursor

end Cursor
end Yaml
end StyleOrder
