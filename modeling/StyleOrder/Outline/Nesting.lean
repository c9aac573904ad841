import StyleOrder.Outline.Basic
import StyleOrder.Sheet.Line
import StyleOrder.Sheet.Mark

namespace StyleOrder

/-!
# Nesting

Lines are read one after the other.  The first indented line fixes the unit of
indentation.  A wider line enters the block opened last; a narrower line leaves
one block for every whole unit by which it is narrower.  Widths that are not
multiples of the unit are therefore accepted, and round towards staying inside.

Two kinds of line cannot be placed: an indented line before any block has been
opened, and a line that leaves more blocks than it is in.
-/

/-- Why a line cannot be placed. -/
inductive Fault where
  | noEnclosingBlock
  | pastTopLevel
  /-- A reason stated by whoever else reads sheets. -/
  | other (reason : String)
deriving DecidableEq, Repr

namespace Fault

def reason : Fault → String
  | noEnclosingBlock => "indented line has no enclosing node"
  | pastTopLevel => "dedent past the top level"
  | other reason => reason

end Fault

/-- A line whose indentation does not fit the nesting before it. -/
structure Malformed where
  position : Position
  fault : Fault
  text : String
deriving DecidableEq, Repr

namespace Malformed

def ofLine (line : Sheet.Line) (fault : Fault) : Malformed where
  position := line.position
  fault := fault
  text := String.ofList line.text

def message (malformed : Malformed) : String :=
  "malformed indentation at line " ++ toString malformed.position.line ++ ": " ++
    malformed.fault.reason ++ ": `" ++ malformed.text ++ "`"

end Malformed

/-- The outline so far and the place where the next line is attached. -/
structure Nesting where
  outline : Outline := .empty
  /-- The indentation of the first indented line. -/
  unit : Option Nat := none
  /-- The indentation of the line before. -/
  width : Nat := 0
  /-- The block whose body receives entries. -/
  body : Option Nat := none
  /-- The block opened last, which a wider line enters. -/
  latest : Option Nat := none
deriving DecidableEq, Repr

namespace Nesting

def start : Nesting where

/-- The selector that nested selectors are appended to; empty outside every
block. -/
def selector (nesting : Nesting) : String :=
  ((nesting.body.bind nesting.outline.block?).map Block.selector).getD ""

/-- The unit is set by the first line that is indented. -/
def fixUnit (nesting : Nesting) (width : Nat) : Nesting :=
  if nesting.unit.isNone && width != 0 then { nesting with unit := some width } else nesting

/-- Leave `count` blocks, starting from the given one.  There is no result when
the blocks run out. -/
def leave (outline : Outline) : (count : Nat) → Option Nat → Option (Option Nat)
  | 0, body => some body
  | _ + 1, none => none
  | count + 1, some id => leave outline count (outline.parent? id)

/-- Number of blocks that a narrower line leaves. -/
def steps (nesting : Nesting) (width : Nat) : Nat :=
  (nesting.width - width) / nesting.unit.getD nesting.width

/-- Find the body that a line belongs to. -/
def place (nesting : Nesting) (line : Sheet.Line) : Except Malformed Nesting :=
  if line.width < nesting.width then
    match leave nesting.outline (nesting.steps line.width) nesting.body with
    | some body => .ok { nesting with body }
    | none => .error (.ofLine line .pastTopLevel)
  else if nesting.width < line.width then
    match nesting.latest with
    | some id => .ok { nesting with body := some id }
    | none => .error (.ofLine line .noEnclosingBlock)
  else .ok nesting

/-- Open a block inside the present body. -/
def openBlock (nesting : Nesting) (kind : BlockKind) (name selector : String)
    (position : Position) : Nesting :=
  { nesting with
    outline := nesting.outline.push kind name selector position nesting.body
    latest := some nesting.outline.size }

/-- Add an entry to the present body.  Outside every block it is dropped. -/
def addEntry (nesting : Nesting) (entry : Entry) : Nesting :=
  match nesting.body with
  | none => nesting
  | some id => { nesting with outline := nesting.outline.addEntry id entry }

def apply (position : Position) (nesting : Nesting) : Sheet.Mark → Nesting
  | .selector fragment =>
      let name := nesting.selector ++ fragment
      nesting.openBlock .selector name name position
  | .atRule name => nesting.openBlock .atRule name nesting.selector position
  | .placeholder name => nesting.openBlock .placeholder name ("%" ++ name) position
  | .mixin => nesting.addEntry (.mixin position)
  | .property name value => nesting.addEntry (.property name value position)

/-- Take in one line. -/
def step (nesting : Nesting) (line : Sheet.Line) : Except Malformed Nesting := do
  let placed ← (nesting.fixUnit line.width).place line
  return (Sheet.Mark.ofText line.text).foldl (apply line.position)
    { placed with width := line.width }

end Nesting

namespace Outline

/-- The outline of a list of lines. -/
def ofLines (lines : List Sheet.Line) : Except Malformed Outline := do
  let nesting ← lines.foldlM Nesting.step Nesting.start
  return nesting.outline

/-- The outline of a source text. -/
def parse (source : String) : Except Malformed Outline :=
  ofLines (Sheet.Line.ofSource source)

end Outline
end StyleOrder
