import StyleOrder.Position
import StyleOrder.Text.Blank
import StyleOrder.Text.Lines

namespace StyleOrder
namespace Sheet

/-!
# Lines of a sheet

Only lines with text take part in the nesting of a sheet.  Blank lines and
lines whose text starts with a slash are passed over, whatever their
indentation, so a comment can stand anywhere.
-/

/-- A line that takes part: its number, its indentation and its trimmed text. -/
structure Line where
  number : Nat
  width : Nat
  text : List Char
deriving DecidableEq, Repr

namespace Line

def position (line : Line) : Position where
  line := line.number
  column := line.width

/-- The line behind a raw text, unless it is blank or a comment. -/
def read? (number : Nat) (raw : List Char) : Option Line :=
  match Text.trim raw with
  | [] => none
  | c :: rest =>
      if c = '/' then none else some ⟨number, Text.indentation raw, c :: rest⟩

/-- The lines that take part among raw lines, the first of which has number
`first`. -/
def readFrom (first : Nat) : List (List Char) → List Line
  | [] => []
  | raw :: others => (read? first raw).toList ++ readFrom (first + 1) others

/-- The lines of a source text that take part. -/
def ofSource (source : String) : List Line :=
  readFrom 1 (Text.lines source.toList)

end Line
end Sheet
end StyleOrder
