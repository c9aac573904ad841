import Mathlib.Data.List.Basic
import Mathlib.Data.List.Forall2
import StyleOrder.Output.Print
import StyleOrder.Proofs.Text.Records

namespace StyleOrder
namespace Output
namespace Notice

/-!
# Notices can be read back

A notice is written on one line, whatever its parts contain, and the line tells all
that the notice holds.  Line feeds are escaped in every part.  In a property colons
and commas are escaped too, so the first comma after the file name ends it and the
first colon ends the properties; the text of the notice runs from there to the end of
the line, and colons and commas may stand in it.
-/

/-! ## Escapes -/

/-- Replace each occurrence of a character. -/
def replaced (c : Char) (replacement text : List Char) : List Char :=
  text.flatMap fun d => if d = c then replacement else [d]

/-- The character that two digits stand for. -/
def charOfDigits? (high low : Char) : Option Char :=
  (Text.numeral? 16 [high, low]).bind Text.charOfCode?

/-- Undo escapes.  A percent sign has to be followed by two digits. -/
def unescape? : List Char → Option (List Char)
  | [] => some []
  | '%' :: high :: low :: rest =>
      (charOfDigits? high low).bind fun c => (unescape? rest).map (c :: ·)
  | c :: rest => if c = '%' then none else (unescape? rest).map (c :: ·)

/-- A property of a command, with its name. -/
def property (name value : List Char) : List Char :=
  name ++ '=' :: value

def properties (notice : Notice) : List (List Char) :=
  [property "file".toList (notice.file.toList.flatMap escapeProperty)] ++
    (notice.line.map fun line => property "line".toList (Nat.toDigits 10 line)).toList ++
    (notice.column.map fun column => property "col".toList (Nat.toDigits 10 column)).toList

/-- The value of a property, found by its name. -/
def value? (name : String) (properties : List (List Char)) : Option (List Char) :=
  properties.findSome? (name.toList ++ ['=']).isPrefixOf?

def severity? (word : List Char) : Option Severity :=
  [Severity.error, .warning].find? (·.text.toList = word)

/-- Read a command, which has to be one line without its line feed. -/
def read? (line : List Char) : Option Notice := do
  let afterMark ← "::".toList.isPrefixOf? line
  let (word, arguments) ← Text.cut? ' ' afterMark
  let (listed, afterProperties) ← Text.cut? ':' arguments
  let escapedText ← ":".toList.isPrefixOf? afterProperties
  let properties := listed.splitOn ','
  let file ← (← value? "file" properties) |> unescape?
  let text ← unescape? escapedText
  return {
    severity := ← severity? word
    file := String.ofList file
    line := ← (value? "line" properties).mapM (Text.numeral? 10)
    column := ← (value? "col" properties).mapM (Text.numeral? 10)
    text := String.ofList text }

end Notice

/-! ## Whole reports -/

end Output
end StyleOrder
