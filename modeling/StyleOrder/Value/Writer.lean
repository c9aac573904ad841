import StyleOrder.Decimal.Written
import StyleOrder.Value.Basic

namespace StyleOrder
namespace Value

/-!
# Writing values

The indented notation: two spaces for each level, one item or field on a line,
and nothing between the brackets of an empty collection.
-/

/-- A character of a string between quotes.  Quotes, backslashes and control
characters are escaped; everything else stands for itself. -/
def escapeChar (c : Char) : List Char :=
  if c = '"' then ['\\', '"']
  else if c = '\\' then ['\\', '\\']
  else if c = '\x08' then ['\\', 'b']
  else if c = '\x0c' then ['\\', 'f']
  else if c = '\n' then ['\\', 'n']
  else if c = '\r' then ['\\', 'r']
  else if c = '\t' then ['\\', 't']
  else if c.toNat < 0x20 then
    ['\\', 'u', '0', '0', Nat.digitChar (c.toNat / 16), Nat.digitChar (c.toNat % 16)]
  else [c]

def writeString (text : String) : String :=
  String.ofList ('"' :: text.toList.flatMap escapeChar ++ ['"'])

/-- A line break and the indentation after it. -/
def newline (depth : Nat) : String :=
  String.ofList ('\n' :: List.replicate (2 * depth) ' ')

mutual

/-- A value at a depth of nesting. -/
def write (depth : Nat) : Value → String
  | null => "null"
  | bool value => if value then "true" else "false"
  | integer value => toString value
  | real value => Decimal.text value
  | string text => writeString text
  | list [] => "[]"
  | list (item :: rest) =>
      "[" ++ newline (depth + 1) ++ write (depth + 1) item ++ writeItems (depth + 1) rest ++
        newline depth ++ "]"
  | object [] => "\x7b\x7d"
  | object ((name, value) :: rest) =>
      "\x7b" ++ newline (depth + 1) ++ writeString name ++ ": " ++ write (depth + 1) value ++
        writeFields (depth + 1) rest ++ newline depth ++ "\x7d"

def writeItems (depth : Nat) : List Value → String
  | [] => ""
  | item :: rest => "," ++ newline depth ++ write depth item ++ writeItems depth rest

def writeFields (depth : Nat) : List (String × Value) → String
  | [] => ""
  | (name, value) :: rest =>
      "," ++ newline depth ++ writeString name ++ ": " ++ write depth value ++
        writeFields depth rest

end

/-- A value as a text of its own. -/
def pretty (value : Value) : String :=
  write 0 value

end Value
end StyleOrder
