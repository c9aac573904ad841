import StyleOrder.Decimal.Written
import StyleOrder.Text.Hidden
import StyleOrder.Value.Basic

namespace StyleOrder

/-!
# Mismatches

What goes wrong when a value is read as something more specific, and how that is
put into words.  The value found is described by its kind, and by its content
where that is short.
-/

namespace Text

def quoteChar (c : Char) : List Char :=
  if c = '"' then ['\\', '"']
  else if c = '\\' then ['\\', '\\']
  else if c = '\n' then ['\\', 'n']
  else if c = '\r' then ['\\', 'r']
  else if c = '\t' then ['\\', 't']
  else if c = '\x00' then ['\\', '0']
  else if hidden c then "\\u\x7b".toList ++ Nat.toDigits 16 c.toNat ++ ['\x7d']
  else [c]

/-- A text between double quotes. -/
def quote (text : String) : String :=
  String.ofList ('"' :: text.toList.flatMap quoteChar ++ ['"'])

end Text

namespace Value

/-- A value as it is described in a mismatch. -/
def describe : Value → String
  | null => "null"
  | bool value => "boolean `" ++ (if value then "true" else "false") ++ "`"
  | integer value => "integer `" ++ toString value ++ "`"
  | real value =>
      "floating point `" ++
        (if value.isFinite then Decimal.text value else Decimal.boundlessName value) ++ "`"
  | string text => "string " ++ Text.quote text
  | list _ => "sequence"
  | object _ => "map"

end Value

inductive Mismatch where
  | wrongType (found : Value) (expected : String)
  | unknownField (name : String) (expected : List String)
  | repeatedField (name : String)
  | unknownWord (word : String) (expected : List String)
  | tooManyElements (count : Nat)
  | notOneField
  | outOfRange (number : Int) (expected : String)

namespace Mismatch

def quoted (word : String) : String :=
  "`" ++ word ++ "`"

/-- One expected word, or a choice of several. -/
def choice : List String → String
  | [word] => quoted word
  | words => "one of " ++ ", ".intercalate (words.map quoted)

def message : Mismatch → String
  | wrongType found expected => "invalid type: " ++ found.describe ++ ", expected " ++ expected
  | unknownField name expected =>
      "unknown field " ++ quoted name ++ ", expected " ++ choice expected
  | repeatedField name => "duplicate field " ++ quoted name
  | unknownWord word expected =>
      "unknown variant " ++ quoted word ++ ", expected " ++ choice expected
  | tooManyElements count =>
      "invalid length " ++ toString count ++ ", expected fewer elements in array"
  | notOneField => "invalid value: map, expected map with a single key"
  | outOfRange number expected =>
      "invalid value: integer `" ++ toString number ++ "`, expected " ++ expected

end Mismatch
end StyleOrder
