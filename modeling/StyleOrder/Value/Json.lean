import StyleOrder.Text.Number
import StyleOrder.Value.Basic

namespace StyleOrder
namespace Json

/-!
# JSON

The strict notation: no comments, no trailing commas, no text after the value.
Containers nest at most one hundred and twenty-seven deep.  Fields are returned
as they are written, in order and with repetitions, because a reader of settings
objects to repetitions in some places and not in others.  Every reader returns
what it found and the text after it.
-/

def isGap (c : Char) : Bool :=
  c == ' ' || c == '\t' || c == '\n' || c == '\r'

def skip (text : List Char) : List Char :=
  text.dropWhile isGap

/-! ### Strings -/

/-- The text up to the closing quote, with its escapes, and the text after it. -/
def quoted : List Char → Option (List Char × List Char)
  | [] => none
  | '"' :: rest => some ([], rest)
  | '\\' :: c :: rest => (quoted rest).map fun (body, after) => ('\\' :: c :: body, after)
  | c :: rest =>
      if c.toNat < 0x20 then none else (quoted rest).map fun (body, after) => (c :: body, after)

/-- The code that a one-letter escape stands for. -/
def escapeCode? : Char → Option Nat
  | '"' => some 0x22
  | '\\' => some 0x5C
  | '/' => some 0x2F
  | 'b' => some 0x08
  | 'f' => some 0x0C
  | 'n' => some 0x0A
  | 'r' => some 0x0D
  | 't' => some 0x09
  | _ => none

/-- Codes of the characters of a string.  An escape by number may give half of a
surrogate pair. -/
def codes : List Char → Option (List Nat)
  | [] => some []
  | '\\' :: 'u' :: a :: b :: c :: d :: rest => do
      let code ← Text.numeral? 16 [a, b, c, d]
      return code :: (← codes rest)
  | '\\' :: c :: rest => do
      let code ← escapeCode? c
      return code :: (← codes rest)
  | c :: rest => do return c.toNat :: (← codes rest)

/-- Join surrogate pairs.  A half without its partner stands for nothing. -/
def characters : List Nat → Option (List Char)
  | [] => some []
  | high :: low :: rest =>
      if 0xD800 ≤ high && high < 0xDC00 && 0xDC00 ≤ low && low < 0xE000 then do
        let c ← Text.charOfCode? (0x10000 + (high - 0xD800) * 0x400 + (low - 0xDC00))
        return c :: (← characters rest)
      else do
        let c ← Text.charOfCode? high
        return c :: (← characters (low :: rest))
  | [code] => do return [← Text.charOfCode? code]

/-- A string, after its opening quote. -/
def string (text : List Char) : Option (String × List Char) := do
  let (body, rest) ← quoted text
  return (String.ofList (← characters (← codes body)), rest)

/-! ### Numbers

A number is a significand and a power of ten.  The significand is kept in a
machine word: digits for which it has no room are dropped, and those before the
point are made up for by the power of ten.
-/

/-- A significand after one more digit, if a machine word has room for it. -/
def withDigit? (significand : Nat) (c : Char) : Option Nat :=
  (some (significand * 10 + (c.toNat - '0'.toNat))).filter (· < Text.wordSize)

/-- Add digits to a significand as long as there is room, counting those added.
The digits left over are returned too. -/
def addDigits (significand count : Nat) : List Char → Nat × Nat × List Char
  | [] => (significand, count, [])
  | c :: rest =>
      match withDigit? significand c with
      | some significand => addDigits significand (count + 1) rest
      | none => (significand, count, c :: rest)

/-- Digits of a whole part: no zero before another digit. -/
def whole (text : List Char) : Option (List Char × List Char) :=
  match text.takeWhile Text.isDigit with
  | [] => none
  | '0' :: _ :: _ => none
  | digits => some (digits, text.dropWhile Text.isDigit)

def fraction : List Char → Option (List Char × List Char)
  | '.' :: rest =>
      match rest.takeWhile Text.isDigit with
      | [] => none
      | digits => some (digits, rest.dropWhile Text.isDigit)
  | text => some ([], text)

/-- A sign and the text after it. -/
def sign : List Char → Int × List Char
  | '-' :: rest => (-1, rest)
  | '+' :: rest => (1, rest)
  | text => (1, text)

def exponent : List Char → Option (Int × List Char)
  | c :: rest =>
      if c == 'e' || c == 'E' then do
        let (direction, rest) := sign rest
        let size ← Text.numeral? 10 (rest.takeWhile Text.isDigit)
        return (direction * size, rest.dropWhile Text.isDigit)
      else some (0, c :: rest)
  | [] => some (0, [])

/-- The largest power of ten that numbers are scaled by at once. -/
def maxScale : Nat := 308

def powerOfTen (exponent : Nat) : Float :=
  Float.ofScientific 1 false exponent

/-- Divide a number by powers of ten, the largest ones first. -/
def scaleDown : (fuel : Nat) → Float → Nat → Float
  | 0, number, _ => number
  | fuel + 1, number, exponent =>
      if exponent ≤ maxScale then number / powerOfTen exponent
      else if number == 0 then number
      else scaleDown fuel (number / powerOfTen maxScale) (exponent - maxScale)

/-- A significand times a power of ten.  There is no number beyond the largest
one. -/
def scale? (significand : Nat) (power : Int) : Option Float :=
  let number := (UInt64.ofNat significand).toFloat
  if power < 0 then some (scaleDown (power.natAbs / maxScale + 1) number power.natAbs)
  else if maxScale < power.natAbs then if significand = 0 then some number else none
  else
    let scaled := number * powerOfTen power.natAbs
    if scaled.isInf then none else some scaled

/-- Exponents that cannot be held stand for nothing, or for too much. -/
def maxExponent : Nat := 2147483647

/-- The size of a real number from the digits before and after its point and its
exponent. -/
def real? (digits places : List Char) (shift : Int) : Option Float :=
  let (significand, _, dropped) := addDigits 0 0 digits
  let (significand, count, _) := addDigits significand 0 places
  if maxExponent < shift.natAbs then
    if 0 < shift && significand ≠ 0 then none else some 0
  else scale? significand ((dropped.length : Int) - count + shift)

/-- Whether a point or an exponent comes next. -/
def continues : List Char → Bool
  | c :: _ => c == '.' || c == 'e' || c == 'E'
  | [] => false

/-- A number.  Only a number without point and exponent that fits into a machine
word is an integer, and minus zero is not. -/
def number (text : List Char) : Option (Value × List Char) := do
  let (direction, unsigned) := match text with
    | '-' :: rest => ((-1 : Int), rest)
    | text => (1, text)
  let (digits, afterWhole) ← whole unsigned
  let (places, afterPlaces) ← fraction afterWhole
  let (shift, rest) ← exponent afterPlaces
  let size ← Text.numeral? 10 digits
  let value := direction * size
  if !continues afterWhole && Text.fitsWord value && !(size == 0 && direction < 0) then
    return (.integer value, rest)
  else
    let size ← real? digits places shift
    return (.real (if direction < 0 then -size else size), rest)

/-! ### Values -/

/-- Drop a word from the beginning of a text. -/
def word? (word text : List Char) : Option (List Char) :=
  if word.isPrefixOf text then some (text.drop word.length) else none

def keyword (text : List Char) : Option (Value × List Char) :=
  ((word? "null".toList text).map (Value.null, ·)).or <|
    ((word? "true".toList text).map (Value.bool true, ·)).or <|
      (word? "false".toList text).map (Value.bool false, ·)

mutual

/-- A value at the beginning of a text.  `depth` containers may still be opened,
and `fuel` bounds the length of the text. -/
def value : (fuel depth : Nat) → List Char → Option (Value × List Char)
  | 0, _, _ => none
  | fuel + 1, depth, text =>
      match skip text with
      | '"' :: rest => (string rest).map fun (text, rest) => (.string text, rest)
      | '[' :: rest =>
          match depth with
          | 0 => none
          | depth + 1 =>
              match skip rest with
              | ']' :: rest => some (.list [], rest)
              | rest => (items fuel depth rest).map fun (items, rest) => (.list items, rest)
      | '\x7b' :: rest =>
          match depth with
          | 0 => none
          | depth + 1 =>
              match skip rest with
              | '\x7d' :: rest => some (.object [], rest)
              | rest => (fields fuel depth rest).map fun (fields, rest) => (.object fields, rest)
      | text => (keyword text).or (number text)

/-- The items of a list up to its end.  There is at least one. -/
def items : (fuel depth : Nat) → List Char → Option (List Value × List Char)
  | 0, _, _ => none
  | fuel + 1, depth, text => do
      let (item, rest) ← value fuel depth text
      match skip rest with
      | ',' :: rest =>
          let (others, rest) ← items fuel depth rest
          return (item :: others, rest)
      | ']' :: rest => return ([item], rest)
      | _ => none

/-- The fields of an object up to its end.  There is at least one. -/
def fields : (fuel depth : Nat) → List Char → Option (List (String × Value) × List Char)
  | 0, _, _ => none
  | fuel + 1, depth, text =>
      match skip text with
      | '"' :: rest => do
          let (name, rest) ← string rest
          match skip rest with
          | ':' :: rest =>
              let (content, rest) ← value fuel depth rest
              match skip rest with
              | ',' :: rest =>
                  let (others, rest) ← fields fuel depth rest
                  return ((name, content) :: others, rest)
              | '\x7d' :: rest => return ([(name, content)], rest)
              | _ => none
          | _ => none
      | _ => none

end

/-- The number of containers that may stand inside each other. -/
def maxDepth : Nat := 127

/-- The value that a text is. -/
def parse (text : String) : Option Value :=
  let text := text.toList
  match value (2 * text.length + 2) maxDepth text with
  | some (value, rest) => if (skip rest).isEmpty then some value else none
  | none => none

end Json
end StyleOrder
