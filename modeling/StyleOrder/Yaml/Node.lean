import StyleOrder.Decimal.Written
import StyleOrder.Text.Blank
import StyleOrder.Text.Letter
import StyleOrder.Text.Number
import StyleOrder.Value.Basic

namespace StyleOrder
namespace Yaml

/-!
# Documents

A document is a tree of nodes.  A scalar is a text and the way it was written:
what a plain scalar means is decided by its text, while a quoted one always is a
string.  Keys of a mapping are nodes too, although settings only use texts.
-/

inductive Node where
  | scalar (text : List Char) (quoted : Bool)
  | list (items : List Node)
  | mapping (pairs : List (Node × Node))
deriving Repr, Inhabited

namespace Node

/-- What an absent node means. -/
def absent : Node := scalar [] false

/-- A plain text that means nothing: empty, a tilde, or the word for it in any
case. -/
def isNull : Node → Bool
  | scalar text false => text = [] || text = ['~'] || text.map Text.lower = "null".toList
  | _ => false

/-! ### Measures -/

section Total

variable (ofText : List Char → Nat) (ofCollection : Nat)

mutual

/-- The sum over all scalars, each by its text, and all collections. -/
def total : Node → Nat
  | scalar text _ => ofText text
  | list items => itemsTotal items + ofCollection
  | mapping pairs => pairsTotal pairs + ofCollection

def itemsTotal : List Node → Nat
  | [] => 0
  | node :: rest => node.total + itemsTotal rest

def pairsTotal : List (Node × Node) → Nat
  | [] => 0
  | (key, value) :: rest => key.total + value.total + pairsTotal rest

end

end Total

/-- The number of scalars and of beginnings and ends of collections. -/
def size : Node → Nat :=
  total (fun _ => 1) 2

/-- The number of scalars and collections. -/
def count : Node → Nat :=
  total (fun _ => 1) 1

/-- The number of bytes in all scalars together. -/
def bytes : Node → Nat :=
  total (fun text => (String.ofList text).utf8ByteSize) 0

mutual

/-- The number of collections inside each other. -/
def depth : Node → Nat
  | scalar _ _ => 0
  | list items => itemsDepth items + 1
  | mapping pairs => pairsDepth pairs + 1

def itemsDepth : List Node → Nat
  | [] => 0
  | node :: rest => max node.depth (itemsDepth rest)

def pairsDepth : List (Node × Node) → Nat
  | [] => 0
  | (key, value) :: rest => max (max key.depth value.depth) (pairsDepth rest)

end

end Node

/-! ### Plain scalars -/

/-- The words for truth values, in any case. -/
def truth? (text : List Char) : Option Bool :=
  let word := String.ofList (text.map Text.lower)
  if word ∈ ["true", "yes", "on", "y"] then some true
  else if word ∈ ["false", "no", "off", "n"] then some false
  else none

/-- Base of a numeral and its digits. -/
def base (text : List Char) : Nat × List Char :=
  match text with
  | '0' :: c :: digits =>
      if c == 'x' || c == 'X' then (16, digits)
      else if c == 'o' || c == 'O' then (8, digits)
      else if c == 'b' || c == 'B' then (2, digits)
      else (10, text)
  | _ => (10, text)

/-- The size of a numeral without its sign.  Single underscores may stand between
its digits. -/
def size? (text : List Char) : Option Nat := do
  let (base, digits) := base text
  Text.numeral? base (← Text.ungrouped? digits)

def integer? : List Char → Option Int
  | '-' :: rest => (size? rest).map fun size => -(size : Int)
  | '+' :: rest => (size? rest).map fun size => (size : Int)
  | text => (size? text).map fun size => (size : Int)

/-- Decimal digits, none of them or some. -/
def decimals (text : List Char) : List Char × List Char :=
  (text.takeWhile Text.isDigit, text.dropWhile Text.isDigit)

/-- The exponent at the end of a numeral; zero when there is none. -/
def exponent? : List Char → Option Int
  | [] => some 0
  | c :: rest =>
      if c == 'e' || c == 'E' then
        match rest with
        | '-' :: digits => (Text.numeral? 10 digits).map fun size => -(size : Int)
        | '+' :: digits => (Text.numeral? 10 digits).map fun size => (size : Int)
        | digits => (Text.numeral? 10 digits).map fun size => (size : Int)
      else none

/-- A sign, and whether it is a minus. -/
def signed : List Char → Bool × List Char
  | '-' :: rest => (true, rest)
  | '+' :: rest => (false, rest)
  | text => (false, text)

/-- A numeral with a point or an exponent. -/
def real? (text : List Char) : Option Float := do
  let (negative, unsigned) := signed text
  let (digits, afterDigits) := decimals unsigned
  let (places, rest) := match afterDigits with
    | '.' :: rest => decimals rest
    | rest => ([], rest)
  let size ← Text.numeral? 10 (digits ++ places)
  let shift ← exponent? rest
  return Decimal.signed negative size (shift - places.length)

/-- The words for what is not finite, in any case. -/
def boundless? (text : List Char) : Option Float :=
  let (negative, unsigned) := signed text
  let word := String.ofList (unsigned.map Text.lower)
  if word ∈ ["inf", "infinity", ".inf"] then
    some (if negative then -Decimal.infinity else Decimal.infinity)
  else if word ∈ ["nan", ".nan"] then some Decimal.undefined
  else none

def numberValue? (text : List Char) : Option Value :=
  match (integer? text).filter Text.fitsWord with
  | some number => some (.integer number)
  | none => (real? text <|> boundless? text).map .real

/-- What a plain scalar means.  Blanks around a word or numeral do not count. -/
def plainValue (text : List Char) : Value :=
  let word := Text.trim text
  match truth? word with
  | some truth => .bool truth
  | none => (numberValue? word).getD (.string (String.ofList text))

end Yaml
end StyleOrder
