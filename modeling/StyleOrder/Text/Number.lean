import StyleOrder.Text.Letter

namespace StyleOrder
namespace Text

/-!
# Numerals

Digits and numerals in any base up to thirty-six.  Letters stand for the digits
from ten on, in either case.
-/

def digitValue? (base : Nat) (c : Char) : Option Nat :=
  let value :=
    if isDigit c then some (c.toNat - '0'.toNat)
    else if isLetter c then some ((lower c).toNat - 'a'.toNat + 10)
    else none
  value.filter (· < base)

/-- The number that digits stand for.  There is none without a digit. -/
def numeral? (base : Nat) : List Char → Option Nat
  | [] => none
  | digits => digits.foldlM (fun number c => (digitValue? base c).map (number * base + ·)) 0

/-- Digits without the underscores that divide them.  An underscore stands alone
between two digits. -/
def ungrouped? (text : List Char) : Option (List Char) :=
  match text.head?, text.getLast? with
  | some first, some last =>
      if first = '_' || last = '_' || (text.zip text.tail).any (· = ('_', '_')) then none
      else some (text.filter (· ≠ '_'))
  | _, _ => none

/-- How many numbers a machine word of sixty-four bits can tell apart. -/
def wordSize : Nat := 18446744073709551616

/-- Integers that fit into a machine word, signed or not. -/
def fitsWord (number : Int) : Bool :=
  -9223372036854775808 ≤ number && number < wordSize

/-- The character with a code, unless it is no code of a character. -/
def charOfCode? (code : Nat) : Option Char :=
  if code.isValidChar then some (Char.ofNat code) else none

end Text
end StyleOrder
