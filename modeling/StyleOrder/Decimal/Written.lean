import StyleOrder.Decimal.Shortest

namespace StyleOrder
namespace Decimal

/-!
# Written decimals

A number is written with a point, and with an exponent if it is very large or
very small.
-/

/-- The power of ten of the first digit, in numbers that are written without an
exponent: it is at least the first and below the second. -/
def positional : Int × Int := (-5, 16)

def zeros (count : Nat) : List Char :=
  List.replicate count '0'

/-- At least two digits. -/
def exponentDigits (exponent : Nat) : List Char :=
  let digits := Nat.toDigits 10 exponent
  zeros (2 - digits.length) ++ digits

/-- Digits before and after the point, when the point stands after `whole` of
them.  There is a digit on both sides. -/
def pointed (digits : List Char) (whole : Int) : List Char :=
  if whole ≤ 0 then '0' :: '.' :: zeros (-whole).toNat ++ digits
  else if (digits.length : Int) ≤ whole then
    digits ++ zeros (whole.toNat - digits.length) ++ ['.', '0']
  else digits.take whole.toNat ++ '.' :: digits.drop whole.toNat

/-- One digit, the point if there are others, and the exponent with its sign. -/
def scientific (digits : List Char) (exponent : Int) : List Char :=
  let mantissa := match digits with
    | first :: next :: rest => first :: '.' :: next :: rest
    | digits => digits
  mantissa ++ 'e' :: (if exponent < 0 then '-' else '+') :: exponentDigits exponent.natAbs

/-- The notation of `digits * 10 ^ power`. -/
def notate (digits : Nat) (power : Int) : List Char :=
  if digits = 0 then ['0', '.', '0']
  else
    let digits := Nat.toDigits 10 digits
    let exponent := power + digits.length - 1
    if positional.1 ≤ exponent && exponent < positional.2 then pointed digits (exponent + 1)
    else scientific digits exponent

/-- A finite number in the shortest notation that gives it back. -/
def text (number : Float) : String :=
  let (digits, power) := shortest number
  String.ofList ((if isNegative number then ['-'] else []) ++ notate digits power)

/-! ### Numbers that are not finite -/

/-- What is greater than all numbers. -/
def infinity : Float := Float.ofScientific 1 false 400

/-- What is no number at all. -/
def undefined : Float := infinity - infinity

/-- What is not finite has a name. -/
def boundlessName (number : Float) : String :=
  if number.isNaN then "NaN" else if isNegative number then "-inf" else "inf"

/-! ### Reading -/

/-- The number nearest to `digits * 10 ^ power`. -/
def nearest (digits : Nat) (power : Int) : Float :=
  if digits = 0 then 0
  else if 400 < power then infinity
  else if power + (Nat.toDigits 10 digits).length < -400 then 0
  else Float.ofScientific digits (power < 0) power.natAbs

/-- The number nearest to `digits * 10 ^ power`, with a sign. -/
def signed (negative : Bool) (digits : Nat) (power : Int) : Float :=
  if negative then -(nearest digits power) else nearest digits power

end Decimal
end StyleOrder
