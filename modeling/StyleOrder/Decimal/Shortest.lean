namespace StyleOrder
namespace Decimal

/-!
# Shortest decimals

A binary number stands for all reals that are rounded to it.  Its shortest
decimal is the one among them with the fewest digits and, of several with that
many digits, the nearest.  All comparisons are between natural numbers.
-/

/-- The positive number `significand * 2 ^ exponent`.  `narrow` says that the gap
below it is half as wide as the gap above it. -/
structure Binary where
  significand : Nat
  exponent : Int
  narrow : Bool
deriving DecidableEq, Repr

/-- How many fractions a binary number of double precision can tell apart. -/
def fractionSize : Nat := 4503599627370496

namespace Binary

/-- The size of a finite number, from the bits of its exponent and fraction. -/
def ofBits (bits : Nat) : Binary :=
  let fraction := bits % fractionSize
  let exponent := bits / fractionSize % 2048
  if exponent = 0 then ⟨fraction, -1074, false⟩
  else ⟨fractionSize + fraction, (exponent : Int) - 1075, fraction == 0 && exponent != 1⟩

/-- Factors that bring a quarter of the number's last place and a unit at a power
of ten to one scale. -/
def factors (number : Binary) (power : Int) : Nat × Nat :=
  let shift := number.exponent - 2
  (Nat.pow 2 shift.toNat * Nat.pow 10 (-power).toNat,
    Nat.pow 2 (-shift).toNat * Nat.pow 10 power.toNat)

/-- Whether `digits * 10 ^ power` is rounded to the number.  The ends of the
interval are, if the significand is even. -/
def takes (number : Binary) (power : Int) (digits : Nat) : Bool :=
  let (own, other) := number.factors power
  let low := (4 * number.significand - if number.narrow then 1 else 2) * own
  let high := (4 * number.significand + 2) * own
  let value := digits * other
  if number.significand % 2 = 0 then low ≤ value && value ≤ high
  else low < value && value < high

/-- The decimal at a power of ten that is rounded to the number, the nearer one if
there are two, and the even one if both are equally near. -/
def decimalAt (number : Binary) (power : Int) : Option Nat :=
  let (own, other) := number.factors power
  let value := 4 * number.significand * own
  let below := value / other
  let above := below + 1
  if number.takes power below then
    if number.takes power above then
      let left := value - below * other
      let right := above * other - value
      if left < right || (left = right && below % 2 = 0) then some below else some above
    else some below
  else if number.takes power above then some above
  else none

/-- Try powers of ten downwards. -/
def search (number : Binary) : (steps : Nat) → (power : Int) → Nat × Int
  | 0, power => (0, power)
  | steps + 1, power =>
      match number.decimalAt power with
      | some digits => (digits, power)
      | none => number.search steps (power - 1)

/-- Digits and power of ten of the shortest decimal. -/
def shortest (number : Binary) : Nat × Int :=
  if number.significand = 0 then (0, 0) else number.search 640 309

end Binary

/-- Digits and power of ten of the shortest decimal for the size of a finite
number. -/
def shortest (number : Float) : Nat × Int :=
  (Binary.ofBits (number.toBits.toNat % 9223372036854775808)).shortest

/-- Whether a number has a minus sign. -/
def isNegative (number : Float) : Bool :=
  9223372036854775808 ≤ number.toBits.toNat

end Decimal
end StyleOrder
