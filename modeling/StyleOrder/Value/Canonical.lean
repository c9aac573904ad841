import StyleOrder.Value.Basic

namespace StyleOrder
namespace Value

/-!
# Canonical values

A value as it is written may list fields in any order and repeat them.  In its
canonical form fields are sorted and, of those with one name, the last is kept.
A canonical value has only finite numbers, and null in place of any other.
-/

mutual

def canonical : Value → Value
  | real number => if number.isFinite then real number else null
  | list items => list (canonicalItems items)
  | object fields => object (canonicalFields [] fields)
  | value => value

def canonicalItems : List Value → List Value
  | [] => []
  | item :: rest => item.canonical :: canonicalItems rest

def canonicalFields (sorted : List (String × Value)) :
    List (String × Value) → List (String × Value)
  | [] => sorted
  | (name, value) :: rest => canonicalFields (insertField name value.canonical sorted) rest

end

end Value
end StyleOrder
