import StyleOrder.Value.Mismatch
import StyleOrder.Yaml.Node

namespace StyleOrder
namespace Yaml
namespace Node

/-!
# Contents of a document

The value that a node stands for.  The keys of a mapping are texts, however they
are written, and no key comes twice.
-/

/-- The text of a scalar where a text is asked for. -/
def key : Node → Except Mismatch String
  | scalar text quoted =>
      if isNull (scalar text quoted) then throw (.wrongType .null "a string")
      else return String.ofList text
  | list _ => throw (.wrongType (.list []) "a string")
  | mapping _ => throw (.wrongType (.object []) "a string")

def scalarValue (text : List Char) (quoted : Bool) : Value :=
  if isNull (scalar text quoted) then .null
  else if quoted then .string (String.ofList text)
  else plainValue text

mutual

def value : Node → Except Mismatch Value
  | scalar text quoted => return scalarValue text quoted
  | list items => return .list (← values items)
  | mapping pairs => return .object (← fields [] pairs)

def values : List Node → Except Mismatch (List Value)
  | [] => return []
  | node :: rest => return (← node.value) :: (← values rest)

/-- Put pairs into sorted fields. -/
def fields (sorted : List (String × Value)) :
    List (Node × Node) → Except Mismatch (List (String × Value))
  | [] => return sorted
  | (name, node) :: rest => do
      let name ← name.key
      if sorted.any (·.1 = name) then throw (.repeatedField name)
      else fields (Value.insertField name (← node.value) sorted) rest

end

end Node
end Yaml
end StyleOrder
