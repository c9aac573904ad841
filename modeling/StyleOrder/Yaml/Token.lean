namespace StyleOrder
namespace Yaml

/-!
# Tokens

A document as the sequence of its signs and scalars.  Blocks are shown by
columns in the text; here they have a beginning and an end of their own, and a
key is announced before it comes.
-/

inductive Token where
  /-- The directive that gives the version. -/
  | version
  /-- The directive that gives a handle a meaning. -/
  | handle (name : List Char)
  /-- Any other directive. -/
  | directive
  | documentStart
  | documentEnd
  /-- The end of the text. -/
  | finish
  | blockList
  | blockMapping
  | blockEnd
  | flowList
  | flowListEnd
  | flowMapping
  | flowMappingEnd
  /-- The dash before an item of a block. -/
  | item
  /-- The comma between members in brackets. -/
  | comma
  | key
  | value
  /-- The name given to the next node, and its column. -/
  | anchor (name : List Char) (column : Nat)
  /-- A name in place of the node that it was given to. -/
  | alias (name : List Char)
  | scalar (text : List Char) (quoted : Bool)
deriving DecidableEq, Repr

namespace Token

def isDirective : Token → Bool
  | version | handle _ | directive => true
  | _ => false

end Token
end Yaml
end StyleOrder
