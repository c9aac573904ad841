import StyleOrder.Yaml.Node
import StyleOrder.Yaml.Token.Lexer

namespace StyleOrder
namespace Yaml

/-!
# Reading documents

From tokens to the node of a document.  A node can be given a name by an
ampersand and be repeated by a star.  A text has one document; what is wrong
after its end does not count.
-/

/-- What is left to read.  Names are numbered in the order in which they are given,
and a name that is given again stands for the later node. -/
structure Progress where
  tokens : List Token
  names : List (List Char × Nat) := []
  nodes : List (Nat × Node) := []
  /-- How often a name has been used, and the size of the nodes it stood for. -/
  uses : Nat := 0
  repeated : Nat := 0

abbrev Reader := StateT Progress Option

/-- The next token.  After a fault there is none. -/
def peek : Reader Token := do
  match (← get).tokens with
  | token :: _ => return token
  | [] => failure

def skip : Reader Unit :=
  modify fun progress => { progress with tokens := progress.tokens.tail }

/-- Whether the next token is one of the given ones. -/
def ahead (tokens : List Token) : Reader Bool := do
  return tokens.contains (← peek)

/-- Skip a token, if it is next. -/
def take (token : Token) : Reader Bool := do
  if ← ahead [token] then
    skip
    return true
  else return false

/-! ### Names -/

/-- Give a name, and return its number. -/
def give (name : List Char) : Reader Nat := do
  let number := (← get).names.length
  modify fun progress => { progress with names := (name, number) :: progress.names }
  return number

/-- Keep a node under the number of its name. -/
def keep (number : Nat) (node : Node) : Reader Unit :=
  modify fun progress => { progress with nodes := (number, node) :: progress.nodes }

/-- The greatest size of all nodes together that names stand for. -/
def maxRepeated : Nat := 1000000

/-- The node with a name.  It has to be complete. -/
def named (name : List Char) : Reader Node := do
  let progress ← get
  let (_, number) ← (progress.names.find? (·.1 = name) : Option _)
  let (_, node) ← (progress.nodes.find? (·.1 = number) : Option _)
  let repeated := progress.repeated + node.size
  if maxRepeated < repeated then failure
  set { progress with uses := progress.uses + 1, repeated }
  return node

/-! ### Nodes -/

mutual

/-- A node.  `block` says that a block may begin here, and `bare` that a list may
begin without going deeper. -/
def node : (fuel : Nat) → (block bare : Bool) → Reader Node
  | 0, _, _ => failure
  | fuel + 1, block, bare => do
      match ← peek with
      | .alias name =>
          skip
          named name
      | .anchor name _ =>
          skip
          let number ← give name
          let node ← content fuel block bare true
          keep number node
          return node
      | _ => content fuel block bare false

/-- A node after its name.  With a name it may be absent. -/
def content : (fuel : Nat) → (block bare given : Bool) → Reader Node
  | 0, _, _, _ => failure
  | fuel + 1, block, bare, given => do
      match ← peek with
      | .scalar text quoted =>
          skip
          return .scalar text quoted
      | .flowList =>
          skip
          return .list (← flowItems fuel true)
      | .flowMapping =>
          skip
          return .mapping (← flowPairs fuel true)
      | token =>
          if block && token = .blockList then
            skip
            return .list (← blockItems fuel)
          else if block && token = .blockMapping then
            skip
            return .mapping (← blockPairs fuel)
          else if bare && token = .item then return .list (← bareItems fuel)
          else if given then return .absent
          else failure

/-- A node that is absent if one of the given tokens comes next. -/
def nodeUnless : (fuel : Nat) → (block bare : Bool) → List Token → Reader Node
  | 0, _, _, _ => failure
  | fuel + 1, block, bare, ends => do
      if ← ahead ends then return .absent else node fuel block bare

/-- The value after a colon, if there is one. -/
def valueUnless : (fuel : Nat) → (block : Bool) → List Token → Reader Node
  | 0, _, _ => failure
  | fuel + 1, block, ends => do
      if ← take .value then nodeUnless fuel block block ends else return .absent

/-- The members of a list in brackets. -/
def flowItems : (fuel : Nat) → (first : Bool) → Reader (List Node)
  | 0, _ => failure
  | fuel + 1, first => do
      if ← take .flowListEnd then return []
      if !first then
        if !(← take .comma) then failure
      if ← take .flowListEnd then return []
      let item ←
        if ← take .key then
          let key ← nodeUnless fuel false false [.value, .comma, .flowListEnd]
          let value ← valueUnless fuel false [.comma, .flowListEnd]
          pure (Node.mapping [(key, value)])
        else node fuel false false
      return item :: (← flowItems fuel false)

/-- The pairs of a mapping in brackets. -/
def flowPairs : (fuel : Nat) → (first : Bool) → Reader (List (Node × Node))
  | 0, _ => failure
  | fuel + 1, first => do
      if ← take .flowMappingEnd then return []
      if !first then
        if !(← take .comma) then failure
      if ← take .flowMappingEnd then return []
      let pair ←
        if ← take .key then
          let key ← nodeUnless fuel false false [.value, .comma, .flowMappingEnd]
          pure (key, ← valueUnless fuel false [.comma, .flowMappingEnd])
        else if ← ahead [.value] then
          pure (.absent, ← valueUnless fuel false [.comma, .flowMappingEnd])
        else pure (← node fuel false false, .absent)
      return pair :: (← flowPairs fuel false)

/-- The items of a list that is a block. -/
def blockItems : (fuel : Nat) → Reader (List Node)
  | 0 => failure
  | fuel + 1 => do
      if ← take .blockEnd then return []
      if !(← take .item) then failure
      let item ← nodeUnless fuel true false [.item, .blockEnd]
      return item :: (← blockItems fuel)

/-- The items of a list at the column of the mapping around it. -/
def bareItems : (fuel : Nat) → Reader (List Node)
  | 0 => failure
  | fuel + 1 => do
      if !(← take .item) then return []
      let item ← nodeUnless fuel true false [.item, .key, .value, .blockEnd]
      return item :: (← bareItems fuel)

/-- The pairs of a mapping that is a block. -/
def blockPairs : (fuel : Nat) → Reader (List (Node × Node))
  | 0 => failure
  | fuel + 1 => do
      if ← take .blockEnd then return []
      let key ←
        if ← take .key then nodeUnless fuel true true [.key, .value, .blockEnd]
        else if ← ahead [.value] then pure .absent
        else failure
      let value ← valueUnless fuel true [.key, .value, .blockEnd]
      return (key, value) :: (← blockPairs fuel)

end

/-! ### Documents -/

/-- The tokens after the directives of a document and the mark that begins it.
The version is given once, and so is the meaning of a handle. -/
def afterDirectives (version : Bool) (handles : List (List Char)) :
    List Token → Option (List Token)
  | .version :: rest => if version then none else afterDirectives true handles rest
  | .handle name :: rest =>
      if handles.contains name then none else afterDirectives version (name :: handles) rest
  | .directive :: rest => afterDirectives version handles rest
  | .documentStart :: rest => some rest
  | _ => none

/-- Whether a token can only come between documents. -/
def divides (token : Token) : Bool :=
  token.isDirective || [.documentStart, .documentEnd, .finish].contains token

/-- Whether tokens begin with directives or the mark of a document. -/
def isMarked : List Token → Bool
  | token :: _ => token.isDirective || token = .documentStart
  | [] => false

def skipEnds (tokens : List Token) : List Token :=
  tokens.dropWhile (· = .documentEnd)

/-- The node of the first document. -/
def document (fuel : Nat) : Reader Node := do
  modify fun progress => { progress with tokens := skipEnds progress.tokens }
  if isMarked (← get).tokens then
    let rest ← (afterDirectives false [] (← get).tokens : Option _)
    modify fun progress => { progress with tokens := rest }
    if divides (← peek) then return .absent else node fuel true false
  else if ← ahead [.finish] then return .absent
  else node fuel true false

/-- Whether a node begins with these tokens. -/
def nodeBegins (names : List (List Char × Nat)) : List Token → Bool
  | .alias name :: _ => names.any (·.1 = name)
  | .anchor _ _ :: _ :: _ => true
  | .scalar _ _ :: _ | .flowList :: _ | .flowMapping :: _ | .blockList :: _
  | .blockMapping :: _ => true
  | _ => false

/-- Whether another document begins after one.  Without the mark of its beginning
one begins only after the mark of an end. -/
def another (names : List (List Char × Nat)) (ended : Bool) (tokens : List Token) : Bool :=
  let tokens := skipEnds tokens
  if isMarked tokens then
    match afterDirectives false [] tokens with
    | some (token :: rest) => divides token || nodeBegins names (token :: rest)
    | _ => false
  else ended && nodeBegins names tokens

/-- The end of the first document.  No other document may follow. -/
def endDocument : Reader Unit := do
  let token ← peek
  let progress ← get
  if token.isDirective then failure
  if another progress.names (token = .documentEnd) progress.tokens then failure

/-- Names may be used often only if many are given. -/
def withinUses (names uses : Nat) : Bool :=
  uses < 100 || uses ≤ 10 * names

/-- What a document may have at most. -/
structure Limits where
  /-- Collections inside each other. -/
  depth : Nat := 2000
  /-- Scalars and collections, those that names stand for among them. -/
  nodes : Nat := 250000
  /-- Bytes in all scalars together. -/
  bytes : Nat := 67108864
  /-- Names that are given, and uses of them. -/
  names : Nat := 50000
  uses : Nat := 50000

/-- Whether a node is within limits, as a whole. -/
def Limits.allow (limits : Limits) (node : Node) : Bool :=
  node.depth ≤ limits.depth && node.count ≤ limits.nodes && node.bytes ≤ limits.bytes

/-- The only document of a text, if it is within limits. -/
def parse (text : String) (limits : Limits := {}) : Option Node := do
  let tokens := tokens text.toList
  let reader : Reader Node := do
    let node ← document (4 * tokens.length + 8)
    endDocument
    return node
  let (node, progress) ← reader.run { tokens }
  let names := progress.names.length
  let uses := progress.uses
  if withinUses names uses && names ≤ limits.names && uses ≤ limits.uses && limits.allow node then
    return node
  else none

end Yaml
end StyleOrder
