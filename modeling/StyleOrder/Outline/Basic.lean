import StyleOrder.Position

namespace StyleOrder

/-!
# Outlines

An outline is a sheet after its nesting has been worked out: the blocks in the
order in which their lines stand, each with the number of its enclosing block,
the numbers of the blocks directly inside it and the entries of its body.  A
block is referred to by its place in that order.
-/

/-- What the ordering convention is about: a declaration or a mixin call in the
body of a block.  A call has no name, since only its presence matters. -/
inductive Entry where
  | property (name value : String) (position : Position)
  | mixin (position : Position)
deriving DecidableEq, Repr

namespace Entry

def position : Entry → Position
  | property _ _ position => position
  | mixin position => position

def name? : Entry → Option String
  | property name _ _ => some name
  | mixin _ => none

end Entry

inductive BlockKind where
  | selector
  | atRule
  | placeholder
deriving DecidableEq, Repr

namespace BlockKind

def text : BlockKind → String
  | selector => "selector"
  | atRule => "function"
  | placeholder => "placeholder selector"

end BlockKind

/-- One structural line with its body.  `selector` is what selectors nested in
the block are appended to. -/
structure Block where
  kind : BlockKind
  name : String
  selector : String
  position : Position
  parent : Option Nat
  children : List Nat := []
  entries : List Entry := []
deriving DecidableEq, Repr

namespace Block

def adopt (block : Block) (child : Nat) : Block :=
  { block with children := block.children ++ [child] }

def addEntry (block : Block) (entry : Entry) : Block :=
  { block with entries := block.entries ++ [entry] }

end Block

structure Outline where
  blocks : List Block := []
deriving DecidableEq, Repr

namespace Outline

def empty : Outline where

def size (outline : Outline) : Nat :=
  outline.blocks.length

def block? (outline : Outline) (id : Nat) : Option Block :=
  outline.blocks[id]?

def parent? (outline : Outline) (id : Nat) : Option Nat :=
  (outline.block? id).bind Block.parent

/-- Append a block without body and list it with its parent. -/
def push (outline : Outline) (kind : BlockKind) (name selector : String)
    (position : Position) (parent : Option Nat) : Outline where
  blocks :=
    (match parent with
      | none => outline.blocks
      | some id => outline.blocks.modify id (Block.adopt · outline.size)) ++
    [{ kind, name, selector, position, parent }]

/-- Append an entry to the body of a block. -/
def addEntry (outline : Outline) (id : Nat) (entry : Entry) : Outline where
  blocks := outline.blocks.modify id (Block.addEntry · entry)

/-- Blocks with their numbers. -/
def numbered (outline : Outline) : List (Nat × Block) :=
  outline.blocks.zipIdx.map Prod.swap

/-- The numbers of the blocks that no block encloses. -/
def roots (outline : Outline) : List Nat :=
  (outline.numbered.filter (·.2.parent.isNone)).map Prod.fst

/-- The chain from a block through its parents, at most `bound` blocks long. -/
def chain (outline : Outline) : (bound : Nat) → Option Nat → List Nat
  | 0, _ => []
  | _ + 1, none => []
  | bound + 1, some id => id :: outline.chain bound (outline.parent? id)

/-- The enclosing blocks of a block, nearest first.  A parent always stands
before its children, so no chain is longer than the outline. -/
def ancestors (outline : Outline) (id : Nat) : List Nat :=
  outline.chain outline.size (outline.parent? id)

/-- Number of enclosing blocks. -/
def depth (outline : Outline) (id : Nat) : Nat :=
  (outline.ancestors id).length

end Outline
end StyleOrder
