import StyleOrder.Proofs.Outline.Views

namespace StyleOrder

/-!
# Outlines that follow one another

Two outlines are put together by listing the blocks of the second after those of
the first.  The blocks of the second are then counted on from the first, so every
number in them grows by the size of the first, and their positions are moved to
where their lines now stand.

Nothing of the first outline is touched by this, and whatever is done to the second
can be done afterwards: pushing a block or adding an entry comes to the same before
and after the two are put together.  With nothing in front, only the positions change.

The same holds of an outline whose blocks stay in their places while their positions
and their entries are replaced.
-/

namespace Entry

/-- The same entry at another position. -/
def relocate (move : Position → Position) : Entry → Entry
  | property name value position => property name value (move position)
  | mixin position => mixin (move position)

@[simp]
theorem position_relocate (move : Position → Position) (entry : Entry) :
    (entry.relocate move).position = move entry.position := by
  cases entry <;> rfl

@[simp]
theorem name?_relocate (move : Position → Position) (entry : Entry) :
    (entry.relocate move).name? = entry.name? := by
  cases entry <;> rfl

end Entry

namespace Block

/-- The same block at another position, with `shift` further blocks before it. -/
def relocate (move : Position → Position) (shift : Nat) (block : Block) : Block where
  kind := block.kind
  name := block.name
  selector := block.selector
  position := move block.position
  parent := block.parent.map (· + shift)
  children := block.children.map (· + shift)
  entries := block.entries.map (Entry.relocate move)

/-- The same block at another position, under the same number. -/
def reposition (move : Position → Position) (block : Block) : Block :=
  { block with
    position := move block.position
    entries := block.entries.map (Entry.relocate move) }

/-- The same block with another position and with other entries, one for one. -/
def recast (move : Position → Position) (edit : Entry → Entry) (block : Block) : Block :=
  { block with
    position := move block.position
    entries := block.entries.map edit }

theorem relocate_adopt (move : Position → Position) (shift : Nat) (block : Block) (child : Nat) :
    (block.adopt child).relocate move shift = (block.relocate move shift).adopt (child + shift) := by
  simp [adopt, relocate]

theorem relocate_addEntry (move : Position → Position) (shift : Nat) (block : Block)
    (entry : Entry) :
    (block.addEntry entry).relocate move shift =
      (block.relocate move shift).addEntry (entry.relocate move) := by
  simp [addEntry, relocate]

end Block

namespace Outline

/-- The blocks of the second outline after those of the first. -/
def followedBy (first : Outline) (move : Position → Position) (second : Outline) : Outline where
  blocks := first.blocks ++ second.blocks.map (Block.relocate move first.size)

theorem ext_block? {outline other : Outline}
    (same : ∀ id, outline.block? id = other.block? id) : outline = other := by
  rcases outline with ⟨blocks⟩
  rcases other with ⟨otherBlocks⟩
  exact congrArg Outline.mk (List.ext_getElem? same)

section FollowedBy

variable (first : Outline) (move : Position → Position) (second : Outline)

@[simp]
theorem followedBy_empty : first.followedBy move Outline.empty = first := by
  simp [followedBy, Outline.empty]

@[simp]
theorem size_followedBy : (first.followedBy move second).size = second.size + first.size := by
  simp [followedBy, size, Nat.add_comm]

theorem block?_followedBy_of_lt {id : Nat} (inside : id < first.size) :
    (first.followedBy move second).block? id = first.block? id :=
  List.getElem?_append_left inside

theorem block?_followedBy_add (id : Nat) :
    (first.followedBy move second).block? (id + first.size) =
      (second.block? id).map (Block.relocate move first.size) := by
  have beyond : first.blocks.length ≤ id + first.size := Nat.le_add_left _ _
  rw [block?, followedBy, List.getElem?_append_right beyond, List.getElem?_map]
  congr 2
  exact Nat.add_sub_cancel id first.size

/-- A block of the whole belongs to the first outline or to the second. -/
theorem followedBy_cases (id : Nat) : id < first.size ∨ ∃ other, id = other + first.size := by
  rcases Nat.lt_or_ge id first.size with inside | beyond
  · exact Or.inl inside
  · exact Or.inr ⟨id - first.size, (Nat.sub_add_cancel beyond).symm⟩

theorem parent?_followedBy_add (id : Nat) :
    (first.followedBy move second).parent? (id + first.size) =
      (second.parent? id).map (· + first.size) := by
  rw [parent?, block?_followedBy_add, parent?]
  cases second.block? id <;> rfl

/-- Numbers of the second outline are not confused with those of the first. -/
private theorem map_add_ne_some {parent : Option Nat} {size id : Nat} (inside : id < size) :
    parent.map (· + size) ≠ some id := by
  intro same
  rcases Option.map_eq_some_iff.mp same with ⟨other, -, sum⟩
  omega

theorem push_followedBy (kind : BlockKind) (name selector : String) (position : Position)
    (parent : Option Nat) :
    (first.followedBy move second).push kind name selector (move position)
        (parent.map (· + first.size)) =
      first.followedBy move (second.push kind name selector position parent) := by
  apply ext_block?
  intro id
  rw [block?_push]
  rcases followedBy_cases first id with inside | ⟨other, rfl⟩
  · have old : id ≠ (first.followedBy move second).size := by
      rw [size_followedBy]
      omega
    rw [if_neg old, block?_followedBy_of_lt first move _ inside,
      block?_followedBy_of_lt first move _ inside]
    simp [map_add_ne_some inside]
  · rw [block?_followedBy_add, block?_followedBy_add, block?_push, size_followedBy]
    by_cases new : other = second.size
    · simp [new, Block.relocate]
    · have apart : other + first.size ≠ second.size + first.size := by omega
      have chosen : (parent.map (· + first.size) = some (other + first.size)) ↔
          parent = some other := by
        cases parent <;> simp
      rw [if_neg new, if_neg apart, Option.map_map, Option.map_map]
      congr 1
      funext block
      simp only [Function.comp_apply, chosen]
      split
      · exact (Block.relocate_adopt move first.size block second.size).symm
      · rfl

theorem addEntry_followedBy (target : Nat) (entry : Entry) :
    (first.followedBy move second).addEntry (target + first.size) (entry.relocate move) =
      first.followedBy move (second.addEntry target entry) := by
  apply ext_block?
  intro id
  rw [block?_addEntry]
  rcases followedBy_cases first id with inside | ⟨other, rfl⟩
  · have apart : target + first.size ≠ id := by omega
    rw [block?_followedBy_of_lt first move _ inside, block?_followedBy_of_lt first move _ inside]
    simp [apart]
  · rw [block?_followedBy_add, block?_followedBy_add, block?_addEntry, Option.map_map,
      Option.map_map]
    congr 1
    funext block
    simp only [Function.comp_apply, Nat.add_right_cancel_iff]
    split
    · exact (Block.relocate_addEntry move first.size block entry).symm
    · rfl

end FollowedBy

/-! ## The same outline in other terms -/

/-- The same outline with its blocks and entries at other positions. -/
def reposition (move : Position → Position) (outline : Outline) : Outline where
  blocks := outline.blocks.map (Block.reposition move)

/-- The same outline with other positions of blocks and other entries. -/
def recast (move : Position → Position) (edit : Entry → Entry) (outline : Outline) : Outline where
  blocks := outline.blocks.map (Block.recast move edit)

/-- An outline that comes after none keeps its numbers. -/
theorem reposition_eq_followedBy (move : Position → Position) (outline : Outline) :
    outline.reposition move = Outline.empty.followedBy move outline := by
  have same : Block.relocate move 0 = Block.reposition move := by
    funext block
    simp [Block.relocate, Block.reposition]
  simp only [reposition, followedBy, Outline.empty, size, List.length_nil, List.nil_append, same]

section Recast

variable (move : Position → Position) (edit : Entry → Entry) (outline : Outline)

@[simp]
theorem size_recast : (outline.recast move edit).size = outline.size := by
  simp [recast, size]

theorem block?_recast (id : Nat) :
    (outline.recast move edit).block? id = (outline.block? id).map (Block.recast move edit) :=
  List.getElem?_map ..

@[simp]
theorem parent?_recast (id : Nat) :
    (outline.recast move edit).parent? id = outline.parent? id := by
  rw [parent?, block?_recast, parent?]
  cases outline.block? id <;> rfl

theorem push_recast (kind : BlockKind) (name selector : String) (position : Position)
    (parent : Option Nat) :
    (outline.recast move edit).push kind name selector (move position) parent =
      (outline.push kind name selector position parent).recast move edit := by
  apply ext_block?
  intro id
  rw [block?_push, block?_recast, block?_recast, block?_push, size_recast]
  split
  · rfl
  · rw [Option.map_map, Option.map_map]
    congr 1
    funext block
    simp only [Function.comp_apply]
    split <;> rfl

theorem addEntry_recast (target : Nat) (entry : Entry) :
    (outline.recast move edit).addEntry target (edit entry) =
      (outline.addEntry target entry).recast move edit := by
  apply ext_block?
  intro id
  rw [block?_addEntry, block?_recast, block?_recast, block?_addEntry, Option.map_map,
    Option.map_map]
  congr 1
  funext block
  simp only [Function.comp_apply]
  split
  · simp [Block.recast, Block.addEntry]
  · rfl

end Recast
end Outline
end StyleOrder
