import StyleOrder.Outline.Basic

namespace StyleOrder

/-!
# Views of an outline

An outline changes in two ways only: a block is pushed, or an entry is added to
a block.  Each change is described here block by block, and then through four
views: where a block stands, what encloses it, what it encloses and what its
body holds.  Nothing later looks at the list behind an outline.

Pushing changes a block that is already there in one respect, its children, and
adding an entry changes one body.  What a block is without its children and
entries is therefore fixed when it is pushed; `bare` keeps that part.
-/

/-- A block as it was pushed, before anything was put into it. -/
def Block.bare (block : Block) : Block :=
  { block with children := [], entries := [] }

namespace Outline

def position? (outline : Outline) (id : Nat) : Option Position :=
  (outline.block? id).map Block.position

/-- The children of a block; a number that no block has has none. -/
def children (outline : Outline) (id : Nat) : List Nat :=
  ((outline.block? id).map Block.children).getD []

/-- The body of a block; a number that no block has has none. -/
def entries (outline : Outline) (id : Nat) : List Entry :=
  ((outline.block? id).map Block.entries).getD []

/-- The blocks as they were pushed. -/
def bare (outline : Outline) : List Block :=
  outline.blocks.map Block.bare

theorem block?_eq_none_iff (outline : Outline) (id : Nat) :
    outline.block? id = none ↔ outline.size ≤ id :=
  List.getElem?_eq_none_iff

theorem exists_block?_iff (outline : Outline) (id : Nat) :
    (∃ block, outline.block? id = some block) ↔ id < outline.size := by
  rw [← Option.isSome_iff_exists, ← Nat.not_le, ← block?_eq_none_iff,
    Option.isSome_iff_ne_none]

theorem exists_block?_of_mem {outline : Outline} {block : Block}
    (member : block ∈ outline.blocks) : ∃ id, outline.block? id = some block :=
  List.mem_iff_getElem?.mp member

/-- Among numbers in ascending order, the last is the largest. -/
theorem le_of_getLast? {ids : List Nat} (ordered : ids.Pairwise (· < ·)) {last id : Nat}
    (found : ids.getLast? = some last) (member : id ∈ ids) : id ≤ last := by
  obtain ⟨others, rfl⟩ := List.getLast?_eq_some_iff.mp found
  rcases List.mem_append.mp member with before | same
  · exact Nat.le_of_lt ((List.pairwise_append.mp ordered).2.2 id before last (by simp))
  · exact Nat.le_of_eq (List.mem_singleton.mp same)

theorem parent?_eq_join (outline : Outline) (id : Nat) :
    outline.parent? id = ((outline.block? id).map Block.parent).join := by
  rw [parent?]
  cases outline.block? id <;> rfl

theorem position?_of_block? {outline : Outline} {id : Nat} {block : Block}
    (present : outline.block? id = some block) : outline.position? id = some block.position := by
  rw [position?, present]
  rfl

theorem parent?_of_block? {outline : Outline} {id : Nat} {block : Block}
    (present : outline.block? id = some block) : outline.parent? id = block.parent := by
  rw [parent?, present]
  rfl

theorem entries_of_block? {outline : Outline} {id : Nat} {block : Block}
    (present : outline.block? id = some block) : outline.entries id = block.entries := by
  rw [entries, present]
  rfl

theorem exists_block?_of_mem_entries {outline : Outline} {id : Nat} {entry : Entry}
    (held : entry ∈ outline.entries id) :
    ∃ block, outline.block? id = some block ∧ entry ∈ block.entries := by
  cases present : outline.block? id with
  | none =>
      rw [entries, present] at held
      cases held
  | some block => exact ⟨block, rfl, entries_of_block? present ▸ held⟩

/-- Only numbers of blocks have a position. -/
theorem lt_size_of_position? {outline : Outline} {id : Nat} {position : Position}
    (found : outline.position? id = some position) : id < outline.size := by
  obtain ⟨block, present, -⟩ := Option.map_eq_some_iff.mp found
  exact (exists_block?_iff outline id).mp ⟨block, present⟩

theorem exists_position?_of_lt {outline : Outline} {id : Nat} (inside : id < outline.size) :
    ∃ position, outline.position? id = some position := by
  obtain ⟨block, present⟩ := (exists_block?_iff outline id).mpr inside
  exact ⟨block.position, position?_of_block? present⟩

/-- Only numbers of blocks have a parent. -/
theorem lt_size_of_parent? {outline : Outline} {id enclosing : Nat}
    (found : outline.parent? id = some enclosing) : id < outline.size := by
  obtain ⟨block, present, -⟩ := Option.bind_eq_some_iff.mp found
  exact (exists_block?_iff outline id).mp ⟨block, present⟩

section Push

variable (outline : Outline) (kind : BlockKind) (name selector : String)
  (position : Position) (parent : Option Nat)

@[simp]
theorem size_push : (outline.push kind name selector position parent).size = outline.size + 1 := by
  cases parent <;> simp [push, size]

/-- The new block takes the next number.  Of the others only the parent changes,
and only in its children. -/
theorem block?_push (id : Nat) :
    (outline.push kind name selector position parent).block? id =
      if id = outline.size then some ⟨kind, name, selector, position, parent, [], []⟩
      else (outline.block? id).map fun block =>
        if parent = some id then block.adopt outline.size else block := by
  by_cases new : id = outline.size
  · subst new
    cases parent <;> simp [push, block?, size]
  · have old : ∀ blocks : List Block, blocks.length = outline.size →
        (blocks ++ [⟨kind, name, selector, position, parent, [], []⟩])[id]? = blocks[id]? := by
      intro blocks length
      rcases Nat.lt_or_ge id blocks.length with inside | outside
      · exact List.getElem?_append_left inside
      · rw [List.getElem?_eq_none outside]
        apply List.getElem?_eq_none
        simp only [List.length_append, List.length_singleton]
        omega
    rw [if_neg new]
    cases parent with
    | none => simpa [push, block?] using old outline.blocks rfl
    | some enclosing =>
        have shifted := old (outline.blocks.modify enclosing (Block.adopt · outline.size))
          (by simp [size])
        simp only [push, block?, shifted, List.getElem?_modify, Option.some.injEq]
        rfl

/-- Whatever does not depend on the children of a block is kept by pushing. -/
theorem map_block?_push {α : Type} (view : Block → α)
    (kept : ∀ block child, view (block.adopt child) = view block) (id : Nat) :
    ((outline.push kind name selector position parent).block? id).map view =
      if id = outline.size then some (view ⟨kind, name, selector, position, parent, [], []⟩)
      else (outline.block? id).map view := by
  rw [block?_push]
  split
  · rfl
  · cases outline.block? id with
    | none => rfl
    | some block =>
        simp only [Option.map_some, Option.some.injEq]
        split
        · exact kept block outline.size
        · rfl

theorem parent?_push (id : Nat) :
    (outline.push kind name selector position parent).parent? id =
      if id = outline.size then parent else outline.parent? id := by
  rw [parent?_eq_join, map_block?_push outline kind name selector position parent Block.parent
    (fun _ _ => rfl), parent?_eq_join]
  split <;> rfl

/-- Pushing lists the new block with its parent, after the other children. -/
theorem children_push (id : Nat) (inside : id < outline.size) :
    (outline.push kind name selector position parent).children id =
      outline.children id ++ if parent = some id then [outline.size] else [] := by
  have present : id < outline.blocks.length := inside
  rw [children, block?_push, if_neg (Nat.ne_of_lt inside), children, block?,
    List.getElem?_eq_getElem present]
  simp only [Option.map_some, Option.getD_some]
  split
  · rfl
  · exact (List.append_nil _).symm

theorem children_push_size :
    (outline.push kind name selector position parent).children outline.size = [] := by
  rw [children, block?_push, if_pos rfl]
  rfl

theorem entries_push (id : Nat) :
    (outline.push kind name selector position parent).entries id = outline.entries id := by
  rw [entries, map_block?_push outline kind name selector position parent Block.entries
    (fun _ _ => rfl), entries]
  split
  · rename_i new
    rw [new, (block?_eq_none_iff outline outline.size).mpr (Nat.le_refl _)]
    rfl
  · rfl

theorem bare_push :
    (outline.push kind name selector position parent).bare =
      outline.bare ++ [⟨kind, name, selector, position, parent, [], []⟩] := by
  apply List.ext_getElem?
  intro id
  have kept := map_block?_push outline kind name selector position parent Block.bare
    (fun _ _ => rfl) id
  simp only [block?] at kept
  rw [bare, List.getElem?_map, kept, bare, List.getElem?_append, List.length_map]
  rcases Nat.lt_trichotomy id outline.size with below | same | above
  · rw [if_neg (Nat.ne_of_lt below), if_pos (show id < outline.blocks.length from below),
      List.getElem?_map]
  · subst same
    simp [size, Block.bare]
  · rw [if_neg (Nat.ne_of_gt above),
      if_neg (show ¬ id < outline.blocks.length from Nat.not_lt_of_gt above),
      List.getElem?_eq_none (show outline.blocks.length ≤ id from Nat.le_of_lt above),
      List.getElem?_eq_none]
    · rfl
    · exact Nat.sub_pos_of_lt above

end Push

section AddEntry

variable (outline : Outline) (target : Nat) (entry : Entry)

@[simp]
theorem size_addEntry : (outline.addEntry target entry).size = outline.size := by
  simp [addEntry, size]

theorem block?_addEntry (id : Nat) :
    (outline.addEntry target entry).block? id =
      (outline.block? id).map fun block =>
        if target = id then block.addEntry entry else block := by
  simp only [addEntry, block?, List.getElem?_modify]
  rfl

/-- Whatever does not depend on the body of a block is kept by adding an entry. -/
theorem map_block?_addEntry {α : Type} (view : Block → α)
    (kept : ∀ block, view (block.addEntry entry) = view block) (id : Nat) :
    ((outline.addEntry target entry).block? id).map view = (outline.block? id).map view := by
  rw [block?_addEntry]
  cases outline.block? id with
  | none => rfl
  | some block =>
      simp only [Option.map_some, Option.some.injEq]
      split
      · exact kept block
      · rfl

@[simp]
theorem parent?_addEntry (id : Nat) :
    (outline.addEntry target entry).parent? id = outline.parent? id := by
  rw [parent?_eq_join, map_block?_addEntry outline target entry Block.parent (fun _ => rfl),
    parent?_eq_join]

@[simp]
theorem children_addEntry (id : Nat) :
    (outline.addEntry target entry).children id = outline.children id :=
  congrArg (Option.getD · [])
    (map_block?_addEntry outline target entry Block.children (fun _ => rfl) id)

/-- One body grows at its end, and no other body changes. -/
theorem entries_addEntry (id : Nat) (inside : target < outline.size) :
    (outline.addEntry target entry).entries id =
      outline.entries id ++ if target = id then [entry] else [] := by
  rw [entries, block?_addEntry, entries]
  cases present : outline.block? id with
  | none =>
      have outside := (block?_eq_none_iff outline id).mp present
      rw [if_neg (Nat.ne_of_lt (Nat.lt_of_lt_of_le inside outside))]
      rfl
  | some block =>
      simp only [Option.map_some, Option.getD_some]
      split
      · rfl
      · exact (List.append_nil _).symm

@[simp]
theorem bare_addEntry : (outline.addEntry target entry).bare = outline.bare := by
  apply List.ext_getElem?
  intro id
  have kept := map_block?_addEntry outline target entry Block.bare (fun _ => rfl) id
  simpa only [bare, List.getElem?_map, block?] using kept

end AddEntry

/-! ## Positions and parents together -/

/-- Where each block stands and what encloses it. -/
def headings (outline : Outline) : List (Position × Option Nat) :=
  outline.bare.map fun block => (block.position, block.parent)

theorem headings_push (outline : Outline) (kind : BlockKind) (name selector : String)
    (position : Position) (parent : Option Nat) :
    (outline.push kind name selector position parent).headings =
      outline.headings ++ [(position, parent)] := by
  rw [headings, bare_push, List.map_append]
  rfl

@[simp]
theorem headings_addEntry (outline : Outline) (target : Nat) (entry : Entry) :
    (outline.addEntry target entry).headings = outline.headings := by
  rw [headings, bare_addEntry, headings]

theorem map_fst_headings (outline : Outline) :
    outline.headings.map Prod.fst = outline.blocks.map Block.position := by
  rw [headings, bare, List.map_map, List.map_map]
  rfl

theorem size_eq_length_headings (outline : Outline) : outline.size = outline.headings.length := by
  simp [size, headings, bare]

theorem position?_eq_headings (outline : Outline) (id : Nat) :
    outline.position? id = outline.headings[id]?.map Prod.fst := by
  rw [position?, block?, headings, bare, List.getElem?_map, List.getElem?_map, Option.map_map,
    Option.map_map]
  rfl

theorem parent?_eq_headings (outline : Outline) (id : Nat) :
    outline.parent? id = outline.headings[id]?.bind Prod.snd := by
  rw [parent?, block?, headings, bare, List.getElem?_map, List.getElem?_map, Option.bind_map,
    Option.bind_map]
  rfl

/-- A further block does not move the others. -/
theorem position?_concat {outline grown : Outline} {position : Position} {parent : Option Nat}
    (concat : grown.headings = outline.headings ++ [(position, parent)]) {id : Nat}
    {other : Position} (present : outline.position? id = some other) :
    grown.position? id = some other := by
  have inside := lt_size_of_position? present
  rw [size_eq_length_headings] at inside
  rw [position?_eq_headings, concat, List.getElem?_append_left inside, ← position?_eq_headings,
    present]

end Outline
end StyleOrder
