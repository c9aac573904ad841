import StyleOrder.Proofs.Nesting.WellFormed
import StyleOrder.Proofs.Sheet.Sources

namespace StyleOrder

/-!
# Selectors are read off the chain of enclosing blocks

When a block is opened, its selector is made from the selector of the body that is
present at that moment, whatever lines went before.  It is kept with the block and never
looked at again except by blocks inside.  So it can be computed afterwards, from the
finished outline: start from the empty selector at the outermost block and let each block
down to the one in question do what its own line says.  A selector appends its fragment,
an at-rule leaves things as they are, and a placeholder starts anew.
-/

namespace Sheet.Mark

/-- The leading word of a text, or its first character if it begins with no word. -/
def fragment (text : List Char) : List Char :=
  if (text.takeWhile Text.isWord).isEmpty then text.take 1 else text.takeWhile Text.isWord

theorem eq_of_selector? {text : List Char} {mark : Mark} (found : selector? text = some mark) :
    mark = selector (String.ofList (fragment text)) := by
  unfold selector? at found
  split at found
  · rename_i wordless
    split at found
    · cases found
    · split at found
      · cases found
        rw [fragment, wordless]
        rfl
      · cases found
  · rename_i word
    cases found
    rw [fragment, if_neg fun empty => word (List.isEmpty_iff.mp empty)]

theorem eq_of_atRule? {text : List Char} {mark : Mark} (found : atRule? text = some mark) :
    text.head? = some '@' ∧ mark = atRule (String.ofList text.tail) := by
  unfold atRule? at found
  split at found
  · cases found
    exact ⟨rfl, rfl⟩
  · cases found

theorem eq_of_placeholder? {text : List Char} {mark : Mark}
    (found : placeholder? text = some mark) :
    text.head? = some '%' ∧ mark = placeholder (String.ofList text.tail) := by
  unfold placeholder? at found
  split at found
  · cases found
    exact ⟨rfl, rfl⟩
  · cases found

/-- A text that begins with one of the two signs is no selector. -/
theorem selector?_eq_none {text : List Char}
    (sign : text.head? = some '@' ∨ text.head? = some '%') : selector? text = none := by
  cases text with
  | nil => rfl
  | cons c rest =>
      rcases sign with first | first
      · cases first
        rfl
      · cases first
        rfl

end Sheet.Mark

namespace BlockKind

/-- The kind of block that a line with this text opens. -/
def ofText (text : List Char) : BlockKind :=
  if text.head? = some '@' then .atRule
  else if text.head? = some '%' then .placeholder
  else .selector

/-- What a block does to the selector of the block around it, by its kind and the text
of its line. -/
def extend (kind : BlockKind) (text : List Char) (outer : String) : String :=
  match kind with
  | .selector => outer ++ String.ofList (Sheet.Mark.fragment text)
  | .atRule => outer
  | .placeholder => "%" ++ String.ofList text.tail

/-- The name of a block, by its kind, the text of its line and its selector. -/
def title (kind : BlockKind) (text : List Char) (selector : String) : String :=
  match kind with
  | .selector => selector
  | .atRule | .placeholder => String.ofList text.tail

end BlockKind

namespace Outline

/-- The selector that blocks inside a block are appended to; empty outside every block. -/
def selectorOf (outline : Outline) (body : Option Nat) : String :=
  ((body.bind outline.block?).map Block.selector).getD ""

theorem selectorOf_some (outline : Outline) (id : Nat) :
    outline.selectorOf (some id) = ((outline.block? id).map Block.selector).getD "" := by
  rfl

theorem selectorOf_push (outline : Outline) (kind : BlockKind) (name selector : String)
    (position : Position) (parent : Option Nat) {body : Option Nat}
    (inside : ∀ id, body = some id → id < outline.size) :
    (outline.push kind name selector position parent).selectorOf body =
      outline.selectorOf body := by
  cases body with
  | none => rfl
  | some id =>
      rw [selectorOf_some, map_block?_push _ _ _ _ _ _ Block.selector (fun _ _ => rfl),
        if_neg (Nat.ne_of_lt (inside id rfl)), selectorOf_some]

theorem selectorOf_addEntry (outline : Outline) (target : Nat) (entry : Entry)
    (body : Option Nat) :
    (outline.addEntry target entry).selectorOf body = outline.selectorOf body := by
  cases body with
  | none => rfl
  | some id =>
      rw [selectorOf_some, map_block?_addEntry _ _ _ Block.selector (fun _ => rfl),
        selectorOf_some]

/-- The block is what the line opens inside the parent of the block. -/
structure OpenedBy (outline : Outline) (block : Block) (line : Sheet.Line) : Prop where
  position : block.position = line.position
  kind : block.kind = BlockKind.ofText line.text
  selector : block.selector = block.kind.extend line.text (outline.selectorOf block.parent)
  name : block.name = block.kind.title line.text block.selector

/-- Every block is what one of the lines opens inside its parent. -/
def Opened (outline : Outline) (lines : List Sheet.Line) : Prop :=
  ∀ block ∈ outline.bare, ∃ line ∈ lines, outline.OpenedBy block line

theorem OpenedBy.of_selectorOf {outline other : Outline} {block : Block} {line : Sheet.Line}
    (opened : outline.OpenedBy block line)
    (kept : other.selectorOf block.parent = outline.selectorOf block.parent) :
    other.OpenedBy block line :=
  ⟨opened.position, opened.kind, by rw [kept]; exact opened.selector, opened.name⟩

theorem Linked.parent_lt_size {outline : Outline} (linked : outline.Linked) {block : Block}
    (member : block ∈ outline.bare) (id : Nat) (found : block.parent = some id) :
    id < outline.size := by
  rcases List.mem_map.mp member with ⟨original, listed, rfl⟩
  exact (linked.closed original listed).1 id found

end Outline

namespace Nesting

open Sheet (Line Mark)

/-- A mark that opens a block does so in the way that the text says. -/
theorem apply_opening {text : List Char} {mark : Mark} (member : mark ∈ Mark.ofText text)
    (opening : mark.opens = true) (position : Position) (nesting : Nesting) :
    nesting.apply position mark =
      nesting.openBlock (.ofText text)
        ((BlockKind.ofText text).title text
          ((BlockKind.ofText text).extend text nesting.selector))
        ((BlockKind.ofText text).extend text nesting.selector) position := by
  have listed := List.mem_filter.mpr ⟨member, opening⟩
  rw [Mark.filter_opens_ofText, List.mem_append, List.mem_append] at listed
  simp only [Option.mem_toList] at listed
  rcases listed with (found | found) | found
  · have kind : BlockKind.ofText text = .selector := by
      have first : ¬ (text.head? = some '@' ∨ text.head? = some '%') := fun sign => by
        rw [Mark.selector?_eq_none sign] at found
        cases found
      rw [not_or] at first
      rw [BlockKind.ofText, if_neg first.1, if_neg first.2]
    rw [Mark.eq_of_selector? found, kind]
    rfl
  · rcases Mark.eq_of_atRule? found with ⟨first, rfl⟩
    rw [BlockKind.ofText, if_pos first]
    rfl
  · rcases Mark.eq_of_placeholder? found with ⟨first, rfl⟩
    rw [BlockKind.ofText, first]
    rfl

section

variable {lines : List Line} {line : Line} (listed : line ∈ lines)

include listed

theorem Sound.opened_apply {nesting : Nesting} (sound : nesting.Sound)
    (opened : nesting.outline.Opened lines) {mark : Mark} (member : mark ∈ Mark.ofText line.text) :
    (nesting.apply line.position mark).outline.Opened lines := by
  rcases apply_cases line.position nesting mark with
    ⟨entry, -, -, applied⟩ | ⟨-, opening, -⟩
  · rw [applied, Nesting.addEntry]
    cases nesting.body with
    | none => exact opened
    | some target =>
        intro block inside
        rw [Outline.bare_addEntry] at inside
        rcases opened block inside with ⟨other, otherListed, openedBy⟩
        exact ⟨other, otherListed,
          openedBy.of_selectorOf (Outline.selectorOf_addEntry _ target entry _)⟩
  · rw [apply_opening member opening, Nesting.openBlock]
    intro block inside
    rw [Outline.bare_push] at inside
    rcases List.mem_append.mp inside with old | new
    · rcases opened block old with ⟨other, otherListed, openedBy⟩
      exact ⟨other, otherListed, openedBy.of_selectorOf
        (Outline.selectorOf_push _ _ _ _ _ _ (sound.linked.parent_lt_size old))⟩
    · rw [List.mem_singleton.mp new]
      refine ⟨line, listed, rfl, rfl, ?_, rfl⟩
      rw [Outline.selectorOf_push _ _ _ _ _ _ sound.body_lt]
      rfl

theorem Sound.opened_foldl_apply {nesting : Nesting} (sound : nesting.Sound)
    (opened : nesting.outline.Opened lines) {marks : List Mark}
    (members : ∀ mark ∈ marks, mark ∈ Mark.ofText line.text) :
    (marks.foldl (Nesting.apply line.position) nesting).outline.Opened lines := by
  induction marks generalizing nesting with
  | nil => exact opened
  | cons mark others ih =>
      rw [List.forall_mem_cons] at members
      exact ih (sound.apply line.position mark) (sound.opened_apply listed opened members.1)
        members.2

end

/-- Every block of a run is what one of the lines read opens inside its parent. -/
theorem Run.opened {placements : List Placement} {nesting : Nesting}
    (run : Run placements nesting) :
    nesting.outline.Opened (placements.map Placement.line) := by
  induction run with
  | start =>
      intro block member
      cases member
  | @line placements nesting read line body enters ih =>
      have before : (nesting.fixUnit line.width).outline.Opened
          (placements.map Placement.line ++ [line]) := by
        rw [outline_fixUnit]
        intro block member
        rcases ih block member with ⟨other, listed, openedBy⟩
        exact ⟨other, List.mem_append_left _ listed, openedBy⟩
      have placed := (read.sound.place enters).withWidth line.width
      rw [List.map_append]
      exact placed.opened_foldl_apply (List.mem_append_right _ List.mem_cons_self) before
        fun _ member => member

end Nesting

namespace Outline

open Sheet (Line)

/-- The blocks around a block, the outermost first, and the block itself. -/
def lineage (outline : Outline) (id : Nat) : List Block :=
  (id :: outline.ancestors id).reverse.filterMap outline.block?

theorem lineage_eq {outline : Outline} (linked : outline.Linked) {id : Nat} {block : Block}
    (present : outline.block? id = some block) :
    outline.lineage id = block.parent.elim [] outline.lineage ++ [block] := by
  have last : [id].filterMap outline.block? = [block] := by simp [present]
  rw [lineage, List.reverse_cons, List.filterMap_append, last, ← parent?_of_block? present]
  congr 1
  cases found : outline.parent? id with
  | none =>
      rw [ancestors_of_no_parent? found]
      rfl
  | some enclosing =>
      rw [ancestors_of_parent? linked found]
      rfl

/-- Where each selector comes from the selector around it, all of them can be read off
the chain of enclosing blocks. -/
theorem selector_eq_foldl {outline : Outline} (linked : outline.Linked) (text : Block → List Char)
    (stepwise : ∀ id block, outline.block? id = some block →
      block.selector = block.kind.extend (text block) (outline.selectorOf block.parent))
    {id : Nat} {block : Block} (present : outline.block? id = some block) :
    block.selector = (outline.lineage id).foldl
      (fun outer member => member.kind.extend (text member) outer) "" := by
  induction id using Nat.strongRecOn generalizing block with
  | ind id ih =>
      have outer : outline.selectorOf block.parent =
          (block.parent.elim [] outline.lineage).foldl
            (fun outer member => member.kind.extend (text member) outer) "" := by
        cases found : block.parent with
        | none => rfl
        | some enclosing =>
            rw [← parent?_of_block? present] at found
            have above := linked.parent_lt id enclosing found
            rcases (exists_block?_iff outline enclosing).mpr
              (Nat.lt_trans above (lt_size_of_parent? found)) with ⟨around, there⟩
            rw [selectorOf_some, there, Option.map_some, Option.getD_some, ih enclosing above there]
            rfl
      rw [stepwise id block present, outer, lineage_eq linked present, List.foldl_append]
      rfl

end Outline

/-- The text of the line of a source that a block stands on. -/
def Block.headline (source : String) (block : Block) : List Char :=
  ((Text.lines source.toList)[block.position.line - 1]?.map Text.trim).getD []

namespace Outline

open Sheet (Line)

/-- A line that opens a block is the line that the block stands on. -/
theorem OpenedBy.headline_eq {outline : Outline} {block : Block} {source : String} {line : Line}
    (openedBy : outline.OpenedBy block line) (listed : line ∈ Line.ofSource source) :
    (∃ raw, (Text.lines source.toList)[block.position.line - 1]? = some raw) ∧
      block.headline source = line.text := by
  rcases Line.exists_raw_of_mem_readFrom listed with ⟨index, raw, found, same⟩
  have here : (Text.lines source.toList)[block.position.line - 1]? = some raw := by
    rw [openedBy.position, same, Line.position, Nat.add_sub_cancel_left]
    exact found
  refine ⟨⟨raw, here⟩, ?_⟩
  rw [Block.headline, here, same]
  rfl

/-- The selector of a block can be read off the chain of blocks around it and the lines
that they stand on.  A selector is named by it, and a block of another kind by the rest of
its own line. -/
theorem parse_selectors (source : String) (outline : Outline)
    (parsed : Outline.parse source = .ok outline) (id : Nat) (block : Block)
    (present : outline.block? id = some block) :
    (∃ raw, (Text.lines source.toList)[block.position.line - 1]? = some raw) ∧
      block.kind = BlockKind.ofText (block.headline source) ∧
      block.selector = (outline.lineage id).foldl
        (fun outer member => member.kind.extend (member.headline source) outer) "" ∧
      block.name = block.kind.title (block.headline source) block.selector := by
  rcases (parse_eq_ok_iff source outline).mp parsed with ⟨placements, nesting, run, read, rfl⟩
  have openedBy : ∀ id block, nesting.outline.block? id = some block →
      ∃ line ∈ Line.ofSource source, nesting.outline.OpenedBy block line := by
    intro id block present
    have member : block.bare ∈ nesting.outline.bare :=
      List.mem_map_of_mem (List.mem_of_getElem? present)
    rcases run.opened block.bare member with ⟨line, listed, opened⟩
    exact ⟨line, read ▸ listed, opened.position, opened.kind, opened.selector, opened.name⟩
  rcases openedBy id block present with ⟨line, listed, opened⟩
  rcases opened.headline_eq listed with ⟨raw, headline⟩
  refine ⟨raw, headline ▸ opened.kind, ?_, headline ▸ opened.name⟩
  apply selector_eq_foldl run.sound.linked (Block.headline source) ?_ present
  intro other around there
  rcases openedBy other around there with ⟨opener, openerListed, openedAround⟩
  rw [(openedAround.headline_eq openerListed).2]
  exact openedAround.selector

/-- All three kinds in one another.  The placeholder goes back by less than a unit, so it
stays inside the at-rule. -/
theorem parse_selectors_mixed :
    let source := ".a\n  @media print\n    li.on\n   %x y\n      &:hover\n"
    ∃ outline block, Outline.parse source = .ok outline ∧ outline.block? 4 = some block ∧
      (outline.lineage 4).map (fun member => (member.kind, member.name)) =
        [(.selector, "."), (.atRule, "media print"), (.placeholder, "x y"), (.selector, "%x y&")] ∧
      block.selector = (outline.lineage 4).foldl
        (fun outer member => member.kind.extend (member.headline source) outer) "" ∧
      block.name = block.kind.title (block.headline source) block.selector := by
  intro source
  rcases exists_of_view
    (fun outline => ((outline.lineage 4).map fun member => (member.kind, member.name),
      (outline.block? 4).isSome))
    (show (Outline.parse source).toOption.map _ = some
      ([(.selector, "."), (.atRule, "media print"), (.placeholder, "x y"), (.selector, "%x y&")],
        true) by decide +kernel) with ⟨outline, parsed, seen⟩
  rcases Option.isSome_iff_exists.mp (congrArg Prod.snd seen) with ⟨block, present⟩
  rcases parse_selectors source outline parsed 4 block present with ⟨-, -, selector, name⟩
  exact ⟨outline, block, parsed, present, congrArg Prod.fst seen, selector, name⟩

end Outline
end StyleOrder
