import Mathlib.Data.List.Nodup
import StyleOrder.Proofs.Outline.Views

namespace StyleOrder
namespace Outline

/-!
# Linked outlines

In a linked outline every parent stands before the blocks that it encloses, and
the children of a block are the blocks that name it as their parent, in order.
Both outline operations keep this, pushing as long as the parent is a block that
is already there.

Two things follow.  Walking from a block through its parents always descends, so
the bound on `chain` is never felt: the ancestors of a block are its parent
followed by the ancestors of the parent.  And since a block has one parent or
none, the top-level blocks and the lists of children together name every block
once.
-/

structure Linked (outline : Outline) : Prop where
  parent_lt : ∀ id enclosing, outline.parent? id = some enclosing → enclosing < id
  children_eq : ∀ id, outline.children id =
    (List.range outline.size).filter fun child => outline.parent? child = some id

namespace Linked

theorem empty : Linked Outline.empty where
  parent_lt id enclosing found := by
    have inside := lt_size_of_parent? found
    exact absurd inside (Nat.not_lt_zero id)
  children_eq _ := rfl

theorem push {outline : Outline} (linked : outline.Linked) (kind : BlockKind)
    (name selector : String) (position : Position) {parent : Option Nat}
    (inside : ∀ enclosing, parent = some enclosing → enclosing < outline.size) :
    (outline.push kind name selector position parent).Linked where
  parent_lt id enclosing found := by
    rw [parent?_push] at found
    split at found
    · rename_i new
      rw [new]
      exact inside enclosing found
    · exact linked.parent_lt id enclosing found
  children_eq id := by
    have others : (List.range outline.size).filter (fun child => decide
          ((outline.push kind name selector position parent).parent? child = some id)) =
        outline.children id := by
      rw [linked.children_eq id]
      apply List.filter_congr
      intro child member
      rw [parent?_push, if_neg (Nat.ne_of_lt (List.mem_range.mp member))]
    rw [size_push, List.range_succ, List.filter_append, others, List.filter_singleton,
      parent?_push, if_pos rfl]
    rcases Nat.lt_trichotomy id outline.size with below | same | above
    · rw [children_push outline kind name selector position parent id below]
      by_cases chosen : parent = some id <;> simp [chosen]
    · have absent : parent ≠ some id := by
        intro chosen
        exact absurd (inside id chosen) (by omega)
      rw [same, children_push_size, children,
        (block?_eq_none_iff outline outline.size).mpr (Nat.le_refl _), ← same]
      simp [absent]
    · have absent : parent ≠ some id := by
        intro chosen
        exact absurd (inside id chosen) (by omega)
      rw [children, children, (block?_eq_none_iff outline id).mpr (Nat.le_of_lt above),
        (block?_eq_none_iff _ id).mpr (by rw [size_push]; omega)]
      simp [absent]

theorem addEntry {outline : Outline} (linked : outline.Linked) (target : Nat) (entry : Entry) :
    (outline.addEntry target entry).Linked where
  parent_lt id enclosing found := linked.parent_lt id enclosing (by simpa using found)
  children_eq id := by simpa using linked.children_eq id

end Linked

/-! ## Ancestors and depth -/

@[simp]
theorem chain_none (outline : Outline) (bound : Nat) : outline.chain bound none = [] := by
  cases bound <;> rfl

section Ancestors

variable {outline : Outline} (linked : outline.Linked)

include linked

/-- A bound above the starting block is as good as any other. -/
theorem chain_eq_of_lt {bound other : Nat} {start : Option Nat}
    (below : ∀ id, start = some id → id < bound) (belowOther : ∀ id, start = some id → id < other) :
    outline.chain bound start = outline.chain other start := by
  induction bound generalizing other start with
  | zero =>
      cases start with
      | none => rw [chain_none, chain_none]
      | some id => exact absurd (below id rfl) (Nat.not_lt_zero id)
  | succ bound inductionHypothesis =>
      cases start with
      | none => rw [chain_none, chain_none]
      | some id =>
          cases other with
          | zero => exact absurd (belowOther id rfl) (Nat.not_lt_zero id)
          | succ other =>
              have idBound := below id rfl
              have idOther := belowOther id rfl
              rw [chain, chain]
              congr 1
              apply inductionHypothesis
              · intro enclosing found
                have descends := linked.parent_lt id enclosing found
                omega
              · intro enclosing found
                have descends := linked.parent_lt id enclosing found
                omega

/-- Everything on the way up from a block stands before it. -/
theorem lt_of_mem_chain {bound id member : Nat}
    (occurs : member ∈ outline.chain bound (outline.parent? id)) : member < id := by
  induction bound generalizing id with
  | zero => cases occurs
  | succ bound inductionHypothesis =>
      cases found : outline.parent? id with
      | none =>
          rw [found] at occurs
          cases occurs
      | some enclosing =>
          have descends := linked.parent_lt id enclosing found
          rw [found, chain] at occurs
          rcases List.mem_cons.mp occurs with same | later
          · rwa [same]
          · exact Nat.lt_trans (inductionHypothesis later) descends

/-- A chain of parents descends. -/
theorem chain_descends (bound : Nat) (start : Option Nat) :
    (outline.chain bound start).Pairwise (· > ·) := by
  induction bound generalizing start with
  | zero => exact List.Pairwise.nil
  | succ bound inductionHypothesis =>
      cases start with
      | none => exact List.Pairwise.nil
      | some id =>
          exact List.Pairwise.cons (fun _ occurs => lt_of_mem_chain linked occurs)
            (inductionHypothesis _)

theorem ancestors_of_parent? {id enclosing : Nat} (found : outline.parent? id = some enclosing) :
    outline.ancestors id = enclosing :: outline.ancestors enclosing := by
  have inside := lt_size_of_parent? found
  have descends := linked.parent_lt id enclosing found
  rw [ancestors, found]
  cases size : outline.size with
  | zero => omega
  | succ bound =>
      rw [chain, ancestors, size]
      congr 1
      apply chain_eq_of_lt linked
      · intro further foundFurther
        have again := linked.parent_lt enclosing further foundFurther
        omega
      · intro further foundFurther
        have again := linked.parent_lt enclosing further foundFurther
        omega

omit linked in
theorem ancestors_of_no_parent? {id : Nat} (found : outline.parent? id = none) :
    outline.ancestors id = [] := by
  rw [ancestors, found, chain_none]

/-- A block stands after all its ancestors, the nearest of which stands last. -/
theorem ancestors_descend (id : Nat) : (id :: outline.ancestors id).Pairwise (· > ·) :=
  List.Pairwise.cons (fun _ occurs => lt_of_mem_chain linked occurs) (chain_descends linked _ _)

theorem depth_of_parent? {id enclosing : Nat} (found : outline.parent? id = some enclosing) :
    outline.depth id = outline.depth enclosing + 1 := by
  rw [depth, ancestors_of_parent? linked found, depth, List.length_cons]

omit linked in
theorem depth_of_no_parent? {id : Nat} (found : outline.parent? id = none) :
    outline.depth id = 0 := by
  rw [depth, ancestors_of_no_parent? found, List.length_nil]

end Ancestors

/-! ## Every block is named once -/

/-- Numbered from `first` on, the blocks without parent are found by asking every
number. -/
private theorem rootsFrom_eq (blocks : List Block) (first : Nat) :
    (((blocks.zipIdx first).map Prod.swap).filter (·.2.parent.isNone)).map Prod.fst =
      (List.range' first blocks.length).filter fun id =>
        (blocks[id - first]?.bind Block.parent) = none := by
  induction blocks generalizing first with
  | nil => rfl
  | cons block others inductionHypothesis =>
      have tail : (List.range' (first + 1) others.length).filter (fun id =>
            decide (((block :: others)[id - first]?.bind Block.parent) = none)) =
          (List.range' (first + 1) others.length).filter (fun id =>
            decide ((others[id - (first + 1)]?.bind Block.parent) = none)) := by
        apply List.filter_congr
        intro id member
        have above := (List.mem_range'_1.mp member).1
        rw [show id - first = id - (first + 1) + 1 by omega, List.getElem?_cons_succ]
      rw [List.zipIdx_cons, List.map_cons, List.length_cons, List.range'_succ, List.filter_cons,
        List.filter_cons, tail, ← inductionHypothesis]
      cases parent : block.parent <;> simp [parent]

theorem roots_eq (outline : Outline) :
    outline.roots = (List.range outline.size).filter fun id => outline.parent? id = none := by
  have general := rootsFrom_eq outline.blocks 0
  rw [← List.range_eq_range'] at general
  exact general

theorem flatMap_children_eq (outline : Outline) :
    outline.blocks.flatMap Block.children = (List.range outline.size).flatMap outline.children := by
  rw [List.flatMap_def, List.flatMap_def]
  congr 1
  apply List.ext_getElem?
  intro id
  rw [List.getElem?_map, List.getElem?_map]
  rcases Nat.lt_or_ge id outline.size with inside | outside
  · have present : id < outline.blocks.length := inside
    rw [List.getElem?_range inside, Option.map_some, children, block?,
      List.getElem?_eq_getElem present]
    rfl
  · rw [List.getElem?_eq_none (show outline.blocks.length ≤ id from outside),
      List.getElem?_eq_none (by rw [List.length_range]; exact outside)]
    rfl

theorem mem_roots {outline : Outline} {id : Nat} :
    id ∈ outline.roots ↔ id < outline.size ∧ outline.parent? id = none := by
  rw [roots_eq, List.mem_filter, List.mem_range, decide_eq_true_iff]

theorem Linked.mem_children {outline : Outline} (linked : outline.Linked) {child id : Nat} :
    child ∈ outline.children id ↔ child < outline.size ∧ outline.parent? child = some id := by
  rw [linked.children_eq, List.mem_filter, List.mem_range, decide_eq_true_iff]

/-- The top-level blocks and all lists of children together name every block
once.  A block is found in one of them only, since it has one parent or none. -/
theorem roots_append_children_perm {outline : Outline} (linked : outline.Linked) :
    (outline.roots ++ outline.blocks.flatMap Block.children).Perm (List.range outline.size) := by
  rw [flatMap_children_eq]
  refine (List.perm_ext_iff_of_nodup ?_ List.nodup_range).mpr ?_
  · refine List.nodup_append.mpr ⟨?_, ?_, ?_⟩
    · rw [roots_eq]
      exact List.nodup_range.filter _
    · refine List.nodup_flatMap.mpr ⟨?_, ?_⟩
      · intro id _
        rw [linked.children_eq]
        exact List.nodup_range.filter _
      · refine List.nodup_range.imp ?_
        intro first second different child inFirst inSecond
        have firstParent := (linked.mem_children.mp inFirst).2
        have secondParent := (linked.mem_children.mp inSecond).2
        exact different (Option.some.inj (firstParent.symm.trans secondParent))
    · intro root isRoot child isChild same
      obtain ⟨id, -, occurs⟩ := List.mem_flatMap.mp isChild
      have noParent := (mem_roots.mp isRoot).2
      have someParent := (linked.mem_children.mp occurs).2
      rw [same, someParent] at noParent
      cases noParent
  · intro id
    rw [List.mem_append, List.mem_flatMap, mem_roots, List.mem_range]
    constructor
    · rintro (root | ⟨enclosing, -, occurs⟩)
      · exact root.1
      · exact (linked.mem_children.mp occurs).1
    · intro inside
      cases found : outline.parent? id with
      | none => exact Or.inl ⟨inside, rfl⟩
      | some enclosing =>
          have descends := linked.parent_lt id enclosing found
          exact Or.inr ⟨enclosing, List.mem_range.mpr (Nat.lt_trans descends inside),
            linked.mem_children.mpr ⟨inside, found⟩⟩

end Outline
end StyleOrder
