import StyleOrder.Files.Discovery
import Mathlib.Data.List.Lex
import Mathlib.Data.List.Sort

namespace StyleOrder

/-!
# Sorted paths

Paths are inserted one by one, and one that means the same as a path already present is
dropped.  So a sorted list holds, for everything that the given paths mean, the first path
that means it.  That is all that sorting depends on: two lists that agree on the paths of
each meaning, in their order, are sorted into the same list.
-/

namespace Path

theorem Component.key_injective : Function.Injective Component.key := by
  intro left right same
  cases left <;> cases right <;> simp_all [Component.key]
  exact List.map_injective_iff.mpr (fun _ _ => Char.toNat_inj.mp) same

theorem key_eq_iff {left right : Path} :
    left.key = right.key ↔ left.components = right.components :=
  ⟨fun same => List.map_injective_iff.mpr Component.key_injective same,
    congrArg (List.map Component.key)⟩

/-- In ascending order, no two paths meaning the same. -/
def Ascending (paths : List Path) : Prop :=
  paths.Pairwise fun left right => left.key < right.key

/-- The first path with the given components. -/
def first? (components : List Component) (paths : List Path) : Option Path :=
  paths.find? (·.components = components)

section Insert

variable {path : Path} {sorted : List Path}

theorem mem_insert {other : Path} (member : other ∈ path.insert sorted) :
    other = path ∨ other ∈ sorted := by
  induction sorted with
  | nil => exact .inl (List.mem_singleton.mp member)
  | cons head rest ih =>
      unfold insert at member
      split at member
      · exact List.mem_cons.mp member
      · split at member
        · exact .inr member
        · rcases List.mem_cons.mp member with rfl | member
          · exact .inr List.mem_cons_self
          · exact (ih member).imp_right (List.mem_cons_of_mem _)

theorem ascending_insert (path : Path) (ascending : Ascending sorted) :
    Ascending (path.insert sorted) := by
  induction sorted with
  | nil => exact List.pairwise_singleton _ _
  | cons head rest ih =>
      rcases List.pairwise_cons.mp ascending with ⟨below, restAscending⟩
      unfold insert
      split
      · rename_i before
        have smaller : path.key < head.key := by simpa [Path.before] using before
        refine List.pairwise_cons.mpr ⟨?_, ascending⟩
        intro other member
        rcases List.mem_cons.mp member with rfl | member
        · exact smaller
        · exact smaller.trans (below other member)
      · split
        · exact ascending
        · rename_i before same
          have greater : head.key < path.key := by
            simp only [Path.before, Path.same, decide_eq_true_eq] at before same
            exact lt_of_le_of_ne (not_lt.mp before) (Ne.symm same)
          refine List.pairwise_cons.mpr ⟨?_, ih restAscending⟩
          intro other member
          rcases mem_insert member with rfl | member
          · exact greater
          · exact below other member

/-- A path that is put in comes last among those that mean the same. -/
theorem first?_insert (path : Path) (ascending : Ascending sorted)
    (components : List Component) :
    first? components (path.insert sorted) = first? components (sorted ++ [path]) := by
  induction sorted with
  | nil => rfl
  | cons head rest ih =>
      rcases List.pairwise_cons.mp ascending with ⟨below, restAscending⟩
      unfold insert
      split
      · rename_i before
        have smaller : path.key < head.key := by simpa [Path.before] using before
        -- what the new path is put in front of comes after it, and so means something else
        have others : ∀ other ∈ head :: rest, path.components ≠ other.components := by
          intro other member same
          rcases List.mem_cons.mp member with rfl | member
          · exact smaller.ne (key_eq_iff.mpr same)
          · exact (smaller.trans (below other member)).ne (key_eq_iff.mpr same)
        rw [first?, first?, List.find?_append]
        by_cases means : path.components = components
        · rw [List.find?_cons_of_pos (by simpa using means), List.find?_eq_none.mpr
            fun other member => by simpa [means] using (others other member).symm]
          simp [means]
        · rw [List.find?_cons_of_neg (by simpa using means)]
          simp [means]
      · split
        · rename_i same
          have means : path.components = head.components :=
            key_eq_iff.mp (by simpa [Path.same] using same)
          rw [first?, first?, List.find?_append, List.find?_cons]
          split
          · rfl
          · rename_i other
            simp_all
        · rw [first?, List.cons_append, List.find?_cons, ← first?, ih restAscending, first?,
            first?, List.find?_cons]

end Insert

theorem mem_iff_first?_eq {paths : List Path} (ascending : Ascending paths) {path : Path} :
    path ∈ paths ↔ first? path.components paths = some path := by
  refine ⟨fun member => ?_, List.mem_of_find?_eq_some⟩
  cases found : first? path.components paths with
  | none => simpa using List.find?_eq_none.mp found path member
  | some other =>
      have same : other.components = path.components := by simpa using List.find?_some found
      have distinct : (paths.map key).Nodup := List.pairwise_map.mpr (ascending.imp ne_of_lt)
      exact congrArg some (List.inj_on_of_nodup_map distinct (List.mem_of_find?_eq_some found)
        member (key_eq_iff.mpr same))

/-- Sorted lists are told apart by what they hold. -/
theorem Ascending.eq_of_mem_iff {left right : List Path} (leftAscending : Ascending left)
    (rightAscending : Ascending right) (same : ∀ path, path ∈ left ↔ path ∈ right) :
    left = right := by
  have : Std.Irrefl fun left right : Path => left.key < right.key := ⟨fun _ => lt_irrefl _⟩
  have : Std.Antisymm fun left right : Path => left.key < right.key :=
    ⟨fun _ _ below above => absurd (below.trans above) (lt_irrefl _)⟩
  exact List.Pairwise.eq_of_mem_iff leftAscending rightAscending fun {path} => same path

/-- Sorted lists are told apart by what they hold of some meaning. -/
theorem Ascending.ext {left right : List Path} (leftAscending : Ascending left)
    (rightAscending : Ascending right)
    (same : ∀ components, first? components left = first? components right) : left = right := by
  apply leftAscending.eq_of_mem_iff rightAscending
  intro path
  rw [mem_iff_first?_eq leftAscending, mem_iff_first?_eq rightAscending, same]

end Path

namespace Discovery

open StyleOrder.Path

theorem foldl_insert {sorted : List Path} (ascending : Ascending sorted) (paths : List Path) :
    Ascending (paths.foldl (fun sorted path => path.insert sorted) sorted) ∧
      ∀ components, first? components (paths.foldl (fun sorted path => path.insert sorted) sorted) =
        first? components (sorted ++ paths) := by
  induction paths generalizing sorted with
  | nil => simpa using ascending
  | cons path rest ih =>
      rcases ih (ascending_insert path ascending) with ⟨restAscending, found⟩
      refine ⟨restAscending, fun components => ?_⟩
      rw [List.foldl_cons, found components, first?, List.find?_append, ← first?,
        first?_insert path ascending, first?, ← List.find?_append, List.append_assoc]
      rfl

theorem ascending_sort (paths : List Path) : Ascending (sort paths) :=
  (foldl_insert List.Pairwise.nil paths).1

theorem first?_sort (paths : List Path) (components : List Component) :
    first? components (sort paths) = first? components paths :=
  (foldl_insert List.Pairwise.nil paths).2 components

/-- Two lists that hold the same paths of each meaning, in the same order. -/
def Alike (left right : List Path) : Prop :=
  ∀ components : List Component,
    left.filter (·.components = components) = right.filter (·.components = components)

namespace Alike

variable {left right : List Path}

theorem sort_eq (alike : Alike left right) : sort left = sort right := by
  apply (ascending_sort left).ext (ascending_sort right)
  intro components
  rw [first?_sort, first?_sort, first?, first?, ← List.head?_filter, ← List.head?_filter,
    alike components]

theorem filter (alike : Alike left right) (kept : Path → Bool) :
    Alike (left.filter kept) (right.filter kept) := by
  intro components
  rw [List.filter_comm, alike components, List.filter_comm]

theorem flatten {lefts rights : List (List Path)} (alike : List.Forall₂ Alike lefts rights) :
    Alike lefts.flatten rights.flatten := by
  intro components
  induction alike with
  | nil => rfl
  | cons first _ ih =>
      rw [List.flatten_cons, List.flatten_cons, List.filter_append, List.filter_append, ih,
        first components]

end Alike
end Discovery
end StyleOrder
