import StyleOrder.Value.Canonical
import Mathlib.Data.List.Sort
import Mathlib.Data.String.Basic

namespace StyleOrder
namespace Value

/-!
# Canonical values stay as they are

The canonical form of an object is made from the canonical forms of its fields, put in one
after the other.  The result is in ascending order of names, and putting fields in ascending
order in once more changes nothing.  So a canonical form is its own canonical form.
-/

variable {name : String} {value : Value} {fields sorted : List (String × Value)}

/-! ## Fields in ascending order -/

/-- Names ascend, and none comes twice. -/
def Ascending (fields : List (String × Value)) : Prop :=
  fields.Pairwise fun left right => left.1 < right.1

/-- Fields put in one after the other. -/
def insertFields (sorted fields : List (String × Value)) : List (String × Value) :=
  fields.foldl (fun sorted field => insertField field.1 field.2 sorted) sorted

theorem ofFields_eq (fields : List (String × Value)) :
    ofFields fields = object (insertFields [] fields) :=
  rfl

theorem mem_insertField {field : String × Value} (member : field ∈ insertField name value sorted) :
    field = (name, value) ∨ field ∈ sorted := by
  induction sorted with
  | nil => exact .inl (List.mem_singleton.mp member)
  | cons head rest ih =>
      rcases head with ⟨other, kept⟩
      unfold insertField at member
      split at member
      · exact List.mem_cons.mp member
      · split at member
        · exact (List.mem_cons.mp member).imp_right (List.mem_cons_of_mem _)
        · rcases List.mem_cons.mp member with rfl | member
          · exact .inr List.mem_cons_self
          · exact (ih member).imp_right (List.mem_cons_of_mem _)

theorem ascending_insertField (name : String) (value : Value) (ascending : Ascending sorted) :
    Ascending (insertField name value sorted) := by
  induction sorted with
  | nil => exact List.pairwise_singleton _ _
  | cons head rest ih =>
      rcases head with ⟨other, kept⟩
      rcases List.pairwise_cons.mp ascending with ⟨below, restAscending⟩
      unfold insertField
      split
      · rename_i smaller
        refine List.pairwise_cons.mpr ⟨fun field member => ?_, ascending⟩
        rcases List.mem_cons.mp member with rfl | member
        · exact smaller
        · exact smaller.trans (below field member)
      · rename_i notSmaller
        split
        · rename_i same
          subst same
          exact List.pairwise_cons.mpr ⟨below, restAscending⟩
        · rename_i different
          have greater : other < name := lt_of_le_of_ne (not_lt.mp notSmaller) (Ne.symm different)
          refine List.pairwise_cons.mpr ⟨fun field member => ?_, ih restAscending⟩
          rcases mem_insertField member with rfl | member
          · exact greater
          · exact below field member

/-- A field with a name that is greater than all others goes to the end. -/
theorem insertField_of_greater (greater : ∀ field ∈ sorted, field.1 < name) :
    insertField name value sorted = sorted ++ [(name, value)] := by
  induction sorted with
  | nil => rfl
  | cons head rest ih =>
      rcases head with ⟨other, kept⟩
      rcases List.forall_mem_cons.mp greater with ⟨first, others⟩
      rw [insertField, if_neg first.not_gt, if_neg first.ne', ih others, List.cons_append]

theorem mem_insertFields {field : String × Value} (member : field ∈ insertFields sorted fields) :
    field ∈ sorted ∨ field ∈ fields := by
  induction fields generalizing sorted with
  | nil => exact .inl member
  | cons head rest ih =>
      rcases ih member with known | later
      · rcases mem_insertField known with rfl | earlier
        · exact .inr List.mem_cons_self
        · exact .inl earlier
      · exact .inr (List.mem_cons_of_mem _ later)

theorem ascending_insertFields (ascending : Ascending sorted) (fields : List (String × Value)) :
    Ascending (insertFields sorted fields) := by
  induction fields generalizing sorted with
  | nil => exact ascending
  | cons head rest ih => exact ih (ascending_insertField head.1 head.2 ascending)

/-- Putting in fields that are in ascending order already changes nothing. -/
theorem insertFields_of_ascending (ascending : Ascending (sorted ++ fields)) :
    insertFields sorted fields = sorted ++ fields := by
  induction fields generalizing sorted with
  | nil => exact (List.append_nil sorted).symm
  | cons head rest ih =>
      have greater : ∀ field ∈ sorted, field.1 < head.1 := fun field member =>
        (List.pairwise_append.mp ascending).2.2 field member head List.mem_cons_self
      rw [List.append_cons] at ascending ⊢
      rw [insertFields, List.foldl_cons, insertField_of_greater greater]
      exact ih ascending

/-- Fields with distinct names are all kept. -/
theorem insertField_perm (fresh : name ∉ sorted.map Prod.fst) :
    (insertField name value sorted).Perm ((name, value) :: sorted) := by
  induction sorted with
  | nil => exact List.Perm.refl _
  | cons head rest ih =>
      rcases head with ⟨other, kept⟩
      rw [List.map_cons, List.mem_cons, not_or] at fresh
      unfold insertField
      split
      · exact List.Perm.refl _
      · rw [if_neg fresh.1]
        exact ((ih fresh.2).cons _).trans (List.Perm.swap _ _ _)

theorem insertField_append_perm {field : String × Value}
    (distinct : ((sorted ++ field :: fields).map Prod.fst).Nodup) :
    (insertField field.1 field.2 sorted ++ fields).Perm (sorted ++ field :: fields) := by
  refine ((insertField_perm ?_).append_right fields).trans List.perm_middle.symm
  intro member
  rw [List.map_append, List.nodup_append] at distinct
  exact distinct.2.2 field.1 member field.1 (by simp) rfl

theorem insertFields_perm (distinct : ((sorted ++ fields).map Prod.fst).Nodup) :
    (insertFields sorted fields).Perm (sorted ++ fields) := by
  induction fields generalizing sorted with
  | nil => rw [List.append_nil]; exact List.Perm.refl _
  | cons head rest ih =>
      have turned := insertField_append_perm distinct
      exact (ih ((turned.map Prod.fst).nodup_iff.mpr distinct)).trans turned

/-- Fields in ascending order are told by what they are, not by their order. -/
theorem Ascending.eq_of_perm {left right : List (String × Value)} (leftAscending : Ascending left)
    (rightAscending : Ascending right) (turned : left.Perm right) : left = right := by
  have : Std.Antisymm fun left right : String × Value => left.1 < right.1 :=
    ⟨fun _ _ below above => absurd (below.trans above) (lt_irrefl _)⟩
  exact List.Perm.eq_of_pairwise' leftAscending rightAscending turned

/-- Fields may be put in in any order. -/
theorem insertFields_eq_of_perm {others : List (String × Value)} (turned : others.Perm fields)
    (distinct : (fields.map Prod.fst).Nodup) : insertFields [] others = insertFields [] fields := by
  have kept : (insertFields [] fields).Perm fields := insertFields_perm (by exact distinct)
  have again : (insertFields [] others).Perm others :=
    insertFields_perm (by exact (turned.map Prod.fst).nodup_iff.mpr distinct)
  exact Ascending.eq_of_perm (ascending_insertFields List.Pairwise.nil others)
    (ascending_insertFields List.Pairwise.nil fields) (again.trans (turned.trans kept.symm))

/-! ## Canonical forms -/

theorem canonicalItems_eq (items : List Value) : canonicalItems items = items.map canonical := by
  induction items with
  | nil => rfl
  | cons item rest ih => rw [canonicalItems, ih, List.map_cons]

theorem canonicalFields_eq (sorted fields : List (String × Value)) :
    canonicalFields sorted fields =
      insertFields sorted (fields.map fun field => (field.1, field.2.canonical)) := by
  induction fields generalizing sorted with
  | nil => rfl
  | cons head rest ih =>
      rcases head with ⟨name, value⟩
      rw [canonicalFields, ih]
      rfl

/-- An object whose fields ascend and hold canonical values is canonical. -/
theorem canonical_object_of_ascending (ascending : Ascending fields)
    (canonical : ∀ field ∈ fields, field.2.canonical = field.2) :
    (object fields).canonical = object fields := by
  have same : (fields.map fun field => (field.1, field.2.canonical)) = fields := by
    conv_rhs => rw [← List.map_id fields]
    exact List.map_congr_left fun field member => by rw [canonical field member]; rfl
  rw [Value.canonical, canonicalFields_eq, same,
    insertFields_of_ascending (by simpa using ascending), List.nil_append]

/-- The canonical form of a value is canonical. -/
theorem canonical_canonical (value : Value) : value.canonical.canonical = value.canonical := by
  cases value with
  | real number =>
      rw [canonical]
      split
      · rename_i finite
        rw [canonical, if_pos finite]
      · rfl
  | list items =>
      rw [canonical, canonicalItems_eq, canonical, canonicalItems_eq, List.map_map]
      exact congrArg list (List.map_congr_left fun item member => canonical_canonical item)
  | object fields =>
      rw [canonical, canonicalFields_eq]
      apply canonical_object_of_ascending (ascending_insertFields List.Pairwise.nil _)
      intro field member
      rcases mem_insertFields member with never | known
      · cases never
      · rcases List.mem_map.mp known with ⟨original, inside, rfl⟩
        exact canonical_canonical original.2
  | _ => rfl
termination_by sizeOf value
decreasing_by
  · have := List.sizeOf_lt_of_mem member
    simp only [list.sizeOf_spec]
    omega
  · have := List.sizeOf_lt_of_mem inside
    have : sizeOf original = 1 + sizeOf original.1 + sizeOf original.2 := rfl
    simp only [object.sizeOf_spec]
    omega

end Value
end StyleOrder
