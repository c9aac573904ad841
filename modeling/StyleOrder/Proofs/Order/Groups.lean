import Mathlib.Order.Bounds.Basic
import StyleOrder.Order.Group

namespace StyleOrder
namespace Group

/-!
# The first group that takes an entry

The groups are gone through in their order until one takes the entry, so the rank of an
entry is the least place at which a group takes it.  The search always ends, because the
last group takes everything.  The first group takes calls and no property, so a property
stands behind it whatever its name is.
-/

/-- A group stands in the table at its rank. -/
theorem getElem?_all_eq_some_iff {index : Nat} {group : Group} :
    all[index]? = some group ↔ group.rank = index := by
  constructor
  · intro listed
    have table : all.map rank = List.range 9 := rfl
    have ranked : (List.range 9)[index]? = some group.rank := by
      rw [← table, List.getElem?_map, listed, Option.map_some]
    rcases List.getElem?_eq_some_iff.mp ranked with ⟨inside, place⟩
    rw [← place, List.getElem_range]
  · rintro rfl
    cases group <;> rfl

theorem rank_le (group : Group) : group.rank ≤ 8 := by
  cases group <;> decide

theorem takes_others (name : Option String) : others.takes name = true := by
  cases name <;> simp [takes]

/-- The places at which a group takes a property of this name, or a call. -/
def places (name : Option String) : Set Nat :=
  {index | ∃ group, all[index]? = some group ∧ group.takes name = true}

theorem isLeast_rank_of (name : Option String) : IsLeast (places name) (of name).rank := by
  have last : (all.find? (·.takes name)).isSome = true :=
    List.find?_isSome.mpr ⟨others, by decide, takes_others name⟩
  rcases Option.isSome_iff_exists.mp last with ⟨group, found⟩
  have first : of name = group := by rw [of, found, Option.getD_some]
  rcases List.find?_eq_some_iff_getElem.mp found with ⟨taken, index, inside, listed, before⟩
  have place : group.rank = index :=
    getElem?_all_eq_some_iff.mp (List.getElem?_eq_some_iff.mpr ⟨inside, listed⟩)
  rw [first]
  constructor
  · exact ⟨group, getElem?_all_eq_some_iff.mpr rfl, taken⟩
  · rintro other ⟨otherGroup, otherListed, otherTaken⟩
    rw [place]
    by_contra earlier
    rcases List.getElem?_eq_some_iff.mp otherListed with ⟨_, rfl⟩
    have passed := before other (Nat.lt_of_not_le earlier)
    rw [otherTaken] at passed
    cases passed

theorem takes_of (name : Option String) : (of name).takes name = true := by
  rcases (isLeast_rank_of name).1 with ⟨group, listed, taken⟩
  rw [getElem?_all_eq_some_iff.mpr rfl] at listed
  rwa [Option.some.inj listed]

/-- No property belongs to the group of calls. -/
theorem rank_of_some_pos (name : String) : 0 < (of (some name)).rank := by
  rcases (isLeast_rank_of (some name)).1 with ⟨group, listed, taken⟩
  apply Nat.pos_of_ne_zero
  intro first
  rw [first] at listed
  cases listed
  simp [takes, names, words] at taken

/-- What no other group takes is left to the last one. -/
theorem of_eq_others {name : Option String}
    (unlisted : ∀ group, group.takes name = true → group = others) : of name = others :=
  unlisted _ (takes_of name)

end Group
end StyleOrder
