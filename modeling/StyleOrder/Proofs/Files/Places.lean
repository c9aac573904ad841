import StyleOrder.Proofs.Files.Segments
import Mathlib.Data.List.Nodup

namespace StyleOrder

/-!
# Places on a disk

What a disk has at a place can be told from the items at it and below it.  Following a path
goes from place to place, and one more segment is one more step: where it leads does not
depend on how the path before it is written, only on the place it has come to.
-/

namespace Disk

variable {disk : Disk} {place : Place} {name : List Char}

/-! ## Directories and names -/

theorem isDirectoryAt_of_mem {item : Place × Item} (member : item ∈ disk.items)
    (below : place <+: item.1) (longer : place.length < item.1.length) :
    disk.isDirectoryAt place := by
  rw [isDirectoryAt, Bool.or_eq_true, List.any_eq_true]
  exact .inr ⟨item, member, by simp [List.isPrefixOf_iff_prefix.mpr below, longer]⟩

theorem exists_mem_of_isDirectoryAt (directory : disk.isDirectoryAt place) :
    place = [] ∨ ∃ item ∈ disk.items, place <+: item.1 := by
  rw [isDirectoryAt, Bool.or_eq_true, List.any_eq_true] at directory
  rcases directory with root | ⟨item, member, holds⟩
  · exact .inl (by simpa using root)
  · rw [Bool.and_eq_true] at holds
    exact .inr ⟨item, member, List.isPrefixOf_iff_prefix.mp holds.1⟩

theorem isSome_content?_iff :
    (disk.content? place).isSome ↔ ∃ content, (place, Item.file content) ∈ disk.items := by
  rw [content?, List.findSome?_isSome_iff]
  constructor
  · rintro ⟨⟨other, _ | content⟩, member, found⟩
    · have same : other = place := by
        by_contra different
        simp [different] at found
      exact ⟨_, same ▸ member⟩
    · cases found
  · rintro ⟨content, member⟩
    exact ⟨_, member, by simp⟩

theorem existsAt_iff :
    disk.existsAt place ↔ place = [] ∨ ∃ item ∈ disk.items, place <+: item.1 := by
  rw [existsAt, Bool.or_eq_true]
  constructor
  · rintro (directory | file)
    · exact exists_mem_of_isDirectoryAt directory
    · rcases isSome_content?_iff.mp file with ⟨content, member⟩
      exact .inr ⟨_, member, List.prefix_refl _⟩
  · rintro (rfl | ⟨⟨other, item⟩, member, below⟩)
    · exact .inl rfl
    · by_cases longer : place.length < other.length
      · exact .inl (isDirectoryAt_of_mem member below longer)
      · obtain rfl : place = other := below.eq_of_length_le (Nat.le_of_not_lt longer)
        cases item with
        | directory =>
            refine .inl ?_
            rw [isDirectoryAt, Bool.or_eq_true, List.any_eq_true]
            exact .inr ⟨_, member, by simp⟩
        | file content => exact .inr (isSome_content?_iff.mpr ⟨content, member⟩)

theorem existsAt_of_isDirectoryAt (directory : disk.isDirectoryAt place) :
    disk.existsAt place := by
  rw [existsAt, directory, Bool.true_or]

/-- Whatever is above something is a directory. -/
theorem isDirectoryAt_of_existsAt {rest : Place} (nonempty : rest ≠ [])
    (present : disk.existsAt (place ++ rest)) : disk.isDirectoryAt place := by
  rcases existsAt_iff.mp present with root | ⟨item, member, below⟩
  · simp [(List.append_eq_nil_iff.mp root).2] at nonempty
  · have shorter := below.length_le
    rw [List.length_append] at shorter
    have := List.length_pos_of_ne_nil nonempty
    exact isDirectoryAt_of_mem member ((List.prefix_append place rest).trans below) (by omega)

theorem isDirectoryAt_dropLast (directory : disk.isDirectoryAt place) :
    disk.isDirectoryAt place.dropLast := by
  rcases List.eq_nil_or_concat' place with rfl | ⟨front, last, rfl⟩
  · rfl
  · rw [List.dropLast_concat]
    exact isDirectoryAt_of_existsAt (List.cons_ne_nil last [])
      (existsAt_of_isDirectoryAt directory)

theorem mem_names_iff : name ∈ disk.names place ↔ disk.existsAt (place ++ [name]) := by
  have nonempty : place ++ [name] ≠ [] := by simp
  simp only [names, List.mem_eraseDups, List.mem_filterMap, existsAt_iff, nonempty, false_or]
  refine exists_congr fun item => and_congr_right fun _ => ?_
  constructor
  · intro found
    split at found
    · rename_i below
      rcases List.isPrefixOf_iff_prefix.mp below with ⟨rest, whole⟩
      rw [← whole, List.getElem?_append_right (Nat.le_refl _), Nat.sub_self] at found
      rw [← whole, List.prefix_append_right_inj]
      cases rest with
      | nil => cases found
      | cons first rest =>
          obtain rfl : first = name := by simpa using found
          exact List.prefix_append [first] rest
    · cases found
  · rintro ⟨rest, whole⟩
    have below : place <+: item.1 := ⟨[name] ++ rest, by rw [← whole, List.append_assoc]⟩
    rw [if_pos (List.isPrefixOf_iff_prefix.mpr below), ← whole]
    simp

theorem nodup_eraseDups (names : List (List Char)) : names.eraseDups.Nodup := by
  match names with
  | [] => exact List.nodup_nil
  | first :: rest =>
      rw [List.eraseDups_cons, List.nodup_cons]
      exact ⟨by simp [List.mem_eraseDups], nodup_eraseDups _⟩
termination_by names.length
decreasing_by exact Nat.lt_succ_of_le (List.length_filter_le _ _)

theorem nodup_names (disk : Disk) (place : Place) : (disk.names place).Nodup :=
  nodup_eraseDups _

theorem le_foldl_height (items : List (Place × Item)) (bound : Nat) :
    bound ≤ items.foldl (fun bound (place, _) => max bound place.length) bound ∧
      ∀ item ∈ items, item.1.length ≤
        items.foldl (fun bound (place, _) => max bound place.length) bound := by
  induction items generalizing bound with
  | nil => simp
  | cons head rest ih =>
      rcases ih (max bound head.1.length) with ⟨above, others⟩
      refine ⟨(Nat.le_max_left _ _).trans above, fun item member => ?_⟩
      rcases List.mem_cons.mp member with rfl | member
      · exact (Nat.le_max_right _ _).trans above
      · exact others item member

theorem length_le_height (present : disk.existsAt place) : place.length ≤ disk.height := by
  rcases existsAt_iff.mp present with rfl | ⟨item, member, below⟩
  · exact Nat.zero_le _
  · exact below.length_le.trans ((le_foldl_height disk.items 0).2 item member)

/-! ## Following paths -/

theorem follow_eq_ok_iff {segment : List Char} {next : Place} :
    disk.follow place segment = .ok next ↔
      disk.isDirectoryAt place ∧ disk.existsAt (step place segment) ∧
        next = step place segment := by
  unfold follow
  cases disk.isDirectoryAt place <;> cases disk.existsAt (step place segment) <;>
    simp [eq_comm]

theorem follow_nil_bind (disk : Disk) (place : Place) (segment : List Char) :
    (disk.follow place [] >>= (disk.follow · segment)) = disk.follow place segment := by
  have stays : step place [] = place := rfl
  cases directory : disk.isDirectoryAt place with
  | false =>
      rw [follow, follow, directory]
      rfl
  | true =>
      have here : disk.follow place [] = .ok place := by
        rw [follow_eq_ok_iff, stays]
        exact ⟨directory, existsAt_of_isDirectoryAt directory, rfl⟩
      rw [here]
      rfl

/-- Where a path leads that goes on with one more segment. -/
theorem locate_join {path : Path} (nonempty : path.text ≠ []) {segment : List Char}
    (free : '/' ∉ segment) :
    disk.locate (path.join ⟨segment⟩) = (disk.locate path >>= (disk.follow · segment)) := by
  have parts := Path.segments_join nonempty (Path.isAbsolute_of_slash_free free)
  rw [Path.segments_of_slash_free free] at parts
  rw [locate, if_neg (Path.text_join_ne_nil _ nonempty), parts, locate, if_neg nonempty,
    List.foldlM_append]
  rcases Path.segments_eq_trunk path.text with whole | whole <;> rw [whole]
  · simp
  · rw [List.foldlM_append, bind_assoc]
    simp [follow_nil_bind]

/-- Where segments lead from a place. -/
def walk (disk : Disk) (place : Place) (trail : List (List Char)) : Except ReadFailure Place :=
  trail.foldlM disk.follow place

theorem locate_extend {path : Path} (absolute : path.isAbsolute) {trail : List (List Char)}
    (free : ∀ segment ∈ trail, '/' ∉ segment) :
    disk.locate (path.extend trail) = (disk.locate path >>= (disk.walk · trail)) := by
  induction trail generalizing path with
  | nil => exact (bind_pure _).symm
  | cons segment rest ih =>
      rw [Path.extend_cons, ih (Path.isAbsolute_join _ absolute)
        fun other member => free other (List.mem_cons_of_mem _ member),
        locate_join (Path.text_ne_nil absolute) (free segment List.mem_cons_self), bind_assoc]
      rfl

/-! ## Disks as they come -/

/-- Items have names that a path can use, and nothing is below a file. -/
structure Sound (disk : Disk) : Prop where
  named : ∀ item ∈ disk.items, ∀ name ∈ item.1, Path.IsName name
  leaves : ∀ place content, (place, Item.file content) ∈ disk.items →
    disk.isDirectoryAt place = false

theorem Sound.isDirectoryAt_eq_false (sound : disk.Sound) (file : (disk.content? place).isSome) :
    disk.isDirectoryAt place = false := by
  rcases isSome_content?_iff.mp file with ⟨content, member⟩
  exact sound.leaves place content member

theorem Sound.isName (sound : disk.Sound) (member : name ∈ disk.names place) :
    Path.IsName name := by
  rcases existsAt_iff.mp (mem_names_iff.mp member) with root | ⟨item, known, below⟩
  · simp at root
  · exact sound.named item known name (below.subset (by simp))

theorem step_of_isName (isName : Path.IsName name) (place : Place) :
    step place name = place ++ [name] := by
  simp [step, isName.moves, isName.down]

theorem follow_of_mem_names (sound : disk.Sound) (member : name ∈ disk.names place) :
    disk.follow place name = .ok (step place name) := by
  have present := mem_names_iff.mp member
  rw [follow_eq_ok_iff, step_of_isName (sound.isName member)]
  exact ⟨isDirectoryAt_of_existsAt (List.cons_ne_nil name []) present, present, rfl⟩

section Entries

variable {path : Path} (located : disk.locate path = .ok place)

include located

theorem isDirectory_eq : disk.isDirectory path = disk.isDirectoryAt place := by
  simp only [isDirectory, located]

theorem isFile_eq : disk.isFile path = (disk.content? place).isSome := by
  simp only [isFile, located]

theorem entries_eq : disk.entries path = (disk.names place).map path.enter := by
  simp only [entries, located]
  split
  · rfl
  · rename_i noDirectory
    have none : disk.names place = [] := by
      rw [List.eq_nil_iff_forall_not_mem]
      exact fun name member => noDirectory
        (isDirectoryAt_of_existsAt (List.cons_ne_nil name []) (mem_names_iff.mp member))
    rw [none, List.map_nil]

theorem locate_entry (sound : disk.Sound) (absolute : path.isAbsolute)
    (member : name ∈ disk.names place) :
    disk.locate (path.join ⟨name⟩) = .ok (place ++ [name]) := by
  have isName := sound.isName member
  rw [locate_join (Path.text_ne_nil absolute) isName.free, located, ← step_of_isName isName place]
  exact follow_of_mem_names sound member

end Entries

end Disk
end StyleOrder
