import StyleOrder.Proofs.Files.Ancestors
import StyleOrder.Proofs.Reading
import StyleOrder.Settings.Load

namespace StyleOrder

/-!
# The nearest settings

The search goes from a directory to its ancestors, and in each directory through the names
of settings files.  Nearness comes first and the order of names second.  The search looks at
no more than it has to: what it finds depends on the directories up to the one it stops at,
and on which of the names are regular files there.
-/

/-! ## Files in a directory -/

namespace Disk

variable {disk : Disk}

/-- The place that a path leads to, were everything on the way a directory. -/
def placeOf (path : Path) : Place :=
  (Path.segments path.text).foldl step []

theorem eq_foldl_of_walk {place last : Place} {trail : List (List Char)}
    (walked : disk.walk place trail = .ok last) : last = trail.foldl step place := by
  induction trail generalizing place with
  | nil => exact (Except.ok.inj walked).symm
  | cons segment rest ih =>
      rw [walk, List.foldlM_cons, Reading.bind_eq_ok_iff] at walked
      rcases walked with ⟨next, followed, onward⟩
      rw [ih onward, (follow_eq_ok_iff.mp followed).2.2, List.foldl_cons]

theorem eq_placeOf_of_locate {path : Path} {place : Place}
    (located : disk.locate path = .ok place) : place = placeOf path := by
  unfold locate at located
  split at located
  · cases located
  · exact eq_foldl_of_walk located

theorem isFile_iff {path : Path} :
    disk.isFile path ↔ ∃ place, disk.locate path = .ok place ∧ (disk.content? place).isSome := by
  unfold isFile
  cases disk.locate path <;> simp

/-- A name can be followed to a file where there is one. -/
theorem exists_follow_file_iff {place : Place} {name : List Char} (isName : Path.IsName name) :
    (∃ next, disk.follow place name = .ok next ∧ (disk.content? next).isSome) ↔
      (disk.content? (place ++ [name])).isSome := by
  constructor
  · rintro ⟨next, followed, file⟩
    rwa [(follow_eq_ok_iff.mp followed).2.2, step_of_isName isName] at file
  · intro file
    have present : disk.existsAt (place ++ [name]) := by
      rw [existsAt, file, Bool.or_true]
    refine ⟨place ++ [name], follow_eq_ok_iff.mpr ⟨?_, ?_, (step_of_isName isName _).symm⟩, file⟩
    · exact isDirectoryAt_of_existsAt (List.cons_ne_nil name []) present
    · rwa [step_of_isName isName]

/-- A name in a directory is a regular file if the directory is there and the file is.  The
empty path is a directory to start from. -/
theorem isFile_join_iff {directory : Path} {name : List Char} (isName : Path.IsName name) :
    disk.isFile (directory.join ⟨name⟩) ↔
      (directory.text = [] ∨ disk.isDirectory directory) ∧
        (disk.content? (placeOf directory ++ [name])).isSome := by
  by_cases empty : directory.text = []
  · have joined : directory.join ⟨name⟩ = ⟨name⟩ := by
      simp [Path.join, empty]
    have nonempty : name ≠ [] := fun nothing => by
      have moves := isName.moves
      simp [nothing, Path.idle] at moves
    have located : disk.locate ⟨name⟩ = disk.follow [] name := by
      rw [locate, if_neg nonempty, Path.segments_of_slash_free isName.free]
      exact bind_pure _
    have origin : placeOf directory = [] := by
      rw [placeOf, empty]
      rfl
    rw [joined, isFile_iff, located, exists_follow_file_iff isName, origin]
    simp [empty]
  · rw [isFile_iff, locate_join empty isName.free]
    simp only [empty, false_or]
    cases located : disk.locate directory with
    | error cause => simp [isDirectory, located, bind, Except.bind]
    | ok place =>
        change (∃ next, disk.follow place name = .ok next ∧ _) ↔ _
        rw [exists_follow_file_iff isName, ← eq_placeOf_of_locate located, isDirectory_eq located]
        refine ⟨fun file => ⟨?_, file⟩, fun held => held.2⟩
        exact isDirectoryAt_of_existsAt (List.cons_ne_nil name [])
          (by rw [existsAt, file, Bool.or_true])

end Disk

/-! ## The search -/

namespace Settings

variable {disk : Disk} {start directory path : Path}

/-- One of the names of settings files is a regular file in a directory. -/
def HeldIn (disk : Disk) (directory : Path) : Prop :=
  ∃ name ∈ fileNames, disk.isFile (directory.join (.ofString name))

instance : Decidable (HeldIn disk directory) :=
  inferInstanceAs (Decidable (∃ name ∈ fileNames, _ = true))

/-- A directory that the search comes to: there are no settings in any directory nearer to
where it starts. -/
def Reached (disk : Disk) (start directory : Path) : Prop :=
  directory ∈ start.ancestors ∧ ∀ nearer ∈ start.ancestors,
    directory.components.length < nearer.components.length → ¬HeldIn disk nearer

theorem locateIn_eq_none_iff : locateIn disk directory = none ↔ ¬HeldIn disk directory := by
  simp [locateIn, candidates, HeldIn]

/-- In a directory the first of the names counts that is a regular file. -/
theorem locateIn_eq_some_iff :
    locateIn disk directory = some path ↔
      ∃ earlier name later, fileNames = earlier ++ name :: later ∧
        path = directory.join (.ofString name) ∧ disk.isFile path ∧
        ∀ other ∈ earlier, ¬disk.isFile (directory.join (.ofString other)) := by
  rw [locateIn, candidates, List.find?_map, Option.map_eq_some_iff]
  simp only [List.find?_eq_some_iff_append]
  constructor
  · rintro ⟨name, ⟨file, earlier, later, listed, none⟩, rfl⟩
    exact ⟨earlier, name, later, listed, rfl, file, by simpa using none⟩
  · rintro ⟨earlier, name, later, listed, rfl, file, none⟩
    exact ⟨name, ⟨file, earlier, later, listed, by simpa using none⟩, rfl⟩

/-- What comes before a directory among the ancestors is what is deeper. -/
theorem mem_front_iff {front rear : List Path}
    (chain : start.ancestors = front ++ directory :: rear) {other : Path} :
    other ∈ front ↔
      other ∈ start.ancestors ∧ directory.components.length < other.components.length := by
  have deeper := start.ancestors_pairwise
  rw [chain, List.pairwise_append] at deeper
  rcases deeper with ⟨-, behind, between⟩
  rw [List.pairwise_cons] at behind
  rw [chain, List.mem_append, List.mem_cons]
  constructor
  · exact fun member => ⟨.inl member, between other member directory List.mem_cons_self⟩
  · rintro ⟨member | rfl | member, longer⟩
    · exact member
    · exact absurd longer (lt_irrefl _)
    · exact absurd longer (lt_asymm (behind.1 other member))

theorem reached_iff {front rear : List Path}
    (chain : start.ancestors = front ++ directory :: rear) :
    Reached disk start directory ↔ ∀ nearer ∈ front, locateIn disk nearer = none := by
  have member : directory ∈ start.ancestors := by simp [chain]
  simp only [Reached, member, true_and, locateIn_eq_none_iff, mem_front_iff chain, and_imp]

/-- The search ends at a directory that it comes to and that has settings. -/
theorem locate_eq_some_iff :
    locate disk start = some path ↔
      ∃ directory, Reached disk start directory ∧ locateIn disk directory = some path := by
  rw [locate, List.findSome?_eq_some_iff]
  constructor
  · rintro ⟨front, directory, rear, chain, found, none⟩
    exact ⟨directory, (reached_iff chain).mpr none, found⟩
  · rintro ⟨directory, reached, found⟩
    rcases List.append_of_mem reached.1 with ⟨front, rear, chain⟩
    exact ⟨front, directory, rear, chain, found, (reached_iff chain).mp reached⟩

theorem locate_eq_none_iff :
    locate disk start = none ↔ ∀ directory ∈ start.ancestors, ¬HeldIn disk directory := by
  simp only [locate, List.findSome?_eq_none_iff, locateIn_eq_none_iff]

/-- Only the directories that the search comes to can make a difference. -/
theorem locate_congr {other : Disk}
    (same : ∀ directory, Reached disk start directory →
      locateIn other directory = locateIn disk directory) :
    locate other start = locate disk start := by
  -- what is left of the chain once the search has passed a front of it in vain
  have onward : ∀ rear front, start.ancestors = front ++ rear →
      (∀ nearer ∈ front, locateIn disk nearer = none) →
      rear.findSome? (locateIn other) = rear.findSome? (locateIn disk) := by
    intro rear
    induction rear with
    | nil => exact fun _ _ _ => rfl
    | cons directory rear ih =>
        intro front chain none
        rw [List.findSome?_cons, List.findSome?_cons,
          same directory ((reached_iff chain).mpr none)]
        cases found : locateIn disk directory with
        | some path => rfl
        | none =>
            apply ih (front ++ [directory])
            · rw [chain, List.append_assoc, List.singleton_append]
            · intro nearer member
              rcases List.mem_append.mp member with member | member
              · exact none nearer member
              · rwa [List.mem_singleton.mp member]
  exact onward start.ancestors [] rfl (by simp)

theorem isName_of_mem_fileNames : ∀ name ∈ fileNames, Path.IsName name.toList := by
  decide +kernel

theorem locateIn_congr {other : Disk}
    (folder : other.isDirectory directory = disk.isDirectory directory)
    (files : ∀ name ∈ fileNames,
      (other.content? (Disk.placeOf directory ++ [name.toList])).isSome =
        (disk.content? (Disk.placeOf directory ++ [name.toList])).isSome) :
    locateIn other directory = locateIn disk directory := by
  rw [locateIn, locateIn, ← List.head?_filter, ← List.head?_filter]
  refine congrArg _ (List.filter_congr fun candidate member => ?_)
  rcases List.mem_map.mp member with ⟨name, known, rfl⟩
  have isName := isName_of_mem_fileNames name known
  rw [Bool.eq_iff_iff, Path.ofString, Disk.isFile_join_iff isName, Disk.isFile_join_iff isName,
    folder, files name known]

/-- The nearest settings are found.  The ancestors of a directory mean the initial parts of
its components, longest first.  The search returns a path exactly if it is the first of the
names that is a regular file in the deepest ancestor that holds one of them, and
nothing exactly if none of the ancestors does.  Another disk gives the same result if the
directories that the search comes to are the same there, and hold the same of these names as
regular files; what else there is on either disk makes no difference. -/
theorem locate_nearest (disk : Disk) (start : Path) :
    start.ancestors.map Path.components = (Path.directoryParts start.components).reverse ∧
    (∀ path, locate disk start = some path ↔
      ∃ directory ∈ start.ancestors,
        (∀ nearer ∈ start.ancestors,
          directory.components.length < nearer.components.length → ¬HeldIn disk nearer) ∧
        ∃ earlier name later, fileNames = earlier ++ name :: later ∧
          path = directory.join (.ofString name) ∧ disk.isFile path ∧
          ∀ other ∈ earlier, ¬disk.isFile (directory.join (.ofString other))) ∧
    (locate disk start = none ↔ ∀ directory ∈ start.ancestors, ¬HeldIn disk directory) ∧
    ∀ other : Disk,
      (∀ directory, Reached disk start directory →
        other.isDirectory directory = disk.isDirectory directory ∧
        ∀ name ∈ fileNames,
          (other.content? (Disk.placeOf directory ++ [name.toList])).isSome =
            (disk.content? (Disk.placeOf directory ++ [name.toList])).isSome) →
      locate other start = locate disk start := by
  refine ⟨start.map_components_ancestors, fun path => ?_, locate_eq_none_iff, fun other same => ?_⟩
  · simp only [locate_eq_some_iff, locateIn_eq_some_iff, Reached, and_assoc]
  · exact locate_congr fun directory reached =>
      locateIn_congr (same directory reached).1 (same directory reached).2

/-- Settings at the top, and below them a directory with two names of which the first is that
of a directory. -/
def layered : Disk where
  items :=
    [(["p".toList, ".sassorderrc.yml".toList], .file .empty),
      (["p".toList, "q".toList, ".sassorderrc.yaml".toList], .directory),
      (["p".toList, "q".toList, "sassorder.toml".toList], .file .empty),
      (["p".toList, "q".toList, ".sassorderrc".toList], .file .empty),
      (["p".toList, "q".toList, "r".toList], .directory)]

/-- The same with nothing at the top and settings beside the chain. -/
def pruned : Disk where
  items :=
    [(["p".toList, "q".toList, "sassorder.toml".toList], .file .empty),
      (["p".toList, "q".toList, ".sassorderrc".toList], .file .empty),
      (["p".toList, "q".toList, "r".toList], .directory),
      (["p".toList, "q".toList, "s".toList, ".sassorderrc.yml".toList], .file .empty)]

/-- Nearer settings win although their name comes later, and a directory that has the name of
a settings file is passed over.  Nothing above or beside the chain counts. -/
theorem locate_nearest_layered :
    let start := Path.ofString "/p/q/./r/"
    let found := Path.ofString "/p/q/.sassorderrc"
    locate layered start = some found ∧
      layered.isFile (.ofString "/p/.sassorderrc.yml") ∧
      pruned.isFile (.ofString "/p/q/s/.sassorderrc.yml") ∧
      ¬pruned.isFile (.ofString "/p/.sassorderrc.yml") ∧
      locate pruned start = some found := by
  intro start found
  have chain : start.ancestors =
      [start, .ofString "/p/q", .ofString "/p", .ofString "/"] := by decide +kernel
  have here : HeldIn layered (.ofString "/p/q") := by decide +kernel
  rcases locate_nearest layered start with ⟨-, finds, -, frame⟩
  have nearest : locate layered start = some found := by
    refine (finds found).mpr ⟨.ofString "/p/q", by simp [chain], ?_,
      [".sassorderrc.yml", ".sassorderrc.yaml", ".sassorderrc.json"], ".sassorderrc",
      ["sassorder.toml"], rfl, by decide +kernel, by decide +kernel, by decide +kernel⟩
    rw [chain]
    decide +kernel
  refine ⟨nearest, by decide +kernel, by decide +kernel, by decide +kernel, ?_⟩
  rw [← nearest]
  apply frame
  rintro directory ⟨member, unheld⟩
  have deep : ¬directory.components.length < (Path.ofString "/p/q").components.length :=
    fun shallow => unheld _ (by simp [chain]) shallow here
  rw [chain] at member
  simp only [List.mem_cons, List.not_mem_nil, or_false] at member
  rcases member with rfl | rfl | rfl | rfl
  · decide +kernel
  · decide +kernel
  · exact absurd (by decide +kernel) deep
  · exact absurd (by decide +kernel) deep

end Settings
end StyleOrder
