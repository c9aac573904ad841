import StyleOrder.Proofs.Files.Ancestors
import StyleOrder.Proofs.Files.Sorting
import StyleOrder.Proofs.Reading

namespace StyleOrder

/-!
# Discovery as a sorted set

Each pattern names paths, and these come in some order; which paths it names is left open.
What is left of them after regular files have been kept, seen from the base and compared with
the exclusions, is put into one sorted list.  So of the patterns and of the exclusions only
the sets count, and the order in which the paths of a pattern are listed does not count at
all.

Paths are compared by their components throughout, as the sorted list compares them.  Two
texts can mean the same path, `a/b` and `a/./b` for example, and which of them is kept may
depend on the order; that it is one of those that were found does not.
-/

namespace Path

/-! ## Paths seen from a base -/

/-- The components of a base that are dropped from a path by counting. -/
theorem filter_components (path : Path) :
    (path.components.filter fun component => component != .root && component != .here) =
      steps (segments path.text) := by
  have named : ∀ component ∈ steps (segments path.text),
      (component != .root && component != .here) = true := by
    intro component member
    rcases mem_steps member with rfl | ⟨name, rfl⟩ <;> rfl
  rw [components_eq_opening, List.filter_append, List.filter_eq_self.mpr named]
  rcases path.opening_cases with start | start | start <;> rw [start] <;> rfl

/-- A path below a base begins as the base does. -/
theorem opening_of_prefix {base path : Path} (nonempty : base.components ≠ [])
    (below : base.components <+: path.components) :
    base.opening = path.opening ∧
      steps (segments base.text) <+: steps (segments path.text) := by
  have absent : ∀ component, component = .root ∨ component = .here →
      ∀ trail : List (List Char), ∀ rest, steps trail ≠ component :: rest := by
    intro component special trail rest starts
    have member : component ∈ steps trail := by simp [starts]
    rcases mem_steps member with rfl | ⟨name, rfl⟩ <;> simp at special
  rcases below with ⟨rest, whole⟩
  rw [components_eq_opening base, components_eq_opening path] at whole
  rw [components_eq_opening base] at nonempty
  rcases base.opening_cases with start | start | start <;>
    rcases path.opening_cases with other | other | other <;>
    rw [start, other] at whole <;> rw [start] at nonempty <;> rw [start, other]
  all_goals simp only [List.cons_append, List.nil_append, List.cons.injEq, reduceCtorEq,
    false_and, true_and] at whole
  · exact ⟨rfl, rest, whole⟩
  · exact absurd whole.symm (absent _ (.inl rfl) _ _)
  · exact ⟨rfl, rest, whole⟩
  · exact absurd whole.symm (absent _ (.inr rfl) _ _)
  · -- a base that begins with a name is not below the root
    rcases List.exists_cons_of_ne_nil nonempty with ⟨first, others, eq⟩
    rw [List.nil_append] at eq
    rw [eq, List.cons_append, List.cons.injEq] at whole
    exact absurd eq (whole.1 ▸ absent _ (.inl rfl) _ _)
  · rcases List.exists_cons_of_ne_nil nonempty with ⟨first, others, eq⟩
    rw [List.nil_append] at eq
    rw [eq, List.cons_append, List.cons.injEq] at whole
    exact absurd eq (whole.1 ▸ absent _ (.inr rfl) _ _)
  · exact ⟨rfl, rest, whole⟩

theorem steps_dropComponents (count : Nat) (parts : List (List Char)) :
    steps (dropComponents count parts) = (steps parts).drop count := by
  have rest_of_idle : ∀ {segment : List Char} (rest : List (List Char)), idle segment →
      steps (segment :: rest) = steps rest :=
    fun _ rests => List.filterMap_cons_none (ofSegment?_of_idle rests)
  fun_induction dropComponents count parts with
  | case1 => exact List.drop_nil.symm
  | case2 segment rest rests ih => rw [ih, rest_of_idle rest rests]
  | case3 => rw [List.drop_zero]
  | case4 count segment rest rests ih => rw [ih, rest_of_idle rest rests]
  | case5 count segment rest moves ih =>
      rcases exists_ofSegment? moves with ⟨component, meaning⟩
      rw [ih, steps, steps, List.filterMap_cons_some meaning, List.drop_succ_cons]

theorem dropComponents_suffix (count : Nat) (parts : List (List Char)) :
    dropComponents count parts <:+ parts := by
  fun_induction dropComponents count parts with
  | case1 | case3 => exact List.suffix_refl _
  | case2 segment rest _ ih | case4 _ segment rest _ ih | case5 _ segment rest _ ih =>
      exact ih.trans (List.suffix_cons segment rest)

theorem head?_dropComponents (count : Nat) (parts : List (List Char)) :
    ∀ first ∈ (dropComponents count parts).head?, idle first = false := by
  fun_induction dropComponents count parts with
  | case1 => simp
  | case2 _ _ _ ih | case4 _ _ _ _ ih | case5 _ _ _ _ ih => exact ih
  | case3 segment rest moves => simpa using moves

/-- Below a base a path continues with the components that are its own. -/
theorem components_below? {base path : Path} (below : base.components <+: path.components) :
    ∃ rest, base.below? path = some rest ∧
      base.components ++ rest.components = path.components := by
  by_cases empty : base.text = []
  · have nothing : base.components = [] := by rw [components, empty]; rfl
    rw [below?, if_pos empty, nothing]
    exact ⟨_, rfl, path.components_trimmed⟩
  rcases opening_of_prefix (components_ne_nil empty) below with ⟨start, ⟨others, continued⟩⟩
  rw [below?, if_neg empty, if_pos (List.isPrefixOf_iff_prefix.mpr below)]
  simp only [filter_components]
  set count := (steps (segments base.text)).length
  set parts := dropComponents count (segments path.text) with dropped
  refine ⟨_, rfl, ?_⟩
  change base.components ++ Path.components ⟨joinSegments (parts.rdropWhile idle)⟩ = _
  have front : parts.rdropWhile idle <+: parts := List.rdropWhile_prefix _ _
  have free : ∀ part ∈ parts.rdropWhile idle, '/' ∉ part := by
    intro part member
    have known := (dropComponents_suffix count (segments path.text)).subset (front.subset member)
    exact (of_mem_segments known).2
  have moves : ∀ first ∈ (parts.rdropWhile idle).head?, idle first = false := by
    intro first starts
    rcases List.head?_eq_some_iff.mp starts with ⟨tail, eq⟩
    rcases front with ⟨rest, whole⟩
    apply head?_dropComponents count (segments path.text) first
    rw [← dropped, ← whole, eq]
    rfl
  rw [components_joinSegments free moves, steps_rdropWhile_idle, dropped, steps_dropComponents,
    ← continued, List.drop_left, components_eq_opening, components_eq_opening, start,
    List.append_assoc, continued]

end Path

namespace Discovery

open StyleOrder.Path

/-- Seen from a base, a path continues where the base ends, unless it is not below it. -/
theorem components_relative (base path : Path) :
    base.components ++ (relative base path).components = path.components ∨
      (¬base.components <+: path.components ∧ relative base path = path) := by
  by_cases below : base.components <+: path.components
  · rcases components_below? below with ⟨rest, found, continued⟩
    rw [relative, found]
    exact .inl continued
  · have nonempty : base.text ≠ [] := by
      intro empty
      rw [components, empty] at below
      exact below List.nil_prefix
    rw [relative, below?, if_neg nonempty,
      if_neg (by simpa [List.isPrefixOf_iff_prefix] using below)]
    exact .inr ⟨below, rfl⟩

/-! ## Discovery from listings -/

/-- The paths that a pattern names, in any order, or its failure to name any. -/
def Lists (names : String → Except Error (List Path)) (pattern : String) :
    Except Error (List Path) → Prop
  | .ok listed => ∃ paths, names pattern = .ok paths ∧ listed.Perm paths
  | .error error => names pattern = .error error

/-- Discovery from what the patterns name, with one listing for each of them. -/
def collect (disk : Disk) (base : Path) (listings : List (Except Error (List Path)))
    (exclusions : List String) : Except Error (List Path) := do
  let exclusions ← compileExclusions exclusions
  let found ← listings.mapM fun listing => select disk base exclusions <$> listing
  return sort found.flatten

theorem discover_eq_collect (disk : Disk) (base : Path) (patterns exclusions : List String) :
    discover disk base patterns exclusions =
      collect disk base (patterns.map (enumerate disk base)) exclusions := by
  simp only [discover, collect, List.mapM_map, Function.comp_def]

theorem lists_map (names : String → Except Error (List Path)) (patterns : List String) :
    List.Forall₂ (Lists names) patterns (patterns.map names) := by
  rw [List.forall₂_map_right_iff, List.forall₂_same]
  intro pattern _
  cases named : names pattern with
  | error error => exact named
  | ok paths => exact ⟨paths, named, List.Perm.refl _⟩

theorem compileExclusions_eq_ok_iff {exclusions : List String}
    {compiled : List (List Glob.Token)} :
    compileExclusions exclusions = .ok compiled ↔
      List.Forall₂ (fun exclusion tokens => Glob.compile exclusion.toList = .ok tokens)
        exclusions compiled := by
  rw [compileExclusions, Reading.mapM_eq_ok_iff]
  refine iff_of_eq (congrArg (fun relation => List.Forall₂ relation exclusions compiled) ?_)
  funext exclusion tokens
  cases Glob.compile exclusion.toList <;> simp

/-- Discovery succeeds exactly if all exclusions can be read and every pattern names paths. -/
theorem collect_eq_ok_iff {disk : Disk} {base : Path} {listings : List (Except Error (List Path))}
    {exclusions : List String} {files : List Path} :
    collect disk base listings exclusions = .ok files ↔
      ∃ (compiled : List (List Glob.Token)) (listed : List (List Path)),
        compileExclusions exclusions = .ok compiled ∧ listings = listed.map .ok ∧
          files = sort (listed.flatMap (select disk base compiled)) := by
  simp only [collect, Reading.bind_eq_ok_iff, Reading.mapM_eq_ok_iff, Reading.map_eq_ok_iff]
  constructor
  · rintro ⟨compiled, read, found, each, sorted⟩
    have named : ∃ listed : List (List Path),
        listings = listed.map .ok ∧ found = listed.map (select disk base compiled) := by
      clear sorted
      induction each with
      | nil => exact ⟨[], rfl, rfl⟩
      | cons first _ ih =>
          rcases first with ⟨paths, rfl, rfl⟩
          rcases ih with ⟨listed, rfl, rfl⟩
          exact ⟨paths :: listed, rfl, rfl⟩
    rcases named with ⟨listed, listing, rfl⟩
    exact ⟨compiled, listed, read, listing, (Except.ok.inj sorted).symm⟩
  · rintro ⟨compiled, listed, read, rfl, rfl⟩
    refine ⟨compiled, read, listed.map (select disk base compiled), ?_, rfl⟩
    rw [List.forall₂_map_left_iff, List.forall₂_map_right_iff, List.forall₂_same]
    exact fun paths _ => ⟨paths, rfl, rfl⟩

/-! ## What is selected -/

/-- An exclusion that matches a path, as a text. -/
def Rejects (exclusion : String) (path : Path) : Prop :=
  ∃ tokens, Glob.compile exclusion.toList = .ok tokens ∧ Glob.matchesText tokens path.text

/-- A path to lint: what a regular file that some pattern names is from the base, if no
exclusion matches that. -/
def Selected (disk : Disk) (base : Path) (names : String → Except Error (List Path))
    (patterns exclusions : List String) (path : Path) : Prop :=
  ∃ pattern ∈ patterns, ∃ paths, names pattern = .ok paths ∧
    ∃ file ∈ paths, disk.isFile file ∧ relative base file = path ∧
      ∀ exclusion ∈ exclusions, ¬Rejects exclusion path

section Selected

variable {disk : Disk} {base path : Path} {names : String → Except Error (List Path)}
  {patterns exclusions : List String}

/-- Only the sets of patterns and of exclusions count. -/
theorem selected_congr {otherPatterns otherExclusions : List String}
    (samePatterns : ∀ pattern, pattern ∈ otherPatterns ↔ pattern ∈ patterns)
    (sameExclusions : ∀ exclusion, exclusion ∈ otherExclusions ↔ exclusion ∈ exclusions) :
    Selected disk base names otherPatterns otherExclusions path ↔
      Selected disk base names patterns exclusions path := by
  simp only [Selected, samePatterns, sameExclusions]

theorem excluded_iff {compiled : List (List Glob.Token)}
    (read : compileExclusions exclusions = .ok compiled) :
    excluded compiled path ↔ ∃ exclusion ∈ exclusions, Rejects exclusion path := by
  have each := compileExclusions_eq_ok_iff.mp read
  rw [excluded, List.any_eq_true]
  constructor
  · rintro ⟨tokens, member, holds⟩
    rcases Reading.exists_value_of_mem each member with ⟨exclusion, known, compiles⟩
    exact ⟨exclusion, known, tokens, compiles, holds⟩
  · rintro ⟨exclusion, member, tokens, compiles, holds⟩
    rcases Reading.exists_result_of_mem each member with ⟨others, known, compiles'⟩
    obtain rfl : tokens = others := Except.ok.inj (compiles.symm.trans compiles')
    exact ⟨tokens, known, holds⟩

theorem mem_select {compiled : List (List Glob.Token)} {listed : List Path} :
    path ∈ select disk base compiled listed ↔
      ∃ file ∈ listed, disk.isFile file ∧ relative base file = path ∧
        ¬excluded compiled path := by
  simp only [select, List.mem_filter, List.mem_map]
  constructor
  · rintro ⟨⟨file, ⟨member, regular⟩, rfl⟩, kept⟩
    exact ⟨file, member, regular, rfl, by simpa using kept⟩
  · rintro ⟨file, member, regular, rfl, kept⟩
    exact ⟨⟨file, ⟨member, regular⟩, rfl⟩, by simpa using kept⟩

/-- What goes into the sorted list is what is selected, in whatever order it was listed. -/
theorem mem_flatMap_select {compiled : List (List Glob.Token)}
    (read : compileExclusions exclusions = .ok compiled) {listed : List (List Path)}
    (lists : List.Forall₂ (Lists names) patterns (listed.map .ok)) :
    path ∈ listed.flatMap (select disk base compiled) ↔
      Selected disk base names patterns exclusions path := by
  rw [List.forall₂_map_right_iff] at lists
  have kept : ¬excluded compiled path ↔ ∀ exclusion ∈ exclusions, ¬Rejects exclusion path := by
    rw [excluded_iff read]
    simp only [not_exists, not_and]
  simp only [List.mem_flatMap, mem_select, kept, Selected]
  constructor
  · rintro ⟨found, member, file, inside, holds⟩
    rcases Reading.exists_value_of_mem lists member with ⟨pattern, known, paths, named, turned⟩
    exact ⟨pattern, known, paths, named, file, turned.mem_iff.mp inside, holds⟩
  · rintro ⟨pattern, known, paths, named, file, inside, holds⟩
    rcases Reading.exists_result_of_mem lists known with ⟨found, member, others, named', turned⟩
    obtain rfl : paths = others := Except.ok.inj (named.symm.trans named')
    exact ⟨found, member, file, turned.mem_iff.mpr inside, holds⟩

/-- Discovery that succeeds does so again with the same patterns and exclusions in another
arrangement. -/
theorem exists_collect {otherPatterns otherExclusions : List String}
    (samePatterns : ∀ pattern, pattern ∈ otherPatterns ↔ pattern ∈ patterns)
    (sameExclusions : ∀ exclusion, exclusion ∈ otherExclusions ↔ exclusion ∈ exclusions)
    {listed : List (List Path)}
    (lists : List.Forall₂ (Lists names) patterns (listed.map .ok))
    {compiled : List (List Glob.Token)} (read : compileExclusions exclusions = .ok compiled)
    {otherListings : List (Except Error (List Path))}
    (otherLists : List.Forall₂ (Lists names) otherPatterns otherListings) :
    ∃ otherCompiled otherListed, compileExclusions otherExclusions = .ok otherCompiled ∧
      otherListings = List.map .ok otherListed := by
  have compiles : ∀ exclusion ∈ otherExclusions,
      ∃ tokens, Glob.compile exclusion.toList = .ok tokens := by
    intro exclusion member
    rcases Reading.exists_result_of_mem (compileExclusions_eq_ok_iff.mp read)
      ((sameExclusions exclusion).mp member) with ⟨tokens, -, compiles⟩
    exact ⟨tokens, compiles⟩
  rcases Reading.exists_results compiles with ⟨otherCompiled, each⟩
  have named : ∀ listing ∈ otherListings, ∃ paths, listing = .ok paths := by
    intro listing member
    rcases Reading.exists_value_of_mem otherLists member with ⟨pattern, known, other⟩
    rcases Reading.exists_result_of_mem (List.forall₂_map_right_iff.mp lists)
      ((samePatterns pattern).mp known) with ⟨found, -, paths, named, -⟩
    cases listing with
    | error error => cases other.symm.trans named
    | ok paths => exact ⟨paths, rfl⟩
  rcases Reading.exists_results named with ⟨otherListed, listed⟩
  rw [← List.forall₂_map_right_iff, List.forall₂_eq_eq_eq] at listed
  exact ⟨otherCompiled, otherListed, compileExclusions_eq_ok_iff.mpr each, listed⟩

end Selected

/-! ## The sorted set -/

theorem mem_of_mem_sort {paths : List Path} {path : Path} (member : path ∈ sort paths) :
    path ∈ paths := by
  rw [mem_iff_first?_eq (ascending_sort paths), first?_sort] at member
  exact List.mem_of_find?_eq_some member

/-- Sorting loses no meaning. -/
theorem exists_mem_sort_iff (paths : List Path) (components : List Component) :
    (∃ path ∈ sort paths, path.components = components) ↔
      ∃ path ∈ paths, path.components = components := by
  have found : ∀ paths : List Path, (∃ path ∈ paths, path.components = components) ↔
      (first? components paths).isSome := by
    intro paths
    simp [first?, List.find?_isSome]
  rw [found, found, first?_sort]

/-- Sorted lists that hold the same meanings hold them in the same order. -/
theorem map_components_eq {left right : List Path} (leftAscending : Ascending left)
    (rightAscending : Ascending right)
    (same : ∀ components, (∃ path ∈ left, path.components = components) ↔
      ∃ path ∈ right, path.components = components) :
    left.map components = right.map components := by
  have keys : left.map key = right.map key := by
    have leftSorted : (left.map key).Pairwise (· < ·) := List.pairwise_map.mpr leftAscending
    have rightSorted : (right.map key).Pairwise (· < ·) := List.pairwise_map.mpr rightAscending
    apply leftSorted.eq_of_mem_iff rightSorted
    have meanings : ∀ paths : List Path, ∀ value, value ∈ paths.map key ↔
        ∃ components, (∃ path ∈ paths, path.components = components) ∧
          components.map Component.key = value := by
      intro paths value
      simp [key]
    intro value
    rw [meanings, meanings]
    exact exists_congr fun components => and_congr_left fun _ => same components
  have meaning : ∀ paths : List Path,
      paths.map key = (paths.map components).map (List.map Component.key) := by
    intro paths
    rw [List.map_map]
    rfl
  rw [meaning, meaning] at keys
  exact List.map_injective_iff.mpr (List.map_injective_iff.mpr Component.key_injective) keys

/-- Where each meaning is written once, a path is told by what it means. -/
theorem mem_of_once {selected : Path → Prop}
    (once : ∀ left right, selected left → selected right →
      left.components = right.components → left = right)
    {left right : List Path} (leftSound : ∀ path ∈ left, selected path)
    (rightSound : ∀ path ∈ right, selected path)
    (meanings : ∀ components, (∃ path ∈ left, path.components = components) →
      ∃ path ∈ right, path.components = components)
    {path : Path} (member : path ∈ left) : path ∈ right := by
  rcases meanings path.components ⟨path, member, rfl⟩ with ⟨other, known, same⟩
  rwa [once path other (leftSound path member) (rightSound other known) same.symm]

/-- Files that are discovered make a set, sorted by components.  It holds a path exactly if a
regular file that some pattern names looks like it from the base, and no exclusion matches
what that file looks like.  Patterns and exclusions may be given in any order and more than
once, and the paths of a pattern may be listed in any order each time: discovery succeeds
again, and finds the same paths.  They are even written in the same way, unless two
files that are selected mean the same path and are written differently. -/
theorem collect_sorted_set {disk : Disk} {base : Path}
    {names : String → Except Error (List Path)} {patterns exclusions : List String}
    {listings : List (Except Error (List Path))} {files : List Path}
    (lists : List.Forall₂ (Lists names) patterns listings)
    (success : collect disk base listings exclusions = .ok files) :
    (discover disk base patterns exclusions =
        collect disk base (patterns.map (enumerate disk base)) exclusions ∧
      List.Forall₂ (Lists (enumerate disk base)) patterns
        (patterns.map (enumerate disk base))) ∧
    Ascending files ∧
    (∀ path : Path, (∃ file ∈ files, file.components = path.components) ↔
      ∃ other, Selected disk base names patterns exclusions other ∧
        other.components = path.components) ∧
    (∀ file ∈ files, Selected disk base names patterns exclusions file) ∧
    (∀ otherPatterns otherExclusions otherListings,
      (∀ pattern, pattern ∈ otherPatterns ↔ pattern ∈ patterns) →
      (∀ exclusion, exclusion ∈ otherExclusions ↔ exclusion ∈ exclusions) →
      List.Forall₂ (Lists names) otherPatterns otherListings →
      ∃ others, collect disk base otherListings otherExclusions = .ok others ∧
        others.map components = files.map components ∧
        ((∀ left right, Selected disk base names patterns exclusions left →
          Selected disk base names patterns exclusions right →
          left.components = right.components → left = right) → others = files)) ∧
    (∀ path, base.components ++ (relative base path).components = path.components ∨
      (¬base.components <+: path.components ∧ relative base path = path)) := by
  rcases collect_eq_ok_iff.mp success with ⟨compiled, listed, read, rfl, rfl⟩
  have selected : ∀ path, path ∈ listed.flatMap (select disk base compiled) ↔
      Selected disk base names patterns exclusions path :=
    fun path => mem_flatMap_select read lists
  refine ⟨⟨discover_eq_collect .., lists_map ..⟩, ascending_sort _, ?_, ?_, ?_,
    components_relative base⟩
  · intro path
    rw [exists_mem_sort_iff]
    simp only [selected]
  · exact fun file member => (selected file).mp (mem_of_mem_sort member)
  · intro otherPatterns otherExclusions otherListings samePatterns sameExclusions otherLists
    rcases exists_collect samePatterns sameExclusions lists read otherLists with
      ⟨otherCompiled, otherListed, otherRead, rfl⟩
    have otherSelected : ∀ path, path ∈ otherListed.flatMap (select disk base otherCompiled) ↔
        Selected disk base names patterns exclusions path :=
      fun path => (mem_flatMap_select otherRead otherLists).trans
        (selected_congr samePatterns sameExclusions)
    have same : ∀ components,
        (∃ path ∈ sort (otherListed.flatMap (select disk base otherCompiled)),
            path.components = components) ↔
          ∃ path ∈ sort (listed.flatMap (select disk base compiled)),
            path.components = components := by
      intro components
      rw [exists_mem_sort_iff, exists_mem_sort_iff]
      simp only [selected, otherSelected]
    refine ⟨_, collect_eq_ok_iff.mpr ⟨_, _, otherRead, rfl, rfl⟩,
      map_components_eq (ascending_sort _) (ascending_sort _) same, fun once => ?_⟩
    have sound := fun path member => (selected path).mp (mem_of_mem_sort member)
    have otherSound := fun path member => (otherSelected path).mp (mem_of_mem_sort member)
    apply (ascending_sort _).eq_of_mem_iff (ascending_sort _)
    exact fun path => ⟨mem_of_once once otherSound sound fun meaning => (same meaning).mp,
      mem_of_once once sound otherSound fun meaning => (same meaning).mpr⟩

/-- Two sheets in directories of which one name begins with the other, a sheet to be left
out, and a directory that is called like a sheet. -/
def crowded : Disk where
  items :=
    [(["p".toList, "a-b".toList, "x.sass".toList], .file .empty),
      (["p".toList, "a".toList, "x.sass".toList], .file .empty),
      (["p".toList, "node_modules".toList, "c.sass".toList], .file .empty),
      (["p".toList, "d.sass".toList], .directory)]

/-- Overlapping patterns, listed backwards.  The directory `a` comes before `a-b`, though
its text with a slash does not.  With the patterns in the other order and repeated, the same
two paths are found, but the first of them is written without the dot. -/
theorem collect_sorted_set_overlapping :
    let base := Path.ofString "/p"
    let patterns := ["a/./x.sass", "**/*.sass"]
    let exclusions := ["node_modules/**/*"]
    let listings := patterns.map fun pattern => List.reverse <$> enumerate crowded base pattern
    let files := [Path.ofString "a/./x.sass", Path.ofString "a-b/x.sass"]
    List.Forall₂ (Lists (enumerate crowded base)) patterns listings ∧
      collect crowded base listings exclusions = .ok files ∧ Ascending files ∧
      ¬Selected crowded base (enumerate crowded base) patterns exclusions
        (.ofString "node_modules/c.sass") ∧
      ∃ others, discover crowded base ["**/*.sass", "a/./x.sass", "**/*.sass"]
          ["node_modules/**/*", "node_modules/**/*"] = .ok others ∧
        others.map components = files.map components ∧ others ≠ files := by
  intro base patterns exclusions listings files
  have lists : List.Forall₂ (Lists (enumerate crowded base)) patterns listings := by
    rw [List.forall₂_map_right_iff, List.forall₂_same]
    intro pattern _
    cases named : enumerate crowded base pattern with
    | error error => exact named
    | ok paths => exact ⟨paths, named, paths.reverse_perm⟩
  have success : collect crowded base listings exclusions = .ok files :=
    Reading.eq_ok_of_toOption (by decide +kernel)
  rcases collect_sorted_set lists success with ⟨-, ascending, holds, -, again, -⟩
  refine ⟨lists, success, ascending, ?_, ?_⟩
  · intro selected
    have found := (holds (.ofString "node_modules/c.sass")).mpr ⟨_, selected, rfl⟩
    exact absurd found (by decide +kernel)
  · rcases again ["**/*.sass", "a/./x.sass", "**/*.sass"]
        ["node_modules/**/*", "node_modules/**/*"] _ (by simp [patterns, or_comm])
        (by simp [exclusions]) (lists_map (enumerate crowded base) _) with
      ⟨others, found, same, -⟩
    have written : (collect crowded base
        (["**/*.sass", "a/./x.sass", "**/*.sass"].map (enumerate crowded base))
        ["node_modules/**/*", "node_modules/**/*"]).toOption ≠ some files := by decide +kernel
    refine ⟨others, (discover_eq_collect ..).trans found, same, fun equal => written ?_⟩
    rw [found, equal]
    rfl

end Discovery
end StyleOrder
