import StyleOrder.Proofs.Files.Patterns
import StyleOrder.Proofs.Files.Places

namespace StyleOrder

/-!
# Trails

Expanding a pattern gives paths, and each of them is the path the expansion started at with segments
behind it.  These segments, a trail, depend on the place where the expansion
started and not on the text of the path that leads there.  On a sound disk only
regular files are of interest, so two stars at the end of a pattern, which stand for
directories, contribute no trail.
-/

namespace Glob

/-- The names of the present and the upper directory that a component matches. -/
def dotNames (component : List Token) : List (List Char) :=
  if component.head? = some (.char '.') then
    [['.'], ['.', '.']].filter (matchesText component)
  else []

/-- The segments that a component offers at a place. -/
def offered (disk : Disk) (place : Place) (component : List Token) : List (List Char) :=
  match literal? component with
  | some name => [name]
  | none => (disk.names place).filter (matchesText component) ++ dotNames component

/-- The trails to everything below a place, down to a depth. -/
def descents (disk : Disk) : (depth : Nat) → Place → List Place
  | 0, _ => []
  | depth + 1, place =>
      (disk.names place).flatMap fun name =>
        [name] :: (descents disk depth (place ++ [name])).map (name :: ·)

/-- The trails to the regular files that components lead to from a place. -/
def trails (disk : Disk) : List (List Token) → Place → List (List (List Char))
  | [], place => if (disk.content? place).isSome then [[]] else []
  | component :: rest, place =>
      if isDirectories component then
        match rest with
        | [] => []
        | next :: rest =>
            ((descents disk disk.height place).filter
              (·.getLast?.any (matchesText next))).flatMap fun front =>
                (trails disk rest (place ++ front)).map (front ++ ·)
      else
        (offered disk place component).flatMap fun segment =>
          match disk.follow place segment with
          | .ok next => (trails disk rest next).map (segment :: ·)
          | .error _ => []

/-! ## Descents -/

section Descents

variable {disk : Disk}

theorem isName_of_mem_descents (sound : disk.Sound) {depth : Nat} {place front : Place}
    (member : front ∈ descents disk depth place) :
    front ≠ [] ∧ ∀ name ∈ front, Path.IsName name := by
  induction depth generalizing place front with
  | zero => cases member
  | succ depth ih =>
      rcases List.mem_flatMap.mp member with ⟨name, known, member⟩
      have isName := sound.isName known
      rcases List.mem_cons.mp member with rfl | member
      · simpa using isName
      · rcases List.mem_map.mp member with ⟨rest, below, rfl⟩
        exact ⟨List.cons_ne_nil _ _, List.forall_mem_cons.mpr ⟨isName, (ih below).2⟩⟩

theorem below_eq_descents (sound : disk.Sound) (depth : Nat) {path : Path} {place : Place}
    (absolute : path.isAbsolute) (located : disk.locate path = .ok place) :
    disk.below depth path = (descents disk depth place).map path.extend := by
  induction depth generalizing path place with
  | zero => rfl
  | succ depth ih =>
      rw [Disk.below, Disk.entries_eq located, List.flatMap_map, descents, List.map_flatMap]
      apply List.flatMap_congr
      intro name member
      rw [Path.enter_of_isAbsolute absolute, ih (Path.isAbsolute_join _ absolute)
        (Disk.locate_entry located sound absolute member), List.map_cons, List.map_map]
      rfl

theorem locate_of_mem_descents (sound : disk.Sound) {depth : Nat} {path : Path}
    {place front : Place} (absolute : path.isAbsolute) (located : disk.locate path = .ok place)
    (member : front ∈ descents disk depth place) :
    disk.locate (path.extend front) = .ok (place ++ front) := by
  induction depth generalizing path place front with
  | zero => cases member
  | succ depth ih =>
      rcases List.mem_flatMap.mp member with ⟨name, known, member⟩
      have entry := Disk.locate_entry located sound absolute known
      rcases List.mem_cons.mp member with rfl | member
      · exact entry
      · rcases List.mem_map.mp member with ⟨rest, below, rfl⟩
        rw [Path.extend_cons, ih (Path.isAbsolute_join _ absolute) entry below,
          List.append_assoc, List.singleton_append]

/-- Nothing lies deeper than the height of the disk. -/
theorem descents_add (disk : Disk) {depth : Nat} (more : Nat) {place : Place}
    (enough : disk.height ≤ place.length + depth) :
    descents disk (depth + more) place = descents disk depth place := by
  induction depth generalizing place with
  | zero =>
      have none : disk.names place = [] := by
        rw [List.eq_nil_iff_forall_not_mem]
        intro name member
        have := Disk.length_le_height (Disk.mem_names_iff.mp member)
        rw [List.length_append, List.length_singleton] at this
        omega
      cases more with
      | zero => rfl
      | succ more => rw [Nat.zero_add, descents, descents, none, List.flatMap_nil]
  | succ depth ih =>
      rw [Nat.add_right_comm, descents, descents]
      apply List.flatMap_congr
      intro name _
      rw [ih (by rw [List.length_append, List.length_singleton]; omega)]

end Descents

/-! ## Expansion -/

theorem dots_eq (component : List Token) (path : Path) :
    dots component path = (dotNames component).map fun name => path.join ⟨name⟩ := by
  unfold dots dotNames
  split <;> rfl

theorem mem_dotNames {component : List Token} {segment : List Char}
    (member : segment ∈ dotNames component) :
    component.head? = some (.char '.') ∧ matchesText component segment ∧
      (segment = ['.'] ∨ segment = ['.', '.']) := by
  unfold dotNames at member
  split at member
  · rename_i dot
    rcases List.mem_filter.mp member with ⟨known, matched⟩
    exact ⟨dot, matched, by simpa using known⟩
  · cases member

section Expansion

variable {disk : Disk} {path : Path} {place : Place}

theorem follow_dots {segment : List Char} (dots : segment = ['.'] ∨ segment = ['.', '.'])
    (directory : disk.isDirectoryAt place) :
    disk.follow place segment = .ok (Disk.step place segment) := by
  refine Disk.follow_eq_ok_iff.mpr ⟨directory, ?_, rfl⟩
  rcases dots with rfl | rfl
  · exact Disk.existsAt_of_isDirectoryAt directory
  · exact Disk.existsAt_of_isDirectoryAt (Disk.isDirectoryAt_dropLast directory)

theorem follow_of_not_isDirectoryAt (noDirectory : disk.isDirectoryAt place = false)
    (segment : List Char) : disk.follow place segment = .error .notDirectory := by
  rw [Disk.follow, noDirectory]
  rfl

theorem found_eq_isOk (absolute : path.isAbsolute) (located : disk.locate path = .ok place)
    {name : List Char} (free : '/' ∉ name) :
    (if name = ['.'] || name = ['.', '.'] then disk.isDirectory path
      else disk.exists (path.join ⟨name⟩)) = (disk.follow place name).isOk := by
  split
  · rename_i dots
    rw [Disk.isDirectory_eq located]
    cases directory : disk.isDirectoryAt place with
    | false =>
        rw [follow_of_not_isDirectoryAt directory]
        rfl
    | true =>
        rw [follow_dots (by simpa using dots) directory]
        rfl
  · rw [Disk.exists, Disk.locate_join (Path.text_ne_nil absolute) free, located]
    rfl

theorem expandFrom_cons {component : List Token} (single : isDirectories component = false)
    (rest : List (List Token)) :
    expandFrom disk (component :: rest) path =
      match literal? component with
      | some name =>
          if (if name = ['.'] || name = ['.', '.'] then disk.isDirectory path
              else disk.exists (path.enter name)) then
            expandFrom disk rest (path.enter name)
          else []
      | none =>
          if disk.isDirectory path then
            ((disk.entries path).filter (nameMatches component) ++ dots component path).flatMap
              (expandFrom disk rest)
          else [] := by
  cases rest <;> cases literal : literal? component <;>
    simp only [expandFrom, single, literal, Bool.false_eq_true, ↓reduceIte]

theorem nameMatches_extend (absolute : path.isAbsolute) (component : List Token)
    {trail : List (List Char)} (nonempty : trail ≠ [])
    (names : ∀ segment ∈ trail, Path.IsName segment) :
    nameMatches component (path.extend trail) = trail.getLast?.any (matchesText component) := by
  rw [List.getLast?_eq_some_getLast nonempty, nameMatches,
    Path.fileName?_extend absolute (List.getLast?_eq_some_getLast nonempty) names]
  rfl

/-- The paths that one component leads to, each with what comes behind it. -/
theorem expandFrom_offered (sound : disk.Sound) (absolute : path.isAbsolute)
    (located : disk.locate path = .ok place) {component : List Token}
    (single : isDirectories component = false) (free : Token.char '/' ∉ component)
    (rest : List (List Token)) :
    expandFrom disk (component :: rest) path =
      (offered disk place component).flatMap fun segment =>
        match disk.follow place segment with
        | .ok _ => expandFrom disk rest (path.join ⟨segment⟩)
        | .error _ => [] := by
  rw [expandFrom_cons single, offered]
  cases literal : literal? component with
  | some name =>
      have freeName : '/' ∉ name := fun slash =>
        free (literal?_eq_some_iff.mp literal ▸ List.mem_map_of_mem slash)
      simp only [Path.enter_of_isAbsolute absolute, found_eq_isOk absolute located freeName,
        List.flatMap_cons, List.flatMap_nil, List.append_nil]
      cases disk.follow place name <;> rfl
  | none =>
      simp only [Disk.isDirectory_eq located]
      cases directory : disk.isDirectoryAt place with
      | false =>
          simp only [follow_of_not_isDirectoryAt directory]
          simp
      | true =>
          have entries : (disk.entries path).filter (nameMatches component) =
              ((disk.names place).filter (matchesText component)).map
                fun name => path.join ⟨name⟩ := by
            rw [Disk.entries_eq located, funext (Path.enter_of_isAbsolute absolute),
              List.filter_map]
            refine congrArg _ (List.filter_congr fun name member => ?_)
            have matched := nameMatches_extend absolute component (List.cons_ne_nil name [])
              (by simpa using sound.isName member)
            simpa using matched
          rw [entries, dots_eq, ← List.map_append, List.flatMap_map, if_pos rfl]
          apply List.flatMap_congr
          intro segment member
          have followed : disk.follow place segment = .ok (Disk.step place segment) := by
            rcases List.mem_append.mp member with named | dotted
            · exact Disk.follow_of_mem_names sound (List.mem_of_mem_filter named)
            · exact follow_dots (mem_dotNames dotted).2.2 directory
          rw [followed]

theorem expandFrom_descents (sound : disk.Sound) (absolute : path.isAbsolute)
    (located : disk.locate path = .ok place) {component : List Token}
    (stars : isDirectories component = true) (next : List Token) (rest : List (List Token)) :
    expandFrom disk (component :: next :: rest) path =
      ((descents disk disk.height place).filter (·.getLast?.any (matchesText next))).flatMap
        fun front => expandFrom disk rest (path.extend front) := by
  rw [expandFrom, if_pos stars, below_eq_descents sound _ absolute located, List.filter_map,
    List.flatMap_map]
  refine congrArg (List.flatMap _) (List.filter_congr fun front member => ?_)
  rcases isName_of_mem_descents sound member with ⟨nonempty, names⟩
  exact nameMatches_extend absolute next nonempty names

theorem slash_free_of_mem_offered (sound : disk.Sound) {component : List Token}
    (free : Token.char '/' ∉ component) {segment : List Char}
    (member : segment ∈ offered disk place component) : '/' ∉ segment := by
  unfold offered at member
  split at member
  · rename_i name literal
    rw [List.mem_singleton.mp member]
    exact fun slash => free (literal?_eq_some_iff.mp literal ▸ List.mem_map_of_mem slash)
  · rcases List.mem_append.mp member with named | dotted
    · exact (sound.isName (List.mem_of_mem_filter named)).free
    · rcases (mem_dotNames dotted).2.2 with rfl | rfl <;> decide

theorem trails_cons {component : List Token} (single : isDirectories component = false)
    (rest : List (List Token)) :
    trails disk (component :: rest) place =
      (offered disk place component).flatMap fun segment =>
        match disk.follow place segment with
        | .ok next => (trails disk rest next).map (segment :: ·)
        | .error _ => [] := by
  cases rest <;> rw [trails, if_neg (by simp [single])]

theorem filter_isFile_isDirectory (sound : disk.Sound) (paths : List Path) :
    (paths.filter disk.isDirectory).filter disk.isFile = [] := by
  rw [List.filter_filter, List.filter_eq_nil_iff]
  intro path _ both
  rw [Bool.and_eq_true] at both
  cases located : disk.locate path with
  | error cause => simp [Disk.isFile, located] at both
  | ok place =>
      rw [Disk.isFile_eq located, Disk.isDirectory_eq located] at both
      rw [sound.isDirectoryAt_eq_false both.1] at both
      exact Bool.false_ne_true both.2

/-- The regular files that a pattern leads to, by the trails that lead to them. -/
theorem filter_expandFrom (sound : disk.Sound) {path : Path} (absolute : path.isAbsolute)
    {place : Place} (located : disk.locate path = .ok place) (components : List (List Token))
    (free : ∀ component ∈ components, Token.char '/' ∉ component) :
    (expandFrom disk components path).filter disk.isFile =
      (trails disk components place).map path.extend := by
  cases components with
  | nil =>
      rw [expandFrom, trails, List.filter_singleton, Disk.isFile_eq located]
      cases (disk.content? place).isSome <;> rfl
  | cons component rest =>
      cases stars : isDirectories component with
      | false =>
          have freeHere := free component List.mem_cons_self
          rw [expandFrom_offered sound absolute located stars freeHere, trails_cons stars,
            List.filter_flatMap, List.map_flatMap]
          apply List.flatMap_congr
          intro segment member
          have freeSegment := slash_free_of_mem_offered sound freeHere member
          cases followed : disk.follow place segment with
          | error cause => rfl
          | ok next =>
              have reached : disk.locate (path.join ⟨segment⟩) = .ok next := by
                rw [Disk.locate_join (Path.text_ne_nil absolute) freeSegment, located]
                exact followed
              simp only
              rw [filter_expandFrom sound (Path.isAbsolute_join _ absolute) reached rest
                fun other known => free other (List.mem_cons_of_mem _ known), List.map_map]
              rfl
      | true =>
          cases rest with
          | nil =>
              rw [expandFrom, trails, if_pos stars, if_pos stars, filter_isFile_isDirectory sound]
              rfl
          | cons next rest =>
              rw [expandFrom_descents sound absolute located stars, trails, if_pos stars,
                List.filter_flatMap, List.map_flatMap]
              apply List.flatMap_congr
              intro front member
              have reached := locate_of_mem_descents sound absolute located
                (List.mem_of_mem_filter member)
              rw [filter_expandFrom sound (Path.isAbsolute_extend absolute front) reached rest
                fun other known => free other (by simp [known]), List.map_map]
              exact List.map_congr_left fun trail _ => (path.extend_append front trail).symm
termination_by components.length

/-- Components that each name one segment are followed to the end. -/
theorem expandFrom_literals (sound : disk.Sound) (absolute : path.isAbsolute)
    (located : disk.locate path = .ok place) {front : List (List Char)} {target : Place}
    (walked : disk.walk place front = .ok target) (free : ∀ segment ∈ front, '/' ∉ segment)
    (rest : List (List Token)) :
    expandFrom disk (front.map (·.map Token.char) ++ rest) path =
      expandFrom disk rest (path.extend front) := by
  induction front generalizing path place with
  | nil => rfl
  | cons segment front ih =>
      have freeHere := free segment List.mem_cons_self
      have literal : literal? (segment.map Token.char) = some segment :=
        literal?_eq_some_iff.mpr rfl
      have freeComponent : Token.char '/' ∉ segment.map Token.char := by simpa using freeHere
      rw [List.map_cons, List.cons_append, expandFrom_offered sound absolute located
        (isDirectories_map_char segment) freeComponent, offered, literal]
      cases followed : disk.follow place segment with
      | error cause =>
          rw [Disk.walk, List.foldlM_cons, followed] at walked
          cases walked
      | ok next =>
          rw [Disk.walk, List.foldlM_cons, followed] at walked
          have reached : disk.locate (path.join ⟨segment⟩) = .ok next := by
            rw [Disk.locate_join (Path.text_ne_nil absolute) freeHere, located]
            exact followed
          simp only [List.flatMap_singleton, followed]
          exact ih (Path.isAbsolute_join _ absolute) reached walked
            fun other member => free other (List.mem_cons_of_mem _ member)

end Expansion

/-! ## What a trail is -/

/-- A trail that components lead along from a place to a regular file. -/
inductive Leads (disk : Disk) : List (List Token) → Place → List (List Char) → Prop where
  | file {place} (file : (disk.content? place).isSome) : Leads disk [] place []
  | segment {component rest place segment next trail}
      (offer : segment ∈ offered disk place component)
      (followed : disk.follow place segment = .ok next) (onward : Leads disk rest next trail) :
      Leads disk (component :: rest) place (segment :: trail)
  | descent {component next rest place front trail}
      (descent : front ∈ descents disk disk.height place)
      (onward : Leads disk rest (place ++ front) trail) :
      Leads disk (component :: next :: rest) place (front ++ trail)

theorem leads_of_mem_trails {disk : Disk} {components : List (List Token)} {place : Place}
    {trail : List (List Char)} (member : trail ∈ trails disk components place) :
    Leads disk components place trail := by
  cases components with
  | nil =>
      rw [trails] at member
      split at member
      · rename_i file
        rw [List.mem_singleton.mp member]
        exact .file file
      · cases member
  | cons component rest =>
      cases stars : isDirectories component with
      | false =>
          rw [trails_cons stars] at member
          rcases List.mem_flatMap.mp member with ⟨segment, offer, member⟩
          cases followed : disk.follow place segment with
          | error cause =>
              rw [followed] at member
              cases member
          | ok next =>
              rw [followed] at member
              rcases List.mem_map.mp member with ⟨onward, found, rfl⟩
              exact .segment offer followed (leads_of_mem_trails found)
      | true =>
          cases rest with
          | nil =>
              rw [trails, if_pos stars] at member
              cases member
          | cons next rest =>
              rw [trails, if_pos stars] at member
              rcases List.mem_flatMap.mp member with ⟨front, below, member⟩
              rcases List.mem_map.mp member with ⟨onward, found, rfl⟩
              exact .descent (List.mem_of_mem_filter below) (leads_of_mem_trails found)
termination_by components.length

theorem Leads.slash_free {disk : Disk} (sound : disk.Sound) {components : List (List Token)}
    (free : ∀ component ∈ components, Token.char '/' ∉ component) {place : Place}
    {trail : List (List Char)} (leads : Leads disk components place trail) :
    ∀ segment ∈ trail, '/' ∉ segment := by
  induction leads with
  | file => exact fun _ member => absurd member List.not_mem_nil
  | segment offer _ _ ih =>
      refine List.forall_mem_cons.mpr
        ⟨slash_free_of_mem_offered sound (free _ List.mem_cons_self) offer, ih ?_⟩
      exact fun component member => free component (List.mem_cons_of_mem _ member)
  | descent below _ ih =>
      refine List.forall_mem_append.mpr
        ⟨fun name member => ((isName_of_mem_descents sound below).2 name member).free, ih ?_⟩
      exact fun component member => free component (by simp [member])

end Glob
end StyleOrder
