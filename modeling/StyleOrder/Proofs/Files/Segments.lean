import StyleOrder.Files.Discovery
import Mathlib.Data.List.DropRight

namespace StyleOrder

/-!
# Paths as lists of segments

Joining is defined on texts, and the slash that it puts between two texts is left out if
the first already ends in one.  On lists of segments joining is concatenation, provided
that the empty segment behind a slash at the end is not counted.  The components of a path
and the part of it below a base follow from its segments alone.
-/

namespace Path

/-! ## Segments of a text -/

theorem segments_ne_nil (text : List Char) : segments text ≠ [] := by
  cases text with
  | nil => simp [segments]
  | cons c rest =>
      unfold segments
      split
      · simp
      · split <;> simp

/-- A character other than a slash belongs to the first segment. -/
theorem exists_segments_cons {c : Char} (other : c ≠ '/') (rest : List Char) :
    ∃ first others, segments rest = first :: others ∧
      segments (c :: rest) = (c :: first) :: others := by
  rcases List.exists_cons_of_ne_nil (segments_ne_nil rest) with ⟨first, others, parts⟩
  refine ⟨first, others, parts, ?_⟩
  rw [segments, if_neg other, parts]

theorem segments_cons_slash (rest : List Char) : segments ('/' :: rest) = [] :: segments rest := by
  rw [segments, if_pos rfl]

theorem segments_append_slash (front rest : List Char) :
    segments (front ++ '/' :: rest) = segments front ++ segments rest := by
  induction front with
  | nil => exact segments_cons_slash rest
  | cons c front ih =>
      rw [List.cons_append]
      by_cases slash : c = '/'
      · rw [slash, segments_cons_slash, segments_cons_slash, ih, List.cons_append]
      · rcases exists_segments_cons slash front with ⟨first, others, parts, whole⟩
        rw [whole, segments, if_neg slash, ih, parts]
        rfl

theorem segments_of_slash_free {segment : List Char} (free : '/' ∉ segment) :
    segments segment = [segment] := by
  induction segment with
  | nil => rfl
  | cons c rest ih =>
      rw [List.mem_cons, not_or] at free
      rw [segments, if_neg (Ne.symm free.1), ih free.2]

/-- Segments are parts of the text, and no slash is part of one. -/
theorem of_mem_segments {text segment : List Char} (member : segment ∈ segments text) :
    segment ⊆ text ∧ '/' ∉ segment := by
  induction text generalizing segment with
  | nil =>
      rw [List.mem_singleton.mp member]
      exact ⟨List.nil_subset _, List.not_mem_nil⟩
  | cons c rest ih =>
      by_cases slash : c = '/'
      · rw [slash, segments_cons_slash] at member
        rcases List.mem_cons.mp member with rfl | member
        · exact ⟨List.nil_subset _, List.not_mem_nil⟩
        · exact (ih member).imp_left (List.subset_cons_of_subset c)
      · rcases exists_segments_cons slash rest with ⟨first, others, parts, whole⟩
        rw [parts] at ih
        rw [whole] at member
        rcases List.mem_cons.mp member with rfl | member
        · rcases ih List.mem_cons_self with ⟨inside, free⟩
          refine ⟨List.cons_subset_cons c inside, ?_⟩
          rw [List.mem_cons, not_or]
          exact ⟨Ne.symm slash, free⟩
        · exact (ih (List.mem_cons_of_mem _ member)).imp_left (List.subset_cons_of_subset c)

theorem segments_joinSegments {parts : List (List Char)} (nonempty : parts ≠ [])
    (free : ∀ part ∈ parts, '/' ∉ part) : segments (joinSegments parts) = parts := by
  induction parts with
  | nil => exact absurd rfl nonempty
  | cons first others ih =>
      have firstAlone := segments_of_slash_free (free first List.mem_cons_self)
      cases others with
      | nil => simpa [joinSegments] using firstAlone
      | cons second others =>
          have joined : joinSegments (first :: second :: others) =
              first ++ '/' :: joinSegments (second :: others) := by
            simp [joinSegments, List.intercalate]
          rw [joined, segments_append_slash, firstAlone,
            ih (List.cons_ne_nil _ _) fun part member => free part (List.mem_cons_of_mem _ member)]
          rfl

/-- A text that does not end in a slash has a last segment that is not empty. -/
theorem getLast?_segments_ne {front : List Char} {c : Char} (other : c ≠ '/') :
    (segments (front ++ [c])).getLast? ≠ some [] := by
  induction front with
  | nil => simp [segments, other]
  | cons d front ih =>
      rw [List.cons_append]
      by_cases slash : d = '/'
      · rw [slash, segments_cons_slash, List.getLast?_cons_of_ne_nil (segments_ne_nil _)]
        exact ih
      · rcases exists_segments_cons slash (front ++ [c]) with ⟨first, others, parts, whole⟩
        rw [parts] at ih
        rw [whole]
        cases others with
        | nil => simp
        | cons second others => simpa using ih

theorem segments_eq_trunk (text : List Char) :
    segments text = trunk text ∨ segments text = trunk text ++ [[]] := by
  unfold trunk
  split
  · rename_i last
    rcases List.getLast?_eq_some_iff.mp last with ⟨front, parts⟩
    rw [parts, List.dropLast_concat]
    exact .inr rfl
  · exact .inl rfl

theorem mem_segments_of_mem_trunk {text segment : List Char} (member : segment ∈ trunk text) :
    segment ∈ segments text := by
  rcases segments_eq_trunk text with parts | parts <;> rw [parts]
  · exact member
  · exact List.mem_append_left _ member

theorem trunk_of_slash_free {segment : List Char} (free : '/' ∉ segment) :
    trunk segment = [segment].filter (· ≠ []) := by
  rw [trunk, segments_of_slash_free free]
  by_cases empty : segment = []
  · simp [empty]
  · simp [empty]

/-! ## Joining -/

section Join

variable {base path : Path}

theorem isAbsolute_join (path : Path) (absolute : base.isAbsolute) :
    (base.join path).isAbsolute := by
  unfold join
  split
  · assumption
  · rcases base with ⟨_ | ⟨c, rest⟩⟩
    · simp [isAbsolute] at absolute
    · split
      · simp_all
      · simp only [isAbsolute] at absolute ⊢
        split <;> simpa using absolute

/-- What is below an absolute path is joined to it. -/
theorem enter_of_isAbsolute (absolute : base.isAbsolute) (name : List Char) :
    base.enter name = base.join ⟨name⟩ := by
  rcases base with ⟨_ | ⟨c, rest⟩⟩
  · cases absolute
  · obtain rfl : c = '/' := by simpa [isAbsolute] using absolute
    rcases List.exists_cons_of_ne_nil (segments_ne_nil rest) with ⟨first, others, parts⟩
    have rooted : components ⟨'/' :: rest⟩ ≠ [.here] := by
      simp [components, segments_cons_slash, parts]
    rw [enter, if_neg rooted]

theorem text_ne_nil (absolute : base.isAbsolute) : base.text ≠ [] := by
  intro empty
  simp [isAbsolute, empty] at absolute

theorem text_join_ne_nil (path : Path) (nonempty : base.text ≠ []) :
    (base.join path).text ≠ [] := by
  unfold join
  split
  · rename_i absolute
    exact text_ne_nil absolute
  · split
    · rename_i empty
      exact absurd (List.getLast?_eq_none_iff.mp empty) nonempty
    · split <;> simp [nonempty]

theorem segments_join (nonempty : base.text ≠ []) (relative : path.isAbsolute = false) :
    segments (base.join path).text = trunk base.text ++ segments path.text := by
  rcases List.eq_nil_or_concat' base.text with empty | ⟨front, c, text⟩
  · exact absurd empty nonempty
  · rw [join, if_neg (by simp [relative]), text, List.getLast?_concat]
    by_cases slash : c = '/'
    · subst slash
      simp only [↓reduceIte]
      rw [List.append_assoc, List.singleton_append, segments_append_slash, trunk,
        segments_append_slash]
      simp [segments]
    · simp only [if_neg slash]
      rw [segments_append_slash, trunk, if_neg (getLast?_segments_ne slash)]

theorem trunk_join (absolute : base.isAbsolute) (relative : path.isAbsolute = false) :
    trunk (base.join path).text = trunk base.text ++ trunk path.text := by
  rw [trunk, segments_join (text_ne_nil absolute) relative]
  have parts := segments_ne_nil path.text
  rw [List.getLast?_append_of_ne_nil _ parts, List.dropLast_append_of_ne_nil parts]
  conv_rhs => rw [trunk.eq_def path.text]
  split <;> rfl

end Join

theorem isAbsolute_of_slash_free {segment : List Char} (free : '/' ∉ segment) :
    Path.isAbsolute ⟨segment⟩ = false := by
  cases segment with
  | nil => rfl
  | cons c rest =>
      rw [List.mem_cons, not_or] at free
      simpa [isAbsolute] using Ne.symm free.1

/-! ## Components -/

/-- What segments mean, one after the other. -/
def steps (trail : List (List Char)) : List Component :=
  trail.filterMap Component.ofSegment?

@[simp] theorem steps_append (front rest : List (List Char)) :
    steps (front ++ rest) = steps front ++ steps rest :=
  List.filterMap_append

theorem ofSegment?_of_idle {segment : List Char} (rests : idle segment) :
    Component.ofSegment? segment = none := by
  rw [Component.ofSegment?, if_pos rests]

theorem exists_ofSegment? {segment : List Char} (moves : ¬idle segment) :
    ∃ component, Component.ofSegment? segment = some component := by
  rw [Component.ofSegment?, if_neg moves]
  split <;> exact ⟨_, rfl⟩

theorem steps_dropWhile_idle (trail : List (List Char)) :
    steps (trail.dropWhile idle) = steps trail := by
  induction trail with
  | nil => rfl
  | cons segment rest ih =>
      rw [List.dropWhile_cons]
      split
      · rename_i rests
        rw [ih, steps, steps, List.filterMap_cons_none (ofSegment?_of_idle rests)]
      · rfl

theorem steps_rdropWhile_idle (trail : List (List Char)) :
    steps (trail.rdropWhile idle) = steps trail := by
  rw [List.rdropWhile, steps, List.filterMap_reverse, ← steps, steps_dropWhile_idle, steps,
    List.filterMap_reverse, List.reverse_reverse, steps]

theorem steps_filter_ne_nil (trail : List (List Char)) :
    steps (trail.filter (· ≠ [])) = steps trail := by
  rw [steps, List.filterMap_filter]
  apply List.filterMap_congr
  intro segment _
  by_cases empty : segment = [] <;> simp [empty, Component.ofSegment?, idle]

theorem steps_segments (text : List Char) : steps (segments text) = steps (trunk text) := by
  rcases segments_eq_trunk text with parts | parts <;> rw [parts]
  rw [steps_append]
  exact List.append_nil _

theorem components_of_isAbsolute {path : Path} (absolute : path.isAbsolute) :
    path.components = .root :: steps (trunk path.text) := by
  rw [← steps_segments]
  rcases path with ⟨_ | ⟨c, rest⟩⟩
  · simp [isAbsolute] at absolute
  · obtain rfl : c = '/' := by simpa [isAbsolute] using absolute
    rcases List.exists_cons_of_ne_nil (segments_ne_nil rest) with ⟨first, others, parts⟩
    simp [components, segments_cons_slash, parts, steps]

/-- What a path begins with that no segment stands for by itself. -/
def opening (path : Path) : List Component :=
  match segments path.text with
  | [] :: _ :: _ => [.root]
  | ['.'] :: _ => [.here]
  | _ => []

theorem components_eq_opening (path : Path) :
    path.components = path.opening ++ steps (segments path.text) :=
  rfl

theorem opening_cases (path : Path) :
    path.opening = [.root] ∨ path.opening = [.here] ∨ path.opening = [] := by
  unfold opening
  split
  · exact .inl rfl
  · exact .inr (.inl rfl)
  · exact .inr (.inr rfl)

/-- A segment that is the name of something. -/
structure IsName (segment : List Char) : Prop where
  free : '/' ∉ segment
  moves : idle segment = false
  down : segment ≠ ['.', '.']

instance : DecidablePred IsName := fun segment =>
  decidable_of_iff ('/' ∉ segment ∧ idle segment = false ∧ segment ≠ ['.', '.'])
    ⟨fun ⟨free, moves, down⟩ => ⟨free, moves, down⟩, fun name => ⟨name.free, name.moves, name.down⟩⟩

theorem IsName.ofSegment? {segment : List Char} (name : IsName segment) :
    Component.ofSegment? segment = some (.name segment) := by
  simp [Component.ofSegment?, name.moves, name.down]

theorem steps_of_isName {trail : List (List Char)} (names : ∀ segment ∈ trail, IsName segment) :
    steps trail = trail.map Component.name := by
  rw [steps, ← List.filterMap_eq_map]
  exact List.filterMap_congr fun segment member => (names segment member).ofSegment?

/-! ## Paths below a path -/

/-- The path that segments lead to, one after the other. -/
def extend (path : Path) (trail : List (List Char)) : Path :=
  trail.foldl (fun path segment => path.join ⟨segment⟩) path

@[simp] theorem extend_nil (path : Path) : path.extend [] = path :=
  rfl

@[simp] theorem extend_cons (path : Path) (segment : List Char) (trail : List (List Char)) :
    path.extend (segment :: trail) = (path.join ⟨segment⟩).extend trail :=
  rfl

theorem extend_append (path : Path) (front rest : List (List Char)) :
    path.extend (front ++ rest) = (path.extend front).extend rest :=
  List.foldl_append

section Extend

variable {path : Path} (absolute : path.isAbsolute) {trail : List (List Char)}

include absolute

theorem isAbsolute_extend (trail : List (List Char)) : (path.extend trail).isAbsolute := by
  induction trail generalizing path with
  | nil => exact absolute
  | cons segment rest ih => exact ih (isAbsolute_join _ absolute)

theorem trunk_extend (free : ∀ segment ∈ trail, '/' ∉ segment) :
    trunk (path.extend trail).text = trunk path.text ++ trail.filter (· ≠ []) := by
  induction trail generalizing path with
  | nil => simp
  | cons segment rest ih =>
      have here := free segment List.mem_cons_self
      rw [extend_cons, ih (isAbsolute_join _ absolute)
          fun other member => free other (List.mem_cons_of_mem _ member),
        trunk_join absolute (isAbsolute_of_slash_free here), trunk_of_slash_free here,
        List.append_assoc, ← List.filter_append, List.singleton_append]

theorem components_extend (free : ∀ segment ∈ trail, '/' ∉ segment) :
    (path.extend trail).components = path.components ++ steps trail := by
  rw [components_of_isAbsolute (isAbsolute_extend absolute trail), trunk_extend absolute free,
    steps_append, steps_filter_ne_nil, components_of_isAbsolute absolute, List.cons_append]

theorem fileName?_extend {name : List Char} (last : trail.getLast? = some name)
    (names : ∀ segment ∈ trail, IsName segment) :
    (path.extend trail).fileName? = some name := by
  rcases List.getLast?_eq_some_iff.mp last with ⟨front, rfl⟩
  rw [fileName?, components_extend absolute fun segment member => (names segment member).free,
    steps_of_isName names, List.map_append, ← List.append_assoc, List.map_singleton,
    List.getLast?_concat]

end Extend

/-! ## The part of a path below a base -/

theorem dropComponents_zero (parts : List (List Char)) :
    dropComponents 0 parts = parts.dropWhile idle := by
  induction parts with
  | nil => rfl
  | cons segment rest ih => rw [dropComponents, ih, List.dropWhile_cons]

theorem dropComponents_of_idle {segment : List Char} (rests : idle segment) (count : Nat)
    (parts : List (List Char)) :
    dropComponents count (segment :: parts) = dropComponents count parts := by
  cases count <;> rw [dropComponents, if_pos rests]

theorem dropComponents_append (front rest : List (List Char)) :
    dropComponents (steps front).length (front ++ rest) = rest.dropWhile idle := by
  induction front with
  | nil => exact dropComponents_zero rest
  | cons segment front ih =>
      rw [List.cons_append, steps]
      by_cases rests : idle segment
      · rw [dropComponents_of_idle rests, List.filterMap_cons_none (ofSegment?_of_idle rests)]
        exact ih
      · rcases exists_ofSegment? rests with ⟨component, meaning⟩
        rw [List.filterMap_cons_some meaning, List.length_cons, dropComponents, if_neg rests]
        exact ih

/-- A path below a base as it is shown: what is idle at either end is left out, and so are
empty segments. -/
def shown (trail : List (List Char)) : Path where
  text := joinSegments (((trail.filter (· ≠ [])).dropWhile idle).rdropWhile idle)

theorem mem_steps {trail : List (List Char)} {component : Component}
    (member : component ∈ steps trail) : component = .up ∨ ∃ name, component = .name name := by
  rcases List.mem_filterMap.mp member with ⟨segment, -, meaning⟩
  unfold Component.ofSegment? at meaning
  split at meaning
  · cases meaning
  · split at meaning
    · exact .inl (Option.some.inj meaning).symm
    · exact .inr ⟨segment, (Option.some.inj meaning).symm⟩

/-- Segments of which the first is not idle mean the same when they are written as a path of
their own: it begins neither at the root nor with a dot. -/
theorem components_joinSegments {parts : List (List Char)}
    (free : ∀ part ∈ parts, '/' ∉ part) (moves : ∀ first ∈ parts.head?, idle first = false) :
    Path.components ⟨joinSegments parts⟩ = steps parts := by
  cases parts with
  | nil => rfl
  | cons first others =>
      have divided := segments_joinSegments (List.cons_ne_nil first others) free
      have moves : idle first = false := moves first rfl
      simp only [components, divided, steps]
      split
      · rename_i starts
        rw [(List.cons.inj starts).1] at moves
        cases moves
      · rename_i starts
        rw [(List.cons.inj starts).1] at moves
        cases moves
      · rfl

theorem components_shown {trail : List (List Char)} (free : ∀ segment ∈ trail, '/' ∉ segment) :
    (shown trail).components = steps trail := by
  set parts := ((trail.filter (· ≠ [])).dropWhile idle).rdropWhile idle with trimmed
  have same : steps parts = steps trail := by
    rw [trimmed, steps_rdropWhile_idle, steps_dropWhile_idle, steps_filter_ne_nil]
  have front : parts <+: (trail.filter (· ≠ [])).dropWhile idle :=
    List.rdropWhile_prefix _ _
  have below : parts ⊆ trail := fun part member =>
    List.mem_of_mem_filter ((List.dropWhile_sublist _).subset (front.subset member))
  have moves : ∀ first ∈ parts.head?, idle first = false := by
    intro first starts
    rcases List.head?_eq_some_iff.mp starts with ⟨others, eq⟩
    have head := List.head?_dropWhile_not idle (trail.filter (· ≠ []))
    rcases front with ⟨rest, whole⟩
    rw [← whole, eq] at head
    exact head
  rw [← same]
  exact components_joinSegments (fun part member => free part (below member)) moves

theorem below?_extend {base start : Path} (absolute : start.isAbsolute)
    (same : start.components = base.components)
    {trail : List (List Char)} (free : ∀ segment ∈ trail, '/' ∉ segment) :
    base.below? (start.extend trail) = some (shown trail) := by
  have front : base.components.isPrefixOf (start.extend trail).components := by
    rw [components_extend absolute free, same]
    exact List.isPrefixOf_iff_prefix.mpr (List.prefix_append _ _)
  have named : (base.components.filter fun component =>
      component != .root && component != .here) = steps (trunk start.text) := by
    rw [← same, components_of_isAbsolute absolute, List.filter_cons_of_neg (by decide),
      List.filter_eq_self]
    intro component member
    rcases mem_steps member with rfl | ⟨name, rfl⟩ <;> rfl
  have rest : ((dropComponents (steps (trunk start.text)).length
      (segments (start.extend trail).text)).rdropWhile idle) =
        ((trail.filter (· ≠ [])).dropWhile idle).rdropWhile idle := by
    have trunkEq := trunk_extend absolute free
    rcases segments_eq_trunk (start.extend trail).text with parts | parts
    · rw [parts, trunkEq, dropComponents_append]
    · rw [parts, trunkEq, List.append_assoc, dropComponents_append, List.dropWhile_append]
      split
      · rename_i gone
        rw [List.isEmpty_iff.mp gone]
        rfl
      · exact List.rdropWhile_concat_pos _ _ _ rfl
  have nonempty : base.text ≠ [] := by
    intro empty
    rw [components_of_isAbsolute absolute, components, empty] at same
    cases same
  rw [below?, if_neg nonempty, if_pos front]
  simp only [named]
  exact congrArg (fun parts => some (Path.mk (joinSegments parts))) rest

end Path

theorem Discovery.relative_extend {base start : Path} (absolute : start.isAbsolute)
    (same : start.components = base.components)
    {trail : List (List Char)} (free : ∀ segment ∈ trail, '/' ∉ segment) :
    relative base (start.extend trail) = Path.shown trail := by
  rw [relative, Path.below?_extend absolute same free]
  rfl

end StyleOrder
