import StyleOrder.Proofs.Files.Places
import Mathlib.Data.List.Infix

namespace StyleOrder

/-!
# Ancestors of a path

The parent of a path is cut out of its text.  What the parent means is told by components: it
has all of them but the last.  So the ancestors of a path mean the initial parts of
its components, longest first, and each of these once.  The bound on their number, which
counts segments, is never reached too early.
-/

namespace Path

/-! ## Parents -/

/-- What the first segment of a path stands for.  An empty one is the root if there is
`more` after it. -/
def beginning (first : List Char) (more : Bool) : List Component :=
  if first = [] then if more then [.root] else []
  else if first = ['.'] then [.here]
  else (Component.ofSegment? first).toList

theorem components_of_segments {path : Path} {first : List Char} {others : List (List Char)}
    (parts : segments path.text = first :: others) :
    path.components = beginning first (!others.isEmpty) ++ steps others := by
  rw [components_eq_opening, opening, parts, beginning]
  by_cases empty : first = []
  · subst empty
    cases others <;> rfl
  · by_cases dot : first = ['.']
    · subst dot
      rfl
    · have moves : ¬idle first := by simp [idle, empty, dot]
      rcases exists_ofSegment? moves with ⟨component, meaning⟩
      simp [empty, dot, steps, meaning]

theorem ne_root_of_mem_steps {trail : List (List Char)} {component : Component}
    (member : component ∈ steps trail) : component ≠ .root := by
  rcases mem_steps member with rfl | ⟨name, rfl⟩
  · exact nofun
  · exact nofun

theorem beginning_of_ne_nil {first : List Char} (nonempty : first ≠ []) :
    ∃ component ≠ .root, ∀ more, beginning first more = [component] := by
  simp only [beginning, if_neg nonempty]
  split
  · exact ⟨.here, nofun, fun _ => rfl⟩
  · rename_i dot
    have moves : ¬idle first := by simp [idle, nonempty, dot]
    rcases exists_ofSegment? moves with ⟨component, meaning⟩
    have member : component ∈ steps [first] := by simp [steps, meaning]
    exact ⟨component, ne_root_of_mem_steps member, fun _ => by rw [meaning]; rfl⟩

/-- Segments that are idle at the end say nothing. -/
theorem steps_of_dropWhile_reverse {trail kept : List (List Char)}
    (dropped : trail.reverse.dropWhile idle = kept) : steps trail = steps kept.reverse := by
  rw [← dropped, ← steps_rdropWhile_idle, List.rdropWhile]

theorem components_cut {first : List Char} {rest : List (List Char)}
    (free : ∀ part ∈ first :: rest, '/' ∉ part) :
    (cut first rest).components = beginning first true ++ steps rest.reverse := by
  rw [steps_of_dropWhile_reverse (congrArg _ rest.reverse_reverse)]
  unfold cut
  split
  · rename_i dropped
    rw [dropped]
    by_cases empty : first = []
    · rw [if_pos empty, empty]
      rfl
    · rcases beginning_of_ne_nil empty with ⟨component, -, begins⟩
      have parts : segments (Path.mk first).text = [first] :=
        segments_of_slash_free (free first List.mem_cons_self)
      rw [if_neg empty, components_of_segments parts, begins, begins]
      rfl
  · rename_i nonempty
    have inside : ∀ part ∈ first :: (rest.dropWhile idle).reverse, '/' ∉ part := by
      intro part member
      rw [List.mem_cons, List.mem_reverse] at member
      exact free part (List.mem_cons.mpr
        (member.imp_right ((List.dropWhile_sublist idle).subset ·)))
    have parts : segments (Path.mk (joinSegments (first :: (rest.dropWhile idle).reverse))).text =
        first :: (rest.dropWhile idle).reverse :=
      segments_joinSegments (List.cons_ne_nil _ _) inside
    have more : (rest.dropWhile idle).reverse.isEmpty = false := by
      simpa using nonempty
    rw [components_of_segments parts, more]
    rfl

/-- A path has no parent if it means nothing or the root; otherwise its parent lacks
one component, the last. -/
theorem parent?_cases (path : Path) :
    (path.parent? = none ∧ (path.components = [] ∨ path.components = [.root])) ∨
      ∃ parent last, path.parent? = some parent ∧ last ≠ .root ∧
        path.components = parent.components ++ [last] := by
  rcases List.exists_cons_of_ne_nil (segments_ne_nil path.text) with ⟨first, others, parts⟩
  have free : ∀ part ∈ first :: others, '/' ∉ part :=
    fun part member => (of_mem_segments (parts ▸ member)).2
  have meaning := components_of_segments parts
  cases ending : others.reverse.dropWhile idle with
  | nil =>
      have above : path.parent? = if first = [] then none else some ⟨[]⟩ := by
        simp only [parent?, parts, ending]
      rw [steps_of_dropWhile_reverse ending] at meaning
      by_cases empty : first = []
      · refine .inl ⟨above.trans (if_pos empty), ?_⟩
        rw [meaning, empty]
        cases others.isEmpty
        · exact .inr rfl
        · exact .inl rfl
      · rcases beginning_of_ne_nil empty with ⟨component, proper, begins⟩
        refine .inr ⟨⟨[]⟩, component, above.trans (if_neg empty), proper, ?_⟩
        rw [meaning, begins]
        rfl
  | cons last rest =>
      have above : path.parent? = some (cut first rest) := by
        simp only [parent?, parts, ending]
      have moves : idle last = false := by
        have head := List.head?_dropWhile_not idle others.reverse
        rw [ending] at head
        exact head
      rcases exists_ofSegment? (Bool.eq_false_iff.mp moves) with ⟨component, means⟩
      have ends : steps others = steps rest.reverse ++ [component] := by
        rw [steps_of_dropWhile_reverse ending, List.reverse_cons, steps_append]
        simp [steps, means]
      have known : last :: rest ⊆ others := by
        intro part member
        rw [← ending] at member
        exact List.mem_reverse.mp ((List.dropWhile_sublist idle).subset member)
      have more : others.isEmpty = false := by
        rw [List.isEmpty_eq_false_iff_exists_mem]
        exact ⟨last, known List.mem_cons_self⟩
      have member : component ∈ steps others := by simp [ends]
      refine .inr ⟨cut first rest, component, above, ne_root_of_mem_steps member, ?_⟩
      have freeRest : ∀ part ∈ first :: rest, '/' ∉ part := fun part member =>
        free part (List.cons_subset_cons first
          (List.Subset.trans (List.subset_cons_self last rest) known) member)
      rw [meaning, more, ends, components_cut freeRest, List.append_assoc]
      rfl

/-- What is idle at the end of a path says nothing. -/
theorem components_trimmed (path : Path) : path.trimmed.components = path.components := by
  unfold trimmed
  split
  · rename_i first second others parts
    have free : ∀ part ∈ first :: (second :: others).reverse, '/' ∉ part := by
      intro part member
      rw [List.mem_cons, List.mem_reverse, ← List.mem_cons, ← parts] at member
      exact (of_mem_segments member).2
    rw [components_cut free, List.reverse_reverse, components_of_segments parts]
    rfl
  · rfl

/-- Only the empty path means nothing at all. -/
theorem components_ne_nil {path : Path} (nonempty : path.text ≠ []) : path.components ≠ [] := by
  rcases List.exists_cons_of_ne_nil (segments_ne_nil path.text) with ⟨first, others, parts⟩
  rw [components_of_segments parts]
  intro nothing
  rcases List.append_eq_nil_iff.mp nothing with ⟨begins, -⟩
  by_cases empty : first = []
  · cases others with
    | nil =>
        subst empty
        rcases path with ⟨_ | ⟨c, rest⟩⟩
        · exact nonempty rfl
        · by_cases slash : c = '/'
          · rw [slash, segments_cons_slash] at parts
            exact segments_ne_nil rest (List.cons.inj parts).2
          · rcases exists_segments_cons slash rest with ⟨front, _, -, whole⟩
            rw [whole] at parts
            cases parts
    | cons second others =>
        rw [empty] at begins
        cases begins
  · rcases beginning_of_ne_nil empty with ⟨component, -, whole⟩
    rw [whole] at begins
    cases begins

/-! ## The whole chain -/

/-- Every component has a segment of its own; the root has the empty one before the first
slash. -/
theorem length_components_le (path : Path) :
    path.components.length ≤ (segments path.text).length := by
  rcases List.exists_cons_of_ne_nil (segments_ne_nil path.text) with ⟨first, others, parts⟩
  have begins : (beginning first (!others.isEmpty)).length ≤ 1 := by
    by_cases empty : first = []
    · rw [beginning, if_pos empty]
      cases others.isEmpty <;> decide
    · rcases beginning_of_ne_nil empty with ⟨component, -, begins⟩
      rw [begins, List.length_singleton]
  have goesOn : (steps others).length ≤ others.length := List.length_filterMap_le _ _
  rw [components_of_segments parts, parts, List.length_append, List.length_cons]
  omega

/-- The initial parts of components that mean a directory.  Below the root this is not
the empty part. -/
def directoryParts (components : List Component) : List (List Component) :=
  components.inits.filter fun part => part ≠ [] || components.head? ≠ some .root

theorem directoryParts_concat {components : List Component} {last : Component}
    (proper : last ≠ .root) :
    directoryParts (components ++ [last]) =
      directoryParts components ++ [components ++ [last]] := by
  have root : (components ++ [last]).head? = some .root ↔ components.head? = some .root := by
    cases components <;> simp [proper]
  have same : (components.inits.filter fun part =>
      part ≠ [] || (components ++ [last]).head? ≠ some .root) = directoryParts components :=
    List.filter_congr fun part _ => by simp only [ne_eq, root]
  rw [directoryParts, List.inits_append, List.filter_append, same]
  simp

theorem map_components_climb {bound : Nat} {path : Path}
    (enough : path.components.length < bound) :
    (climb bound path).map components = (directoryParts path.components).reverse := by
  induction bound generalizing path with
  | zero => cases enough
  | succ bound ih =>
      rcases path.parent?_cases with ⟨up, means⟩ | ⟨parent, last, up, proper, means⟩
      · rw [climb, up]
        rcases means with means | means <;> simp [means, directoryParts]
      · have shorter : parent.components.length < bound := by
          rw [means, List.length_append, List.length_singleton] at enough
          omega
        rw [climb, up, List.map_cons, ih shorter, means, directoryParts_concat proper,
          List.reverse_append]
        rfl

/-- The ancestors of a path mean the initial parts of its components, longest first. -/
theorem map_components_ancestors (path : Path) :
    path.ancestors.map components = (directoryParts path.components).reverse :=
  map_components_climb (Nat.lt_succ_of_le path.length_components_le)

theorem pairwise_inits (components : List Component) :
    components.inits.Pairwise fun left right => left.length < right.length := by
  induction components with
  | nil => exact List.pairwise_singleton _ _
  | cons first rest ih =>
      rw [List.inits_cons, List.pairwise_cons, List.pairwise_map]
      exact ⟨by simp, ih.imp Nat.succ_lt_succ⟩

/-- Ancestors have fewer and fewer components. -/
theorem ancestors_pairwise (path : Path) :
    path.ancestors.Pairwise fun nearer farther =>
      farther.components.length < nearer.components.length := by
  have lengths : (path.ancestors.map components).Pairwise fun nearer farther =>
      farther.length < nearer.length := by
    rw [map_components_ancestors, List.pairwise_reverse]
    exact (pairwise_inits _).filter _
  exact List.pairwise_map.mp lengths

end Path
end StyleOrder
