import StyleOrder.Proofs.Files.Sorting
import StyleOrder.Proofs.Files.Trails

namespace StyleOrder

/-!
# Disks that agree along a way

Two disks may list the same files in different orders, and one may have directories that
the other has not.  So what components lead to is compared by its meaning: for every
list of path components, the trails with that meaning are the same on both disks, and they
come in the same order.  At each step at most one name on either disk can be the next
component of the meaning, and two disks that agree along the way make the same choice.
-/

namespace Glob

/-! ## Patterns that stay below the base -/

/-- A component that may step up. -/
def climbs (component : List Token) : Bool :=
  component.head? = some (.char '.') && matchesText component ['.', '.']

/-- A component that may stay where it is. -/
def rests (component : List Token) : Bool :=
  isDirectories component || component = [] ||
    (component.head? = some (.char '.') && matchesText component ['.'])

/-- Whether components never lead above the directory that they start `depth` steps below. -/
def staysBelow : (depth : Nat) → List (List Token) → Bool
  | _, [] => true
  | depth, component :: rest =>
      if climbs component then 0 < depth && staysBelow (depth - 1) rest
      else staysBelow (if rests component then depth else depth + 1) rest

theorem staysBelow_of_stars {component : List Token} (stars : isDirectories component = true)
    {depth : Nat} {rest : List (List Token)} (stays : staysBelow depth (component :: rest)) :
    staysBelow depth rest := by
  obtain rfl : component = [.directories] := by simpa [isDirectories] using stars
  exact stays

theorem staysBelow_tail {component : List Token} {depth : Nat} {rest : List (List Token)}
    (stays : staysBelow depth (component :: rest)) :
    ∃ next, staysBelow next rest ∧ next ≤ depth + 1 := by
  rw [staysBelow] at stays
  split at stays
  · exact ⟨depth - 1, (Bool.and_eq_true_iff.mp stays).2, by omega⟩
  · exact ⟨_, stays, by split <;> omega⟩

section Offers

variable {disk : Disk} (sound : disk.Sound) {place : Place} {component : List Token}
  {segment : List Char} (offer : segment ∈ offered disk place component)

include sound offer

theorem climbs_of_offered (up : segment = ['.', '.']) : climbs component := by
  subst up
  unfold offered at offer
  split at offer
  · rename_i name literal
    rw [literal?_eq_some_iff.mp literal, ← List.mem_singleton.mp offer]
    decide
  · rcases List.mem_append.mp offer with named | dotted
    · exact absurd rfl (sound.isName (List.mem_of_mem_filter named)).down
    · rcases mem_dotNames dotted with ⟨dot, matched, -⟩
      rw [climbs, dot, matched]
      rfl

theorem rests_of_offered (stays : Path.idle segment) : rests component := by
  unfold offered at offer
  split at offer
  · rename_i name literal
    rw [literal?_eq_some_iff.mp literal, ← List.mem_singleton.mp offer]
    have known : segment = [] ∨ segment = ['.'] := by simpa [Path.idle] using stays
    rcases known with rfl | rfl <;> decide
  · rcases List.mem_append.mp offer with named | dotted
    · rw [(sound.isName (List.mem_of_mem_filter named)).moves] at stays
      cases stays
    · rcases mem_dotNames dotted with ⟨dot, matched, rfl | rfl⟩
      · rw [rests, dot, matched]
        simp
      · cases stays

/-- One step of a pattern that stays below the base. -/
theorem staysBelow_step {depth : Nat} {rest : List (List Token)}
    (stays : staysBelow depth (component :: rest)) {names : Place} (deep : depth ≤ names.length) :
    (segment = ['.', '.'] → names ≠ []) ∧
      ∃ next, staysBelow next rest ∧ next ≤ (Disk.step names segment).length := by
  by_cases up : segment = ['.', '.']
  · rw [staysBelow, if_pos (climbs_of_offered sound offer up), Bool.and_eq_true,
      decide_eq_true_eq] at stays
    refine ⟨fun _ => List.ne_nil_of_length_pos (by omega), depth - 1, stays.2, ?_⟩
    subst up
    change depth - 1 ≤ names.dropLast.length
    rw [List.length_dropLast]
    omega
  · refine ⟨fun eq => absurd eq up, ?_⟩
    cases idle : Path.idle segment with
    | true =>
        have here : Disk.step names segment = names := by simp [Disk.step, idle]
        rw [here]
        rw [staysBelow, rests_of_offered sound offer idle] at stays
        split at stays
        · exact ⟨depth - 1, (Bool.and_eq_true_iff.mp stays).2, by omega⟩
        · exact ⟨depth, stays, deep⟩
    | false =>
        have down : (Disk.step names segment).length = names.length + 1 := by
          simp [Disk.step, idle, up]
        rcases staysBelow_tail stays with ⟨next, staysNext, bound⟩
        exact ⟨next, staysNext, by omega⟩

end Offers

end Glob

namespace Discovery

open StyleOrder.Path

/-! ## Projects -/

/-- A directory with a path that leads to it. -/
structure Project where
  disk : Disk
  sound : disk.Sound
  base : Path
  absolute : base.isAbsolute
  place : Place
  located : disk.locate base = .ok place
  directory : disk.isDirectoryAt place

namespace Project

variable (project : Project)

/-- Whether there is a regular file below the base. -/
def holdsFile (names : Place) : Bool :=
  (project.disk.content? (project.place ++ names)).isSome

/-- Whether there is a directory below the base. -/
def hasDirectory (names : Place) : Bool :=
  project.disk.isDirectoryAt (project.place ++ names)

/-- Whether a segment can be followed from a place below the base. -/
def enters (names : Place) (segment : List Char) : Bool :=
  project.hasDirectory names &&
    project.disk.existsAt (project.place ++ Disk.step names segment)

variable {project}

theorem step_append {names : Place} {segment : List Char}
    (below : segment = ['.', '.'] → names ≠ []) :
    Disk.step (project.place ++ names) segment = project.place ++ Disk.step names segment := by
  unfold Disk.step
  split
  · rfl
  · split
    · rename_i up
      rw [List.dropLast_append_of_ne_nil (below up)]
    · rw [List.append_assoc]

/-- Following a segment that does not lead out of the base. -/
theorem match_follow {β : Type} {names : Place} {segment : List Char}
    (below : segment = ['.', '.'] → names ≠ []) (onward : Place → List β) :
    (match project.disk.follow (project.place ++ names) segment with
      | .ok next => onward next
      | .error _ => []) =
      if project.enters names segment then onward (project.place ++ Disk.step names segment)
      else [] := by
  rw [Disk.follow, step_append below, enters, hasDirectory]
  cases project.disk.isDirectoryAt (project.place ++ names) <;>
    cases project.disk.existsAt (project.place ++ Disk.step names segment) <;> rfl

/-- What is above a file is a directory. -/
theorem hasDirectory_of_holdsFile {names rest : Place} (nonempty : rest ≠ [])
    (file : project.holdsFile (names ++ rest)) : project.hasDirectory names := by
  refine Disk.isDirectoryAt_of_existsAt nonempty ?_
  unfold holdsFile at file
  rw [List.append_assoc, Disk.existsAt, file, Bool.or_true]

end Project

/-! ## Agreement along a way -/

/-- Where a component leads. -/
def move (names : Place) : Component → Place
  | .up => names.dropLast
  | .name name => names ++ [name]
  | .root | .here => names

theorem step_eq_move (names : Place) (segment : List Char) :
    Disk.step names segment =
      match Component.ofSegment? segment with
      | some component => move names component
      | none => names := by
  unfold Disk.step Component.ofSegment?
  split
  · rfl
  · split <;> rfl

variable (left right : Project)

/-- Two projects have the same at a place below their bases. -/
structure SameAt (names : Place) : Prop where
  directory : left.hasDirectory names = right.hasDirectory names
  file : left.holdsFile names = right.holdsFile names

/-- Two projects have the same wherever components lead, one after the other. -/
def SameAlong : Place → List Component → Prop
  | names, [] => SameAt left right names
  | names, component :: rest => SameAt left right names ∧ SameAlong (move names component) rest

variable {left right}

theorem SameAt.existsAt_eq {names : Place} (same : SameAt left right names) :
    left.disk.existsAt (left.place ++ names) = right.disk.existsAt (right.place ++ names) := by
  have directory := same.directory
  have file := same.file
  unfold Project.hasDirectory at directory
  unfold Project.holdsFile at file
  rw [Disk.existsAt, Disk.existsAt, directory, file]

theorem SameAlong.here {names : Place} {meaning : List Component}
    (same : SameAlong left right names meaning) : SameAt left right names := by
  cases meaning with
  | nil => exact same
  | cons component rest => exact same.1

theorem SameAlong.behind {names front : Place} {meaning : List Component}
    (same : SameAlong left right names (front.map Component.name ++ meaning)) :
    SameAlong left right (names ++ front) meaning := by
  induction front generalizing names with
  | nil => simpa using same
  | cons name front ih => simpa [move] using ih same.2

theorem sameAlong_of_forall (same : ∀ names, SameAt left right names) (names : Place)
    (meaning : List Component) : SameAlong left right names meaning := by
  induction meaning generalizing names with
  | nil => exact same names
  | cons component rest ih => exact ⟨same names, ih _⟩

/-- The way to a file leads through directories on both sides. -/
theorem sameAlong_of_file (files : ∀ names, left.holdsFile names = right.holdsFile names)
    {names rest : Place} (file : left.holdsFile (names ++ rest)) :
    SameAlong left right names (rest.map Component.name) := by
  induction rest generalizing names with
  | nil =>
      rw [List.append_nil] at file
      have other : right.holdsFile names := files names ▸ file
      exact ⟨(left.sound.isDirectoryAt_eq_false file).trans
        (right.sound.isDirectoryAt_eq_false other).symm, files names⟩
  | cons name rest ih =>
      have other : right.holdsFile (names ++ name :: rest) := files _ ▸ file
      have nonempty := List.cons_ne_nil name rest
      refine ⟨⟨?_, files names⟩, ih (by simpa [move] using file)⟩
      rw [Project.hasDirectory_of_holdsFile nonempty file,
        Project.hasDirectory_of_holdsFile nonempty other]

/-! ## Trails with a given meaning -/

/-- The trails that mean the given components. -/
def meaningOf (meaning : List Component) (trails : List (List (List Char))) :
    List (List (List Char)) :=
  trails.filter (steps · = meaning)

theorem meaningOf_map_cons {segment : List Char} {component : Component}
    (means : Component.ofSegment? segment = some component) (meaning : List Component)
    (trails : List (List (List Char))) :
    meaningOf (component :: meaning) (trails.map (segment :: ·)) =
      (meaningOf meaning trails).map (segment :: ·) := by
  rw [meaningOf, List.filter_map, meaningOf]
  refine congrArg _ (List.filter_congr fun trail _ => decide_eq_decide.mpr ?_)
  rw [steps, List.filterMap_cons_some means, List.cons_inj_right]
  rfl

theorem meaningOf_map_cons_idle {segment : List Char}
    (means : Component.ofSegment? segment = none) (meaning : List Component)
    (trails : List (List (List Char))) :
    meaningOf meaning (trails.map (segment :: ·)) =
      (meaningOf meaning trails).map (segment :: ·) := by
  rw [meaningOf, List.filter_map, meaningOf]
  refine congrArg _ (List.filter_congr fun trail _ => decide_eq_decide.mpr ?_)
  rw [steps, List.filterMap_cons_none means]
  rfl

theorem meaningOf_map_cons_other {segment : List Char} {component : Component}
    (means : Component.ofSegment? segment = some component) {meaning : List Component}
    (other : meaning.head? ≠ some component) (trails : List (List (List Char))) :
    meaningOf meaning (trails.map (segment :: ·)) = [] := by
  rw [meaningOf, List.filter_eq_nil_iff]
  intro trail member same
  rcases List.mem_map.mp member with ⟨rest, -, rfl⟩
  rw [decide_eq_true_eq, steps, List.filterMap_cons_some means] at same
  exact other (by rw [← same]; rfl)

theorem meaningOf_map_append {front : Place} (names : ∀ name ∈ front, IsName name)
    (meaning : List Component) (trails : List (List (List Char))) :
    meaningOf (front.map Component.name ++ meaning) (trails.map (front ++ ·)) =
      (meaningOf meaning trails).map (front ++ ·) := by
  rw [meaningOf, List.filter_map, meaningOf]
  refine congrArg _ (List.filter_congr fun trail _ => ?_)
  simp [steps_of_isName names]

theorem meaningOf_map_append_other {front : Place} (names : ∀ name ∈ front, IsName name)
    {meaning : List Component} (other : ¬front.map Component.name <+: meaning)
    (trails : List (List (List Char))) : meaningOf meaning (trails.map (front ++ ·)) = [] := by
  rw [meaningOf, List.filter_eq_nil_iff]
  intro trail member same
  rcases List.mem_map.mp member with ⟨rest, -, rfl⟩
  rw [decide_eq_true_eq, steps_append, steps_of_isName names] at same
  exact other ⟨_, same⟩

/-! ## The same trails on both sides -/

theorem flatMap_of_unique {α β : Type} [DecidableEq α] {values : List α}
    (distinct : values.Nodup) {value : α} {f : α → List β}
    (others : ∀ other ∈ values, other ≠ value → f other = []) :
    values.flatMap f = if value ∈ values then f value else [] := by
  split
  · rename_i member
    rcases List.append_of_mem member with ⟨front, rest, rfl⟩
    rcases List.nodup_append.mp distinct with ⟨-, distinctRest, apart⟩
    have before : front.flatMap f = [] := List.flatMap_eq_nil_iff.mpr fun other known =>
      others other (List.mem_append_left _ known) (apart other known value List.mem_cons_self)
    have after : rest.flatMap f = [] := List.flatMap_eq_nil_iff.mpr fun other known =>
      others other (by simp [known]) fun eq => (List.nodup_cons.mp distinctRest).1 (eq ▸ known)
    rw [List.flatMap_append, List.flatMap_cons, before, after, List.nil_append, List.append_nil]
  · rename_i absent
    exact List.flatMap_eq_nil_iff.mpr fun other member =>
      others other member fun eq => absent (eq ▸ member)

/-- The names in a directory matter only if one of them is the next component. -/
theorem flatMap_names_eq {β : Type} {names : Place} {meaning : List Component}
    (same : SameAlong left right names meaning) {f g : List Char → List β}
    (leftOnly : ∀ name ∈ left.disk.names (left.place ++ names),
      meaning.head? ≠ some (.name name) → f name = [])
    (rightOnly : ∀ name ∈ right.disk.names (right.place ++ names),
      meaning.head? ≠ some (.name name) → g name = [])
    (agree : ∀ name ∈ left.disk.names (left.place ++ names),
      meaning.head? = some (.name name) → f name = g name) :
    (left.disk.names (left.place ++ names)).flatMap f =
      (right.disk.names (right.place ++ names)).flatMap g := by
  by_cases named : ∃ name, meaning.head? = some (.name name)
  · -- names are listed once, so that both sides come down to this one
    rcases named with ⟨name, first⟩
    have others : ∀ other, other ≠ name → meaning.head? ≠ some (.name other) := by
      intro other different eq
      rw [first, Option.some.injEq, Component.name.injEq] at eq
      exact different eq.symm
    have present : left.disk.existsAt (left.place ++ names ++ [name]) =
        right.disk.existsAt (right.place ++ names ++ [name]) := by
      cases meaning with
      | nil => cases first
      | cons component rest =>
          cases first
          simpa [move] using same.2.here.existsAt_eq
    rw [flatMap_of_unique (left.disk.nodup_names _) fun other member different =>
        leftOnly other member (others other different),
      flatMap_of_unique (right.disk.nodup_names _) fun other member different =>
        rightOnly other member (others other different)]
    simp only [Disk.mem_names_iff, ← present]
    split
    · rename_i member
      exact agree name (Disk.mem_names_iff.mpr member) first
    · rfl
  · have none : ∀ name, meaning.head? ≠ some (.name name) := fun name eq => named ⟨name, eq⟩
    rw [List.flatMap_eq_nil_iff.mpr fun name member => leftOnly name member (none name),
      List.flatMap_eq_nil_iff.mpr fun name member => rightOnly name member (none name)]

/-- Whether names are the first of the given components. -/
def begins (meaning : List Component) (front : Place) : Bool :=
  (front.map Component.name).isPrefixOf meaning

theorem begins_iff {meaning : List Component} {front : Place} :
    begins meaning front ↔ front.map Component.name <+: meaning :=
  List.isPrefixOf_iff_prefix

theorem filter_begins_cons (name : List Char) (meaning : List Component) (fronts : List Place) :
    ([name] :: fronts.map (name :: ·)).filter (begins (.name name :: meaning)) =
      [name] :: (fronts.filter (begins meaning)).map (name :: ·) := by
  have first : begins (.name name :: meaning) [name] := by simp [begins]
  rw [List.filter_cons_of_pos first, List.filter_map]
  refine congrArg _ (congrArg _ (List.filter_congr fun front _ => ?_))
  simp [begins]

theorem filter_begins_other {name : List Char} {meaning : List Component}
    (other : meaning.head? ≠ some (.name name)) (fronts : List Place) :
    ([name] :: fronts.map (name :: ·)).filter (begins meaning) = [] := by
  have never : ∀ rest, ¬begins meaning (name :: rest) := by
    intro rest holds
    rcases begins_iff.mp holds with ⟨onward, rfl⟩
    exact other rfl
  rw [List.filter_eq_nil_iff]
  intro front member
  rcases List.mem_cons.mp member with rfl | member
  · exact never []
  · rcases List.mem_map.mp member with ⟨rest, -, rfl⟩
    exact never rest

theorem filter_descents_eq (depth : Nat) {names : Place} {meaning : List Component}
    (same : SameAlong left right names meaning) :
    (Glob.descents left.disk depth (left.place ++ names)).filter (begins meaning) =
      (Glob.descents right.disk depth (right.place ++ names)).filter (begins meaning) := by
  induction depth generalizing names meaning with
  | zero => rfl
  | succ depth ih =>
      rw [Glob.descents, Glob.descents, List.filter_flatMap, List.filter_flatMap]
      apply flatMap_names_eq same
      · exact fun name _ other => filter_begins_other other _
      · exact fun name _ other => filter_begins_other other _
      · intro name _ first
        cases meaning with
        | nil => cases first
        | cons component meaning =>
            cases first
            rw [filter_begins_cons, filter_begins_cons, List.append_assoc, List.append_assoc]
            exact congrArg (fun fronts => [name] :: fronts.map (name :: ·)) (ih same.2)

/-- Heights differ, but on both sides nothing lies deeper. -/
theorem filter_descents_height_eq {names : Place} {meaning : List Component}
    (same : SameAlong left right names meaning) :
    (Glob.descents left.disk left.disk.height (left.place ++ names)).filter (begins meaning) =
      (Glob.descents right.disk right.disk.height (right.place ++ names)).filter
        (begins meaning) := by
  rw [← Glob.descents_add left.disk right.disk.height (Nat.le_add_left _ _),
    ← Glob.descents_add right.disk left.disk.height (Nat.le_add_left _ _),
    Nat.add_comm right.disk.height, filter_descents_eq _ same]

theorem flatMap_filter {α β : Type} (values : List α) (kept : α → Bool) (f : α → List β) :
    (values.filter kept).flatMap f =
      values.flatMap fun value => if kept value then f value else [] := by
  induction values with
  | nil => rfl
  | cons value rest ih =>
      rw [List.flatMap_cons, ← ih]
      cases keep : kept value with
      | true => rw [List.filter_cons_of_pos keep, List.flatMap_cons, if_pos rfl]
      | false => rw [List.filter_cons_of_neg (by simp [keep])]; rfl

theorem flatMap_eq_flatMap_filter {α β : Type} {values : List α} {kept : α → Bool}
    {f : α → List β} (others : ∀ value ∈ values, ¬kept value → f value = []) :
    values.flatMap f = (values.filter kept).flatMap f := by
  rw [flatMap_filter]
  apply List.flatMap_congr
  intro value member
  split
  · rfl
  · rename_i other
    exact others value member other

/-! ## One step on both sides -/

/-- The trails that go on behind a segment. -/
def onward (project : Project) (rest : List (List Glob.Token)) (place : Place)
    (segment : List Char) : List (List (List Char)) :=
  match project.disk.follow place segment with
  | .ok next => (Glob.trails project.disk rest next).map (segment :: ·)
  | .error _ => []

theorem meaningOf_onward {project : Project} {names : Place} {segment : List Char}
    (below : segment = ['.', '.'] → names ≠ []) (meaning : List Component)
    (rest : List (List Glob.Token)) :
    meaningOf meaning (onward project rest (project.place ++ names) segment) =
      if project.enters names segment then
        meaningOf meaning
          ((Glob.trails project.disk rest (project.place ++ Disk.step names segment)).map
            (segment :: ·))
      else [] := by
  rw [onward, Project.match_follow below]
  split <;> rfl

theorem meaningOf_onward_other {segment : List Char} {component : Component}
    (means : Component.ofSegment? segment = some component) {meaning : List Component}
    (other : meaning.head? ≠ some component) (project : Project) (rest : List (List Glob.Token))
    (place : Place) : meaningOf meaning (onward project rest place segment) = [] := by
  unfold onward
  split
  · exact meaningOf_map_cons_other means other _
  · rfl

theorem enters_eq {names : Place} (segment : List Char) (here : SameAt left right names)
    (there : SameAt left right (Disk.step names segment)) :
    left.enters names segment = right.enters names segment := by
  rw [Project.enters, Project.enters, here.directory, there.existsAt_eq]

/-- Behind two stars, trails with a meaning begin with names that it begins with. -/
theorem meaningOf_descents (project : Project) (names : Place) (kept : Place → Bool)
    (rest : List (List Glob.Token)) (meaning : List Component) :
    meaningOf meaning
        (((Glob.descents project.disk project.disk.height (project.place ++ names)).filter
          kept).flatMap fun front =>
            (Glob.trails project.disk rest (project.place ++ names ++ front)).map (front ++ ·)) =
      (((Glob.descents project.disk project.disk.height (project.place ++ names)).filter
        (begins meaning)).filter kept).flatMap fun front =>
          meaningOf meaning
            ((Glob.trails project.disk rest (project.place ++ names ++ front)).map
              (front ++ ·)) := by
  rw [List.filter_comm, meaningOf, List.filter_flatMap]
  apply flatMap_eq_flatMap_filter
  intro front member other
  have isName := (Glob.isName_of_mem_descents project.sound (List.mem_of_mem_filter member)).2
  exact meaningOf_map_append_other isName (fun first => other (begins_iff.mpr first)) _

section Step

variable {rest : List (List Glob.Token)}
  (ih : ∀ {depth : Nat} {names : Place} {meaning : List Component},
    Glob.staysBelow depth rest → depth ≤ names.length → SameAlong left right names meaning →
      meaningOf meaning (Glob.trails left.disk rest (left.place ++ names)) =
        meaningOf meaning (Glob.trails right.disk rest (right.place ++ names)))
  {names : Place} {meaning : List Component} (same : SameAlong left right names meaning)

include ih same

theorem meaningOf_onward_eq {segment : List Char} (below : segment = ['.', '.'] → names ≠ [])
    {next : Nat} (stays : Glob.staysBelow next rest)
    (deep : next ≤ (Disk.step names segment).length) :
    meaningOf meaning (onward left rest (left.place ++ names) segment) =
      meaningOf meaning (onward right rest (right.place ++ names) segment) := by
  cases means : Component.ofSegment? segment with
  | none =>
      have stands : Disk.step names segment = names := by rw [step_eq_move, means]
      rw [meaningOf_onward below, meaningOf_onward below, meaningOf_map_cons_idle means,
        meaningOf_map_cons_idle means, enters_eq segment same.here (stands.symm ▸ same.here),
        stands, ih stays (stands ▸ deep) same]
  | some component =>
      by_cases first : meaning.head? = some component
      · cases meaning with
        | nil => cases first
        | cons other meaning =>
            obtain rfl := Option.some.inj first
            have moves : Disk.step names segment = move names other := by
              rw [step_eq_move, means]
            rw [meaningOf_onward below, meaningOf_onward below, meaningOf_map_cons means,
              meaningOf_map_cons means,
              enters_eq segment same.here (moves.symm ▸ same.2.here), moves,
              ih stays (moves ▸ deep) same.2]
      · rw [meaningOf_onward_other means first, meaningOf_onward_other means first]

/-- A component that is not two stars: both sides offer the same segments, as far as these
can be the next to be taken. -/
theorem meaningOf_offered_eq {component : List Glob.Token} {depth : Nat}
    (stays : Glob.staysBelow depth (component :: rest)) (deep : depth ≤ names.length) :
    ((Glob.offered left.disk (left.place ++ names) component).flatMap fun segment =>
        meaningOf meaning (onward left rest (left.place ++ names) segment)) =
      (Glob.offered right.disk (right.place ++ names) component).flatMap fun segment =>
        meaningOf meaning (onward right rest (right.place ++ names) segment) := by
  have agree : ∀ segment ∈ Glob.offered left.disk (left.place ++ names) component,
      meaningOf meaning (onward left rest (left.place ++ names) segment) =
        meaningOf meaning (onward right rest (right.place ++ names) segment) := by
    intro segment offer
    rcases Glob.staysBelow_step left.sound offer stays deep with ⟨below, next, stays, deep⟩
    exact meaningOf_onward_eq ih same below stays deep
  have skip : ∀ project : Project, ∀ name ∈ project.disk.names (project.place ++ names),
      meaning.head? ≠ some (.name name) →
        meaningOf meaning (onward project rest (project.place ++ names) name) = [] :=
    fun project name member other =>
      meaningOf_onward_other (project.sound.isName member).ofSegment? other project rest _
  cases literal : Glob.literal? component with
  | some name =>
      simp only [Glob.offered, literal, List.flatMap_singleton] at agree ⊢
      exact agree name (List.mem_singleton_self name)
  | none =>
      -- the dots do not depend on the disk; of the names all but one are skipped
      simp only [Glob.offered, literal, List.flatMap_append] at agree ⊢
      refine congrArg₂ _ ?_ (List.flatMap_congr fun segment dotted =>
        agree segment (List.mem_append_right _ dotted))
      rw [flatMap_filter, flatMap_filter]
      apply flatMap_names_eq same
      · intro name member other
        rw [skip left name member other, ite_self]
      · intro name member other
        rw [skip right name member other, ite_self]
      · intro name member first
        split
        · rename_i matched
          exact agree name (List.mem_append_left _ (List.mem_filter.mpr ⟨member, matched⟩))
        · rfl

/-- Two stars: both sides descend through the same names. -/
theorem meaningOf_descents_eq {next : List Glob.Token} {depth : Nat}
    (stays : Glob.staysBelow depth (next :: rest)) (deep : depth ≤ names.length) :
    meaningOf meaning
        (((Glob.descents left.disk left.disk.height (left.place ++ names)).filter
          (·.getLast?.any (Glob.matchesText next))).flatMap fun front =>
            (Glob.trails left.disk rest (left.place ++ names ++ front)).map (front ++ ·)) =
      meaningOf meaning
        (((Glob.descents right.disk right.disk.height (right.place ++ names)).filter
          (·.getLast?.any (Glob.matchesText next))).flatMap fun front =>
            (Glob.trails right.disk rest (right.place ++ names ++ front)).map (front ++ ·)) := by
  rw [meaningOf_descents, meaningOf_descents, filter_descents_height_eq same]
  apply List.flatMap_congr
  intro front member
  rcases List.mem_filter.mp (List.mem_of_mem_filter member) with ⟨below, first⟩
  rcases Glob.isName_of_mem_descents right.sound below with ⟨nonempty, isName⟩
  rcases begins_iff.mp first with ⟨behind, rfl⟩
  rcases Glob.staysBelow_tail stays with ⟨next, staysNext, bound⟩
  have deeper : next ≤ (names ++ front).length := by
    have := List.length_pos_of_ne_nil nonempty
    rw [List.length_append]
    omega
  rw [meaningOf_map_append isName, meaningOf_map_append isName, List.append_assoc,
    List.append_assoc, ih staysNext deeper same.behind]

end Step

/-- Two projects that agree along the way have the same trails with a meaning, in the same
order. -/
theorem meaningOf_trails_eq (components : List (List Glob.Token)) {depth : Nat} {names : Place}
    {meaning : List Component} (stays : Glob.staysBelow depth components)
    (deep : depth ≤ names.length) (same : SameAlong left right names meaning) :
    meaningOf meaning (Glob.trails left.disk components (left.place ++ names)) =
      meaningOf meaning (Glob.trails right.disk components (right.place ++ names)) := by
  cases components with
  | nil =>
      have file := same.here.file
      unfold Project.holdsFile at file
      rw [Glob.trails, Glob.trails, file]
  | cons component rest =>
      cases stars : Glob.isDirectories component with
      | false =>
          rw [Glob.trails_cons stars, Glob.trails_cons stars, meaningOf, meaningOf,
            List.filter_flatMap, List.filter_flatMap]
          exact meaningOf_offered_eq (meaningOf_trails_eq rest) same stays deep
      | true =>
          cases rest with
          | nil => rw [Glob.trails, Glob.trails, if_pos stars, if_pos stars]
          | cons next rest =>
              rw [Glob.trails, Glob.trails, if_pos stars, if_pos stars]
              exact meaningOf_descents_eq (meaningOf_trails_eq rest) same
                (Glob.staysBelow_of_stars stars stays) deep
termination_by components.length

end Discovery
end StyleOrder
