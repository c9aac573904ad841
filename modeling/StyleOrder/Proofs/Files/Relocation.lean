import StyleOrder.Proofs.Files.Agreement

namespace StyleOrder

/-!
# Projects in other directories

Discovery puts the text of the base in front of each pattern.  If no character of that text
is special in patterns, its components only lead to the base, and what is found below it
depends on the files below it alone.  A base whose name holds a special character is
not found under its own name.
-/

namespace Glob

/-- Components that cannot step up lead through names to a file. -/
theorem Leads.exists_names {disk : Disk} (sound : disk.Sound) {components : List (List Token)}
    (direct : ∀ component ∈ components, ¬climbs component) {place : Place}
    {trail : List (List Char)} (leads : Leads disk components place trail) :
    ∃ names : Place, Path.steps trail = names.map .name ∧
      (disk.content? (place ++ names)).isSome := by
  induction leads with
  | file file => exact ⟨[], rfl, by rwa [List.append_nil]⟩
  | @segment component rest place segment next trail offer followed onward ih =>
      rcases ih fun other member => direct other (List.mem_cons_of_mem _ member) with
        ⟨names, means, file⟩
      rcases Disk.follow_eq_ok_iff.mp followed with ⟨-, -, rfl⟩
      have down : segment ≠ ['.', '.'] := fun up =>
        direct component List.mem_cons_self (climbs_of_offered sound offer up)
      cases idle : Path.idle segment with
      | true =>
          refine ⟨names, ?_, by simpa [Disk.step, idle] using file⟩
          rw [Path.steps, List.filterMap_cons_none (Path.ofSegment?_of_idle idle)]
          exact means
      | false =>
          have meaning : Path.Component.ofSegment? segment = some (.name segment) := by
            simp [Path.Component.ofSegment?, idle, down]
          refine ⟨segment :: names, ?_, by simpa [Disk.step, idle, down] using file⟩
          rw [Path.steps, List.filterMap_cons_some meaning, List.map_cons]
          exact congrArg _ means
  | @descent component next rest place front trail below onward ih =>
      rcases ih fun other member => direct other (by simp [member]) with ⟨names, means, file⟩
      refine ⟨front ++ names, ?_, by rwa [← List.append_assoc]⟩
      rw [Path.steps_append, Path.steps_of_isName (isName_of_mem_descents sound below).2, means,
        List.map_append]

end Glob

namespace Discovery

open StyleOrder.Path

/-! ## One pattern -/

/-- A relative pattern that does not lead out of the base. -/
def inside (pattern : String) : Bool :=
  !(Path.ofString pattern).isAbsolute &&
    (Glob.components? pattern.toList).all (Glob.staysBelow 0)

/-- A pattern that never steps up. -/
def direct (pattern : String) : Bool :=
  (Glob.components? pattern.toList).all fun components => components.all (!Glob.climbs ·)

theorem filter_map_shown {trails : List (List (List Char))}
    (free : ∀ trail ∈ trails, ∀ segment ∈ trail, '/' ∉ segment) (meaning : List Component) :
    (trails.map shown).filter (·.components = meaning) = (meaningOf meaning trails).map shown := by
  rw [List.filter_map, meaningOf]
  refine congrArg _ (List.filter_congr fun trail member => ?_)
  exact congrArg (fun components => decide (components = meaning))
    (components_shown (free trail member))

section Pattern

variable {left right : Project} {components : List (List Glob.Token)}

/-- What a pattern leads to below two bases with the same files. -/
theorem meaningOf_trails_of_files
    (files : ∀ names, left.holdsFile names = right.holdsFile names)
    (stays : Glob.staysBelow 0 components)
    (folders : (∀ component ∈ components, ¬Glob.climbs component) ∨
      ∀ names, left.hasDirectory names = right.hasDirectory names)
    (meaning : List Component) :
    meaningOf meaning (Glob.trails left.disk components left.place) =
      meaningOf meaning (Glob.trails right.disk components right.place) := by
  have agree : ∀ {meaning}, SameAlong left right [] meaning →
      meaningOf meaning (Glob.trails left.disk components left.place) =
        meaningOf meaning (Glob.trails right.disk components right.place) := by
    intro meaning same
    have agree := meaningOf_trails_eq components stays (Nat.zero_le _) same
    rwa [List.append_nil, List.append_nil] at agree
  rcases folders with never | folders
  · -- only directories on the way to a file matter
    by_cases reached : ∃ names : Place, meaning = names.map .name ∧ left.holdsFile names
    · rcases reached with ⟨names, rfl, file⟩
      exact agree (sameAlong_of_file files file)
    · have none : ∀ project : Project, (∀ names, project.holdsFile names = left.holdsFile names) →
          meaningOf meaning (Glob.trails project.disk components project.place) = [] := by
        intro project same
        rw [meaningOf, List.filter_eq_nil_iff]
        intro trail member means
        rcases (Glob.leads_of_mem_trails member).exists_names project.sound never with
          ⟨names, named, file⟩
        exact reached ⟨names, (of_decide_eq_true means).symm.trans named, same names ▸ file⟩
      rw [none left fun _ => rfl, none right fun names => (files names).symm]
  · exact agree (sameAlong_of_forall (fun names => ⟨folders names, files names⟩) [] meaning)

end Pattern

/-! ## Below a base -/

namespace Project

variable (project : Project)

/-- The base as expansion writes it, one component after the other from the root. -/
def start : Path :=
  Path.extend ⟨['/']⟩ (Glob.componentTexts project.base.text)

theorem componentTexts_slash_free :
    ∀ segment ∈ Glob.componentTexts project.base.text, '/' ∉ segment := by
  intro segment member
  have known : segment ∈ trunk project.base.text := by
    rw [Glob.trunk_eq_cons project.absolute]
    exact List.mem_cons_of_mem _ member
  exact (of_mem_segments (mem_segments_of_mem_trunk known)).2

theorem isAbsolute_start : project.start.isAbsolute :=
  isAbsolute_extend rfl _

theorem components_start : project.start.components = project.base.components := by
  rw [start, components_extend rfl project.componentTexts_slash_free,
    components_of_isAbsolute project.absolute, Glob.trunk_eq_cons project.absolute]
  rfl

theorem walk_componentTexts :
    project.disk.walk [] (Glob.componentTexts project.base.text) = .ok project.place := by
  have located := project.located
  rw [Disk.locate, if_neg (text_ne_nil project.absolute)] at located
  rcases segments_eq_trunk project.base.text with parts | parts
  · rw [parts, Glob.trunk_eq_cons project.absolute] at located
    exact located
  · -- the base ends in a slash, and the empty segment behind it does not move
    rw [parts, Glob.trunk_eq_cons project.absolute] at located
    change project.disk.walk [] (Glob.componentTexts project.base.text ++ [[]]) = _ at located
    rw [Disk.walk, List.foldlM_append, ← Disk.walk] at located
    cases walked : project.disk.walk [] (Glob.componentTexts project.base.text) with
    | error cause =>
        rw [walked] at located
        cases located
    | ok place =>
        rw [walked] at located
        have followed : (project.disk.follow place [] >>= pure) = .ok project.place := located
        rw [bind_pure] at followed
        rcases Disk.follow_eq_ok_iff.mp followed with ⟨-, -, there⟩
        rw [there]
        rfl

theorem locate_start : project.disk.locate project.start = .ok project.place := by
  rw [start, Disk.locate_extend rfl project.componentTexts_slash_free]
  exact project.walk_componentTexts

end Project

/-- What a pattern contributes below a base, by trails. -/
def contribution (project : Project) (exclusions : List (List Glob.Token)) (pattern : List Char)
    (components : List (List Glob.Token)) : List Path :=
  if Glob.asksDirectories pattern then []
  else
    ((Glob.trails project.disk components project.place).map shown).filter fun path =>
      !excluded exclusions path

theorem toOption_enumerate (disk : Disk) (base : Path) (pattern : String) :
    (enumerate disk base pattern).toOption =
      (Glob.expand disk (base.join ⟨pattern.toList⟩).text).toOption := by
  rw [enumerate, Path.ofString]
  cases Glob.expand disk (base.join ⟨pattern.toList⟩).text <;> rfl

theorem filter_expandFrom_start (project : Project) {components : List (List Glob.Token)}
    (free : ∀ component ∈ components, Glob.Token.char '/' ∉ component) :
    (((Glob.expandFrom project.disk components project.start).filter project.disk.isFile).map
        (relative project.base)) =
      (Glob.trails project.disk components project.place).map shown := by
  rw [Glob.filter_expandFrom project.sound project.isAbsolute_start project.locate_start
    components free, List.map_map]
  apply List.map_congr_left
  intro trail member
  exact relative_extend project.isAbsolute_start project.components_start
    ((Glob.leads_of_mem_trails member).slash_free project.sound free)

/-- The text of a plain base does not show in what a pattern contributes. -/
theorem toOption_select_enumerate (project : Project)
    (plain : ∀ c ∈ project.base.text, Glob.Plain c) (exclusions : List (List Glob.Token))
    {pattern : String} (relative : (Path.ofString pattern).isAbsolute = false) :
    (select project.disk project.base exclusions <$>
        enumerate project.disk project.base pattern).toOption =
      (Glob.components? pattern.toList).map
        (contribution project exclusions pattern.toList) := by
  rw [Glob.toOption_map, toOption_enumerate,
    Glob.toOption_expand_join project.disk project.absolute plain relative, Option.map_map]
  cases read : Glob.components? pattern.toList with
  | none => rfl
  | some components =>
      have free : ∀ component ∈ components, Glob.Token.char '/' ∉ component :=
        fun _ => Glob.slash_not_mem_of_components? read
      refine congrArg some ?_
      simp only [Function.comp_apply, Glob.expandOnly, contribution]
      rw [Glob.expandFrom_literals project.sound rfl rfl project.walk_componentTexts
        project.componentTexts_slash_free, ← Project.start]
      split
      · rw [select, Glob.filter_isFile_isDirectory project.sound]
        rfl
      · rw [select, filter_expandFrom_start project free]

/-! ## All patterns -/

theorem toOption_discover (disk : Disk) (base : Path) (patterns exclusions : List String) :
    (discover disk base patterns exclusions).toOption =
      (compileExclusions exclusions).toOption.bind fun exclusions =>
        (patterns.mapM fun pattern =>
          (select disk base exclusions <$> enumerate disk base pattern).toOption).map
            fun found => sort found.flatten := by
  rw [discover]
  cases compileExclusions exclusions with
  | error error => rfl
  | ok exclusions =>
      change _ = (patterns.mapM fun pattern =>
        (select disk base exclusions <$> enumerate disk base pattern).toOption).map _
      rw [← Glob.mapM_toOption]
      change Except.toOption (patterns.mapM _ >>= fun found => pure (sort found.flatten)) = _
      cases patterns.mapM fun pattern =>
        select disk base exclusions <$> enumerate disk base pattern <;> rfl

theorem mapM_congr {α β : Type} {f g : α → Option β} {values : List α}
    (same : ∀ value ∈ values, f value = g value) : values.mapM f = values.mapM g := by
  induction values with
  | nil => rfl
  | cons value rest ih =>
      rw [List.mapM_cons, List.mapM_cons, same value List.mem_cons_self,
        ih fun other member => same other (List.mem_cons_of_mem _ member)]

theorem mapM_map {α β γ : Type} (read : α → Option β) (f : β → γ) (values : List α) :
    (values.mapM fun value => (read value).map f) = (values.mapM read).map (List.map f) := by
  induction values with
  | nil => rfl
  | cons value rest ih =>
      rw [List.mapM_cons, List.mapM_cons, ih]
      cases read value with
      | none => rfl
      | some first => cases rest.mapM read <;> rfl

/-- A pattern and its components. -/
def read? (pattern : String) : Option (List Char × List (List Glob.Token)) :=
  (Glob.components? pattern.toList).map (pattern.toList, ·)

/-- What all patterns find below a plain base. -/
theorem toOption_discover_of_plain (project : Project)
    (plain : ∀ c ∈ project.base.text, Glob.Plain c) {patterns : List String}
    (inside : ∀ pattern ∈ patterns, inside pattern) (exclusions : List String) :
    (discover project.disk project.base patterns exclusions).toOption =
      (compileExclusions exclusions).toOption.bind fun exclusions =>
        (patterns.mapM read?).map fun routes => sort <| List.flatten <|
          routes.map fun route => contribution project exclusions route.1 route.2 := by
  rw [toOption_discover]
  refine congrArg _ (funext fun exclusions => ?_)
  have each : (patterns.mapM fun pattern =>
      (select project.disk project.base exclusions <$>
        enumerate project.disk project.base pattern).toOption) =
      patterns.mapM fun pattern => (read? pattern).map fun route =>
        contribution project exclusions route.1 route.2 := by
    apply mapM_congr
    intro pattern member
    have relative : (Path.ofString pattern).isAbsolute = false := by
      simpa using (Bool.and_eq_true_iff.mp (inside pattern member)).1
    rw [toOption_select_enumerate project plain exclusions relative, read?, Option.map_map]
    rfl
  rw [each, mapM_map, Option.map_map]
  rfl

/-- What a pattern contributes below two bases with the same files. -/
theorem contribution_alike {left right : Project}
    (files : ∀ names, left.holdsFile names = right.holdsFile names)
    {pattern : String} (inside : inside pattern)
    (folders : direct pattern ∨ ∀ names, left.hasDirectory names = right.hasDirectory names)
    {components : List (List Glob.Token)}
    (read : Glob.components? pattern.toList = some components)
    (exclusions : List (List Glob.Token)) :
    Alike (contribution left exclusions pattern.toList components)
      (contribution right exclusions pattern.toList components) := by
  rw [Discovery.inside, read, Bool.and_eq_true] at inside
  have free : ∀ component ∈ components, Glob.Token.char '/' ∉ component :=
    fun _ => Glob.slash_not_mem_of_components? read
  have noClimb : (∀ component ∈ components, ¬Glob.climbs component) ∨
      ∀ names, left.hasDirectory names = right.hasDirectory names := by
    refine folders.imp_left fun never => ?_
    simpa [direct, read] using never
  unfold contribution
  split
  · exact fun _ => rfl
  · refine Alike.filter (fun meaning => ?_) _
    rw [filter_map_shown fun trail member =>
        (Glob.leads_of_mem_trails member).slash_free left.sound free,
      filter_map_shown fun trail member =>
        (Glob.leads_of_mem_trails member).slash_free right.sound free,
      meaningOf_trails_of_files files inside.2 noClimb]

/-- Discovery does not depend on where a project lives.  Two bases are given by absolute
paths without characters that are special in patterns, and below them there are the same
files.  Then relative patterns that stay below the base find the same files, or fail on both
sides, whatever is excluded.  If a pattern steps up, the directories it steps up
from have to be the same as well. -/
theorem discover_relocated (left right : Project)
    (leftPlain : ∀ c ∈ left.base.text, Glob.Plain c)
    (rightPlain : ∀ c ∈ right.base.text, Glob.Plain c)
    (files : ∀ names, left.holdsFile names = right.holdsFile names)
    (patterns exclusions : List String) (inside : ∀ pattern ∈ patterns, inside pattern)
    (folders : (∀ pattern ∈ patterns, direct pattern) ∨
      ∀ names, left.hasDirectory names = right.hasDirectory names) :
    (discover left.disk left.base patterns exclusions).toOption =
      (discover right.disk right.base patterns exclusions).toOption := by
  rw [toOption_discover_of_plain left leftPlain inside,
    toOption_discover_of_plain right rightPlain inside]
  refine congrArg _ (funext fun exclusions => ?_)
  cases routes : patterns.mapM read? with
  | none => rfl
  | some found =>
      refine congrArg some (Alike.sort_eq (Alike.flatten ?_))
      rw [List.forall₂_map_left_iff, List.forall₂_map_right_iff, List.forall₂_same]
      intro route member
      rcases Glob.exists_of_mem_mapM routes member with ⟨pattern, known, read⟩
      rcases Option.map_eq_some_iff.mp read with ⟨components, compiled, rfl⟩
      exact contribution_alike files (inside pattern known)
        (folders.imp_left fun never => never pattern known) compiled exclusions

/-! ## Three places for the same sheets -/

/-- A disk that has two sheets in three directories.  In the second of these they are listed
in another order, beside an empty directory. -/
def sheets : Disk where
  items :=
    [(["p".toList, "s".toList, "y.sass".toList], .file .empty),
      (["p".toList, "x.sass".toList], .file .empty),
      (["q]".toList, "r".toList, "x.sass".toList], .file .empty),
      (["q]".toList, "r".toList, "t".toList], .directory),
      (["q]".toList, "r".toList, "s".toList, "y.sass".toList], .file .empty),
      (["a[1]".toList, "s".toList, "y.sass".toList], .file .empty),
      (["a[1]".toList, "x.sass".toList], .file .empty)]

theorem sheets_sound : sheets.Sound where
  named := by decide +kernel
  leaves := by
    intro place content member
    simp only [sheets, List.mem_cons, Prod.mk.injEq, Item.file.injEq, reduceCtorEq, and_false,
      List.not_mem_nil, or_false, false_or] at member
    rcases member with ⟨rfl, -⟩ | ⟨rfl, -⟩ | ⟨rfl, -⟩ | ⟨rfl, -⟩ | ⟨rfl, -⟩ | ⟨rfl, -⟩ <;>
      decide +kernel

def shallow : Project where
  disk := sheets
  sound := sheets_sound
  base := .ofString "/p"
  absolute := by decide +kernel
  place := ["p".toList]
  located := by rfl
  directory := by decide +kernel

def nested : Project where
  disk := sheets
  sound := sheets_sound
  base := .ofString "/q]/r"
  absolute := by decide +kernel
  place := ["q]".toList, "r".toList]
  located := by rfl
  directory := by decide +kernel

/-- The name of this directory reads as a class in a pattern. -/
def bracketed : Project where
  disk := sheets
  sound := sheets_sound
  base := .ofString "/a[1]"
  absolute := by decide +kernel
  place := ["a[1]".toList]
  located := by rfl
  directory := by decide +kernel

/-- A closing bracket in a base does no harm, and neither does a directory that only one
side has. -/
theorem discover_relocated_nested :
    (∀ c ∈ shallow.base.text, Glob.Plain c) ∧ (∀ c ∈ nested.base.text, Glob.Plain c) ∧
      (∀ names, shallow.holdsFile names = nested.holdsFile names) ∧
      shallow.hasDirectory ["t".toList] ≠ nested.hasDirectory ["t".toList] ∧
      inside "**/*.sass" ∧ direct "**/*.sass" ∧
      (discover nested.disk nested.base ["**/*.sass"] ["s/z*"]).toOption =
        some [.ofString "s/y.sass", .ofString "x.sass"] := by
  have plain : ∀ project : Project, project.base.text.all (fun c => decide (Glob.Plain c)) →
      ∀ c ∈ project.base.text, Glob.Plain c :=
    fun project all c member => of_decide_eq_true (List.all_eq_true.mp all c member)
  have shallowPlain := plain shallow (by decide +kernel)
  have nestedPlain := plain nested (by decide +kernel)
  have files : ∀ names, shallow.holdsFile names = nested.holdsFile names := by
    intro names
    rw [Bool.eq_iff_iff, Project.holdsFile, Project.holdsFile, Disk.isSome_content?_iff,
      Disk.isSome_content?_iff]
    simp [shallow, nested, sheets, or_comm]
  have inside : inside "**/*.sass" := by decide +kernel
  have direct : direct "**/*.sass" := by decide +kernel
  have found : (discover shallow.disk shallow.base ["**/*.sass"] ["s/z*"]).toOption =
      some [.ofString "s/y.sass", .ofString "x.sass"] := by decide +kernel
  refine ⟨shallowPlain, nestedPlain, files, by decide +kernel, inside, direct, ?_⟩
  rw [← found]
  exact (discover_relocated shallow nested shallowPlain nestedPlain files _ _
    (by simpa using inside) (.inl (by simpa using direct))).symm

/-- A base whose name reads as a class finds none of its files. -/
theorem discover_bracketed :
    (∀ names, bracketed.holdsFile names = shallow.holdsFile names) ∧
      (∀ names, bracketed.hasDirectory names = shallow.hasDirectory names) ∧
      inside "**/*.sass" ∧ direct "**/*.sass" ∧
      (discover bracketed.disk bracketed.base ["**/*.sass"] []).toOption = some [] ∧
      (discover shallow.disk shallow.base ["**/*.sass"] []).toOption =
        some [.ofString "s/y.sass", .ofString "x.sass"] := by
  refine ⟨fun names => ?_, fun names => ?_, ?_⟩
  · rw [Bool.eq_iff_iff, Project.holdsFile, Project.holdsFile, Disk.isSome_content?_iff,
      Disk.isSome_content?_iff]
    simp [shallow, bracketed, sheets]
  · simp [Project.hasDirectory, Disk.isDirectoryAt, shallow, bracketed, sheets,
      List.isPrefixOf_cons_cons]
  · decide +kernel

end Discovery
end StyleOrder
