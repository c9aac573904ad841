import StyleOrder.Proofs.Files.Segments

namespace StyleOrder
namespace Glob

/-!
# Patterns behind a base

The text of a base is put in front of a pattern before the pattern is read.  As long as no
character of the base is special, the pattern behind it is read as it is read alone, and
the components of the base are names that stand in front of its own components.
-/

/-! ## Reading -/

theorem toOption_map {ε α β : Type} (f : α → β) (result : Except ε α) :
    (f <$> result).toOption = result.toOption.map f := by
  cases result <;> rfl

/-- Whether two stars may stand behind a character. -/
def opensComponent (previous : Option Char) : Bool :=
  previous = none || previous = some '/'

/-- What a class holds, wherever it started. -/
def OpenClass.content (cls : OpenClass) : Bool × List Char :=
  (cls.negated, cls.held)

theorem OpenClass.close_of_content {cls other : OpenClass} (same : cls.content = other.content) :
    cls.close = other.close := by
  rcases cls with ⟨_, negated, held⟩
  rcases other with ⟨_, _, _⟩
  cases same
  rfl

theorem eq_none_of_content {opened : Option OpenClass}
    (same : Option.map OpenClass.content none = opened.map OpenClass.content) : opened = none :=
  Option.map_eq_none_iff.mp same.symm

/-- Two stars behind anything but a slash. -/
theorem tokens_stars_inside {previous : Option Char} (inside : opensComponent previous = false)
    (position : Nat) {after : List Char} (noStar : ∀ tail, after = '*' :: tail → False) :
    tokens position previous none ('*' :: '*' :: after) = .error ⟨position - 1, .directories⟩ := by
  have inside : ¬(decide (previous = none) || decide (previous = some '/')) = true :=
    Bool.eq_false_iff.mp inside
  match after with
  | [] => rw [tokens, if_neg inside]
  | c :: rest =>
      by_cases slash : c = '/'
      · rw [slash, tokens, if_neg inside]
      · rw [tokens.eq_7 _ _ _ noStar (by simp) (by simp [slash]), if_neg inside]

/-- Where a pattern stands shows in complaints about it only. -/
theorem toOption_tokens {position other : Nat} {previous before : Option Char}
    {cls opened : Option OpenClass} (text : List Char)
    (starts : opensComponent previous = opensComponent before)
    (same : cls.map OpenClass.content = opened.map OpenClass.content) :
    (tokens position previous cls text).toOption = (tokens other before opened text).toOption := by
  -- along the reader, which looks back only to see whether two stars begin a component
  unfold opensComponent at starts
  induction position, previous, cls, text using tokens.induct generalizing other before opened with
  | case1 position previous cls =>
      rcases Option.map_eq_some_iff.mp same.symm with ⟨cls', rfl, -⟩
      rfl
  | case2 | case5 | case13 | case15 =>
      rw [eq_none_of_content same]
      rfl
  | case3 position previous rest cls ih =>
      rcases Option.map_eq_some_iff.mp same.symm with ⟨cls', rfl, content⟩
      rw [tokens, tokens, if_pos rfl, if_pos rfl, toOption_map, toOption_map, ih rfl rfl,
        OpenClass.close_of_content content]
  | case4 position previous c rest cls goesOn ih =>
      rcases Option.map_eq_some_iff.mp same.symm with ⟨cls', rfl, content⟩
      rw [tokens, tokens, if_neg goesOn, if_neg goesOn]
      refine ih rfl (congrArg some ?_)
      simp_all [OpenClass.content]
  | case6 position previous here =>
      rw [eq_none_of_content same, tokens, tokens, if_pos here, if_pos (starts.symm.trans here)]
  | case7 position previous here rest _ ih =>
      rw [eq_none_of_content same, tokens, tokens, if_pos here, if_pos (starts.symm.trans here),
        toOption_map, toOption_map, ih rfl rfl]
  | case8 position previous after noStar here noEnd noSlash =>
      rw [eq_none_of_content same, tokens.eq_7 _ _ _ noStar noEnd noSlash,
        tokens.eq_7 _ _ _ noStar noEnd noSlash, if_pos here, if_pos (starts.symm.trans here)]
      rfl
  | case9 position previous after noStar elsewhere =>
      have inside : opensComponent previous = false := Bool.eq_false_iff.mpr elsewhere
      rw [eq_none_of_content same, tokens_stars_inside inside _ noStar,
        tokens_stars_inside (starts.symm.trans inside) _ noStar]
      rfl
  | case10 position previous rest noStars noStar ih =>
      rw [eq_none_of_content same, tokens.eq_8 _ _ _ noStars noStar,
        tokens.eq_8 _ _ _ noStars noStar, toOption_map, toOption_map, ih rfl rfl]
  | case11 position previous rest ih =>
      rw [eq_none_of_content same, tokens, tokens, toOption_map, toOption_map, ih rfl rfl]
  | case12 position previous held rest ih =>
      rw [eq_none_of_content same, tokens, tokens]
      exact ih rfl rfl
  | case14 position previous held rest noNegation noEnd ih =>
      rw [eq_none_of_content same, tokens.eq_12 _ _ _ _ noNegation noEnd,
        tokens.eq_12 _ _ _ _ noNegation noEnd]
      exact ih rfl rfl
  | case16 position previous c rest noStars noPair noStar noMark noNegation noBang noClass noEnd
      ih =>
      have read := fun position previous => tokens.eq_14 position previous c rest noStar noMark
        noStars noPair noNegation noBang noClass noEnd
      rw [eq_none_of_content same, read, read, toOption_map, toOption_map, ih rfl rfl]

/-- A character that stands for itself wherever it is in a pattern. -/
def Plain (c : Char) : Prop :=
  c ≠ '*' ∧ c ≠ '?' ∧ c ≠ '['

instance : DecidablePred Plain := fun c =>
  inferInstanceAs (Decidable (c ≠ '*' ∧ c ≠ '?' ∧ c ≠ '['))

theorem tokens_cons_plain {c : Char} (plain : Plain c) (position : Nat) (previous : Option Char)
    (rest : List Char) :
    tokens position previous none (c :: rest) =
      (.char c :: ·) <$> tokens (position + 1) (some c) none rest := by
  rcases plain with ⟨noStar, noMark, noClass⟩
  apply tokens.eq_14 <;> simp_all

/-- Characters that stand for themselves may be read apart from what follows them. -/
theorem toOption_tokens_append {front : List Char} (plain : ∀ c ∈ front, Plain c)
    (position : Nat) (previous : Option Char) (rest : List Char) :
    (tokens position previous none (front ++ rest)).toOption =
      (tokens 0 (front.getLast?.or previous) none rest).toOption.map
        (front.map Token.char ++ ·) := by
  induction front generalizing position previous with
  | nil =>
      rw [toOption_tokens rest rfl rfl]
      exact Option.map_id'.symm
  | cons c front ih =>
      have last : (c :: front).getLast?.or previous = front.getLast?.or (some c) := by
        rw [List.getLast?_cons]
        cases front.getLast? <;> rfl
      rw [List.cons_append, tokens_cons_plain (plain c List.mem_cons_self), toOption_map,
        ih (fun d member => plain d (List.mem_cons_of_mem _ member)), Option.map_map, last]
      rfl

theorem toOption_compile_of_plain {text : List Char} (plain : ∀ c ∈ text, Plain c) :
    (compile text).toOption = some (text.map .char) := by
  have read := toOption_tokens_append plain 0 none []
  rw [List.append_nil, tokens, Except.toOption, Option.map_some, List.append_nil] at read
  exact read

/-- A pattern behind a slash is read as it is read alone. -/
theorem toOption_compile_append {front : List Char} (plain : ∀ c ∈ front, Plain c)
    (slash : front.getLast? = some '/') (pattern : List Char) :
    (compile (front ++ pattern)).toOption =
      (compile pattern).toOption.map (front.map Token.char ++ ·) := by
  rw [compile, toOption_tokens_append plain, slash, compile]
  exact congrArg _ (toOption_tokens pattern rfl rfl)

theorem mem_of_cons_map {token other : Token} {result : Except Error (List Token)}
    {read : List Token} (success : (token :: ·) <$> result = .ok read) (member : other ∈ read) :
    other = token ∨ ∃ rest, result = .ok rest ∧ other ∈ rest := by
  cases result with
  | error error => cases success
  | ok rest =>
      cases success
      exact (List.mem_cons.mp member).imp_right fun member => ⟨rest, rfl, member⟩

/-- A character that stands for itself is one of the pattern. -/
theorem mem_of_char_mem_tokens {position : Nat} {previous : Option Char} {cls : Option OpenClass}
    {text : List Char} {read : List Token} {c : Char}
    (success : tokens position previous cls text = .ok read) (member : Token.char c ∈ read) :
    c ∈ text := by
  induction position, previous, cls, text using tokens.induct generalizing read with
  | case1 | case5 | case13 | case15 => cases success
  | case2 =>
      cases success
      cases member
  | case3 position previous rest cls ih =>
      rw [tokens, if_pos rfl] at success
      rcases mem_of_cons_map success member with closed | ⟨others, readRest, member⟩
      · unfold OpenClass.close at closed
        split at closed <;> cases closed
      · exact List.mem_cons_of_mem _ (ih readRest member)
  | case4 position previous c rest cls goesOn ih =>
      rw [tokens, if_neg goesOn] at success
      exact List.mem_cons_of_mem _ (ih success member)
  | case6 position previous here =>
      rw [tokens, if_pos here] at success
      cases success
      simp at member
  | case7 position previous here rest _ ih =>
      rw [tokens, if_pos here] at success
      rcases mem_of_cons_map success member with eq | ⟨others, readRest, member⟩
      · cases eq
      · simp [ih readRest member]
  | case8 position previous after noStar here noEnd noSlash =>
      rw [tokens.eq_7 _ _ _ noStar noEnd noSlash, if_pos here] at success
      cases success
  | case9 position previous after noStar elsewhere =>
      rw [tokens_stars_inside (Bool.eq_false_iff.mpr elsewhere) _ noStar] at success
      cases success
  | case10 position previous rest noStars noStar ih =>
      rw [tokens.eq_8 _ _ _ noStars noStar] at success
      rcases mem_of_cons_map success member with eq | ⟨others, readRest, member⟩
      · cases eq
      · exact List.mem_cons_of_mem _ (ih readRest member)
  | case11 position previous rest ih =>
      rw [tokens] at success
      rcases mem_of_cons_map success member with eq | ⟨others, readRest, member⟩
      · cases eq
      · exact List.mem_cons_of_mem _ (ih readRest member)
  | case12 position previous held rest ih =>
      rw [tokens] at success
      simp [ih success member]
  | case14 position previous held rest noNegation noEnd ih =>
      rw [tokens.eq_12 _ _ _ _ noNegation noEnd] at success
      simp [ih success member]
  | case16 position previous d rest noStars noPair noStar noMark noNegation noBang noClass noEnd
      ih =>
      rw [tokens.eq_14 position previous d rest noStar noMark noStars noPair noNegation noBang
        noClass noEnd] at success
      rcases mem_of_cons_map success member with eq | ⟨others, readRest, member⟩
      · cases eq
        exact List.mem_cons_self
      · exact List.mem_cons_of_mem _ (ih readRest member)

/-! ## Components -/

theorem trunk_cons_slash (rest : List Char) :
    Path.trunk ('/' :: rest) = [] :: Path.trunk rest := by
  have nonempty := Path.segments_ne_nil rest
  rw [Path.trunk, Path.segments_cons_slash, List.getLast?_cons_of_ne_nil nonempty,
    List.dropLast_cons_of_ne_nil nonempty, Path.trunk]
  split <;> rfl

theorem trunk_eq_cons {path : Path} (absolute : path.isAbsolute) :
    Path.trunk path.text = [] :: componentTexts path.text := by
  rcases path with ⟨_ | ⟨c, rest⟩⟩
  · cases absolute
  · obtain rfl : c = '/' := by simpa [Path.isAbsolute] using absolute
    rw [componentTexts, trunk_cons_slash]

theorem componentTexts_join {base path : Path} (absolute : base.isAbsolute)
    (relative : path.isAbsolute = false) :
    componentTexts (base.join path).text = componentTexts base.text ++ Path.trunk path.text := by
  have parts := Path.trunk_join absolute relative
  rw [trunk_eq_cons (Path.isAbsolute_join path absolute), trunk_eq_cons absolute] at parts
  exact (List.cons.inj parts).2

theorem mapM_toOption {ε α β : Type} (f : α → Except ε β) (values : List α) :
    (values.mapM f).toOption = values.mapM fun value => (f value).toOption := by
  induction values with
  | nil => rfl
  | cons value rest ih =>
      rw [List.mapM_cons, List.mapM_cons, ← ih]
      cases f value with
      | error error => rfl
      | ok first => cases rest.mapM f <;> rfl

theorem mapM_compile_of_plain {texts : List (List Char)}
    (plain : ∀ text ∈ texts, ∀ c ∈ text, Plain c) :
    (texts.mapM fun text => (compile text).toOption) = some (texts.map (·.map Token.char)) := by
  induction texts with
  | nil => rfl
  | cons text rest ih =>
      rw [List.mapM_cons, toOption_compile_of_plain (plain text List.mem_cons_self),
        ih fun other member => plain other (List.mem_cons_of_mem _ member)]
      rfl

theorem isDirectories_map_char (text : List Char) : isDirectories (text.map .char) = false := by
  cases text <;> simp [isDirectories]

theorem collapse_append_literals (texts : List (List Char)) (rest : List (List Token)) :
    collapse (texts.map (·.map Token.char) ++ rest) =
      texts.map (·.map Token.char) ++ collapse rest := by
  induction texts with
  | nil => rfl
  | cons text texts ih =>
      rw [List.map_cons, List.cons_append, List.cons_append, ← ih]
      cases texts.map (·.map Token.char) ++ rest with
      | nil => rfl
      | cons second others => rw [collapse, isDirectories_map_char]; rfl

/-- The components of a pattern that is relative to a base, if it can be read. -/
def components? (pattern : List Char) : Option (List (List Token)) :=
  (compile pattern).toOption.bind fun _ =>
    ((Path.trunk pattern).mapM fun text => (compile text).toOption).map collapse

theorem exists_of_mem_mapM {α β : Type} {f : α → Option β} {values : List α} {results : List β}
    (success : values.mapM f = some results) {result : β} (member : result ∈ results) :
    ∃ value ∈ values, f value = some result := by
  induction values generalizing results with
  | nil =>
      cases success
      cases member
  | cons value rest ih =>
      rw [List.mapM_cons] at success
      rcases Option.bind_eq_some_iff.mp success with ⟨first, found, success⟩
      rcases Option.bind_eq_some_iff.mp success with ⟨others, foundOthers, success⟩
      cases success
      rcases List.mem_cons.mp member with rfl | member
      · exact ⟨value, List.mem_cons_self, found⟩
      · rcases ih foundOthers member with ⟨other, known, found⟩
        exact ⟨other, List.mem_cons_of_mem _ known, found⟩

theorem mem_of_mem_collapse {component : List Token} {components : List (List Token)}
    (member : component ∈ collapse components) : component ∈ components := by
  fun_induction collapse components with
  | case1 first second rest both ih => exact List.mem_cons_of_mem _ (ih member)
  | case2 first second rest both ih =>
      rcases List.mem_cons.mp member with rfl | member
      · exact List.mem_cons_self
      · exact List.mem_cons_of_mem _ (ih member)
  | case3 => exact member

/-- No component holds a slash. -/
theorem slash_not_mem_of_components? {pattern : List Char} {components : List (List Token)}
    (read : components? pattern = some components) {component : List Token}
    (member : component ∈ components) : Token.char '/' ∉ component := by
  rcases Option.bind_eq_some_iff.mp read with ⟨_, -, read⟩
  rcases Option.map_eq_some_iff.mp read with ⟨all, compiled, rfl⟩
  rcases exists_of_mem_mapM compiled (mem_of_mem_collapse member) with ⟨text, known, compiled⟩
  intro slash
  have inText : '/' ∈ text := by
    cases success : compile text with
    | error error =>
        rw [success] at compiled
        cases compiled
    | ok read =>
        rw [success] at compiled
        cases compiled
        exact mem_of_char_mem_tokens success slash
  exact (Path.of_mem_segments (Path.mem_segments_of_mem_trunk known)).2 inText

theorem literal?_eq_some_iff {component : List Token} {name : List Char} :
    literal? component = some name ↔ component = name.map .char := by
  constructor
  · intro literal
    induction component generalizing name with
    | nil =>
        cases literal
        rfl
    | cons token rest ih =>
        rw [literal?, List.mapM_cons] at literal
        rcases Option.bind_eq_some_iff.mp literal with ⟨first, here, literal⟩
        rcases Option.bind_eq_some_iff.mp literal with ⟨others, there, literal⟩
        cases literal
        cases token with
        | char c =>
            cases here
            rw [ih there, List.map_cons]
        | _ => cases here
  · rintro rfl
    induction name with
    | nil => rfl
    | cons c rest ih =>
        rw [List.map_cons, literal?, List.mapM_cons, ← literal?, ih]
        rfl

/-! ## Expansion below a base -/

/-- The paths that components lead to from a path, or only the directories among them. -/
def expandOnly (disk : Disk) (start : Path) (directories : Bool) (components : List (List Token)) :
    List Path :=
  let found := expandFrom disk components start
  if directories then found.filter disk.isDirectory else found

theorem toOption_expand (disk : Disk) (pattern : List Char) :
    (expand disk pattern).toOption = (compile pattern).toOption.bind fun _ =>
      ((componentTexts pattern).mapM fun text => (compile text).toOption).map fun components =>
        expandOnly disk (origin pattern) (pattern.getLast? = some '/') (collapse components) := by
  rw [← mapM_toOption, expand]
  cases compile pattern with
  | error error => rfl
  | ok tokens =>
      cases (componentTexts pattern).mapM compile with
      | error error => rfl
      | ok components => simp [expandOnly, Except.toOption, bind, Except.bind, pure, Except.pure]

/-- What a relative pattern finds is named without the directory that it starts from. -/
example :
    let disk : Disk := Disk.put {} (.ofString "/s/a.sass") (.file .empty)
    (expand disk "./*/a.sass".toList).toOption = some [.ofString "s/a.sass"] := by
  decide +kernel

end Glob

theorem Path.join_text {base : Path} (absolute : base.isAbsolute) {path : Path}
    (relative : path.isAbsolute = false) :
    ∃ front, (base.join path).text = front ++ path.text ∧ front.getLast? = some '/' ∧
      ∀ c ∈ front, c ∈ base.text ∨ c = '/' := by
  rcases List.eq_nil_or_concat' base.text with empty | ⟨front, c, text⟩
  · exact absurd empty (text_ne_nil absolute)
  · rw [join, if_neg (by simp [relative]), text, List.getLast?_concat]
    by_cases slash : c = '/'
    · subst slash
      exact ⟨front ++ ['/'], rfl, by simp, fun d member => .inl member⟩
    · refine ⟨front ++ [c] ++ ['/'], by simp [slash], by simp, fun d member => ?_⟩
      simpa [or_assoc] using member

namespace Glob

/-- Whether a relative pattern asks for directories: if it ends in a slash, or is nothing
behind the slash that follows the base. -/
def asksDirectories (pattern : List Char) : Bool :=
  pattern.getLast?.or (some '/') = some '/'

/-- The components of a base stand in front of those of the pattern, and each of them leads
to one name. -/
theorem toOption_expand_join (disk : Disk) {base : Path} (absolute : base.isAbsolute)
    (plain : ∀ c ∈ base.text, Plain c) {pattern : List Char}
    (relative : Path.isAbsolute ⟨pattern⟩ = false) :
    (expand disk (base.join ⟨pattern⟩).text).toOption =
      (components? pattern).map fun components =>
        expandOnly disk ⟨['/']⟩ (asksDirectories pattern)
          ((componentTexts base.text).map (·.map Token.char) ++ components) := by
  rcases Path.join_text absolute relative with ⟨front, text, slash, known⟩
  have frontPlain : ∀ c ∈ front, Plain c := fun c member =>
    (known c member).elim (plain c) fun eq => eq ▸ by decide
  have textsPlain : ∀ part ∈ componentTexts base.text, ∀ c ∈ part, Plain c := by
    intro part member c inside
    have knownPart : part ∈ Path.trunk base.text := by
      rw [trunk_eq_cons absolute]
      exact List.mem_cons_of_mem _ member
    exact plain c ((Path.of_mem_segments (Path.mem_segments_of_mem_trunk knownPart)).1 inside)
  have root : origin (base.join ⟨pattern⟩).text = ⟨['/']⟩ :=
    if_pos (Path.isAbsolute_join ⟨pattern⟩ absolute)
  rw [toOption_expand, root, componentTexts_join absolute relative, List.mapM_append,
    mapM_compile_of_plain textsPlain, text, toOption_compile_append frontPlain slash,
    List.getLast?_append, slash, components?]
  cases (compile pattern).toOption with
  | none => rfl
  | some tokens =>
      cases (Path.trunk pattern).mapM fun text => (compile text).toOption with
      | none => rfl
      | some components =>
          exact congrArg (fun components => some (expandOnly disk _ _ components))
            (collapse_append_literals (componentTexts base.text) components)

end Glob
end StyleOrder
